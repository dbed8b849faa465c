import BumpArena.Proofs.Journal.Generation

/-!
# The sweep sees what the scan sees

Two walks go over the same bytes.  The scan goes from record to record and stops at the first slot
that it cannot follow; the sweep looks at every slot.  Opening a journal asks both for a generation
and continues above the greater one.

`highestGeneration_dominates` says that the sweep alone would do.  What it answers is the greatest
generation of all intact records in slots (`isHighest_highestGeneration`), what the scan reports is
the greatest one of the records that it yields (`isHighest_report`), and these are among the former,
because a record that starts at a slot ends where another one starts (`slot_of_mem_records`).
-/

namespace BumpArena.Journal

/-! ## The greatest of some generations -/

/-- The greatest of the generations that have a property: one of them, and none is above it.  Where
no generation has the property there is none. -/
def IsHighest (p : UInt32 → Prop) : Option UInt32 → Prop
  | none => ∀ g, ¬ p g
  | some m => p m ∧ ∀ g, p g → g ≤ m

section IsHighest

variable {p q : UInt32 → Prop} {x y : Option UInt32}

/-- What is reached and not exceeded is the greatest. -/
lemma isHighest_of_forall (hreached : ∀ m ∈ x, p m) (hle : ∀ g, p g → ∃ m ∈ x, g ≤ m) :
    IsHighest p x := by
  cases x with
  | none =>
    intro g hg
    obtain ⟨m, hm, -⟩ := hle g hg
    cases hm
  | some m =>
    refine ⟨hreached m rfl, fun g hg => ?_⟩
    obtain ⟨k, hk, hgk⟩ := hle g hg
    obtain rfl : m = k := Option.some.inj hk
    exact hgk

/-- The greatest of fewer generations is no greater. -/
lemma IsHighest.exists_le (hx : IsHighest p x) (hy : IsHighest q y) (hpq : ∀ g, p g → q g) :
    ∀ g ∈ x, ∃ m ∈ y, g ≤ m := by
  rintro g rfl
  have hg := hpq g hx.1
  cases y with
  | none => exact absurd hg (hy g)
  | some m => exact ⟨m, rfl, hy.2 g hg⟩

end IsHighest

/-- The greater of two generations is the second one, when the first is not above it. -/
lemma newer_eq_right {x y : Option UInt32} (h : ∀ g ∈ x, ∃ m ∈ y, g ≤ m) : newer x y = y := by
  cases x with
  | none => rfl
  | some g =>
    obtain ⟨m, rfl, hle⟩ := h g rfl
    rw [newer]
    split
    · rfl
    · next hlt => rw [UInt32.le_antisymm hle (UInt32.not_lt.1 hlt)]

/-! ## The two walks -/

variable {b : Buffer} {r : Record} {g : UInt32}

/-- An intact record in a slot of the journal has the generation. -/
def InSlot (b : Buffer) (g : UInt32) : Prop :=
  ∃ r : Record, r.Intact b ∧ 64 ∣ r.offset ∧ r.header.generation = g

lemma inSlot_iff : InSlot b g ↔ ∃ offset, 64 ∣ offset ∧ generationAt b offset = some g := by
  constructor
  · rintro ⟨r, hintact, hdvd, hg⟩
    exact ⟨r.offset, hdvd, generationAt_eq_some_iff_intact.2 ⟨r, hintact, rfl, hg⟩⟩
  · rintro ⟨offset, hdvd, hoffset⟩
    obtain ⟨r, hintact, rfl, hg⟩ := generationAt_eq_some_iff_intact.1 hoffset
    exact ⟨r, hintact, hdvd, hg⟩

/-- **What the sweep answers** is the greatest generation of all intact records in slots. -/
lemma isHighest_highestGeneration (b : Buffer) : IsHighest (InSlot b) (highestGeneration b) := by
  refine isHighest_of_forall (fun m hm => ?_) (fun g hg => ?_)
  · obtain ⟨slot, hslot⟩ := exists_of_highestGeneration hm
    exact inSlot_iff.2 ⟨_, Nat.dvd_mul_left .., hslot⟩
  · obtain ⟨offset, hdvd, hoffset⟩ := inSlot_iff.1 hg
    exact le_highestGeneration hdvd hoffset

/-- **What the scan reports** is the greatest generation of the records that it yields: that of the
last one, as none is below the one before it. -/
lemma isHighest_report (b : Buffer) :
    IsHighest (fun g => ∃ r ∈ records b, r.header.generation = g) (scan b).finish.generation := by
  obtain ⟨rs, n, stop, hchain, hstop⟩ := exists_chain b .start
  have hlast : n.generation = rs.getLast?.map (·.header.generation) := by
    rw [hchain.generation_eq]
    exact Option.or_none
  rw [records_eq_of_chain hchain hstop, finish_eq_of_chain hchain hstop, hlast]
  refine isHighest_of_forall (fun m hm => ?_) ?_
  · obtain ⟨r, hr, hm⟩ := Option.map_eq_some_iff.1 hm
    exact ⟨r, List.mem_of_getLast? hr, hm⟩
  · rintro g ⟨r, hr, rfl⟩
    rcases List.eq_nil_or_concat rs with rfl | ⟨before, last, hrs⟩
    · cases hr
    rw [List.concat_eq_append] at hrs
    subst hrs
    refine ⟨last.header.generation, by simp, ?_⟩
    have hpairwise := hchain.generations_le.1
    rcases List.mem_append.1 hr with hr | hr
    · exact (List.pairwise_append.1 hpairwise).2.2 r hr last (List.mem_singleton_self last)
    · rw [List.mem_singleton.1 hr]
      exact UInt32.le_refl _

/-- **The scan accepts only slots that the sweep visits**, and reads there what the sweep reads. -/
lemma slot_of_mem_records (hr : r ∈ records b) :
    r.Intact b ∧ 64 ∣ r.offset ∧ committedAt b r.offset = .ok r.header ∧
      readSlot b r.offset = .ok r := by
  obtain ⟨rs, n, stop, hchain, hstop⟩ := exists_chain b .start
  rw [records_eq_of_chain hchain hstop] at hr
  obtain ⟨before, after, rfl⟩ := List.append_of_mem hr
  obtain ⟨m, hbefore, hafter⟩ := hchain.split
  cases hafter with
  | cons hcheck _ =>
    obtain ⟨hslot, hoffset, hpayload, -⟩ := checkAt_eq_ok_iff.1 hcheck
    rw [← hoffset] at hslot hpayload
    refine ⟨(checkAt_eq_ok_iff_intact.1 hcheck).1, ?_, hslot, ?_⟩
    · rw [hoffset]
      exact hbefore.bounds.2.2 (Nat.dvd_zero _)
    · rw [readSlot, hslot]
      show Except.ok (Record.mk r.offset r.header _) = _
      rw [← hpayload]

/-- **The sweep dominates the scan.**  It answers the greatest generation of all intact records in
slots, and none if there is no such record.  The scan reports the greatest generation of the records
that it yields, each of which is what is read in a slot that the sweep visits, so that the sweep
answers no less.  An arena that continues the journal takes the generation that the sweep alone
leads to. -/
theorem highestGeneration_dominates (b : Buffer) :
    IsHighest (InSlot b) (highestGeneration b) ∧
      IsHighest (fun g => ∃ r ∈ records b, r.header.generation = g)
        (scan b).finish.generation ∧
      (∀ g ∈ (scan b).finish.generation, ∃ m ∈ highestGeneration b, g ≤ m) ∧
      (∀ r ∈ records b, ∃ slot < slotCount b, r.offset = slot * cacheLine.bytes ∧
        readSlot b r.offset = .ok r) ∧
      ∀ region, (JournalArena.recover region b).1.generation =
        (highestGeneration b).elim 0 JournalArena.following := by
  have hsweep := isHighest_highestGeneration b
  have hscan := isHighest_report b
  have hvisited : ∀ r ∈ records b, ∃ slot < slotCount b, r.offset = slot * cacheLine.bytes ∧
      readSlot b r.offset = .ok r := by
    intro r hr
    obtain ⟨-, ⟨slot, hslot⟩, hok, hread⟩ := slot_of_mem_records hr
    have hoffset : r.offset = slot * cacheLine.bytes := hslot.trans (Nat.mul_comm ..)
    exact ⟨slot, lt_slotCount (hoffset ▸ hok), hoffset, hread⟩
  have hle := hscan.exists_le hsweep fun g ⟨r, hr, hg⟩ => by
    obtain ⟨hintact, hdvd, -⟩ := slot_of_mem_records hr
    exact ⟨r, hintact, hdvd, hg⟩
  refine ⟨hsweep, hscan, hle, hvisited, fun region => ?_⟩
  show JournalArena.openingGeneration b (scan b).finish = _
  rw [JournalArena.openingGeneration, newer_eq_right hle]
  cases highestGeneration b <;> rfl

end BumpArena.Journal
