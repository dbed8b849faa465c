import BumpArena.Proofs.Journal.Walk

/-!
# The sweep over all slots

The scan stops at the first slot that holds no record, the sweep visits every one.  This module
says what the sweep finds — the maximum over all slots, `le_highestGeneration` and
`exists_of_highestGeneration` — and what an arena that opens the journal makes of it:
`lt_openingGeneration`, that its generation lies above every record in the file, and
`le_openingGeneration`, which is what is left of this where the generations end.
-/

namespace BumpArena.Journal

variable {b : Buffer}

/-! ## The greater of two generations -/

lemma newer_eq_some {x y : Option UInt32} {m : UInt32} (h : newer x y = some m) :
    (∀ g ∈ x, g ≤ m) ∧ (∀ g ∈ y, g ≤ m) ∧ (x = some m ∨ y = some m) := by
  cases x with
  | none =>
    obtain rfl : y = some m := h
    simp
  | some g =>
    cases y with
    | none =>
      obtain rfl : g = m := by simpa [newer] using h
      simp
    | some k =>
      simp only [newer, Option.some.injEq] at h
      split at h
      · rename_i hlt
        subst h
        simpa using UInt32.le_of_lt hlt
      · rename_i hlt
        subst h
        simpa using UInt32.not_lt.1 hlt

lemma newer_eq_none {x y : Option UInt32} (h : newer x y = none) : x = none ∧ y = none := by
  cases x <;> cases y <;> simp_all [newer]

/-- Every generation on either side is reached by the greater one. -/
lemma exists_newer {x y : Option UInt32} {g : UInt32} (h : x = some g ∨ y = some g) :
    ∃ m, newer x y = some m ∧ g ≤ m := by
  cases hnewer : newer x y with
  | none =>
    obtain ⟨rfl, rfl⟩ := newer_eq_none hnewer
    simp at h
  | some m =>
    obtain ⟨hx, hy, -⟩ := newer_eq_some hnewer
    rcases h with h | h
    · exact ⟨m, rfl, hx g h⟩
    · exact ⟨m, rfl, hy g h⟩

/-! ## What the sweep finds -/

lemma generationAt_eq_some_iff {offset : Nat} {g : UInt32} :
    generationAt b offset = some g ↔ ∃ h, committedAt b offset = .ok h ∧ h.generation = g := by
  unfold generationAt
  split <;> simp_all

/-- The sweep over the first slots. -/
def sweep (b : Buffer) (slots : Nat) : Option UInt32 :=
  slots.fold (fun i _ highest => newer highest (generationAt b (i * cacheLine.bytes))) none

lemma sweep_succ (b : Buffer) (slots : Nat) :
    sweep b (slots + 1) = newer (sweep b slots) (generationAt b (slots * cacheLine.bytes)) := by
  rw [sweep, Nat.fold_succ]
  rfl

lemma exists_sweep {slots i : Nat} {g : UInt32} (hi : i < slots)
    (h : generationAt b (i * cacheLine.bytes) = some g) : ∃ m, sweep b slots = some m ∧ g ≤ m := by
  induction slots with
  | zero => exact absurd hi (Nat.not_lt_zero _)
  | succ slots ih =>
    rw [sweep_succ]
    rcases Nat.lt_succ_iff_lt_or_eq.1 hi with hi | rfl
    · obtain ⟨k, hk, hle⟩ := ih hi
      obtain ⟨m, hm, hle'⟩ := exists_newer (y := generationAt b (slots * cacheLine.bytes)) (.inl hk)
      exact ⟨m, hm, UInt32.le_trans hle hle'⟩
    · exact exists_newer (.inr h)

lemma exists_of_sweep {slots : Nat} {m : UInt32} (h : sweep b slots = some m) :
    ∃ i < slots, generationAt b (i * cacheLine.bytes) = some m := by
  induction slots with
  | zero => cases h
  | succ slots ih =>
    rw [sweep_succ] at h
    rcases (newer_eq_some h).2.2 with h | h
    · obtain ⟨i, hi, hg⟩ := ih h
      exact ⟨i, Nat.lt_succ_of_lt hi, hg⟩
    · exact ⟨slots, Nat.lt_succ_self _, h⟩

/-- A slot that holds a record is one that the sweep visits. -/
lemma lt_slotCount {i : Nat} {h : Header} (hok : committedAt b (i * cacheLine.bytes) = .ok h) :
    i < slotCount b := by
  obtain ⟨hfits, -⟩ := committedAt_eq_ok_iff.1 hok
  have hline : cacheLine.bytes = 64 := rfl
  have hhead : Header.size = 32 := rfl
  rw [hline] at hfits
  rw [slotCount, hline]
  omega

/-- **No record in the file is above the highest generation.** -/
lemma le_highestGeneration {offset : Nat} {g : UInt32} (hdvd : 64 ∣ offset)
    (h : generationAt b offset = some g) : ∃ m, highestGeneration b = some m ∧ g ≤ m := by
  obtain ⟨i, rfl⟩ := hdvd
  rw [Nat.mul_comm] at h
  obtain ⟨header, hok, -⟩ := generationAt_eq_some_iff.1 h
  exact exists_sweep (lt_slotCount hok) h

/-- The highest generation is that of a record in the file. -/
lemma exists_of_highestGeneration {m : UInt32} (h : highestGeneration b = some m) :
    ∃ i, generationAt b (i * cacheLine.bytes) = some m := by
  obtain ⟨i, -, hi⟩ := exists_of_sweep h
  exact ⟨i, hi⟩

/-! ## The generation of an arena that opens the journal -/

/-- No slot of the journal holds a record of the last generation that there is. -/
def Unsaturated (b : Buffer) : Prop :=
  ∀ slot g, generationAt b (slot * cacheLine.bytes) = some g → g < 0xFFFFFFFF

/-- The generation in a report is that of a record in the file. -/
lemma exists_of_report {g : UInt32} (h : (scan b).finish.generation = some g) :
    ∃ offset, 64 ∣ offset ∧ generationAt b offset = some g := by
  obtain ⟨rs, n, stop, hchain, hstop⟩ := exists_chain b .start
  rw [finish_eq_of_chain hchain hstop] at h
  simp only [hchain.generation_eq, Mark.start, Option.or_none, Option.map_eq_some_iff] at h
  obtain ⟨r, hlast, rfl⟩ := h
  obtain ⟨qs, rfl⟩ := List.getLast?_eq_some_iff.1 hlast
  obtain ⟨k, hchain', hlast'⟩ := hchain.split
  cases hlast' with
  | cons hcheck _ =>
    obtain ⟨hslot, hoffset, -, -⟩ := checkAt_eq_ok_iff.1 hcheck
    exact ⟨k.offset, hchain'.bounds.2.2 (Nat.dvd_zero _),
      generationAt_eq_some_iff.2 ⟨_, hslot, rfl⟩⟩

lemma le_following (g : UInt32) : g ≤ JournalArena.following g := by
  unfold JournalArena.following
  split
  · exact UInt32.le_refl g
  · rename_i hne
    exact UInt32.le_of_lt (UInt32.lt_add_one hne)

lemma lt_following {g : UInt32} (h : g < 0xFFFFFFFF) : g < JournalArena.following g := by
  have hne : g ≠ 0xFFFFFFFF := fun heq => absurd h (by simp [heq])
  rw [JournalArena.following, if_neg hne]
  exact UInt32.lt_add_one hne

/-- The generation of an arena that opens a journal is no lower than any in the file. -/
lemma le_openingGeneration {offset : Nat} {g : UInt32} (hdvd : 64 ∣ offset)
    (h : generationAt b offset = some g) :
    g ≤ JournalArena.openingGeneration b (scan b).finish := by
  obtain ⟨m, hhighest, hle⟩ := le_highestGeneration hdvd h
  obtain ⟨k, hnewer, hle'⟩ := exists_newer (x := (scan b).finish.generation) (.inr hhighest)
  rw [JournalArena.openingGeneration, hnewer]
  exact UInt32.le_trans (UInt32.le_trans hle hle') (le_following k)

/-- **It is above all of them,** unless the file holds a record of the last generation. -/
lemma lt_openingGeneration (hunsaturated : Unsaturated b) {offset : Nat} {g : UInt32}
    (hdvd : 64 ∣ offset) (h : generationAt b offset = some g) :
    g < JournalArena.openingGeneration b (scan b).finish := by
  obtain ⟨m, hhighest, hle⟩ := le_highestGeneration hdvd h
  obtain ⟨k, hnewer, hle'⟩ := exists_newer (x := (scan b).finish.generation) (.inr hhighest)
  have hk : k < 0xFFFFFFFF := by
    have hlast (offset : Nat) (hdvd : 64 ∣ offset) (h : generationAt b offset = some k) :
        k < 0xFFFFFFFF := by
      obtain ⟨slot, rfl⟩ := hdvd
      exact hunsaturated slot k (Nat.mul_comm 64 slot ▸ h)
    rcases (newer_eq_some hnewer).2.2 with hreport | hsweep
    · obtain ⟨offset, hdvd, hg⟩ := exists_of_report hreport
      exact hlast offset hdvd hg
    · obtain ⟨slot, hg⟩ := exists_of_highestGeneration hsweep
      exact hunsaturated slot k hg
  rw [JournalArena.openingGeneration, hnewer]
  exact UInt32.lt_of_le_of_lt (UInt32.le_trans hle hle') (lt_following hk)

end BumpArena.Journal
