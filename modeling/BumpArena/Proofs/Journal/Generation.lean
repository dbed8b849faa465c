import BumpArena.Proofs.Journal.Longest
import BumpArena.Proofs.Journal.Recovery

/-!
# The generation that opening a journal takes

What lies in the free space of a journal is told from new records by its generation alone, so an
arena that opens the journal is to take one that outranks every intact record in any slot: those
that the scan finds, those behind a gap, and those that are bytes of another record's payload
(`Journal.Outranks`).

`outranks_iff_of_openExisting` says how far this goes.  The arena takes the least generation that
outranks them all, if there is one.  Above the last generation there is none, and an arena that
opens a journal with a record of that generation takes it once more: `exists_not_outranks` is such
a journal, where the next scan takes a leftover for a new record.
-/

namespace BumpArena

namespace Journal

/-- The generation is above that of every intact record in a slot of the journal. -/
def Outranks (generation : UInt32) (b : Buffer) : Prop :=
  ∀ r : Record, r.Intact b → 64 ∣ r.offset → r.header.generation < generation

variable {b : Buffer} {offset : Nat} {g : UInt32}

/-- The reader of a slot and the definition of an intact record agree. -/
lemma generationAt_eq_some_iff_intact : generationAt b offset = some g ↔
    ∃ r : Record, r.Intact b ∧ r.offset = offset ∧ r.header.generation = g := by
  -- With no record before it, a slot passes the checks of the scan exactly if its record is intact.
  have hcheck (r : Record) : checkAt b ⟨offset, none⟩ = .ok r ↔
      r.Intact b ∧ r.offset = offset := by
    simpa using checkAt_eq_ok_iff_intact (b := b) (m := ⟨offset, none⟩) (r := r)
  rw [generationAt_eq_some_iff]
  constructor
  · rintro ⟨header, hslot, rfl⟩
    let r : Record := ⟨offset, header, b.read (offset + Header.size) header.length.toNat⟩
    have hr : checkAt b ⟨offset, none⟩ = .ok r :=
      checkAt_eq_ok_iff.2 ⟨hslot, rfl, rfl, by simp⟩
    exact ⟨r, ((hcheck r).1 hr).1, rfl, rfl⟩
  · rintro ⟨r, hintact, hoffset, rfl⟩
    have hr := (hcheck r).2 ⟨hintact, hoffset⟩
    exact ⟨r.header, (checkAt_eq_ok_iff.1 hr).1, rfl⟩

lemma outranks_iff : Outranks g b ↔
    ∀ offset k, 64 ∣ offset → generationAt b offset = some k → k < g := by
  constructor
  · intro h offset k hdvd hk
    obtain ⟨r, hintact, rfl, rfl⟩ := generationAt_eq_some_iff_intact.1 hk
    exact h r hintact hdvd
  · intro h r hintact hdvd
    exact h r.offset _ hdvd (generationAt_eq_some_iff_intact.2 ⟨r, hintact, rfl, rfl⟩)

/-- The last generation outranks all others. -/
lemma outranks_last_iff : Outranks 0xFFFFFFFF b ↔ Unsaturated b := by
  rw [outranks_iff]
  constructor
  · exact fun h slot k hk => h _ k (Nat.dvd_mul_left ..) hk
  · rintro h _ k ⟨slot, rfl⟩ hk
    exact h slot k (Nat.mul_comm 64 slot ▸ hk)

lemma le_last (g : UInt32) : g ≤ 0xFFFFFFFF :=
  UInt32.le_iff_toNat_le.2 (Nat.le_of_lt_succ g.toNat_lt)

/-- The generation after one that is below another is not above that other one. -/
lemma following_le {k : UInt32} (h : k < g) : JournalArena.following k ≤ g := by
  have hk := UInt32.lt_iff_toNat_lt.1 h
  have hg := g.toNat_lt
  have hne : k ≠ 0xFFFFFFFF := by
    rintro rfl
    exact UInt32.lt_irrefl _ (UInt32.lt_of_lt_of_le h (le_last g))
  rw [JournalArena.following, if_neg hne, UInt32.le_iff_toNat_le, UInt32.toNat_add]
  have hone : (1 : UInt32).toNat = 1 := rfl
  rw [hone, Nat.mod_eq_of_lt (by omega)]
  omega

/-- No generation that outranks the journal is below the one that opening it takes. -/
lemma openingGeneration_le (h : Outranks g b) :
    JournalArena.openingGeneration b (scan b).finish ≤ g := by
  rw [outranks_iff] at h
  rw [JournalArena.openingGeneration]
  cases hnewer : newer (scan b).finish.generation (highestGeneration b) with
  | none => exact UInt32.zero_le
  | some m =>
    refine following_le ?_
    rcases (newer_eq_some hnewer).2.2 with hreport | hsweep
    · obtain ⟨offset, hdvd, hm⟩ := exists_of_report hreport
      exact h offset m hdvd hm
    · obtain ⟨slot, hm⟩ := exists_of_highestGeneration hsweep
      exact h _ m (Nat.dvd_mul_left ..) hm

end Journal

open Journal

variable {config : JournalConfig} {s s' : Storage} {a : JournalArena} {report : Report}

/-- **What opening a journal takes for its generation.**  It outranks every intact record in any
slot of the file exactly when none of them is of the last generation.  It is the least one that
does, and in any case none of them is above it. -/
theorem outranks_iff_of_openExisting
    (hopen : (JournalArena.openExisting config).run s = .ok (a, report) s') :
    (Outranks a.generation (s'.contents a.region) ↔
        Outranks 0xFFFFFFFF (s'.contents a.region)) ∧
      (∀ g, Outranks g (s'.contents a.region) → a.generation ≤ g) ∧
      ∀ r : Record, r.Intact (s'.contents a.region) → 64 ∣ r.offset →
        r.header.generation ≤ a.generation := by
  obtain ⟨hopened, -⟩ := JournalArena.openExisting_opened hopen
  generalize s'.contents a.region = b at hopened
  have hgeneration : a.generation = JournalArena.openingGeneration b (scan b).finish := by
    rw [hopened.eq_recover]
    rfl
  refine ⟨⟨fun h r hintact hdvd => ?_, fun h => ?_⟩, fun g h => ?_, fun r hintact hdvd => ?_⟩
  · exact UInt32.lt_of_lt_of_le (h r hintact hdvd) (le_last a.generation)
  · exact outranks_iff.2 fun offset k hdvd hk =>
      hopened.lt_generation (outranks_last_iff.1 h) hdvd hk
  · exact hgeneration ▸ openingGeneration_le h
  · rw [hgeneration]
    exact le_openingGeneration hdvd (generationAt_eq_some_iff_intact.2 ⟨r, hintact, rfl, rfl⟩)

/-- A record in the free space is of generation 5, one that the scan finds of generation 2, and the
arena takes generation 6. -/
theorem outranks_iff_of_openExisting_leftover : ∃ a report s',
    (JournalArena.openExisting ⟨"journal", 4096⟩).run leftoverStorage = .ok (a, report) s' ∧
      Outranks 0xFFFFFFFF (s'.contents a.region) ∧ Outranks a.generation (s'.contents a.region) ∧
      report.generation = some 2 ∧ a.generation = 6 := by
  have hlast := outranks_last_iff.2 unsaturated_leftover
  have houtranks := (outranks_iff_of_openExisting openExisting_leftover).1.2 hlast
  exact ⟨_, _, _, openExisting_leftover, hlast, houtranks, by decide +kernel, by decide +kernel⟩

/-! ### Nothing outranks the last generation -/

/-- A journal whose first slot is free, with a record of the last generation in the second. -/
def lastGenerationJournal : Buffer :=
  (Buffer.zeros 4096).write 64 ((Header.ofPayload [9] 7 0xFFFFFFFF).encode ++ [9])

/-- A storage in which the journal is the only file. -/
def lastGenerationStorage : Storage where
  blocks := #[.ofBuffer lastGenerationJournal]
  entries := [(["journal"], .file 0)]

/-- **A leftover that is not outranked.**  Opening the journal takes the last generation, which the
record in the second slot has as well.  The first record that is appended ends where that slot
begins, and the next scan takes the leftover for a second new record. -/
theorem exists_not_outranks : ∃ a report s' t,
    (JournalArena.openExisting ⟨"journal", 4096⟩).run lastGenerationStorage =
        .ok (a, report) s' ∧
      a.generation = 0xFFFFFFFF ∧ ¬ Outranks a.generation (s'.contents a.region) ∧
      records (s'.contents a.region) = [] ∧
      JournalSession.run { arena := a, bytes := s'.contents a.region } [.append [1] 8] = .ok t ∧
      records t.bytes =
        [⟨0, .ofPayload [1] 8 0xFFFFFFFF, [1]⟩, ⟨64, .ofPayload [9] 7 0xFFFFFFFF, [9]⟩] := by
  let region : Region := lastGenerationStorage.nextRegion 4096 0 (some "journal")
  let b : Buffer := lastGenerationStorage.contents region
  let a : JournalArena := (JournalArena.recover region b).1
  have hregion : (Region.openMapped "journal").run lastGenerationStorage = .ok region
      lastGenerationStorage.afterRegion :=
    Region.openMapped_eq_ok_iff.2 ⟨0, rfl, ⟨by decide, by decide, by decide⟩, rfl, rfl⟩
  have hopen := JournalArena.openExisting_eq_ok_iff.2
    ⟨(by decide : (JournalConfig.mk "journal" 4096).path.isEmpty = false), region, hregion, rfl⟩
  have hgeneration : a.generation = 0xFFFFFFFF := by decide +kernel
  have hleftover : generationAt b 64 = some 0xFFFFFFFF := by decide +kernel
  have houtranks : ¬ Outranks a.generation b := by
    intro h
    have hlt := outranks_iff.1 h 64 _ (Nat.dvd_refl 64) hleftover
    rw [hgeneration] at hlt
    exact absurd hlt (UInt32.lt_irrefl _)
  have hresult : (JournalSession.run { arena := a, bytes := b } [.append [1] 8]).toOption.map
      (fun t => records t.bytes) =
        some [⟨0, .ofPayload [1] 8 0xFFFFFFFF, [1]⟩, ⟨64, .ofPayload [9] 7 0xFFFFFFFF, [9]⟩] := by
    decide +kernel
  cases hrun : JournalSession.run { arena := a, bytes := b } [.append [1] 8] with
  | error fault =>
    rw [hrun] at hresult
    cases hresult
  | ok t =>
    rw [hrun] at hresult
    exact ⟨a, _, _, t, hopen, hgeneration, houtranks, by decide +kernel, hrun,
      Option.some.inj hresult⟩

end BumpArena
