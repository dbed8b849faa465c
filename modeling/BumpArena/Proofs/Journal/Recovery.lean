import BumpArena.Proofs.Journal.Opening
import BumpArena.Proofs.Journal.Refinement

/-!
# Working on a journal that was opened

The journal may hold anything when it is opened: records, free space, and behind the first slot
that holds no record whatever earlier arenas and accidents left there.  `records_run` says that none
of this matters.  Whatever a program does with the journal short of starting over, a scan finds the
records that it found at the beginning, and then those that were committed since, up to the first
grant that is not.

Two facts carry this.  Up to the frontier the journal is what the ledger says
(`Represents.exists_chain`).  And behind the frontier it is what it was, where every record that is
still whole has a generation below that of the arena (`lt_openingGeneration`), so that a scan that
gets there stops.
-/

namespace BumpArena

open Journal

/-! ## At the beginning -/

section Opened

variable {a : JournalArena} {b : Buffer}

/-- **A session that begins is on its ledger.**  The ledger may keep other bytes before the cursor:
it never looks there. -/
lemma JournalArena.Opened.represents (h : a.Opened b) {origin : Buffer} (hsize : b.size = origin.size)
    (hagree : b.AgreeOn origin (scan b).finish.cursor origin.size) :
    Represents b (scan b).finish.cursor a { arena := a, bytes := b }
      { origin, cursor := (scan b).finish.cursor } := by
  obtain ⟨rs, n, stop, hchain, hstop⟩ := exists_chain b .start
  have hcursor : (scan b).finish.cursor = n.offset := by rw [finish_eq_of_chain hchain hstop]
  have hmax : b.size ≤ maxCapacity := h.size_eq ▸ h.mappable.le
  refine
    { region := rfl
      generation := rfl
      size_eq := hsize
      size_le := hsize ▸ hmax
      capacity := ?_
      position := ?_
      cursor_le := ?_
      cursor_dvd := ?_
      tiled := rfl
      holds := by simp
      before := .refl _ _ _
      after := hagree
      slots := rfl }
  · show a.counter.capacity = origin.size
    rw [h.eq_recover, ← hsize, h.size_eq]
    rfl
  · show a.counter.position = (scan b).finish.cursor
    rw [h.eq_recover]
    rfl
  · show (scan b).finish.cursor ≤ origin.size
    rw [hcursor, ← hsize]
    exact hchain.offset_le_size (Nat.zero_le _)
  · show 64 ∣ (scan b).finish.cursor
    rw [hcursor]
    exact hchain.bounds.2.2 (Nat.dvd_zero _)

/-- An arena that opened a journal is of no earlier generation than anything in it. -/
lemma JournalArena.Opened.le_generation (h : a.Opened b) {g : UInt32}
    (hg : (scan b).finish.generation = some g) : g ≤ a.generation := by
  obtain ⟨offset, hdvd, hat⟩ := exists_of_report hg
  rw [h.eq_recover]
  exact le_openingGeneration hdvd hat

/-- It is of a later one, unless the last generation is in use already. -/
lemma JournalArena.Opened.lt_generation (h : a.Opened b) (hunsaturated : Unsaturated b)
    {offset : Nat} {g : UInt32} (hdvd : 64 ∣ offset) (hg : generationAt b offset = some g) :
    g < a.generation := by
  rw [h.eq_recover]
  exact lt_openingGeneration hunsaturated hdvd hg

end Opened

/-! ## At any moment -/

namespace Represents

variable {journal : Buffer} {start : Nat} {a : JournalArena} {s : JournalSession} {l : Ledger}
  {rs : List Record} {m : Mark}

/-- **Up to the frontier, the walk is what the ledger says:** what it was before the first entry,
and then the entries. -/
lemma exists_chain (h : Represents journal start a s l) (hchain : Chain journal .start rs m)
    (hstart : m.offset = start) (hgeneration : ∀ g ∈ m.generation, g ≤ a.generation) :
    ((∃ e ∈ l.entries, e.record? a.generation = none) ∧ ∃ n,
        Chain s.bytes .start (rs ++ committedPrefix a.generation l.entries) n ∧
          checkAt s.bytes n = .error .endOfData) ∨
      ((∀ e ∈ l.entries, (e.record? a.generation).isSome) ∧
        Chain s.bytes .start (rs ++ committedPrefix a.generation l.entries)
          ⟨l.cursor, if l.entries = [] then m.generation else some a.generation⟩) := by
  have hmax : s.bytes.size ≤ maxCapacity := h.size_eq ▸ h.size_le
  have hcursor : l.cursor ≤ s.bytes.size := h.size_eq ▸ h.cursor_le
  have hfirst : Chain s.bytes .start rs m :=
    hchain.of_agreeOn (hstart ▸ h.before.symm) (hstart ▸ Nat.le_trans h.tiled.le hcursor)
  rcases chain_committedPrefix hmax (hstart ▸ h.tiled) h.holds hgeneration with
    ⟨hnone, n, hsecond, herror⟩ | ⟨hall, hsecond⟩
  · exact .inl ⟨hnone, n, hfirst.append hsecond, herror⟩
  · exact .inr ⟨hall, hfirst.append hsecond⟩

end Represents

/-- **Leftovers are not yielded.**  A walk that reaches the frontier stops there, where a journal
that was opened is still what it was. -/
lemma exists_checkAt_frontier {a : JournalArena} {b : Buffer} {s : JournalSession} {l : Ledger}
    (hopened : a.Opened b) (hunsaturated : Unsaturated b)
    (h : Represents b (scan b).finish.cursor a s l) (horigin : l.origin = b) :
    ∃ stop, checkAt s.bytes ⟨l.cursor,
      if l.entries = [] then (scan b).finish.generation else some a.generation⟩ = .error stop := by
  have hagree : b.AgreeOn s.bytes l.cursor b.size := by
    have hafter := h.after.symm
    rwa [horigin] at hafter
  have hsize : b.size = s.bytes.size := by rw [h.size_eq, horigin]
  by_cases hnone : l.entries = []
  · obtain ⟨rs, n, stop, hchain, hstop⟩ := Journal.exists_chain b .start
    have hfinish := finish_eq_of_chain hchain hstop
    have htiled := h.tiled
    rw [hnone] at htiled
    have hcursor : (scan b).finish.cursor = l.cursor := htiled
    rw [if_pos hnone]
    rw [← hcursor, hfinish] at hagree ⊢
    exact ⟨stop, checkAt_error_of_agreeOn hstop hsize hagree⟩
  rw [if_neg hnone]
  have hslot := committedAt_congr hsize hagree
  cases hcommitted : committedAt b l.cursor with
  | error stop => exact ⟨stop, checkAt_of_committedAt_error (hslot ▸ hcommitted)⟩
  | ok header =>
    have hlt := hopened.lt_generation hunsaturated h.cursor_dvd
      (generationAt_eq_some_iff.2 ⟨header, hcommitted, rfl⟩)
    exact ⟨.staleGeneration, checkAt_of_lt (hslot ▸ hcommitted) rfl hlt⟩

/-! ## What a scan finds -/

variable {config : JournalConfig} {s s' : Storage} {a : JournalArena}

/-- **What a scan finds while a journal is open.**  It finds the records that were there when the
journal was opened, and behind them those that were committed since, up to the first grant that is
pending or dropped: each with its payload, its timestamp and the generation of the arena.  Nothing
that lay behind the cursor is among them. -/
theorem records_run (hopen : JournalArena.Opens config s a s')
    (hunsaturated : Unsaturated (s'.contents a.region)) (ops : List JournalOp) :
    ∃ t, JournalSession.run { arena := a, bytes := s'.contents a.region } ops = .ok t ∧
      records t.bytes = records (s'.contents a.region) ++
        committedPrefix a.generation ((Ledger.opening (s'.contents a.region)).run ops).entries ∧
      (records t.bytes).Pairwise fun r q => r.offset < q.offset := by
  have hopened := hopen.opened
  generalize s'.contents a.region = b at hopened hunsaturated
  obtain ⟨t, hrun, ht⟩ := (hopened.represents rfl (.refl _ _ _)).run ops
  obtain ⟨rs, n, stop, hchain, hstop⟩ := Journal.exists_chain b .start
  have hfinish := finish_eq_of_chain hchain hstop
  have hcursor : n.offset = (scan b).finish.cursor := by rw [hfinish]
  have hgeneration : (scan b).finish.generation = n.generation := by rw [hfinish]
  obtain ⟨k, stop, hwalk, herror⟩ : ∃ k stop, Chain t.bytes .start
      (rs ++ committedPrefix a.generation ((Ledger.opening b).run ops).entries) k ∧
        checkAt t.bytes k = .error stop := by
    rcases ht.exists_chain hchain hcursor (fun g hg => hopened.le_generation (hgeneration.trans hg))
      with ⟨-, k, hwalk, herror⟩ | ⟨-, hwalk⟩
    · exact ⟨k, _, hwalk, herror⟩
    · obtain ⟨stop, herror⟩ := exists_checkAt_frontier hopened hunsaturated ht (Ledger.origin_run ..)
      exact ⟨_, stop, hwalk, hgeneration ▸ herror⟩
  have hrecords := records_eq_of_chain hwalk herror
  refine ⟨t, hrun, ?_, ?_⟩
  · rw [hrecords, records_eq_of_chain hchain hstop]
  · rw [hrecords]
    exact hwalk.offsets_lt.1

/-! ### A leftover -/

/-- A journal of one record, with the leftover of a later arena in its free space. -/
def leftoverJournal : Buffer :=
  ((Buffer.zeros 4096).write 0 ((Header.ofPayload [1, 2, 3] 7 2).encode ++ [1, 2, 3])).write 128
    ((Header.ofPayload [9] 7 5).encode ++ [9])

/-- A storage in which the journal is the only file. -/
def leftoverStorage : Storage where
  blocks := #[.ofBuffer leftoverJournal]
  entries := [(["journal"], .file 0)]

/-- The region that maps the journal. -/
def leftoverRegion : Region := leftoverStorage.nextRegion 4096 0 (some "journal")

lemma openExisting_leftover : (JournalArena.openExisting ⟨"journal", 4096⟩).run leftoverStorage =
    .ok (JournalArena.recover leftoverRegion (leftoverStorage.contents leftoverRegion))
      leftoverStorage.afterRegion := by
  have hregion : (Region.openMapped "journal").run leftoverStorage = .ok leftoverRegion
      leftoverStorage.afterRegion :=
    Region.openMapped_eq_ok_iff.2 ⟨0, rfl, ⟨by decide, by decide, by decide⟩, rfl, rfl⟩
  exact JournalArena.openExisting_eq_ok_iff.2 ⟨by decide, leftoverRegion, hregion, rfl⟩

lemma opens_leftover : JournalArena.Opens ⟨"journal", 4096⟩ leftoverStorage
    (JournalArena.recover leftoverRegion (leftoverStorage.contents leftoverRegion)).1
    leftoverStorage.afterRegion :=
  .openExisting openExisting_leftover

/-- No record of the journal is above the leftover. -/
lemma unsaturated_leftover : Unsaturated (leftoverStorage.contents leftoverRegion) := by
  intro slot g hg
  obtain ⟨m, hm, hle⟩ := le_highestGeneration (Nat.dvd_mul_left ..) hg
  have hhighest : highestGeneration (leftoverStorage.contents leftoverRegion) = some 5 := by
    decide +kernel
  obtain rfl : m = 5 := by simpa [hhighest] using hm.symm
  exact UInt32.lt_of_le_of_lt hle (by decide)

/-- A whole record right behind a new one is not found, although its generation is above that of
every record found before. -/
theorem records_run_leftover : ∃ a s' t,
    JournalArena.Opens ⟨"journal", 4096⟩ leftoverStorage a s' ∧
      Unsaturated (s'.contents a.region) ∧
      JournalSession.run { arena := a, bytes := s'.contents a.region } [.append [4, 5] 8] = .ok t ∧
      records t.bytes =
        [⟨0, .ofPayload [1, 2, 3] 7 2, [1, 2, 3]⟩, ⟨64, .ofPayload [4, 5] 8 6, [4, 5]⟩] := by
  obtain ⟨t, hrun, hrecords, -⟩ := records_run opens_leftover unsaturated_leftover [.append [4, 5] 8]
  refine ⟨_, _, t, opens_leftover, unsaturated_leftover, hrun, hrecords.trans ?_⟩
  decide +kernel

end BumpArena
