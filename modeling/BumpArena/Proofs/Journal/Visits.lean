import BumpArena.Proofs.Journal.Recovery

/-!
# Many sessions on one journal

A journal is created once and visited many times.  Each visit opens it, works on it, and leaves it
to the storage; the next one finds what is in the file and nothing else.  When no visit leaves a
record uncommitted, the journal is the same as if there had been one long session: its records are
those that were granted, back to back, and behind the last of them there are zeros.

That there are zeros is what makes the generations unimportant here.  A payload may hold the header
of a record of the last generation, after which all later arenas stamp their records with that
generation too, and still nothing is found that was not granted: behind the frontier there is
nothing to be found.
-/

namespace BumpArena

open Journal

/-! ## Visits -/

/-- One visit to a journal.  The session is what the program holds at its end. -/
def visit (opening : StorageM JournalArena) (ops : List JournalOp) (s : Storage) :
    Option (JournalSession × Storage) :=
  match opening.run s with
  | .error _ _ => none
  | .ok a s =>
    match JournalSession.run { arena := a, bytes := s.contents a.region } ops with
    | .error _ => none
    | .ok t => some (t, s.save a.region t.bytes)

/-- Visits to a journal that is there. -/
def revisit (config : JournalConfig) :
    List (List JournalOp) → Storage → Option (List JournalSession × Storage)
  | [], s => some ([], s)
  | ops :: more, s => do
    let (t, s) ← visit (Prod.fst <$> JournalArena.openExisting config) ops s
    let (ts, s) ← revisit config more s
    return (t :: ts, s)

/-- Visits to a journal, of which the first creates it. -/
def visits (config : JournalConfig) (first : List JournalOp) (more : List (List JournalOp))
    (s : Storage) : Option (List JournalSession × Storage) := do
  let (t, s) ← visit (JournalArena.create config) first s
  let (ts, s) ← revisit config more s
  return (t :: ts, s)

/-- The accounts of visits: each begins where the one before it ended. -/
def Ledger.accounts (l : Ledger) : List (List JournalOp) → List Ledger
  | [] => []
  | ops :: more =>
    let next := Ledger.run { origin := l.origin, cursor := l.cursor } ops
    next :: next.accounts more

/-- Nothing that was granted is pending or dropped. -/
def Ledger.Settled (l : Ledger) : Prop := ∀ e ∈ l.entries, e.fate.isCommitted

instance (l : Ledger) : Decidable l.Settled := inferInstanceAs (Decidable (∀ e ∈ l.entries, _))

/-! ## Between two visits -/

/-- The journal holds the entries from its start on, and nothing behind them. -/
structure Filled (b : Buffer) (entries : List LedgerEntry) (total : Nat) : Prop where
  exists_chain : ∃ rs n, Chain b .start rs n ∧ n.offset = total ∧ rs.map Record.entry = entries
  zeros : ∀ i, total ≤ i → b.get i = 0

section Filled

variable {a : JournalArena} {b c : Buffer} {entries : List LedgerEntry} {total : Nat}

lemma Filled.of_zeros (h : ∀ i, b.get i = 0) : Filled b [] 0 :=
  ⟨⟨[], .start, .nil _, rfl, rfl⟩, fun i _ => h i⟩

lemma Filled.of_same (h : Filled b entries total) (hsame : b.Same c) : Filled c entries total := by
  obtain ⟨rs, n, hchain, hoffset, hentries⟩ := h.exists_chain
  have hfits : n.offset ≤ c.size := hsame.1 ▸ hchain.offset_le_size (Nat.zero_le _)
  refine ⟨⟨rs, n, hchain.of_agreeOn (hsame.agreeOn _ _) hfits, hoffset, hentries⟩, ?_⟩
  intro i hi
  rw [← hsame.2, h.zeros i hi]

/-- **What a scan reports** of a journal that is filled. -/
lemma Filled.finish_eq (h : Filled b entries total) : ∃ rs n, Chain b .start rs n ∧
    n.offset = total ∧ rs.map Record.entry = entries ∧ records b = rs ∧
    (scan b).finish = ⟨rs.length, total, n.generation,
      if b.size < total + Header.size then .endOfRegion else .endOfData⟩ := by
  obtain ⟨rs, n, hchain, rfl, hentries⟩ := h.exists_chain
  have hstop := checkAt_of_zeros h.zeros
  exact ⟨rs, n, hchain, rfl, hentries, records_eq_of_chain hchain hstop,
    finish_eq_of_chain hchain hstop⟩

/-- **A visit fills the journal further,** when it settles what it was granted. -/
lemma Filled.run (h : Filled b entries total) (hopened : a.Opened b) {capacity : Nat}
    (hcapacity : b.size = capacity) {ops : List JournalOp} {l : Ledger}
    (hl : Ledger.run { origin := .zeros capacity, cursor := total } ops = l) (hsettled : l.Settled) :
    ∃ t, JournalSession.run { arena := a, bytes := b } ops = .ok t ∧ t.bytes.size = capacity ∧
      t.slots.length = l.entries.length ∧ Filled t.bytes (entries ++ l.entries) l.cursor := by
  obtain ⟨rs, n, hchain, hoffset, hentries, -, hfinish⟩ := h.finish_eq
  have hgeneration : ∀ g ∈ n.generation, g ≤ a.generation := by
    intro g hg
    exact hopened.le_generation (by rw [hfinish]; exact hg)
  have hcursor : (scan b).finish.cursor = total := by rw [hfinish]
  have hzeros : b.AgreeOn (.zeros capacity) (scan b).finish.cursor (Buffer.zeros capacity).size := by
    intro i hlow _
    rw [h.zeros i (hcursor ▸ hlow), Buffer.get_zeros]
  obtain ⟨t, hrun, ht⟩ := (hopened.represents (by simpa using hcapacity) hzeros).run ops
  rw [hcursor, hl] at ht
  have horigin : l.origin = .zeros capacity := by rw [← hl, Ledger.origin_run]
  have hsize : t.bytes.size = capacity := by rw [ht.size_eq, horigin, Buffer.size_zeros]
  refine ⟨t, hrun, hsize, by rw [ht.slots, List.length_map], ?_, fun i hi => ?_⟩
  · have hcommitted : ∀ e ∈ l.entries, (e.record? a.generation).isSome := by
      intro e he
      rw [isSome_record?]
      exact hsettled e he
    rcases ht.exists_chain hchain hoffset hgeneration with ⟨⟨e, he, hnone⟩, -⟩ | ⟨-, hwalk⟩
    · have hsome := hcommitted e he
      rw [hnone] at hsome
      cases hsome
    · refine ⟨_, _, hwalk, rfl, ?_⟩
      rw [List.map_append, hentries, map_entry_committedPrefix hcommitted]
  · by_cases hin : i < capacity
    · rw [ht.after i hi (by rwa [horigin, Buffer.size_zeros]), horigin, Buffer.get_zeros]
    · exact t.bytes.get_of_size_le (by omega)

end Filled

/-! ## Visit after visit -/

section Kept

variable {config : JournalConfig} {capacity total : Nat} {s : Storage} {entries : List LedgerEntry}

/-- The storage keeps a journal that is filled with the entries. -/
def Kept (config : JournalConfig) (capacity : Nat) (s : Storage) (entries : List LedgerEntry)
    (total : Nat) : Prop :=
  ∃ r : Region, r.Maps s config.path ∧ r.capacity = capacity ∧ Filled (s.contents r) entries total

/-- A visit, from the moment when the journal is open. -/
lemma exists_visit {opening : StorageM JournalArena} {a : JournalArena} {s' : Storage}
    (hopening : opening.run s = .ok a s') (hopened : a.Opened (s'.contents a.region))
    (hmaps : a.region.Maps s' config.path) (hcapacity : a.region.capacity = capacity)
    (hfilled : Filled (s'.contents a.region) entries total) {ops : List JournalOp} {l : Ledger}
    (hl : Ledger.run { origin := .zeros capacity, cursor := total } ops = l) (hsettled : l.Settled) :
    ∃ t u, visit opening ops s = some (t, u) ∧ t.slots.length = l.entries.length ∧
      Kept config capacity u (entries ++ l.entries) l.cursor := by
  obtain ⟨t, hrun, hsize, hslots, hfilled'⟩ :=
    hfilled.run hopened (hopened.size_eq.trans hcapacity) hl hsettled
  obtain ⟨hsaved, hsame⟩ := Storage.maps_save hmaps (hsize.trans hcapacity.symm)
  refine ⟨t, s'.save a.region t.bytes, ?_, hslots, a.region, hsaved, hcapacity, ?_⟩
  · simp only [visit, hopening, hrun]
  · exact hfilled'.of_same ⟨hsame.1.symm, fun i => (hsame.2 i).symm⟩

/-- A journal that is kept can be opened. -/
lemma Kept.exists_openExisting (h : Kept config capacity s entries total)
    (hpath : config.path.isEmpty = false) : ∃ a report s',
      (JournalArena.openExisting config).run s = .ok (a, report) s' ∧
        a.region.Maps s' config.path ∧ a.region.capacity = capacity ∧
        Filled (s'.contents a.region) entries total := by
  obtain ⟨r, hmaps, hcapacity, hfilled⟩ := h
  obtain ⟨a, s', hopen, hcontents, hmaps', hcapacity'⟩ :=
    JournalArena.exists_openExisting hmaps hpath
  exact ⟨a, _, s', hopen, hmaps', hcapacity'.trans hcapacity, hcontents ▸ hfilled⟩

/-- **Visits fill the journal** with what their accounts say. -/
lemma exists_revisit (hpath : config.path.isEmpty = false) {more : List (List JournalOp)} {l : Ledger}
    (horigin : l.origin = .zeros capacity) (h : Kept config capacity s entries l.cursor)
    (hsettled : ∀ k ∈ l.accounts more, k.Settled) :
    ∃ ts u total, revisit config more s = some (ts, u) ∧
      ts.map (·.slots.length) = (l.accounts more).map (·.entries.length) ∧
      Kept config capacity u (entries ++ (l.accounts more).flatMap (·.entries)) total := by
  induction more generalizing s l entries with
  | nil => exact ⟨[], s, l.cursor, rfl, rfl, by simpa [Ledger.accounts] using h⟩
  | cons ops more ih =>
    obtain ⟨a, report, s', hopen, hmaps, hcapacity, hfilled⟩ := h.exists_openExisting hpath
    let next := Ledger.run { origin := l.origin, cursor := l.cursor } ops
    have haccounts : l.accounts (ops :: more) = next :: next.accounts more := rfl
    rw [haccounts] at hsettled ⊢
    have hledger : Ledger.run { origin := .zeros capacity, cursor := l.cursor } ops = next := by
      rw [← horigin]
    obtain ⟨t, u, hvisit, hslots, hkept⟩ :=
      exists_visit (StorageM.map_eq_ok hopen Prod.fst) (JournalArena.openExisting_opened hopen).1
        hmaps hcapacity hfilled hledger (hsettled next (by simp))
    have hnext : next.origin = .zeros capacity := (Ledger.origin_run ..).trans horigin
    obtain ⟨ts, v, total, hrevisit, hlengths, hkept'⟩ :=
      ih hnext hkept fun k hk => hsettled k (List.mem_cons_of_mem _ hk)
    refine ⟨t :: ts, v, total, ?_, ?_, ?_⟩
    · simp only [revisit, hvisit, hrevisit, bind, Option.bind, pure]
    · rw [List.map_cons, List.map_cons, hslots, hlengths]
    · rwa [List.flatMap_cons, ← List.append_assoc]

end Kept

/-! ## What is found in the end -/

/-- The accounts of visits to a new journal. -/
def JournalConfig.accounts (config : JournalConfig) (visits : List (List JournalOp)) : List Ledger :=
  Ledger.accounts { origin := .zeros config.regionCapacity, cursor := 0 } visits

variable {config : JournalConfig} {s u : Storage} {block : BlockId}

/-- **No session loses what an earlier one kept.**  A journal is created with a valid capacity and
visited any number of times, and each visit settles what it was granted.  Then all visits succeed,
and opening the journal in the end finds the records that were granted, of all visits, in order, each
where the sizes of those before it add up to; no generation is below the one before it; and the scan
stops cleanly behind the last record. -/
theorem records_of_visits (hvalid : config.validate = .ok ())
    (hfile : s.createFile config.path = .ok (block, u)) (first : List JournalOp)
    (more : List (List JournalOp)) (hsettled : ∀ l ∈ config.accounts (first :: more), l.Settled) :
    ∃ ts t a report t', visits config first more s = some (ts, t) ∧
      (JournalArena.openExisting config).run t = .ok (a, report) t' ∧
      ts.map (·.slots.length) = (config.accounts (first :: more)).map (·.entries.length) ∧
      ∃ rs, records (t'.contents a.region) = rs ∧
        rs.map Record.entry = (config.accounts (first :: more)).flatMap (·.entries) ∧
        (∀ before r after, rs = before ++ r :: after →
          r.offset = totalSize (before.map (·.payload))) ∧
        rs.Pairwise (fun r q => r.header.generation ≤ q.header.generation) ∧
        report.records = rs.length ∧ report.cursor = totalSize (rs.map (·.payload)) ∧
        report.stop =
          if report.cursor = config.regionCapacity then .endOfRegion else .endOfData := by
  obtain ⟨a, s', hcreate, hcapacity⟩ := JournalArena.exists_create hvalid hfile
  obtain ⟨hmaps, hpath⟩ := (JournalArena.Opens.create hcreate).maps
  obtain ⟨hopened, hzero⟩ := JournalArena.create_opened hcreate
  let l := Ledger.run { origin := .zeros config.regionCapacity, cursor := 0 } first
  have haccounts : config.accounts (first :: more) = l :: l.accounts more := rfl
  rw [haccounts] at hsettled ⊢
  obtain ⟨t₁, s₁, hvisit, hslots, hkept⟩ :=
    exists_visit hcreate hopened hmaps hcapacity (.of_zeros hzero) rfl (hsettled l (by simp))
  obtain ⟨ts, s₂, total, hrevisit, hlengths, hkept'⟩ :=
    exists_revisit hpath (Ledger.origin_run ..) hkept fun k hk =>
      hsettled k (List.mem_cons_of_mem _ hk)
  obtain ⟨b, report, s₃, hopen, -, hcapacity', hfilled⟩ := hkept'.exists_openExisting hpath
  obtain ⟨hopened', hreport⟩ := JournalArena.openExisting_opened hopen
  obtain ⟨rs, n, hchain, hoffset, hentries, hrecords, hfinish⟩ := hfilled.finish_eq
  have htotal : total = totalSize (rs.map (·.payload)) := by
    rw [← hoffset, hchain.offset_eq, Mark.start, Nat.zero_add]
  refine ⟨t₁ :: ts, s₂, b, report, s₃, ?_, hopen, ?_, rs, hrecords, ?_, ?_, hchain.generations_le.1,
    ?_, ?_, ?_⟩
  · simp only [visits, hvisit, hrevisit, bind, Option.bind, pure]
  · rw [List.map_cons, List.map_cons, hslots, hlengths]
  · rw [hentries, List.flatMap_cons, List.nil_append]
  · rintro before r after rfl
    obtain ⟨m, hbefore, hafter⟩ := hchain.split
    cases hafter with
    | cons hcheck _ =>
      obtain ⟨-, hat, -, -⟩ := checkAt_eq_ok_iff.1 hcheck
      rw [hat, hbefore.offset_eq, Mark.start, Nat.zero_add]
  · rw [hreport, hfinish]
  · rw [hreport, hfinish, htotal]
  · have hsize := hopened'.size_eq.trans hcapacity'
    have hcursor : total ≤ config.regionCapacity := by
      rw [← hoffset, ← hsize]
      exact hchain.offset_le_size (Nat.zero_le _)
    have hline : 64 ∣ total := hoffset ▸ hchain.bounds.2.2 (Nat.dvd_zero _)
    have hpage : 4096 ∣ config.regionCapacity := hcapacity ▸ hmaps.mappable.dvd
    have hheader : Header.size = 32 := rfl
    rw [hreport, hfinish, hsize, hheader]
    by_cases hfull : total = config.regionCapacity
    · simp only [hfull, if_true, if_pos (Nat.lt_add_of_pos_right (by decide : 0 < 32))]
    · rw [if_neg hfull, if_neg (by omega)]

/-- Two visits, of which the second finds no room for its last record, and keeps the others. -/
theorem records_of_visits_two : ∃ ts t a report t',
    visits ⟨"journal", 4096⟩ [.append [1, 2] 5]
        [[.reserve 3, .write 0 1 [7], .commit 0 6, .append (List.replicate 4000 0) 7]] default =
      some (ts, t) ∧
      (JournalArena.openExisting ⟨"journal", 4096⟩).run t = .ok (a, report) t' ∧
      (records (t'.contents a.region)).map Record.entry =
        [⟨0, [1, 2], .committed 5⟩, ⟨64, [0, 7, 0], .committed 6⟩] := by
  obtain ⟨ts, t, a, report, t', hvisits, hopen, -, rs, hrecords, hentries, -⟩ :=
    @records_of_visits ⟨"journal", 4096⟩ default _ _ rfl rfl [.append [1, 2] 5]
      [[.reserve 3, .write 0 1 [7], .commit 0 6, .append (List.replicate 4000 0) 7]]
      (by decide +kernel)
  refine ⟨ts, t, a, report, t', hvisits, hopen, ?_⟩
  rw [hrecords, hentries]
  decide +kernel

end BumpArena
