import BumpArena.Proofs.Journal.Recovery

/-!
# Starting over

A reset begins a new generation and clears the magic word of the first slot.  All other bytes stay,
and new records come to lie among what is left of the old ones.  When the walk gets to the end of
the new records, the next slot may begin anywhere in an old record, even in the middle of a payload,
and what it holds there is up to the program that wrote it.

`records_append_of_reset` says exactly when this goes well: when that one slot did not hold, before
the reset, a whole record of at least the new generation.  Opening the journal sweeps all slots for
their generations, but starting over does not, and `exists_record_of_before_reset` is a program
that pays for it.
-/

namespace BumpArena

open Journal

/-! ## What a program can reach -/

/-- The sessions that a program can reach on a journal that it opened. -/
inductive JournalArena.Reaches (a : JournalArena) (b : Buffer) : JournalSession → Prop
  | opened : Reaches a b { arena := a, bytes := b }
  | step {s t : JournalSession} {op : JournalOp} :
      Reaches a b s → s.step op = .ok t → Reaches a b t
  | reset {s t : JournalSession} : Reaches a b s → s.reset = .ok t → Reaches a b t

section Reset

variable {journal b : Buffer} {start : Nat} {a : JournalArena} {s t : JournalSession} {l : Ledger}

/-- **Starting over begins a ledger anew.** -/
lemma Represents.reset (h : Represents journal start a s l)
    (hsize : s.bytes.size = s.arena.region.capacity) (hheader : Header.size ≤ s.bytes.size) :
    ∃ t, s.reset = .ok t ∧ t.bytes = s.bytes.write Header.magicOffset [0, 0, 0, 0] ∧
      t.arena.region = s.arena.region ∧
      t.arena.generation = JournalArena.following s.arena.generation ∧
      Represents t.bytes 0 t.arena t { origin := t.bytes, cursor := 0 } := by
  refine ⟨⟨{ s.arena with
      counter := s.arena.counter.reset
      generation := JournalArena.following s.arena.generation },
    s.bytes.write Header.magicOffset [0, 0, 0, 0], []⟩, ?_, rfl, rfl, rfl, ?_⟩
  · rw [JournalSession.reset, JournalArena.reset, if_neg (by omega)]
    rfl
  · have hbytes : (s.bytes.write Header.magicOffset [0, 0, 0, 0]).size = s.bytes.size :=
      Buffer.size_write ..
    exact
      { region := rfl
        generation := rfl
        size_eq := rfl
        size_le := by
          rw [hbytes, h.size_eq]
          exact h.size_le
        capacity := by
          rw [hbytes, h.size_eq]
          exact h.capacity
        position := rfl
        cursor_le := Nat.zero_le _
        cursor_dvd := Nat.dvd_zero _
        tiled := rfl
        holds := by simp
        before := .refl _ _ _
        after := .refl _ _ _
        slots := rfl }

/-- Every session that is reached is on some ledger. -/
lemma JournalArena.Reaches.exists_represents (hopened : a.Opened b) (h : a.Reaches b s) :
    (∃ journal start a' l, Represents journal start a' s l) ∧ s.arena.region = a.region ∧
      s.bytes.size = a.region.capacity := by
  induction h with
  | opened =>
    exact ⟨⟨b, _, a, _, hopened.represents rfl (.refl _ _ _)⟩, rfl, hopened.size_eq⟩
  | step _ hstep ih =>
    rename_i op _
    obtain ⟨⟨journal, start, a', l, hs⟩, hregion, hsize⟩ := ih
    obtain ⟨t, hstep', ht⟩ := hs.step op
    obtain rfl := Except.ok.inj (hstep'.symm.trans hstep)
    refine ⟨⟨journal, start, a', _, ht⟩, ?_, ?_⟩
    · rw [ht.region, ← hs.region, hregion]
    · rw [ht.size_eq, l.origin_step, ← hs.size_eq, hsize]
  | reset _ hreset ih =>
    obtain ⟨⟨journal, start, a', l, hs⟩, hregion, hsize⟩ := ih
    obtain ⟨t, hreset', hbytes, hregion', -, ht⟩ :=
      hs.reset (by rw [hsize, hregion]) (hsize ▸ hopened.header_le)
    obtain rfl := Except.ok.inj (hreset'.symm.trans hreset)
    refine ⟨⟨_, _, _, _, ht⟩, hregion'.trans hregion, ?_⟩
    rw [hbytes, Buffer.size_write, hsize]

end Reset

/-! ## A row of appends -/

/-- Appends, one for each payload with its timestamp. -/
def appends (payloads : List (List UInt8 × UInt64)) : List JournalOp :=
  payloads.map fun p => .append p.1 p.2

/-- What is granted of a row of appends is committed, in its order. -/
lemma Ledger.sublist_run_appends (l : Ledger) (payloads : List (List UInt8 × UInt64)) :
    ((l.run (appends payloads)).entries.map fun e => (e.payload, e.fate)).Sublist
      ((l.entries.map fun e => (e.payload, e.fate)) ++
        payloads.map fun p => (p.1, Fate.committed p.2)) := by
  induction payloads generalizing l with
  | nil => simp [run, appends]
  | cons p payloads ih =>
    have hstep : (l.step (.append p.1 p.2)).entries = l.entries ∨
        (l.step (.append p.1 p.2)).entries =
          l.entries ++ [⟨l.cursor, p.1, .committed p.2⟩] := by
      rw [step, grant]
      repeat' split
      all_goals simp
    have hrest := ih (l.step (.append p.1 p.2))
    refine hrest.trans ?_
    rcases hstep with hentries | hentries
    · rw [hentries]
      exact (List.Sublist.refl _).append (List.sublist_cons_self ..)
    · simp [hentries]

/-- When all appends are granted, the entries are the payloads. -/
lemma Ledger.run_appends_of_length {origin : Buffer} {payloads : List (List UInt8 × UInt64)}
    (h : (run { origin, cursor := 0 } (appends payloads)).entries.length = payloads.length) :
    ((run { origin, cursor := 0 } (appends payloads)).entries.map fun e => (e.payload, e.fate)) =
      payloads.map fun p => (p.1, Fate.committed p.2) := by
  have hsublist := sublist_run_appends { origin, cursor := 0 } payloads
  rw [List.map_nil, List.nil_append] at hsublist
  exact hsublist.eq_of_length (by rw [List.length_map, List.length_map, h])

/-! ## What is found after starting over -/

/-- When all appends were granted, all entries are committed, and their slots lie in a row. -/
lemma Represents.of_appends {s t : JournalSession} {payloads : List (List UInt8 × UInt64)}
    {l : Ledger} (hs : Represents s.bytes 0 s.arena t l)
    (hl : Ledger.run { origin := s.bytes, cursor := 0 } (appends payloads) = l)
    (hslots : t.slots.length = payloads.length) :
    ((l.entries.map fun e => (e.payload, e.fate)) =
      payloads.map fun p => (p.1, Fate.committed p.2)) ∧
      l.cursor = totalSize (payloads.map (·.1)) ∧
      ∀ e ∈ l.entries, (e.record? s.arena.generation).isSome := by
  have hlength : l.entries.length = payloads.length := by rw [← hslots, hs.slots, List.length_map]
  have hkinds : (l.entries.map fun e => (e.payload, e.fate)) =
      payloads.map fun p => (p.1, Fate.committed p.2) := by
    rw [← hl] at hlength ⊢
    exact Ledger.run_appends_of_length hlength
  refine ⟨hkinds, ?_, ?_⟩
  · have hpayloads := congrArg (List.map Prod.fst) hkinds
    simp only [List.map_map, Function.comp_def] at hpayloads
    rw [hs.tiled.stop_eq, hpayloads, Nat.zero_add]
  · intro e he
    have hmem := List.mem_map_of_mem (f := fun e => (e.payload, e.fate)) he
    rw [hkinds] at hmem
    obtain ⟨p, -, hp⟩ := List.mem_map.1 hmem
    have hfate : Fate.committed p.2 = e.fate := congrArg Prod.snd hp
    rw [isSome_record?, ← hfate]
    rfl

/-- The records of committed entries have their payloads and timestamps. -/
lemma map_payload_committedPrefix {entries : List LedgerEntry} {generation : UInt32}
    {payloads : List (List UInt8 × UInt64)}
    (hkinds : (entries.map fun e => (e.payload, e.fate)) =
      payloads.map fun p => (p.1, Fate.committed p.2))
    (hcommitted : ∀ e ∈ entries, (e.record? generation).isSome) :
    (committedPrefix generation entries).map (fun r => (r.payload, r.header.timestamp)) =
      payloads := by
  have hentries := congrArg (List.map fun e => (e.payload, e.fate))
    (map_entry_committedPrefix hcommitted)
  rw [hkinds, List.map_map] at hentries
  have hinjective (p q : List UInt8 × UInt64)
      (h : (p.1, Fate.committed p.2) = (q.1, Fate.committed q.2)) : p = q := by
    simpa [Prod.ext_iff] using h
  refine (List.map_inj_right hinjective).1 ?_
  rw [List.map_map]
  exact hentries

/-- **What a scan finds behind new records.**  A session that starts over and appends finds what it
appended, and it finds no more exactly when the slot behind the last new record holds no whole
record of the session's generation or a later one. -/
lemma exists_records_of_appends {s t : JournalSession} {payloads : List (List UInt8 × UInt64)}
    (hs : Represents s.bytes 0 s.arena t
      (Ledger.run { origin := s.bytes, cursor := 0 } (appends payloads)))
    (hslots : t.slots.length = payloads.length)
    (hzero : ∃ stop, checkAt s.bytes .start = .error stop) :
    ∃ new rest, records t.bytes = new ++ rest ∧
      new.map (fun r => (r.payload, r.header.timestamp)) = payloads ∧
      (rest = [] ↔ payloads = [] ∨
        ∀ g, generationAt s.bytes (totalSize (payloads.map (·.1))) = some g →
          g < s.arena.generation) ∧
      (payloads ≠ [] → 64 ≤ totalSize (payloads.map (·.1))) := by
  generalize hl : Ledger.run { origin := s.bytes, cursor := 0 } (appends payloads) = l at hs
  obtain ⟨hkinds, hcursor, hcommitted⟩ := hs.of_appends hl hslots
  have horigin : l.origin = s.bytes := by rw [← hl, Ledger.origin_run]
  have hsize : s.bytes.size = t.bytes.size := by rw [hs.size_eq, horigin]
  have hagree : s.bytes.AgreeOn t.bytes l.cursor s.bytes.size := by
    have hafter := hs.after.symm
    rwa [horigin] at hafter
  rcases hs.exists_chain (.nil .start) rfl (by simp [Mark.start]) with
    ⟨⟨e, he, hnone⟩, -⟩ | ⟨-, hchain⟩
  · have hsome := hcommitted e he
    rw [hnone] at hsome
    cases hsome
  rw [List.nil_append] at hchain
  obtain ⟨rest, n, stop, htail, hstop⟩ := Journal.exists_chain t.bytes _
  have hnil : l.entries = [] ↔ payloads = [] := by
    have hlength := congrArg List.length hkinds
    rw [List.length_map, List.length_map] at hlength
    rw [← List.length_eq_zero_iff, hlength, List.length_eq_zero_iff]
  refine ⟨_, rest, records_eq_of_chain (hchain.append htail) hstop,
    map_payload_committedPrefix hkinds hcommitted, ?_, fun hpayloads => ?_⟩
  · rw [htail.eq_nil_iff hstop]
    by_cases hpayloads : payloads = []
    · have hbase : l.cursor = 0 := by
        rw [hcursor, hpayloads]
        rfl
      obtain ⟨stop, hstart⟩ := hzero
      rw [hbase] at hagree
      rw [if_pos (hnil.2 hpayloads), hbase]
      exact iff_of_true ⟨stop, checkAt_error_of_agreeOn hstart hsize hagree⟩ (.inl hpayloads)
    · have hslot := committedAt_congr hsize hagree
      rw [if_neg (mt hnil.1 hpayloads), exists_checkAt_error_iff, ← hslot, ← hcursor]
      simp [hpayloads, generationAt_eq_some_iff]
  · obtain ⟨e, he⟩ := List.exists_mem_of_ne_nil _ (mt hnil.1 hpayloads)
    have hroom := (hs.holds e he).room
    have hbounds := (hs.tiled.bounds e he).2
    omega

variable {config : JournalConfig} {s s' : Storage} {a : JournalArena} {t : JournalSession}

/-- **What is found after starting over.**  Whatever a program did with a journal, it can start over
and append; when all appends are granted, it finds its new records, and it finds only them exactly
when it appended nothing, or when the slot behind the last new record did not hold a whole record of
the new generation or a later one before.  Opening the journal again finds the same. -/
theorem records_append_of_reset (hopen : JournalArena.Opens config s a s')
    (hreach : a.Reaches (s'.contents a.region) t) :
    ∃ u, t.reset = .ok u ∧ u.arena.generation = JournalArena.following t.arena.generation ∧
      ∀ payloads, ∃ v, u.run (appends payloads) = .ok v ∧
        (v.slots.length = payloads.length → ∃ new rest, records v.bytes = new ++ rest ∧
          new.map (fun r => (r.payload, r.header.timestamp)) = payloads ∧
          (rest = [] ↔ payloads = [] ∨
            ∀ g, generationAt t.bytes (totalSize (payloads.map (·.1))) = some g →
              g < u.arena.generation)) ∧
        ∃ a' report s'',
          (JournalArena.openExisting config).run (s'.save a.region v.bytes) =
            .ok (a', report) s'' ∧
          records (s''.contents a'.region) = records v.bytes := by
  obtain ⟨hmaps, hpath⟩ := hopen.maps
  have hopened := hopen.opened
  obtain ⟨⟨journal, start, a', l, ht⟩, hregion, hsize⟩ := hreach.exists_represents hopened
  have hheader : Header.size ≤ t.bytes.size := by
    have hpos := Nat.pos_of_ne_zero hmaps.mappable.ne_zero
    have hpage := Nat.le_of_dvd hpos hmaps.mappable.dvd
    rw [hsize]
    exact Nat.le_trans (by decide) hpage
  obtain ⟨u, hreset, hbytes, -, hgeneration, hu⟩ := ht.reset (by rw [hsize, hregion]) hheader
  have husize : u.bytes.size = t.bytes.size := by rw [hbytes, Buffer.size_write]
  refine ⟨u, hreset, hgeneration, ?_⟩
  intro payloads
  obtain ⟨v, hrun, hv⟩ := hu.run (appends payloads)
  have hvsize : v.bytes.size = a.region.capacity := by
    rw [hv.size_eq, Ledger.origin_run, husize, hsize]
  refine ⟨v, hrun, fun hslots => ?_, ?_⟩
  · have hcleared : checkAt u.bytes .start = .error .endOfData := by
      refine checkAt_of_committedAt_error (committedAt_of_magicAt_eq_zero ?_ ?_)
      · show 0 + Header.size ≤ u.bytes.size
        omega
      · rw [hbytes]
        have hcleared := Represents.magicAt_write_zeros (show 0 + Header.size ≤ t.bytes.size by omega)
        rwa [Nat.zero_add] at hcleared
    obtain ⟨new, rest, hrecords, hnew, hrest, htotal⟩ :=
      exists_records_of_appends hv hslots ⟨_, hcleared⟩
    refine ⟨new, rest, hrecords, hnew, hrest.trans (or_congr_right' ?_)⟩
    intro hpayloads
    -- clearing the magic word of the first slot changes nothing behind that slot
    have hagree : u.bytes.AgreeOn t.bytes (totalSize (payloads.map (·.1))) u.bytes.size := by
      have hmagic : Header.magicOffset = 28 := rfl
      have hfar := htotal hpayloads
      rw [hbytes]
      refine Buffer.agreeOn_write (.inr ?_)
      simp only [List.length_cons, List.length_nil]
      omega
    simp only [generationAt, committedAt_congr husize hagree]
  · obtain ⟨hsaved, hsame⟩ := Storage.maps_save hmaps hvsize
    obtain ⟨a', s'', hagain, hcontents, -, -⟩ := JournalArena.exists_openExisting hsaved hpath
    refine ⟨a', _, s'', hagain, ?_⟩
    rw [hcontents]
    exact records_eq_of_same hsame

/-- A leftover of an earlier generation behind two new records is not found. -/
theorem records_append_of_reset_leftover : ∃ a s' u v,
    JournalArena.Opens ⟨"journal", 4096⟩ leftoverStorage a s' ∧
      JournalSession.reset { arena := a, bytes := s'.contents a.region } = .ok u ∧
      u.run (appends [([1], 8), ([2], 9)]) = .ok v ∧
      (records v.bytes).map (fun r => (r.payload, r.header.timestamp)) = [([1], 8), ([2], 9)] := by
  let b := leftoverStorage.contents leftoverRegion
  let t : JournalSession := { arena := (JournalArena.recover leftoverRegion b).1, bytes := b }
  obtain ⟨u, hreset, hgeneration, h⟩ := records_append_of_reset opens_leftover .opened
  obtain ⟨v, hrun, hfound, -⟩ := h [([1], 8), ([2], 9)]
  have hslots : ((t.reset >>= (·.run (appends [([1], 8), ([2], 9)]))).toOption.map
      (·.slots.length)) = some 2 := by
    decide +kernel
  have hslots' : v.slots.length = 2 := by
    have hreset' : t.reset = .ok u := hreset
    simpa [bind, Except.bind, hreset', hrun, Except.toOption] using hslots
  obtain ⟨new, rest, hrecords, hnew, hrest⟩ := hfound hslots'
  obtain rfl := hrest.2 (.inr fun g hg => by
    have hold : generationAt b 128 = some 5 := by decide +kernel
    obtain rfl : g = 5 := by simpa [hold] using (show generationAt b 128 = some g from hg).symm
    rw [hgeneration]
    decide +kernel)
  refine ⟨_, _, u, v, opens_leftover, hreset, hrun, ?_⟩
  rw [hrecords, List.append_nil, hnew]

/-! ### A forgery -/

/-- A payload that holds, from its second half on, the header of a record without a payload. -/
def forgedPayload : List UInt8 := List.replicate 32 0 ++ (Header.ofPayload [] 0 5).encode

/-- **Starting over can bring back what was in the journal.**  The first record holds the header of
another in its payload.  After the reset a record without a payload takes up just the bytes before
that header, and the next scan takes the header for that of a second record. -/
theorem exists_record_of_before_reset : ∃ a s' t u v,
    JournalArena.Opens ⟨"journal", 4096⟩ default a s' ∧
      JournalSession.step { arena := a, bytes := s'.contents a.region } (.append forgedPayload 7) =
        .ok t ∧
      t.reset = .ok u ∧ u.run (appends [([], 8)]) = .ok v ∧ v.slots.length = 1 ∧
      records v.bytes = [⟨0, .ofPayload [] 8 1, []⟩, ⟨64, .ofPayload [] 0 5, []⟩] := by
  let file : Storage := ((default : Storage).addFile ["journal"]).2.modifyBlock 0 fun _ => .zeros 0
  let region : Region := file.nextRegion 4096 0 (some "journal")
  let s' : Storage := (file.modifyBlock 0 (·.setLength 4096)).afterRegion
  let a : JournalArena := { region, counter := { capacity := 4096 }, generation := 0 }
  let b : Buffer := s'.contents region
  have hregion : (Region.createMapped "journal" 4096).run default = .ok region s' :=
    Region.createMapped_eq_ok_iff.2 ⟨0, file, 4096, rfl, rfl, rfl, rfl, rfl⟩
  have hopen : JournalArena.Opens ⟨"journal", 4096⟩ default a s' :=
    .create (JournalArena.create_eq_ok_iff.2 ⟨rfl, region, hregion, rfl⟩)
  let p : Reservation := ⟨region.id, 0, 0, 64⟩
  let cleared : Buffer := b.write Header.magicOffset [0, 0, 0, 0]
  have hreserve : a.reserve b forgedPayload.length = .ok (some p, a.moveTo 128, cleared) := rfl
  let t : JournalSession :=
    ⟨a.moveTo 128, p.committed (cleared.write p.payloadOffset forgedPayload) 7, [none]⟩
  have hstep : JournalSession.step { arena := a, bytes := b } (.append forgedPayload 7) = .ok t :=
    JournalSession.step_append_eq hreserve (by decide)
  -- the checksum of the forged payload need not be computed from here on
  have hresult : ((t.reset >>= (·.run (appends [([], 8)]))).toOption.map fun v =>
      (v.slots.length, records v.bytes)) =
        some (1, [⟨0, .ofPayload [] 8 1, []⟩, ⟨64, .ofPayload [] 0 5, []⟩]) := by
    decide +kernel
  cases hrun : t.reset >>= (·.run (appends [([], 8)])) with
  | error fault =>
    rw [hrun] at hresult
    cases hresult
  | ok v =>
    rw [hrun] at hresult
    obtain ⟨hslots, hrecords⟩ := Prod.mk.inj (Option.some.inj hresult)
    obtain ⟨u, hreset, hu⟩ := bind_eq_ok_iff.1 hrun
    exact ⟨a, s', t, u, v, hopen, hstep, hreset, hu, hslots, hrecords⟩
end BumpArena
