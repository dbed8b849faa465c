import BumpArena.Proofs.Journal.Recovery

/-!
# The commit point

A commit stores the header byte by byte, and its magic word last.  A program can end between any two
of these stores, and the journal is left as it is then: with the payload in the slot, the first
bytes of the header, and in the place of the others whatever lay there when the slot was granted.
`records_committing` says that there is nothing in between.  A scan finds what it found before the
commit until the magic word is stored, and from that store on what it finds after the commit.

Up to the magic word the session is still on the ledger that it was on before
(`Represents.committing`), since the ledger looks at nothing in the slot of a pending record but
its magic word and its payload, and none of the stores before the last touches these.
-/

namespace BumpArena

open Journal

/-! ## Some of the stores -/

/-- Stores that keep clear of a range leave it as it is. -/
lemma agreeOn_foldl_apply {stores : List Store} {start stop : Nat} (b : Buffer)
    (h : ∀ store ∈ stores, stop ≤ store.offset ∨ store.offset + store.bytes.length ≤ start) :
    (stores.foldl Store.apply b).AgreeOn b start stop := by
  induction stores generalizing b with
  | nil => exact .refl _ _ _
  | cons store stores ih =>
    obtain ⟨hstore, hstores⟩ := List.forall_mem_cons.1 h
    exact (ih _ hstores).trans (Buffer.agreeOn_write hstore)

namespace Reservation

/-- The journal in the middle of a commit, after so many of its stores. -/
def committing (p : Reservation) (b : Buffer) (timestamp : UInt64) (count : Nat) : Buffer :=
  ((p.stores (p.header b timestamp)).take count).foldl Store.apply b

variable {p : Reservation} {b : Buffer} {timestamp : UInt64} {count : Nat}

@[simp] lemma size_committing : (p.committing b timestamp count).size = b.size :=
  size_foldl_apply _ _

lemma length_stores (h : Header) : (p.stores h).length = Header.magicOffset + 1 := by
  simp [stores, Header.magicOffset, Header.size]

/-- The stores before that of the magic word touch the header up to there, and nothing else. -/
lemma agreeOn_committing (hcount : count ≤ Header.magicOffset) {start stop : Nat}
    (h : stop ≤ p.offset ∨ p.offset + Header.magicOffset ≤ start) :
    (p.committing b timestamp count).AgreeOn b start stop := by
  refine agreeOn_foldl_apply b fun store hstore => ?_
  have hlength : ((p.header b timestamp).encode.take Header.magicOffset).length =
      Header.magicOffset := by
    simp [Header.magicOffset, Header.size]
  rw [stores, List.take_append_of_le_length (by rwa [List.length_mapIdx, hlength])] at hstore
  obtain ⟨i, hi, rfl⟩ := List.mem_mapIdx.1 (List.mem_of_mem_take hstore)
  rw [hlength] at hi
  simp only [List.length_singleton]
  omega

/-- With the magic word the commit is complete. -/
lemma committing_of_magicOffset_lt (hcount : Header.magicOffset < count) :
    p.committing b timestamp count = p.committed b timestamp := by
  rw [committing, List.take_of_length_le (by rwa [length_stores]), committed]

end Reservation

/-! ## The ledger in the middle of a commit -/

/-- What a scan finds in addition once a pending record is committed: nothing while an earlier
grant is not committed, and else the record and the committed ones directly behind it. -/
def Ledger.revealed (l : Ledger) (slot : Nat) (r : Record) : List Record :=
  if ∀ e ∈ l.entries.take slot, e.fate.isCommitted then
    r :: committedPrefix r.header.generation (l.entries.drop (slot + 1))
  else []

/-- The committed entries in front are those of the first part, and go on in the second if all of
the first are committed. -/
lemma committedPrefix_append (generation : UInt32) (es fs : List LedgerEntry) :
    committedPrefix generation (es ++ fs) = committedPrefix generation es ++
      if ∀ e ∈ es, e.fate.isCommitted then committedPrefix generation fs else [] := by
  induction es with
  | nil => simp [committedPrefix]
  | cons e es ih =>
    have hcommitted := isSome_record? e generation
    cases hrecord : e.record? generation with
    | none => simp [committedPrefix, hrecord, ← hcommitted]
    | some r =>
      rw [hrecord, Option.isSome_some] at hcommitted
      simp [committedPrefix, hrecord, ih, ← hcommitted]

namespace Represents

variable {journal : Buffer} {start slot : Nat} {a : JournalArena} {s : JournalSession} {l : Ledger}
  {p : Reservation}

/-- **Until the magic word is stored, nothing has happened** as far as the ledger goes. -/
lemma committing (h : Represents journal start a s l) (hpending : s.pending slot = some p)
    (timestamp : UInt64) {count : Nat} (hcount : count ≤ Header.magicOffset) :
    Represents journal start a { s with bytes := p.committing s.bytes timestamp count } l := by
  obtain ⟨e, hentry, hfate, hp, -⟩ := h.exists_of_pending_eq_some hpending
  obtain ⟨hslot, hget⟩ := List.getElem?_eq_some_iff.1 (Option.join_eq_some_iff.1 hpending)
  obtain ⟨hlt, he⟩ := List.getElem?_eq_some_iff.1 hentry
  have hoffset : p.offset = e.offset := by rw [hp]
  have hentries : l.entries.set slot e = l.entries := he ▸ List.set_getElem_self hlt
  have hslots : s.slots.set slot (e.reservation a) = s.slots := by
    rw [LedgerEntry.reservation, hfate, ← hp, ← hget, List.set_getElem_self]
  have hholds := h.holds e (List.mem_of_getElem? hentry)
  have hroom := hholds.room
  have hhead : Header.size = 32 := rfl
  have hmagic : Header.magicOffset = 28 := rfl
  have hkept : (p.committing s.bytes timestamp count).AgreeOn s.bytes
      (e.offset + Header.magicOffset) e.stop :=
    Reservation.agreeOn_committing hcount (.inr (by omega))
  have hholds' : e.Holds (p.committing s.bytes timestamp count) a.generation := by
    refine ⟨hholds.exists_size, ?_, ?_, ?_⟩
    · rw [Reservation.size_committing]
      exact hholds.stop_le
    · rw [hkept.read_eq (by omega) hroom.1, hholds.payload]
    · have hzero := hholds.header
      rw [LedgerEntry.HeaderHolds, hfate] at hzero ⊢
      rwa [magicAt, hkept.read_eq (Nat.le_refl _) (by omega), ← magicAt]
  -- The entry is replaced by itself: only the bytes have changed.
  have hsame := h.edit (c := p.committing s.bytes timestamp count) hentry rfl rfl
    Reservation.size_committing
    (fun low high hclear => Reservation.agreeOn_committing hcount (by omega)) hholds' hslots.symm
  rwa [hentries] at hsame

/-- **A commit that is complete succeeded,** and the ledger has the record as committed. -/
lemma committed (h : Represents journal start a s l) (hpending : s.pending slot = some p)
    (timestamp : UInt64) :
    (∃ handle, p.commit s.bytes timestamp = .ok (handle, p.committed s.bytes timestamp)) ∧
      Represents journal start a
        ⟨s.arena, p.committed s.bytes timestamp, s.slots.set slot none⟩
        (l.step (.commit slot timestamp)) := by
  obtain ⟨e, hentry, -, hp, -⟩ := h.exists_of_pending_eq_some hpending
  have hholds := h.holds e (List.mem_of_getElem? hentry)
  have hoffset : p.offset = e.offset := by rw [hp]
  have hlimit : maxCapacity < Word.limit := by decide
  have hroom := hholds.room
  have hfits := hholds.stop_le
  have hbytes := h.size_eq
  have hmax := h.size_le
  have hcommit := Reservation.commit_eq (b := s.bytes) timestamp
    (show p.offset + Header.size < Word.limit by omega)
  obtain ⟨t, hstep, ht⟩ := h.step_commit slot timestamp
  have hstep' : s.step (.commit slot timestamp) =
      .ok ⟨s.arena, p.committed s.bytes timestamp, s.slots.set slot none⟩ := by
    simp only [JournalSession.step, hpending, hcommit, bind, Except.bind]
    rfl
  obtain rfl := Except.ok.inj (hstep.symm.trans hstep')
  exact ⟨⟨_, hcommit⟩, ht⟩

/-- What a scan finds in a journal that was opened is what it found then, and what the ledger
says. -/
lemma records_eq {b : Buffer} (h : Represents b (scan b).finish.cursor a s l)
    (hopened : a.Opened b) (hunsaturated : Unsaturated b) (horigin : l.origin = b) :
    records s.bytes = records b ++ committedPrefix a.generation l.entries := by
  obtain ⟨rs, n, stop, hchain, hstop⟩ := Journal.exists_chain b .start
  have hfinish := finish_eq_of_chain hchain hstop
  have hcursor : n.offset = (scan b).finish.cursor := by rw [hfinish]
  have hgeneration : (scan b).finish.generation = n.generation := by rw [hfinish]
  rw [records_eq_of_chain hchain hstop]
  rcases h.exists_chain hchain hcursor (fun g hg => hopened.le_generation (hgeneration.trans hg))
    with ⟨-, k, hwalk, herror⟩ | ⟨-, hwalk⟩
  · exact records_eq_of_chain hwalk herror
  · obtain ⟨stop, herror⟩ := exists_checkAt_frontier hopened hunsaturated h horigin
    rw [hgeneration] at herror
    exact records_eq_of_chain hwalk herror

/-- Committing a pending record adds to the committed entries in front what it reveals. -/
lemma committedPrefix_step_commit (h : Represents journal start a s l)
    (hpending : s.pending slot = some p) (timestamp : UInt64) :
    committedPrefix a.generation (l.step (.commit slot timestamp)).entries =
      committedPrefix a.generation l.entries ++ l.revealed slot
        ⟨p.offset, .ofPayload (p.payload s.bytes) timestamp a.generation, p.payload s.bytes⟩ := by
  obtain ⟨e, hentry, hfate, hp, hrevise⟩ := h.exists_of_pending_eq_some hpending
  obtain ⟨hlt, he⟩ := List.getElem?_eq_some_iff.1 hentry
  have hpayload : p.payload s.bytes = e.payload := by
    rw [Reservation.payload, Reservation.payloadOffset, hp,
      (h.holds e (List.mem_of_getElem? hentry)).payload]
  have hentries : l.entries = l.entries.take slot ++ e :: l.entries.drop (slot + 1) := by
    rw [← he, ← List.drop_eq_getElem_cons hlt, List.take_append_drop]
  have hpending' : e.record? a.generation = none := by rw [LedgerEntry.record?, hfate]
  have hbefore : committedPrefix a.generation l.entries =
      committedPrefix a.generation (l.entries.take slot) := by
    conv_lhs => rw [hentries, committedPrefix_append, committedPrefix, hpending']
    simp
  rw [Ledger.step, hrevise, hbefore, Ledger.revealed, hpayload, hp,
    List.set_eq_take_append_cons_drop, if_pos hlt, committedPrefix_append]
  rfl

end Represents

/-! ## The commit point -/

variable {config : JournalConfig} {s s' : Storage} {a : JournalArena}

/-- **A commit happens at one store.**  Whatever a program did with the journal that it opened, and
whatever it stored in the payload of a record that it holds: before the last of the stores that
commit the record a scan finds the records that it found before the first.  After it, it finds this
record too, with its payload, its length, its timestamp and the generation of the arena, and the
committed ones directly behind it, when every earlier grant is committed; when one is not, it finds
the same as before. -/
theorem records_committing (hopen : JournalArena.Opens config s a s')
    (hunsaturated : Unsaturated (s'.contents a.region)) (ops : List JournalOp) :
    ∃ t, JournalSession.run { arena := a, bytes := s'.contents a.region } ops = .ok t ∧
      ∀ slot p, t.pending slot = some p → ∀ timestamp,
        (∃ handle, p.commit t.bytes timestamp =
          .ok (handle, p.committing t.bytes timestamp (Header.magicOffset + 1))) ∧
        (Header.ofPayload (p.payload t.bytes) timestamp a.generation).length.toNat = p.length ∧
        ∀ count, records (p.committing t.bytes timestamp count) = records t.bytes ++
          if count ≤ Header.magicOffset then []
          else ((Ledger.opening (s'.contents a.region)).run ops).revealed slot
            ⟨p.offset, .ofPayload (p.payload t.bytes) timestamp a.generation,
              p.payload t.bytes⟩ := by
  have hopened := hopen.opened
  generalize s'.contents a.region = b at hopened hunsaturated
  obtain ⟨t, hrun, ht : Represents b _ a t ((Ledger.opening b).run ops)⟩ :=
    (hopened.represents rfl (.refl _ _ _)).run ops
  have horigin : ((Ledger.opening b).run ops).origin = b := Ledger.origin_run ..
  have hrecords := ht.records_eq hopened hunsaturated horigin
  refine ⟨t, hrun, fun slot p hpending timestamp => ?_⟩
  obtain ⟨⟨handle, hcommit⟩, hafter⟩ := ht.committed hpending timestamp
  refine ⟨⟨handle, ?_⟩, ?_, fun count => ?_⟩
  · rwa [Reservation.committing_of_magicOffset_lt (Nat.lt_succ_self _)]
  · obtain ⟨e, hentry, -, hp, -⟩ := ht.exists_of_pending_eq_some hpending
    have hmax : t.bytes.size ≤ maxCapacity := ht.size_eq ▸ ht.size_le
    have hlength := (ht.holds e (List.mem_of_getElem? hentry)).length_lt hmax
    show (UInt32.ofNat (p.payload t.bytes).length).toNat = p.length
    rw [Reservation.payload, Buffer.length_read, hp]
    exact Nat.mod_eq_of_lt hlength
  · split
    · rename_i hcount
      have hbefore := ht.committing hpending timestamp hcount
      rw [List.append_nil, hrecords, hbefore.records_eq hopened hunsaturated horigin]
    · rename_i hcount
      have hfound := hafter.records_eq hopened hunsaturated (by rw [Ledger.origin_step, horigin])
      rw [Reservation.committing_of_magicOffset_lt (Nat.lt_of_not_le hcount), hrecords,
        List.append_assoc, ← ht.committedPrefix_step_commit hpending timestamp]
      simpa only using hfound

/-- A program that has just opened the journal with the leftover. -/
def leftoverSession : JournalSession where
  arena := (JournalArena.recover leftoverRegion (leftoverStorage.contents leftoverRegion)).1
  bytes := leftoverStorage.contents leftoverRegion

/-- A record that lies over the leftover of a later arena, with a committed one behind it, and its
commit just before the last store and just after it. -/
theorem records_committing_leftover : ∃ a s' t p,
    JournalArena.Opens ⟨"journal", 4096⟩ leftoverStorage a s' ∧
      Unsaturated (s'.contents a.region) ∧
      JournalSession.run { arena := a, bytes := s'.contents a.region }
        [.append [4] 8, .reserve 2, .append [6] 9, .write 1 0 [5, 5]] = .ok t ∧
      t.pending 1 = some p ∧
      records (p.committing t.bytes 10 28) =
        [⟨0, .ofPayload [1, 2, 3] 7 2, [1, 2, 3]⟩, ⟨64, .ofPayload [4] 8 6, [4]⟩] ∧
      records (p.committing t.bytes 10 29) =
        [⟨0, .ofPayload [1, 2, 3] 7 2, [1, 2, 3]⟩, ⟨64, .ofPayload [4] 8 6, [4]⟩,
          ⟨128, .ofPayload [5, 5] 10 6, [5, 5]⟩, ⟨192, .ofPayload [6] 9 6, [6]⟩] := by
  let ops : List JournalOp := [.append [4] 8, .reserve 2, .append [6] 9, .write 1 0 [5, 5]]
  let p : Reservation := ⟨leftoverRegion.id, 6, 128, 2⟩
  obtain ⟨t, hrun, hcommitting⟩ := records_committing opens_leftover unsaturated_leftover ops
  have hrun' : leftoverSession.run ops = .ok t := hrun
  have hstate : (leftoverSession.run ops).toOption.map
        (fun t => (t.pending 1, p.payload t.bytes, records t.bytes)) =
      some (some p, [5, 5],
        [⟨0, .ofPayload [1, 2, 3] 7 2, [1, 2, 3]⟩, ⟨64, .ofPayload [4] 8 6, [4]⟩]) := by
    decide +kernel
  rw [hrun', Except.toOption, Option.map_some, Option.some.injEq, Prod.mk.injEq,
    Prod.mk.injEq] at hstate
  obtain ⟨hpending, hpayload, hrecords⟩ := hstate
  obtain ⟨-, -, hfound⟩ := hcommitting 1 p hpending 10
  refine ⟨_, _, t, p, opens_leftover, unsaturated_leftover, hrun, hpending, ?_, ?_⟩
  · rw [hfound, hrecords]
    rfl
  · rw [hfound, hrecords, hpayload]
    decide +kernel

end BumpArena
