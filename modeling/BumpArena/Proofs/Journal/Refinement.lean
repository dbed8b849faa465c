import BumpArena.Proofs.Journal.Commit
import BumpArena.Proofs.Journal.Session

/-!
# A session does what its ledger says

`Represents` ties a session to its ledger.  The entries lie in the journal back to back, each
holds its payload, and a committed one its header, while a slot that is not committed has no magic
word.  Before the first entry the journal is what it was when the session began, and so it is
behind the last one: no operation reaches past the frontier.

`Represents.run` is the refinement: no run of a session faults, and its ledger follows it.
`chain_committedPrefix` reads the journal off the ledger.
-/

namespace BumpArena

open Journal

/-! ## One entry in the journal -/

namespace LedgerEntry

/-- The reservation that a program holds for the entry while it is pending. -/
def reservation (e : LedgerEntry) (a : JournalArena) : Option Reservation :=
  match e.fate with
  | .pending => some ⟨a.region.id, a.generation, e.offset, e.payload.length⟩
  | _ => none

/-- What the slot of an entry begins with. -/
def HeaderHolds (e : LedgerEntry) (b : Buffer) (generation : UInt32) : Prop :=
  match e.fate with
  | .committed timestamp =>
    committedAt b e.offset = .ok (.ofPayload e.payload timestamp generation)
  | _ => magicAt b e.offset = 0

/-- The journal holds the entry. -/
structure Holds (e : LedgerEntry) (b : Buffer) (generation : UInt32) : Prop where
  exists_size : ∃ size, recordSize e.payload.length = some size
  stop_le : e.stop ≤ b.size
  payload : b.read (e.offset + Header.size) e.payload.length = e.payload
  header : e.HeaderHolds b generation

variable {e : LedgerEntry} {b c : Buffer} {generation : UInt32}

lemma offset_le_stop (e : LedgerEntry) : e.offset ≤ e.stop := Nat.le_add_right ..

lemma stop_eq {size : Nat} (h : recordSize e.payload.length = some size) :
    e.stop = e.offset + size := by
  rw [stop, h, Option.getD_some]

lemma Holds.room (h : e.Holds b generation) :
    e.offset + Header.size + e.payload.length ≤ e.stop ∧ e.offset + 64 ≤ e.stop := by
  obtain ⟨size, hsize⟩ := h.exists_size
  have hroom := le_of_recordSize hsize
  have hline := cacheLine_le_of_recordSize hsize
  rw [stop_eq hsize]
  omega

/-- The length of a payload that lies in a journal fits the length field. -/
lemma Holds.length_lt (h : e.Holds b generation) (hsize : b.size ≤ maxCapacity) :
    e.payload.length < UInt32.size := by
  have hmax : maxCapacity < UInt32.size := by decide
  have := h.room.1
  have := h.stop_le
  omega

/-- **What holds an entry is its own slot.** -/
lemma Holds.of_agreeOn (h : e.Holds b generation) (hmax : b.size ≤ maxCapacity)
    (hsize : b.size = c.size) (hagree : b.AgreeOn c e.offset e.stop) : e.Holds c generation := by
  have hroom := h.room
  refine ⟨h.exists_size, hsize ▸ h.stop_le, ?_, ?_⟩
  · rw [← hagree.read_eq (Nat.le_add_right ..) hroom.1, h.payload]
  have hlength := h.length_lt hmax
  obtain ⟨size, hrecord⟩ := h.exists_size
  have hstop := h.stop_le
  have hheader := h.header
  rw [stop_eq hrecord] at hstop hagree hroom
  have hzero : magicAt b e.offset = 0 → magicAt c e.offset = 0 := by
    have hhead : Header.size = 32 := rfl
    have hmagic : Header.magicOffset = 28 := rfl
    rw [magicAt, magicAt, hagree.read_eq (by omega) (by omega)]
    exact id
  obtain ⟨offset, payload, fate⟩ := e
  cases fate with
  | pending => exact hzero hheader
  | dropped => exact hzero hheader
  | committed timestamp =>
    refine committedAt_of_agreeOn hheader ?_ hagree (hsize ▸ hstop)
    rw [Header.recordSize, ← hrecord]
    congr 1
    exact Nat.mod_eq_of_lt hlength

end LedgerEntry

/-! ## Entries in a row -/

/-- The slots of the entries follow each other without a gap. -/
def Tiled : Nat → List LedgerEntry → Nat → Prop
  | start, [], stop => start = stop
  | start, e :: es, stop => e.offset = start ∧ Tiled e.stop es stop

namespace Tiled

variable {start stop : Nat} {e : LedgerEntry} {es fs : List LedgerEntry}

lemma le (h : Tiled start es stop) : start ≤ stop := by
  induction es generalizing start with
  | nil => exact Nat.le_of_eq h
  | cons e es ih =>
    obtain ⟨rfl, htail⟩ := h
    exact Nat.le_trans e.offset_le_stop (ih htail)

lemma bounds (h : Tiled start es stop) : ∀ e ∈ es, start ≤ e.offset ∧ e.stop ≤ stop := by
  induction es generalizing start with
  | nil => simp
  | cons e es ih =>
    obtain ⟨rfl, htail⟩ := h
    intro x hx
    rcases List.mem_cons.1 hx with rfl | hx
    · exact ⟨Nat.le_refl _, le htail⟩
    · obtain ⟨hlow, hhigh⟩ := ih htail x hx
      exact ⟨Nat.le_trans e.offset_le_stop hlow, hhigh⟩

/-- The slots take up the sizes of their records. -/
lemma stop_eq (h : Tiled start es stop) : stop = start + totalSize (es.map (·.payload)) := by
  induction es generalizing start with
  | nil => exact h.symm
  | cons e es ih =>
    obtain ⟨rfl, htail⟩ := h
    rw [ih htail, LedgerEntry.stop, List.map_cons, totalSize, Nat.add_assoc]

lemma append_iff : Tiled start (es ++ fs) stop ↔ ∃ mid, Tiled start es mid ∧ Tiled mid fs stop := by
  induction es generalizing start with
  | nil => simp [Tiled]
  | cons e es ih =>
    simp only [List.cons_append, Tiled, ih]
    constructor
    · rintro ⟨hoffset, mid, hfirst, hsecond⟩
      exact ⟨mid, ⟨hoffset, hfirst⟩, hsecond⟩
    · rintro ⟨mid, ⟨hoffset, hfirst⟩, hsecond⟩
      exact ⟨hoffset, mid, hfirst, hsecond⟩

lemma concat (h : Tiled start es e.offset) : Tiled start (es ++ [e]) e.stop :=
  append_iff.2 ⟨e.offset, h, rfl, rfl⟩

/-- Around one entry, all others keep clear of its slot. -/
lemma apart (h : Tiled start (es ++ e :: fs) stop) :
    (∀ x ∈ es, x.stop ≤ e.offset) ∧ ∀ x ∈ fs, e.stop ≤ x.offset := by
  obtain ⟨mid, hfirst, hoffset, hsecond⟩ := append_iff.1 h
  exact ⟨fun x hx => hoffset ▸ (bounds hfirst x hx).2, fun x hx => (bounds hsecond x hx).1⟩

lemma replace {e' : LedgerEntry} (h : Tiled start (es ++ e :: fs) stop)
    (hoffset : e'.offset = e.offset) (hstop : e'.stop = e.stop) :
    Tiled start (es ++ e' :: fs) stop := by
  obtain ⟨mid, hfirst, hmid, hsecond⟩ := append_iff.1 h
  exact append_iff.2 ⟨mid, hfirst, hoffset.trans hmid, hstop ▸ hsecond⟩

end Tiled

/-! ## A session and its ledger -/

/-- An append that is granted stores the payload, commits it, and leaves nothing pending. -/
lemma JournalSession.step_append_eq {s : JournalSession} {payload : List UInt8} {timestamp : UInt64}
    {p : Reservation} {arena : JournalArena} {bytes : Buffer}
    (h : s.arena.reserve s.bytes payload.length = .ok (some p, arena, bytes))
    (hlimit : p.offset + Header.size < Word.limit) :
    s.step (.append payload timestamp) = .ok
      ⟨arena, p.committed (bytes.write p.payloadOffset payload) timestamp, s.slots ++ [none]⟩ := by
  simp only [step, JournalArena.append_eq_of_reserve h hlimit, bind, Except.bind]
  rfl

/-- The session has the arena `a` open, which began at `start` in the journal `journal`, and the
ledger accounts for it. -/
structure Represents (journal : Buffer) (start : Nat) (a : JournalArena) (s : JournalSession)
    (l : Ledger) : Prop where
  region : s.arena.region = a.region
  generation : s.arena.generation = a.generation
  size_eq : s.bytes.size = l.origin.size
  size_le : l.origin.size ≤ maxCapacity
  capacity : s.arena.counter.capacity = l.origin.size
  position : if l.full then l.origin.size < s.arena.counter.position
    else s.arena.counter.position = l.cursor
  cursor_le : l.cursor ≤ l.origin.size
  cursor_dvd : 64 ∣ l.cursor
  tiled : Tiled start l.entries l.cursor
  holds : ∀ e ∈ l.entries, e.Holds s.bytes a.generation
  before : s.bytes.AgreeOn journal 0 start
  after : s.bytes.AgreeOn l.origin l.cursor l.origin.size
  slots : s.slots = l.entries.map (·.reservation a)

namespace Represents

variable {journal : Buffer} {start : Nat} {a : JournalArena} {s : JournalSession} {l : Ledger}

lemma two_mul_capacity_lt (h : Represents journal start a s l) :
    2 * s.arena.counter.capacity + 1 < Word.limit := by
  rw [h.capacity]
  exact two_mul_lt_of_le_maxCapacity h.size_le

/-- A new entry comes behind all others, where the journal was untouched. -/
lemma push (h : Represents journal start a s l) {size : Nat} {e : LedgerEntry} {c : Buffer}
    (hfull : l.full = false) (hoffset : e.offset = l.cursor)
    (hsize : recordSize e.payload.length = some size) (hroom : l.cursor + size ≤ l.origin.size)
    (hcsize : c.size = s.bytes.size)
    (hagree : ∀ low high, high ≤ l.cursor ∨ l.cursor + size ≤ low → c.AgreeOn s.bytes low high)
    (hholds : e.Holds c a.generation) :
    Represents journal start a
      ⟨s.arena.moveTo (l.cursor + size), c, s.slots ++ [e.reservation a]⟩
      { l with cursor := l.cursor + size, entries := l.entries ++ [e] } := by
  have hstart := h.tiled.le
  have hstop : e.stop = l.cursor + size := by rw [e.stop_eq hsize, hoffset]
  have hmax : s.bytes.size ≤ maxCapacity := h.size_eq ▸ h.size_le
  refine
    { region := h.region
      generation := h.generation
      size_eq := hcsize.trans h.size_eq
      size_le := h.size_le
      capacity := h.capacity
      position := by simp [hfull]
      cursor_le := hroom
      cursor_dvd := Nat.dvd_add h.cursor_dvd (dvd_of_recordSize hsize)
      tiled := hstop ▸ (hoffset ▸ h.tiled).concat
      holds := ?_
      before := (hagree 0 start (.inl hstart)).trans h.before
      after := ?_
      slots := by rw [h.slots, List.map_append, List.map_singleton] }
  · intro x hx
    rcases List.mem_append.1 hx with hx | hx
    · have hclear := (h.tiled.bounds x hx).2
      exact (h.holds x hx).of_agreeOn hmax hcsize.symm (hagree _ _ (.inl hclear)).symm
    · rw [List.mem_singleton.1 hx]
      exact hholds
  · exact (hagree _ _ (.inr (Nat.le_refl _))).trans
      (h.after.mono (Nat.le_add_right ..) (Nat.le_refl _))

/-- Around one element, a list falls in two, and setting the element leaves both alone. -/
lemma split_at {entries : List LedgerEntry} {slot : Nat} {e : LedgerEntry}
    (h : entries[slot]? = some e) :
    ∃ es fs, entries = es ++ e :: fs ∧ ∀ e', entries.set slot e' = es ++ e' :: fs := by
  obtain ⟨hslot, rfl⟩ := List.getElem?_eq_some_iff.1 h
  have hset (e' : LedgerEntry) :
      entries.set slot e' = entries.take slot ++ e' :: entries.drop (slot + 1) := by
    rw [List.set_eq_take_append_cons_drop, if_pos hslot]
  exact ⟨_, _, by rw [← hset, List.set_getElem_self], hset⟩

/-- An entry is edited in its own slot. -/
lemma edit (h : Represents journal start a s l) {slot : Nat} {e e' : LedgerEntry} {c : Buffer}
    {slots : List (Option Reservation)} (hentry : l.entries[slot]? = some e)
    (hoffset : e'.offset = e.offset) (hlength : e'.payload.length = e.payload.length)
    (hcsize : c.size = s.bytes.size)
    (hagree : ∀ low high, high ≤ e.offset ∨ e.stop ≤ low → c.AgreeOn s.bytes low high)
    (hholds : e'.Holds c a.generation) (hslots : slots = s.slots.set slot (e'.reservation a)) :
    Represents journal start a ⟨s.arena, c, slots⟩
      { l with entries := l.entries.set slot e' } := by
  obtain ⟨es, fs, hentries, hset⟩ := split_at hentry
  have hstop : e'.stop = e.stop := by rw [LedgerEntry.stop, LedgerEntry.stop, hoffset, hlength]
  have htiled := h.tiled
  rw [hentries] at htiled
  obtain ⟨hlow, hhigh⟩ := htiled.apart
  obtain ⟨hfirst, hlast⟩ := htiled.bounds e (by simp)
  have hmax : s.bytes.size ≤ maxCapacity := h.size_eq ▸ h.size_le
  refine
    { region := h.region
      generation := h.generation
      size_eq := hcsize.trans h.size_eq
      size_le := h.size_le
      capacity := h.capacity
      position := h.position
      cursor_le := h.cursor_le
      cursor_dvd := h.cursor_dvd
      tiled := ?_
      holds := ?_
      before := (hagree _ _ (.inl hfirst)).trans h.before
      after := (hagree _ _ (.inr hlast)).trans h.after
      slots := ?_ }
  · rw [hset]
    exact htiled.replace hoffset hstop
  · simp only [hset, List.mem_append, List.mem_cons]
    have hold (x : LedgerEntry) (hx : x ∈ es ∨ x ∈ fs) : x.Holds s.bytes a.generation := by
      refine h.holds x ?_
      rw [hentries, List.mem_append, List.mem_cons]
      exact hx.imp_right .inr
    rintro x (hx | rfl | hx)
    · exact (hold x (.inl hx)).of_agreeOn hmax hcsize.symm (hagree _ _ (.inl (hlow x hx))).symm
    · exact hholds
    · exact (hold x (.inr hx)).of_agreeOn hmax hcsize.symm (hagree _ _ (.inr (hhigh x hx))).symm
  · rw [hslots, h.slots, List.map_set]

/-! ## The operations -/

/-- What the arena answers to a request is what the ledger decides. -/
lemma reserve_cases (h : Represents journal start a s l) (length : Nat) :
    (∃ arena, s.arena.reserve s.bytes length = .ok (none, arena, s.bytes) ∧
      ∀ payload fate, payload.length = length →
        l.grant payload fate = { l with full := l.full || (recordSize length).isSome } ∧
        Represents journal start a ⟨arena, s.bytes, s.slots⟩ (l.grant payload fate)) ∨
    ∃ size, recordSize length = some size ∧ l.full = false ∧ l.cursor + size ≤ l.origin.size ∧
      s.arena.reserve s.bytes length = .ok (some ⟨a.region.id, a.generation, l.cursor, length⟩,
        s.arena.moveTo (l.cursor + size),
        s.bytes.write (l.cursor + Header.magicOffset) [0, 0, 0, 0]) ∧
      ∀ payload fate, payload.length = length → l.grant payload fate =
        { l with cursor := l.cursor + size, entries := l.entries ++ [⟨l.cursor, payload, fate⟩] } := by
  have hposition := h.position
  cases hrecord : recordSize length with
  | none =>
    refine .inl ⟨s.arena, JournalArena.reserve_of_recordSize_eq_none hrecord, ?_⟩
    rintro payload fate rfl
    rw [Ledger.grant, hrecord, Option.isSome_none, Bool.or_false]
    exact ⟨rfl, h⟩
  | some size =>
    have hreserve := JournalArena.reserve_of_recordSize_eq_some (a := s.arena) (b := s.bytes)
      hrecord h.two_mul_capacity_lt
    cases hfull : l.full with
    | true =>
      rw [hfull, if_pos rfl] at hposition
      rw [if_pos (by rwa [h.capacity])] at hreserve
      refine .inl ⟨s.arena, hreserve, ?_⟩
      rintro payload fate rfl
      rw [Ledger.grant, hrecord]
      simp only [hfull, if_true, Bool.true_or]
      exact ⟨by rw [← hfull], h⟩
    | false =>
      rw [hfull, if_neg (by simp)] at hposition
      have hcursor := h.cursor_le
      rw [h.capacity, if_neg (by omega), hposition, h.region, h.generation] at hreserve
      by_cases hroom : l.cursor + size ≤ l.origin.size
      · rw [if_pos hroom] at hreserve
        refine .inr ⟨size, rfl, rfl, hroom, hreserve, ?_⟩
        · rintro payload fate rfl
          rw [Ledger.grant, hrecord]
          simp only [hfull, Nat.not_lt.2 hroom, if_false, Bool.false_eq_true]
      · rw [if_neg hroom] at hreserve
        refine .inl ⟨_, hreserve, ?_⟩
        rintro payload fate rfl
        rw [Ledger.grant, hrecord]
        simp only [hfull, Nat.lt_of_not_le hroom, if_true, if_false, Bool.false_eq_true]
        exact ⟨rfl,
          { region := h.region
            generation := h.generation
            size_eq := h.size_eq
            size_le := h.size_le
            capacity := h.capacity
            position := by
              rw [if_pos rfl]
              show l.origin.size < l.cursor + min size (l.origin.size + 1)
              omega
            cursor_le := h.cursor_le
            cursor_dvd := h.cursor_dvd
            tiled := h.tiled
            holds := h.holds
            before := h.before
            after := h.after
            slots := h.slots }⟩

/-- Clearing a magic word leaves zero there. -/
lemma magicAt_write_zeros {b : Buffer} {offset : Nat} (h : offset + Header.size ≤ b.size) :
    magicAt (b.write (offset + Header.magicOffset) [0, 0, 0, 0]) offset = 0 := by
  have hhead : Header.size = 32 := rfl
  have hmagic : Header.magicOffset = 28 := rfl
  have hread := b.read_write_self
    (show offset + Header.magicOffset + [(0 : UInt8), 0, 0, 0].length ≤ b.size by
      simp only [List.length_cons, List.length_nil]
      omega)
  simp only [List.length_cons, List.length_nil, Nat.zero_add, Nat.reduceAdd] at hread
  rw [magicAt, hread]
  rfl

lemma step_reserve (h : Represents journal start a s l) (length : Nat) :
    ∃ t, s.step (.reserve length) = .ok t ∧
      Represents journal start a t (l.step (.reserve length)) := by
  have hlength := l.origin.length_read (l.cursor + Header.size) length
  rcases h.reserve_cases length with ⟨arena, hreserve, hgrant⟩ |
    ⟨size, hsize, hfull, hroom, hreserve, hgrant⟩
  · refine ⟨⟨arena, s.bytes, s.slots ++ []⟩, ?_, ?_⟩
    · simp only [JournalSession.step, hreserve, bind, Except.bind]
      rfl
    · rw [List.append_nil]
      exact (hgrant _ _ hlength).2
  · let e : LedgerEntry := ⟨l.cursor, l.origin.read (l.cursor + Header.size) length, .pending⟩
    have hstep : s.step (.reserve length) = .ok ⟨s.arena.moveTo (l.cursor + size),
        s.bytes.write (l.cursor + Header.magicOffset) [0, 0, 0, 0],
        s.slots ++ [e.reservation a]⟩ := by
      simp only [JournalSession.step, hreserve, LedgerEntry.reservation, e, hlength, bind,
        Except.bind]
      rfl
    refine ⟨_, hstep, ?_⟩
    rw [Ledger.step, hgrant _ _ hlength]
    have hhead : Header.size = 32 := rfl
    have hmagic : Header.magicOffset = 28 := rfl
    have hroom' := le_of_recordSize hsize
    have hline := cacheLine_le_of_recordSize hsize
    have hbytes := h.size_eq
    have hsize' : recordSize e.payload.length = some size := by rw [hlength, hsize]
    refine h.push (e := e) hfull rfl hsize' hroom (Buffer.size_write ..)
      (fun low high hclear => Buffer.agreeOn_write ?_) ⟨⟨size, hsize'⟩, ?_, ?_, ?_⟩
    · simp only [List.length_cons, List.length_nil]
      omega
    · rw [e.stop_eq hsize', Buffer.size_write, hbytes]
      exact hroom
    · show Buffer.read _ (l.cursor + Header.size) e.payload.length = e.payload
      rw [hlength, Buffer.read_write_of_disjoint _ (.inr ?_)]
      · exact h.after.read_eq (by omega) (by omega)
      · simp only [List.length_cons, List.length_nil]
        omega
    · exact magicAt_write_zeros (by omega)

lemma step_append (h : Represents journal start a s l) (payload : List UInt8)
    (timestamp : UInt64) :
    ∃ t, s.step (.append payload timestamp) = .ok t ∧
      Represents journal start a t (l.step (.append payload timestamp)) := by
  rcases h.reserve_cases payload.length with ⟨arena, hreserve, hgrant⟩ |
    ⟨size, hsize, hfull, hroom, hreserve, hgrant⟩
  · refine ⟨⟨arena, s.bytes, s.slots ++ []⟩, ?_, ?_⟩
    · simp only [JournalSession.step, JournalArena.append_eq_of_refused hreserve, bind, Except.bind]
      rfl
    · rw [List.append_nil]
      exact (hgrant _ _ rfl).2
  · have hhead : Header.size = 32 := rfl
    have hmagic : Header.magicOffset = 28 := rfl
    have hroom' := le_of_recordSize hsize
    have hline := cacheLine_le_of_recordSize hsize
    have hbytes := h.size_eq
    have hmax := h.size_le
    have hlimit : maxCapacity < UInt32.size ∧ UInt32.size < Word.limit := by decide
    let p : Reservation := ⟨a.region.id, a.generation, l.cursor, payload.length⟩
    let e : LedgerEntry := ⟨l.cursor, payload, .committed timestamp⟩
    let cleared := s.bytes.write (l.cursor + Header.magicOffset) [0, 0, 0, 0]
    let written := cleared.write p.payloadOffset payload
    have hwritten : written.size = s.bytes.size := by
      rw [Buffer.size_write, Buffer.size_write]
    have hstep : s.step (.append payload timestamp) = .ok ⟨s.arena.moveTo (l.cursor + size),
        p.committed written timestamp, s.slots ++ [e.reservation a]⟩ :=
      JournalSession.step_append_eq hreserve (show l.cursor + Header.size < Word.limit by omega)
    refine ⟨_, hstep, ?_⟩
    rw [Ledger.step, hgrant _ _ rfl]
    have hpayload : written.read p.payloadOffset payload.length = payload :=
      Buffer.read_write_self _ (by
        show l.cursor + Header.size + payload.length ≤ cleared.size
        rw [Buffer.size_write]
        omega)
    have hkept : (p.committed written timestamp).AgreeOn written p.payloadOffset
        (p.payloadOffset + payload.length) :=
      Reservation.agreeOn_committed timestamp (.inr (Nat.le_refl _))
    refine h.push (e := e) hfull rfl hsize hroom
      (by rw [Reservation.size_committed, hwritten]) ?_ ⟨⟨size, hsize⟩, ?_, ?_, ?_⟩
    · intro low high hclear
      have hoffset : p.payloadOffset = l.cursor + 32 := rfl
      have hcommit : (p.committed written timestamp).AgreeOn written low high := by
        refine Reservation.agreeOn_committed timestamp ?_
        show high ≤ l.cursor ∨ l.cursor + Header.size ≤ low
        omega
      have hwrite : written.AgreeOn cleared low high := Buffer.agreeOn_write (by omega)
      have hclear' : cleared.AgreeOn s.bytes low high := by
        refine Buffer.agreeOn_write ?_
        simp only [List.length_cons, List.length_nil]
        omega
      exact (hcommit.trans hwrite).trans hclear'
    · rw [e.stop_eq hsize, Reservation.size_committed, hwritten, hbytes]
      exact hroom
    · exact (hkept.read_eq (Nat.le_refl _) (Nat.le_refl _)).trans hpayload
    · show committedAt (p.committed written timestamp) p.offset = _
      rw [Reservation.committedAt_committed timestamp hsize
        (by show l.cursor + size ≤ written.size; omega) (by show payload.length < _; omega),
        Reservation.header_eq]
      show _ = Except.ok (Header.ofPayload payload timestamp a.generation)
      rw [← hpayload]
      rfl

/-- A number that is not that of a pending record is not revised. -/
lemma revise_of_pending_eq_none (h : Represents journal start a s l) {slot : Nat}
    (hnone : s.pending slot = none) (change : LedgerEntry → LedgerEntry) :
    l.revise slot change = l := by
  rw [JournalSession.pending, h.slots, List.getElem?_map] at hnone
  unfold Ledger.revise
  split
  · rfl
  · rename_i e hentry
    rw [hentry] at hnone
    split
    · rename_i hfate
      simp [LedgerEntry.reservation, hfate] at hnone
    · rfl

/-- A pending record is held as the reservation of its entry. -/
lemma exists_of_pending_eq_some (h : Represents journal start a s l) {slot : Nat} {p : Reservation}
    (hsome : s.pending slot = some p) :
    ∃ e, l.entries[slot]? = some e ∧ e.fate = .pending ∧
      p = ⟨a.region.id, a.generation, e.offset, e.payload.length⟩ ∧
      ∀ change, l.revise slot change = { l with entries := l.entries.set slot (change e) } := by
  rw [JournalSession.pending, h.slots, List.getElem?_map] at hsome
  cases hentry : l.entries[slot]? with
  | none => simp [hentry] at hsome
  | some e =>
    rw [hentry] at hsome
    cases hfate : e.fate with
    | pending =>
      obtain rfl : _ = p := by simpa [LedgerEntry.reservation, hfate] using hsome
      exact ⟨e, rfl, hfate, rfl, fun change => by rw [Ledger.revise, hentry]; simp [hfate]⟩
    | dropped => simp [LedgerEntry.reservation, hfate] at hsome
    | committed timestamp => simp [LedgerEntry.reservation, hfate] at hsome

lemma step_drop (h : Represents journal start a s l) (slot : Nat) :
    ∃ t, s.step (.drop slot) = .ok t ∧ Represents journal start a t (l.step (.drop slot)) := by
  cases hpending : s.pending slot with
  | none =>
    refine ⟨s, by simp only [JournalSession.step, hpending], ?_⟩
    rw [Ledger.step, h.revise_of_pending_eq_none hpending]
    exact h
  | some p =>
    obtain ⟨e, hentry, hfate, rfl, hrevise⟩ := h.exists_of_pending_eq_some hpending
    refine ⟨{ s with slots := s.slots.set slot none },
      by simp only [JournalSession.step, hpending], ?_⟩
    rw [Ledger.step, hrevise]
    have hholds := h.holds e (List.mem_of_getElem? hentry)
    have hzero : magicAt s.bytes e.offset = 0 := by
      have := hholds.header
      rwa [LedgerEntry.HeaderHolds, hfate] at this
    exact h.edit hentry rfl rfl rfl (fun _ _ _ => Buffer.AgreeOn.refl _ _ _)
      ⟨hholds.exists_size, hholds.stop_le, hholds.payload, hzero⟩ rfl

lemma step_commit (h : Represents journal start a s l) (slot : Nat) (timestamp : UInt64) :
    ∃ t, s.step (.commit slot timestamp) = .ok t ∧
      Represents journal start a t (l.step (.commit slot timestamp)) := by
  cases hpending : s.pending slot with
  | none =>
    refine ⟨s, by simp only [JournalSession.step, hpending], ?_⟩
    rw [Ledger.step, h.revise_of_pending_eq_none hpending]
    exact h
  | some p =>
    obtain ⟨e, hentry, hfate, hp, hrevise⟩ := h.exists_of_pending_eq_some hpending
    have hoffset : p.offset = e.offset := by rw [hp]
    have hlength : p.length = e.payload.length := by rw [hp]
    have hholds := h.holds e (List.mem_of_getElem? hentry)
    have hroom := hholds.room
    have hfits := hholds.stop_le
    have hhead : Header.size = 32 := rfl
    have hmax : s.bytes.size ≤ maxCapacity := h.size_eq ▸ h.size_le
    have hlimit : maxCapacity < Word.limit := by decide
    obtain ⟨size, hsize⟩ := hholds.exists_size
    have hstep : s.step (.commit slot timestamp) =
        .ok ⟨s.arena, p.committed s.bytes timestamp, s.slots.set slot none⟩ := by
      simp only [JournalSession.step, hpending, bind, Except.bind,
        Reservation.commit_eq timestamp (show p.offset + Header.size < Word.limit by omega)]
      rfl
    refine ⟨_, hstep, ?_⟩
    rw [Ledger.step, hrevise]
    have hkept : (p.committed s.bytes timestamp).AgreeOn s.bytes (e.offset + Header.size) e.stop :=
      Reservation.agreeOn_committed timestamp (.inr (by omega))
    refine h.edit hentry rfl rfl (Reservation.size_committed timestamp) (fun low high hclear =>
      Reservation.agreeOn_committed timestamp (by omega)) ⟨⟨size, hsize⟩, ?_, ?_, ?_⟩ rfl
    · rw [Reservation.size_committed]
      exact hfits
    · rw [hkept.read_eq (Nat.le_refl _) hroom.1, hholds.payload]
    · show committedAt (p.committed s.bytes timestamp) e.offset =
        .ok (Header.ofPayload e.payload timestamp a.generation)
      have hpayload : p.payload s.bytes = e.payload := by
        rw [Reservation.payload, Reservation.payloadOffset, hoffset, hlength, hholds.payload]
      rw [e.stop_eq hsize] at hfits
      rw [← hoffset, Reservation.committedAt_committed timestamp (hlength ▸ hsize)
        (hoffset ▸ hfits) (hlength ▸ hholds.length_lt hmax), Reservation.header_eq, hpayload, hp]

lemma step_write (h : Represents journal start a s l) (slot position : Nat) (data : List UInt8) :
    ∃ t, s.step (.write slot position data) = .ok t ∧
      Represents journal start a t (l.step (.write slot position data)) := by
  cases hpending : s.pending slot with
  | none =>
    refine ⟨s, by simp only [JournalSession.step, hpending], ?_⟩
    rw [Ledger.step, h.revise_of_pending_eq_none hpending]
    exact h
  | some p =>
    obtain ⟨e, hentry, hfate, hp, hrevise⟩ := h.exists_of_pending_eq_some hpending
    have hslot : s.slots.set slot (some p) = s.slots := by
      obtain ⟨hlt, hget⟩ := List.getElem?_eq_some_iff.1 (Option.join_eq_some_iff.1 hpending)
      rw [← hget, List.set_getElem_self]
    have hstep : s.step (.write slot position data) =
        .ok ⟨s.arena, (p.write? s.bytes position data).getD s.bytes, s.slots⟩ := by
      simp only [JournalSession.step, hpending]
    refine ⟨_, hstep, ?_⟩
    rw [Ledger.step, hrevise]
    have hholds := h.holds e (List.mem_of_getElem? hentry)
    have hroom := hholds.room
    have hfits := hholds.stop_le
    have hhead : Header.size = 32 := rfl
    have hstart : p.payloadOffset = e.offset + Header.size := by rw [hp]; rfl
    have hzero : magicAt s.bytes e.offset = 0 := by
      have := hholds.header
      rwa [LedgerEntry.HeaderHolds, hfate] at this
    have hreservation : some p =
        LedgerEntry.reservation { e with payload := Ledger.overlay e.payload position data } a := by
      simp only [LedgerEntry.reservation, hfate, Ledger.length_overlay, hp]
    by_cases hfit : position + data.length ≤ e.payload.length
    · have hwrite : (p.write? s.bytes position data).getD s.bytes =
          s.bytes.write (e.offset + Header.size + position) data := by
        rw [Reservation.write?, if_pos (by rw [hp]; exact hfit), hstart, Option.getD_some]
      rw [hwrite]
      have hkept : (s.bytes.write (e.offset + Header.size + position) data).AgreeOn s.bytes
          e.offset (e.offset + Header.size) := Buffer.agreeOn_write (by omega)
      have hmagic : Header.magicOffset = 28 := rfl
      refine h.edit hentry rfl (Ledger.length_overlay ..) (Buffer.size_write ..)
        (fun low high hclear => Buffer.agreeOn_write (by omega)) ⟨?_, ?_, ?_, ?_⟩
        (hreservation ▸ hslot.symm)
      · rw [Ledger.length_overlay]
        exact hholds.exists_size
      · rw [LedgerEntry.stop, Ledger.length_overlay, Buffer.size_write]
        exact hfits
      · show Buffer.read _ (e.offset + Header.size) (Ledger.overlay ..).length = Ledger.overlay ..
        rw [Ledger.length_overlay, Buffer.read_write_inside _ hfit (by omega), hholds.payload,
          Ledger.overlay, if_pos hfit]
      · simp only [LedgerEntry.HeaderHolds, hfate]
        rw [← hzero, magicAt, magicAt, hkept.read_eq (by omega) (by omega)]
    · have hwrite : (p.write? s.bytes position data).getD s.bytes = s.bytes := by
        rw [Reservation.write?, if_neg (by rw [hp]; exact hfit), Option.getD_none]
      have hsame : ({ e with payload := Ledger.overlay e.payload position data } : LedgerEntry) =
          e := by
        rw [Ledger.overlay, if_neg hfit]
      rw [hwrite, hsame]
      rw [hsame] at hreservation
      exact h.edit hentry rfl rfl rfl (fun _ _ _ => Buffer.AgreeOn.refl _ _ _) hholds
        (hreservation ▸ hslot.symm)

/-- **No operation faults, and the ledger follows each.** -/
lemma step (h : Represents journal start a s l) (op : JournalOp) :
    ∃ t, s.step op = .ok t ∧ Represents journal start a t (l.step op) := by
  cases op with
  | reserve length => exact h.step_reserve length
  | write slot position data => exact h.step_write slot position data
  | commit slot timestamp => exact h.step_commit slot timestamp
  | drop slot => exact h.step_drop slot
  | append payload timestamp => exact h.step_append payload timestamp

/-- **No run faults, and the ledger follows it.** -/
lemma run (h : Represents journal start a s l) (ops : List JournalOp) :
    ∃ t, s.run ops = .ok t ∧ Represents journal start a t (l.run ops) := by
  induction ops generalizing s l with
  | nil => exact ⟨s, rfl, h⟩
  | cons op ops ih =>
    obtain ⟨t, hstep, ht⟩ := h.step op
    obtain ⟨u, hrun, hu⟩ := ih ht
    refine ⟨u, ?_, hu⟩
    rw [JournalSession.run, List.foldlM_cons, hstep]
    exact hrun

end Represents

/-! ## Reading the journal off the ledger -/

section Reading

variable {b : Buffer} {generation : UInt32} {e : LedgerEntry} {m : Mark}

/-- A committed entry is the next record of the walk. -/
lemma checkAt_of_record? (hholds : e.Holds b generation) (hmax : b.size ≤ maxCapacity)
    (hoffset : e.offset = m.offset) (hgeneration : ∀ g ∈ m.generation, g ≤ generation)
    {r : Record} (hrecord : e.record? generation = some r) :
    checkAt b m = .ok r ∧ r.mark = ⟨e.stop, some generation⟩ := by
  have hlength := hholds.length_lt hmax
  have hpayload := hholds.payload
  have hheader := hholds.header
  obtain ⟨size, hsize⟩ := hholds.exists_size
  have hstop := e.stop_eq hsize
  obtain ⟨offset, payload, fate⟩ := e
  cases fate with
  | pending => cases hrecord
  | dropped => cases hrecord
  | committed timestamp =>
    obtain rfl : _ = r := Option.some.inj hrecord
    have hword : (Header.ofPayload payload timestamp generation).length.toNat = payload.length :=
      Nat.mod_eq_of_lt hlength
    have hsize' : (Header.ofPayload payload timestamp generation).recordSize = some size := by
      rw [Header.recordSize, hword]
      exact hsize
    refine ⟨checkAt_eq_ok_iff.2 ⟨hoffset ▸ hheader, hoffset, ?_, hgeneration⟩, ?_⟩
    · rw [hword, ← hoffset]
      exact hpayload.symm
    · rw [hstop, Record.mark, Record.stop, hsize', Option.getD_some]
      rfl

/-- An entry that is not committed stops the walk. -/
lemma checkAt_of_record?_eq_none (hholds : e.Holds b generation) (hoffset : e.offset = m.offset)
    (hrecord : e.record? generation = none) : checkAt b m = .error .endOfData := by
  have hroom := hholds.room
  have hfits := hholds.stop_le
  have hheader := hholds.header
  have hzero : magicAt b m.offset = 0 := by
    obtain ⟨offset, payload, fate⟩ := e
    subst hoffset
    cases fate with
    | pending => exact hheader
    | dropped => exact hheader
    | committed timestamp => cases hrecord
  exact checkAt_of_committedAt_error (committedAt_of_magicAt_eq_zero (by omega) hzero)

/-- **The walk through the entries** yields the committed ones up to the first that is not, and
stops there; when there is no such entry, it stands behind the last one. -/
lemma chain_committedPrefix {es : List LedgerEntry} {stop : Nat} (hmax : b.size ≤ maxCapacity)
    (htiled : Tiled m.offset es stop) (hholds : ∀ e ∈ es, e.Holds b generation)
    (hgeneration : ∀ g ∈ m.generation, g ≤ generation) :
    ((∃ e ∈ es, e.record? generation = none) ∧
        ∃ n, Chain b m (committedPrefix generation es) n ∧ checkAt b n = .error .endOfData) ∨
      ((∀ e ∈ es, (e.record? generation).isSome) ∧
        Chain b m (committedPrefix generation es)
          ⟨stop, if es = [] then m.generation else some generation⟩) := by
  induction es generalizing m with
  | nil =>
    obtain rfl : m.offset = stop := htiled
    exact .inr ⟨by simp, by simpa using .nil m⟩
  | cons e es ih =>
    obtain ⟨hoffset, htail⟩ := htiled
    have hfirst := hholds e (by simp)
    cases hrecord : e.record? generation with
    | none =>
      refine .inl ⟨⟨e, by simp, hrecord⟩, m, ?_,
        checkAt_of_record?_eq_none hfirst hoffset hrecord⟩
      rw [committedPrefix, hrecord]
      exact .nil m
    | some r =>
      obtain ⟨hcheck, hmark⟩ := checkAt_of_record? hfirst hmax hoffset hgeneration hrecord
      have hstop : r.mark.offset = e.stop := by rw [hmark]
      rw [committedPrefix, hrecord]
      rcases ih (m := r.mark) (hstop ▸ htail) (fun x hx => hholds x (by simp [hx]))
        (by simp [hmark]) with ⟨⟨x, hx, hnone⟩, n, hchain, herror⟩ | ⟨hall, hchain⟩
      · exact .inl ⟨⟨x, by simp [hx], hnone⟩, n, .cons hcheck hchain, herror⟩
      · refine .inr ⟨by simpa [hrecord] using hall, ?_⟩
        have hgen : r.mark.generation = some generation := by rw [hmark]
        rw [hgen, ite_self] at hchain
        simpa using Chain.cons hcheck hchain

lemma isSome_record? (e : LedgerEntry) (generation : UInt32) :
    (e.record? generation).isSome = e.fate.isCommitted := by
  obtain ⟨offset, payload, fate⟩ := e
  cases fate <;> rfl

/-- A record as the entry that accounts for it. -/
def Journal.Record.entry (r : Record) : LedgerEntry :=
  ⟨r.offset, r.payload, .committed r.header.timestamp⟩

lemma entry_of_record? {r : Record} (h : e.record? generation = some r) : r.entry = e := by
  obtain ⟨offset, payload, fate⟩ := e
  cases fate with
  | pending => cases h
  | dropped => cases h
  | committed timestamp =>
    obtain rfl := Option.some.inj h
    rfl

/-- **Records account for themselves.**  When all entries are committed, they can be read off their
records. -/
lemma map_entry_committedPrefix {es : List LedgerEntry}
    (h : ∀ e ∈ es, (e.record? generation).isSome) :
    (committedPrefix generation es).map Record.entry = es := by
  induction es with
  | nil => rfl
  | cons e es ih =>
    obtain ⟨r, hrecord⟩ := Option.isSome_iff_exists.1 (h e (by simp))
    rw [committedPrefix, hrecord, List.map_cons, entry_of_record? hrecord,
      ih fun x hx => h x (by simp [hx])]

end Reading

end BumpArena
