import BumpArena.Proofs.Arena.Serving
import BumpArena.Proofs.Journal.Reset

/-!
# The slots of a journal

A journal hands out slots, and a program stores in them directly: nothing checks a store against the
slots of others.  That this is safe has to follow from where slots are granted.  `JournalHistory`
has a program with all that it learned from the journal: the offsets at which slots were granted,
the handles that commits yielded, and whether a request was refused for lack of room.
`JournalHistory.Safe` is what the program relies on, and `JournalHistory.safe_of_run` says that it
holds whatever the program does with a journal, however the journal came to be open.

The ledger of the session has the same slots (`JournalHistory.Follows`), and there they lie side by
side behind the records that were found when the journal was opened.
-/

namespace BumpArena

open Journal

/-! ## What a program learns -/

/-- What became of a slot.  A commit yields a handle, and the payload is what it was then. -/
inductive SlotFate where
  | pending
  | dropped
  | committed (h : Handle) (payload : List UInt8)
  deriving DecidableEq, Repr

/-- A slot that was granted. -/
structure Slot where
  /-- The offset of its header. -/
  offset : Nat
  /-- The length of its payload. -/
  length : Nat
  fate : SlotFate
  deriving DecidableEq, Repr

/-- The bytes of a slot. -/
def Slot.span (g : Slot) : Span := ⟨g.offset, g.offset + (recordSize g.length).getD 0⟩

/-- The bytes of a record. -/
def Journal.Record.span (r : Record) : Span := ⟨r.offset, r.stop⟩

/-- What a program does with a journal. -/
inductive JournalCall where
  | op (op : JournalOp)
  | reset
  deriving DecidableEq, Repr

/-- A program that has a journal open, with what it learned. -/
structure JournalHistory where
  session : JournalSession
  /-- The slots that were granted since the last reset, or else since the journal was opened. -/
  slots : List Slot := []
  /-- Whether a request was refused for lack of room since then. -/
  refused : Bool := false
  /-- Whether the journal was reset. -/
  wasReset : Bool := false

namespace JournalHistory

/-- What a program learns from the answer to a request.  One for more than a word is not refused for
lack of room. -/
def answer (h : JournalHistory) (length : Nat) : Option Slot → JournalHistory
  | some granted => { h with slots := h.slots ++ [granted] }
  | none => { h with refused := h.refused || (recordSize length).isSome }

/-- What a program learns of a slot that it settles. -/
def settle (h : JournalHistory) (slot : Nat) (fate : SlotFate) : JournalHistory :=
  { h with slots := h.slots.modify slot fun g => { g with fate } }

/-- What a program learns from an operation. -/
def learn (h : JournalHistory) : JournalOp → Checked JournalHistory
  | .reserve length => do
    let (reserved, _) ← h.session.arena.reserve h.session.bytes length
    return h.answer length (reserved.map fun p => ⟨p.offset, p.length, .pending⟩)
  | .write .. => .ok h
  | .commit slot timestamp =>
    match h.session.pending slot with
    | none => .ok h
    | some p => do
      let (handle, _) ← p.commit h.session.bytes timestamp
      return h.settle slot (.committed handle (p.payload h.session.bytes))
  | .drop slot =>
    match h.session.pending slot with
    | none => .ok h
    | some _ => .ok (h.settle slot .dropped)
  | .append payload timestamp => do
    let (reserved, _) ← h.session.arena.reserve h.session.bytes payload.length
    let (appended, _) ← h.session.arena.append h.session.bytes payload timestamp
    return h.answer payload.length (reserved.bind fun p =>
      appended.map fun handle => ⟨p.offset, p.length, .committed handle payload⟩)

/-- One operation, or starting over. -/
def step (h : JournalHistory) : JournalCall → Checked JournalHistory
  | .op op => do
    let session ← h.session.step op
    return { ← h.learn op with session }
  | .reset => do
    return { session := ← h.session.reset, wasReset := true }

/-- Operations and resets in turn. -/
def run (h : JournalHistory) (calls : List JournalCall) : Checked JournalHistory :=
  calls.foldlM step h

/-- **What a program relies on**, where the journal is in a region and some records were found in it
when it was opened. -/
structure Safe (h : JournalHistory) (r : Region) (found : List Record) : Prop where
  /-- A slot is aligned, and has room for its record in the region. -/
  placed : ∀ g ∈ h.slots, 64 ∣ g.offset ∧
    ∃ size, recordSize g.length = some size ∧ g.offset + size ≤ r.capacity
  /-- The length of a payload fits the length field of a header. -/
  length_lt : ∀ g ∈ h.slots, g.length < UInt32.size
  /-- Slots overlap nowhere, whatever became of them. -/
  disjoint : (h.slots.map Slot.span).Pairwise Span.Disjoint
  /-- They do not reach into what was found, as long as nothing was reset. -/
  found : h.wasReset = false → ∀ x ∈ found, ∀ g ∈ h.slots, x.span.Disjoint g.span
  /-- The handle of a committed slot names its payload, which stays as it was committed. -/
  committed : ∀ g ∈ h.slots, ∀ handle payload, g.fate = .committed handle payload →
    handle.offset.toNat = g.offset + Header.size ∧ payload.length = g.length ∧
      r.bytes h.session.bytes handle g.length = some payload
  /-- A request that is refused stores nothing. -/
  unchanged : ∀ length arena bytes,
    h.session.arena.reserve h.session.bytes length = .ok (none, arena, bytes) →
      bytes = h.session.bytes
  /-- After a request was refused for lack of room, every request is. -/
  refused : h.refused = true → ∀ length, ∃ arena,
    h.session.arena.reserve h.session.bytes length = .ok (none, arena, h.session.bytes)

end JournalHistory

/-! ## Slots of a ledger -/

/-- What a program knows of an entry. -/
def LedgerEntry.slot (r : Region) (e : LedgerEntry) : Slot where
  offset := e.offset
  length := e.payload.length
  fate :=
    match e.fate with
    | .pending => .pending
    | .dropped => .dropped
    | .committed _ => .committed (r.handleAt (e.offset + Header.size)) e.payload

namespace Tiled

variable {start stop : Nat} {es : List LedgerEntry}

/-- Slots in a row overlap nowhere. -/
lemma pairwise (h : Tiled start es stop) : es.Pairwise fun x y => x.stop ≤ y.offset := by
  induction es generalizing start with
  | nil => exact .nil
  | cons e es ih =>
    obtain ⟨-, htail⟩ := h
    exact List.pairwise_cons.2 ⟨fun x hx => (htail.bounds x hx).1, ih htail⟩

/-- Slots in a row are aligned when the end of the row is. -/
lemma dvd (h : Tiled start es stop) (hsizes : ∀ e ∈ es, ∃ size, recordSize e.payload.length = some size)
    (hdvd : 64 ∣ stop) : 64 ∣ start ∧ ∀ e ∈ es, 64 ∣ e.offset := by
  induction es generalizing start with
  | nil =>
    obtain rfl : start = stop := h
    exact ⟨hdvd, by simp⟩
  | cons e es ih =>
    obtain ⟨rfl, htail⟩ := h
    obtain ⟨hstop, hrest⟩ := ih htail fun x hx => hsizes x (List.mem_cons_of_mem _ hx)
    obtain ⟨size, hsize⟩ := hsizes e List.mem_cons_self
    rw [e.stop_eq hsize] at hstop
    have hoffset := (Nat.dvd_add_iff_left (dvd_of_recordSize hsize)).2 hstop
    exact ⟨hoffset, List.forall_mem_cons.2 ⟨hoffset, hrest⟩⟩

end Tiled

/-- An entry that is held can be read through a handle of its payload. -/
lemma LedgerEntry.Holds.bytes_eq {e : LedgerEntry} {b : Buffer} {generation : UInt32} {r : Region}
    (h : e.Holds b generation) (hsize : b.size = r.capacity) (hmax : r.capacity ≤ maxCapacity) :
    (r.handleAt (e.offset + Header.size)).offset.toNat = e.offset + Header.size ∧
      r.bytes b (r.handleAt (e.offset + Header.size)) e.payload.length = some e.payload := by
  have hroom := h.room.1
  have hstop := h.stop_le
  obtain ⟨hnull, hoffset⟩ :=
    Region.toNat_handleAt (r := r) (show e.offset + Header.size ≤ maxCapacity by omega)
  have hrange : r.byteRange (r.handleAt (e.offset + Header.size)) e.payload.length =
      some (e.offset + Header.size) :=
    Region.byteRange_eq_some_iff.2 ⟨hnull, rfl, by omega, hoffset.symm⟩
  exact ⟨hoffset, by rw [Region.bytes, hrange, Option.map_some, h.payload]⟩

/-- The records of a chain end by the end of the chain. -/
lemma Journal.Chain.stop_le {b : Buffer} {m n : Mark} {rs : List Record} (h : Chain b m rs n) :
    ∀ r ∈ rs, r.stop ≤ n.offset := by
  induction h with
  | nil => simp
  | cons _ htail ih => exact List.forall_mem_cons.2 ⟨htail.le, ih⟩

namespace JournalHistory

variable {r : Region} {h : JournalHistory} {l : Ledger}

/-- **The program knows what the ledger says.** -/
structure Knows (r : Region) (h : JournalHistory) (l : Ledger) : Prop where
  slots_eq : h.slots = l.entries.map (·.slot r)
  refused_eq : h.refused = l.full

namespace Knows

lemma refuse (hk : Knows r h l) (length : Nat) : Knows r (h.answer length none)
    { l with full := l.full || (recordSize length).isSome } where
  slots_eq := hk.slots_eq
  refused_eq := congrArg (· || _) hk.refused_eq

lemma grant (hk : Knows r h l) (length cursor : Nat) (e : LedgerEntry) :
    Knows r (h.answer length (some (e.slot r))) { l with cursor, entries := l.entries ++ [e] } where
  slots_eq := by
    rw [List.map_append, ← hk.slots_eq]
    rfl
  refused_eq := hk.refused_eq

/-- What is changed of an entry, a program learns of its slot. -/
lemma settle (hk : Knows r h l) {slot : Nat} {e e' : LedgerEntry} {fate : SlotFate}
    (hentry : l.entries[slot]? = some e) (hslot : e'.slot r = { e.slot r with fate }) :
    Knows r (h.settle slot fate) { l with entries := l.entries.set slot e' } where
  slots_eq := by
    rw [JournalHistory.settle, List.modify_eq_set_getElem?, hk.slots_eq, List.getElem?_map, hentry,
      List.map_set, hslot]
    rfl
  refused_eq := hk.refused_eq

/-- Of what is stored in a slot, a program has nothing to learn. -/
lemma store (hk : Knows r h l) {slot : Nat} {e e' : LedgerEntry}
    (hentry : l.entries[slot]? = some e) (hslot : e'.slot r = e.slot r) :
    Knows r h { l with entries := l.entries.set slot e' } where
  slots_eq := by
    obtain ⟨hlt, rfl⟩ := List.getElem?_eq_some_iff.1 hentry
    have hself : l.entries.set slot l.entries[slot] = l.entries := List.set_getElem_self _
    rw [hk.slots_eq, List.map_set, hslot, ← List.map_set, hself]
  refused_eq := hk.refused_eq

variable {journal : Buffer} {start : Nat} {a : JournalArena}

/-- **From every operation a program learns what the ledger notes.** -/
lemma learn (hk : Knows a.region h l) (hr : Represents journal start a h.session l)
    (op : JournalOp) : ∃ h', h.learn op = .ok h' ∧ Knows a.region h' (l.step op) ∧
      h'.wasReset = h.wasReset := by
  have hmax : maxCapacity + Header.size < Word.limit := by decide
  have hsize := hr.size_le
  cases op with
  | reserve length =>
    have hlength := l.origin.length_read (l.cursor + Header.size) length
    rcases hr.reserve_cases length with
      ⟨arena, hreserve, hgrant⟩ | ⟨size, -, -, -, hreserve, hgrant⟩
    · refine ⟨h.answer length none, ?_, ?_, rfl⟩
      · simp only [JournalHistory.learn, hreserve, bind, Except.bind]
        rfl
      · rw [Ledger.step, (hgrant _ _ hlength).1]
        exact hk.refuse length
    · refine ⟨h.answer length (some ⟨l.cursor, length, .pending⟩), ?_, ?_, rfl⟩
      · simp only [JournalHistory.learn, hreserve, bind, Except.bind]
        rfl
      · have hknows := hk.grant length (l.cursor + size)
          ⟨l.cursor, l.origin.read (l.cursor + Header.size) length, .pending⟩
        rw [Ledger.step, hgrant _ _ hlength]
        rwa [LedgerEntry.slot, hlength] at hknows
  | append payload timestamp =>
    rcases hr.reserve_cases payload.length with
      ⟨arena, hreserve, hgrant⟩ | ⟨size, -, -, hroom, hreserve, hgrant⟩
    · refine ⟨h.answer payload.length none, ?_, ?_, rfl⟩
      · simp only [JournalHistory.learn, hreserve, JournalArena.append_eq_of_refused hreserve, bind,
          Except.bind]
        rfl
      · rw [Ledger.step, (hgrant _ _ rfl).1]
        exact hk.refuse payload.length
    · have hlimit : l.cursor + Header.size < Word.limit := by omega
      let e : LedgerEntry := ⟨l.cursor, payload, .committed timestamp⟩
      refine ⟨h.answer payload.length (some (e.slot a.region)), ?_, ?_, rfl⟩
      · simp only [JournalHistory.learn, hreserve,
          JournalArena.append_eq_of_reserve hreserve hlimit, bind, Except.bind]
        rfl
      · rw [Ledger.step, hgrant _ _ rfl]
        exact hk.grant payload.length (l.cursor + size) e
  | write slot position data =>
    refine ⟨h, rfl, ?_, rfl⟩
    cases hpending : h.session.pending slot with
    | none =>
      rw [Ledger.step, hr.revise_of_pending_eq_none hpending]
      exact hk
    | some p =>
      obtain ⟨e, hentry, hfate, -, hrevise⟩ := hr.exists_of_pending_eq_some hpending
      rw [Ledger.step, hrevise]
      -- A store may change the payload, of which the program knows the length alone.
      refine hk.store hentry ?_
      simp only [LedgerEntry.slot, hfate, Ledger.length_overlay]
  | commit slot timestamp =>
    cases hpending : h.session.pending slot with
    | none =>
      refine ⟨h, by simp only [JournalHistory.learn, hpending], ?_, rfl⟩
      rw [Ledger.step, hr.revise_of_pending_eq_none hpending]
      exact hk
    | some p =>
      obtain ⟨e, hentry, hfate, hp, hrevise⟩ := hr.exists_of_pending_eq_some hpending
      have hholds := hr.holds e (List.mem_of_getElem? hentry)
      have hroom := hholds.room
      have hstop := hholds.stop_le
      have hbytes := hr.size_eq
      have hcommit := Reservation.commit_eq (p := p) (b := h.session.bytes) timestamp
        (by rw [hp]; show e.offset + Header.size < Word.limit; omega)
      have hpayload : p.payload h.session.bytes = e.payload := by
        rw [hp]
        exact hholds.payload
      have hhandle : (⟨UInt32.ofNat p.payloadOffset, p.region⟩ : Handle) =
          a.region.handleAt (e.offset + Header.size) := by
        rw [hp]
        rfl
      refine ⟨h.settle slot (.committed (a.region.handleAt (e.offset + Header.size)) e.payload), ?_,
        ?_, rfl⟩
      · simp only [JournalHistory.learn, hpending, hcommit, hpayload, hhandle, bind, Except.bind]
        rfl
      · rw [Ledger.step, hrevise]
        exact hk.settle hentry rfl
  | drop slot =>
    cases hpending : h.session.pending slot with
    | none =>
      refine ⟨h, by simp only [JournalHistory.learn, hpending], ?_, rfl⟩
      rw [Ledger.step, hr.revise_of_pending_eq_none hpending]
      exact hk
    | some p =>
      obtain ⟨e, hentry, -, -, hrevise⟩ := hr.exists_of_pending_eq_some hpending
      refine ⟨h.settle slot .dropped, by simp only [JournalHistory.learn, hpending], ?_, rfl⟩
      rw [Ledger.step, hrevise]
      exact hk.settle hentry rfl

end Knows

/-! ## Every run -/

variable {journal : Buffer} {start : Nat} {a : JournalArena} {region : Region}

/-- What every call keeps, of a journal in a region, where what was found in it when it was opened
ends by `cursor`. -/
structure Follows (region : Region) (cursor : Nat) (h : JournalHistory) (journal : Buffer)
    (start : Nat) (a : JournalArena) (l : Ledger) : Prop where
  represents : Represents journal start a h.session l
  knows : Knows region h l
  region_eq : a.region = region
  capacity_eq : l.origin.size = region.capacity
  header_le : Header.size ≤ region.capacity
  start_eq : h.wasReset = false → start = cursor

/-- **No call faults, and the program knows what it does.** -/
lemma Follows.step {cursor : Nat} (hf : Follows region cursor h journal start a l)
    (call : JournalCall) :
    ∃ h' journal start a l, h.step call = .ok h' ∧ Follows region cursor h' journal start a l := by
  have hr := hf.represents
  cases call with
  | op op =>
    obtain ⟨t, hstep, ht⟩ := hr.step op
    obtain ⟨h', hlearn, hknows, hwas⟩ := (hf.region_eq ▸ hf.knows).learn hr op
    refine ⟨{ h' with session := t }, journal, start, a, l.step op, ?_, ht, ?_, hf.region_eq, ?_,
      hf.header_le, ?_⟩
    · simp only [JournalHistory.step, hstep, hlearn, bind, Except.bind]
      rfl
    · exact hf.region_eq ▸ ⟨hknows.slots_eq, hknows.refused_eq⟩
    · rw [l.origin_step]
      exact hf.capacity_eq
    · rw [hwas]
      exact hf.start_eq
  | reset =>
    have hsize : h.session.bytes.size = region.capacity := hr.size_eq.trans hf.capacity_eq
    have hregion : h.session.arena.region = region := hr.region.trans hf.region_eq
    obtain ⟨t, hreset, hbytes, hregion', -, ht⟩ :=
      hr.reset (by rw [hsize, hregion]) (hsize ▸ hf.header_le)
    refine ⟨{ session := t, wasReset := true }, _, _, _, _, ?_, ht, ⟨rfl, rfl⟩,
      hregion'.trans hregion, ?_, hf.header_le, nofun⟩
    · simp only [JournalHistory.step, hreset, bind, Except.bind]
      rfl
    · rw [hbytes, Buffer.size_write, hsize]

lemma Follows.run {cursor : Nat} (hf : Follows region cursor h journal start a l)
    (calls : List JournalCall) :
    ∃ h' journal start a l, h.run calls = .ok h' ∧ Follows region cursor h' journal start a l := by
  induction calls generalizing h journal start a l with
  | nil => exact ⟨h, journal, start, a, l, rfl, hf⟩
  | cons call calls ih =>
    obtain ⟨h', _, _, _, _, hstep, hf'⟩ := hf.step call
    obtain ⟨h'', _, _, _, _, hrun, hf''⟩ := ih hf'
    refine ⟨h'', _, _, _, _, ?_, hf''⟩
    rw [JournalHistory.run, List.foldlM_cons, hstep]
    exact hrun

/-- **What a ledger says is safe.** -/
lemma Follows.safe {cursor : Nat} {found : List Record}
    (hf : Follows region cursor h journal start a l) (hfound : ∀ x ∈ found, x.stop ≤ cursor) :
    h.Safe region found := by
  have hr := hf.represents
  have hslots := hf.knows.slots_eq
  have hmax : region.capacity ≤ maxCapacity := hf.capacity_eq ▸ hr.size_le
  have hsize : h.session.bytes.size = region.capacity := hr.size_eq.trans hf.capacity_eq
  have hmem : ∀ g ∈ h.slots, ∃ e ∈ l.entries, e.slot region = g := by
    intro g hg
    rw [hslots] at hg
    exact List.mem_map.1 hg
  refine ⟨?_, ?_, ?_, ?_, ?_, ?_, ?_⟩
  · intro g hg
    obtain ⟨e, he, rfl⟩ := hmem g hg
    have hholds := hr.holds e he
    obtain ⟨size, hrecord⟩ := hholds.exists_size
    have hstop := hholds.stop_le
    rw [e.stop_eq hrecord, hsize] at hstop
    exact ⟨(hr.tiled.dvd (fun x hx => (hr.holds x hx).exists_size) hr.cursor_dvd).2 e he, size,
      hrecord, hstop⟩
  · intro g hg
    obtain ⟨e, he, rfl⟩ := hmem g hg
    exact (hr.holds e he).length_lt (hsize ▸ hmax)
  · rw [hslots, List.map_map, List.pairwise_map]
    exact hr.tiled.pairwise.imp .inl
  · intro hwas x hx g hg
    obtain ⟨e, he, rfl⟩ := hmem g hg
    -- Slots are granted from where the scan ended, as long as nothing was reset.
    have hstart := (hr.tiled.bounds e he).1
    rw [hf.start_eq hwas] at hstart
    exact .inl (Nat.le_trans (hfound x hx) hstart)
  · intro g hg handle payload hfate
    obtain ⟨e, he, rfl⟩ := hmem g hg
    obtain ⟨rfl, rfl⟩ : region.handleAt (e.offset + Header.size) = handle ∧
        e.payload = payload := by
      cases hentry : e.fate <;> simp_all [LedgerEntry.slot]
    obtain ⟨hoffset, hbytes⟩ := (hr.holds e he).bytes_eq hsize hmax
    exact ⟨hoffset, rfl, hbytes⟩
  · intro length arena bytes hreserve
    rcases hr.reserve_cases length with ⟨_, hrefused, -⟩ | ⟨_, -, -, -, hgranted, -⟩
    · rw [hrefused] at hreserve
      simp only [Except.ok.injEq, Prod.mk.injEq] at hreserve
      exact hreserve.2.2.symm
    · rw [hgranted] at hreserve
      simp at hreserve
  · intro hrefused length
    rcases hr.reserve_cases length with ⟨arena, hreserve, -⟩ | ⟨_, -, hfull, -⟩
    · exact ⟨arena, hreserve⟩
    · rw [← hf.knows.refused_eq, hrefused] at hfull
      cases hfull

end JournalHistory

variable {config : JournalConfig} {s s' : Storage} {a : JournalArena}

/-- **Slots are safe.**  However a journal came to be open, and whatever a program does with it,
nothing faults, and the program can rely on what it was granted. -/
theorem JournalHistory.safe_of_run (hopen : JournalArena.Opens config s a s')
    (calls : List JournalCall) :
    ∃ h, JournalHistory.run { session := { arena := a, bytes := s'.contents a.region } } calls =
        .ok h ∧
      h.Safe a.region (records (s'.contents a.region)) := by
  have hopened := hopen.opened
  have hstart : Follows a.region (scan (s'.contents a.region)).finish.cursor
      { session := { arena := a, bytes := s'.contents a.region } } _ _ a
      (.opening (s'.contents a.region)) :=
    ⟨hopened.represents rfl (.refl _ _ _), ⟨rfl, rfl⟩, rfl, hopened.size_eq, hopened.header_le,
      fun _ => rfl⟩
  obtain ⟨h, _, _, _, _, hrun, hf⟩ := hstart.run calls
  refine ⟨h, hrun, hf.safe ?_⟩
  obtain ⟨rs, n, stop, hchain, hstop⟩ := Journal.exists_chain (s'.contents a.region) .start
  rw [records_eq_of_chain hchain hstop, finish_eq_of_chain hchain hstop]
  exact hchain.stop_le

/-- A slot is reserved, a record appended behind it, and then the first slot is committed.  The next
two requests are refused, and what was stored is still there. -/
def untilRefused : List JournalCall :=
  [.op (.reserve 3), .op (.append [4, 5] 8), .op (.write 0 0 [1, 2, 3]), .op (.commit 0 9),
    .op (.reserve 4000), .op (.reserve 1)]

theorem JournalHistory.safe_of_run_untilRefused : ∃ a s' h,
    JournalArena.Opens ⟨"journal", 4096⟩ leftoverStorage a s' ∧
      JournalHistory.run { session := { arena := a, bytes := s'.contents a.region } } untilRefused =
        .ok h ∧
      h.Safe a.region (records (s'.contents a.region)) ∧ h.refused = true ∧
      h.slots = [⟨64, 3, .committed (a.region.handleAt 96) [1, 2, 3]⟩,
        ⟨128, 2, .committed (a.region.handleAt 160) [4, 5]⟩] := by
  obtain ⟨a, s', hopen, hlearned⟩ : ∃ a s',
      JournalArena.Opens ⟨"journal", 4096⟩ leftoverStorage a s' ∧
        ((JournalHistory.run { session := { arena := a, bytes := s'.contents a.region } }
          untilRefused).toOption.map fun h => (h.refused, h.slots)) =
            some (true, [⟨64, 3, .committed (a.region.handleAt 96) [1, 2, 3]⟩,
              ⟨128, 2, .committed (a.region.handleAt 160) [4, 5]⟩]) :=
    ⟨_, _, opens_leftover, by decide +kernel⟩
  obtain ⟨h, hrun, hsafe⟩ := JournalHistory.safe_of_run hopen untilRefused
  rw [hrun] at hlearned
  simp only [Except.toOption, Option.map_some, Option.some.injEq, Prod.mk.injEq] at hlearned
  exact ⟨a, s', h, hopen, hrun, hsafe, hlearned.1, hlearned.2⟩

end BumpArena
