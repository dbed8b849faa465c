import BumpArena.Proofs.Journal.Walk

/-!
# Sessions and their ledgers

A program that has a journal open reserves records, stores in their payloads, commits some of them
in any order, drops others, and appends.  `JournalSession` is such a program at one moment: the
arena, the bytes of the journal, and the records that it holds and has not settled.  A record is
named by its number among those granted, and an operation on one that was settled already does
nothing, as no program can ask for it.

A `Ledger` keeps account of the same operations without a journal.  It has no headers, no magic
words, no checksums and no counter: only how far the journal is handed out, and for each record
its payload and what became of it.  That a scan of the journal says just what the ledger says is
what the modules after this one prove.

The one thing a ledger takes from the journal is its `origin`, the bytes at the moment when the
session began.  The payload of a new record holds what lay there before, until something is stored.
-/

namespace BumpArena

open Journal

/-! ## Sessions -/

/-- What a program does with an open journal. -/
inductive JournalOp where
  | reserve (length : Nat)
  /-- Stores bytes in the payload of a pending record, from a position on. -/
  | write (slot position : Nat) (data : List UInt8)
  | commit (slot : Nat) (timestamp : UInt64)
  | drop (slot : Nat)
  | append (payload : List UInt8) (timestamp : UInt64)
  deriving DecidableEq, Repr

/-- A program that has a journal open. -/
structure JournalSession where
  arena : JournalArena
  bytes : Buffer
  /-- The records granted in this session, in order.  What is settled is no longer held. -/
  slots : List (Option Reservation) := []

namespace JournalSession

/-- The pending record of a number. -/
def pending (s : JournalSession) (slot : Nat) : Option Reservation := s.slots[slot]?.join

/-- One operation. -/
def step (s : JournalSession) : JournalOp → Checked JournalSession
  | .reserve length => do
    let (granted, arena, bytes) ← s.arena.reserve s.bytes length
    return ⟨arena, bytes, s.slots ++ (granted.map some).toList⟩
  | .write slot position data =>
    match s.pending slot with
    | none => .ok s
    | some p => .ok { s with bytes := (p.write? s.bytes position data).getD s.bytes }
  | .commit slot timestamp =>
    match s.pending slot with
    | none => .ok s
    | some p => do
      let (_, bytes) ← p.commit s.bytes timestamp
      return { s with bytes, slots := s.slots.set slot none }
  | .drop slot =>
    match s.pending slot with
    | none => .ok s
    | some _ => .ok { s with slots := s.slots.set slot none }
  | .append payload timestamp => do
    let (granted, arena, bytes) ← s.arena.append s.bytes payload timestamp
    return ⟨arena, bytes, s.slots ++ (granted.map fun _ => none).toList⟩

/-- Operations in turn. -/
def run (s : JournalSession) (ops : List JournalOp) : Checked JournalSession := ops.foldlM step s

/-- Starting over.  What is pending has to be given up for it. -/
def reset (s : JournalSession) : Checked JournalSession := do
  let (arena, bytes) ← s.arena.reset s.bytes
  return { arena, bytes }

end JournalSession

/-! ## Ledgers -/

/-- What became of a record that was granted. -/
inductive Fate where
  | pending
  | dropped
  | committed (timestamp : UInt64)
  deriving DecidableEq, Repr

/-- Whether the record is in the journal. -/
def Fate.isCommitted : Fate → Bool
  | committed _ => true
  | _ => false

/-- A record that was granted. -/
structure LedgerEntry where
  offset : Nat
  payload : List UInt8
  fate : Fate
  deriving DecidableEq, Repr

namespace LedgerEntry

/-- The end of the slot. -/
def stop (e : LedgerEntry) : Nat := e.offset + (recordSize e.payload.length).getD 0

/-- The record that is in the journal once the entry is committed. -/
def record? (e : LedgerEntry) (generation : UInt32) : Option Record :=
  match e.fate with
  | .committed timestamp => some ⟨e.offset, .ofPayload e.payload timestamp generation, e.payload⟩
  | _ => none

end LedgerEntry

/-- The account of a session. -/
structure Ledger where
  /-- The journal at the beginning of the session. -/
  origin : Buffer
  /-- The first byte that was never granted. -/
  cursor : Nat
  /-- Whether a request was refused for lack of room. -/
  full : Bool := false
  entries : List LedgerEntry := []

namespace Ledger

/-- Grants a record with a payload, if there is room.  A request that is refused for lack of room
is the last one to be heard. -/
def grant (l : Ledger) (payload : List UInt8) (fate : Fate) : Ledger :=
  match recordSize payload.length with
  | none => l
  | some size =>
    if l.full then l
    else if l.origin.size < l.cursor + size then { l with full := true }
    else { l with
      cursor := l.cursor + size
      entries := l.entries ++ [⟨l.cursor, payload, fate⟩] }

/-- Changes the entry of a pending record. -/
def revise (l : Ledger) (slot : Nat) (change : LedgerEntry → LedgerEntry) : Ledger :=
  match l.entries[slot]? with
  | none => l
  | some e => if e.fate = .pending then { l with entries := l.entries.set slot (change e) } else l

/-- Bytes with others laid over them from a position on, if they fit. -/
def overlay (bytes : List UInt8) (position : Nat) (data : List UInt8) : List UInt8 :=
  if position + data.length ≤ bytes.length then
    bytes.take position ++ data ++ bytes.drop (position + data.length)
  else bytes

/-- One operation, on paper. -/
def step (l : Ledger) : JournalOp → Ledger
  | .reserve length => l.grant (l.origin.read (l.cursor + Header.size) length) .pending
  | .write slot position data =>
    l.revise slot fun e => { e with payload := overlay e.payload position data }
  | .commit slot timestamp => l.revise slot fun e => { e with fate := .committed timestamp }
  | .drop slot => l.revise slot fun e => { e with fate := .dropped }
  | .append payload timestamp => l.grant payload (.committed timestamp)

/-- Operations in turn. -/
def run (l : Ledger) (ops : List JournalOp) : Ledger := ops.foldl step l

end Ledger

/-- The records of committed entries, up to the first entry that is not. -/
def committedPrefix (generation : UInt32) : List LedgerEntry → List Record
  | [] => []
  | e :: es =>
    match e.record? generation with
    | some r => r :: committedPrefix generation es
    | none => []

/-- The account of a session that begins with the journal as it is. -/
def Ledger.opening (b : Buffer) : Ledger := { origin := b, cursor := (scan b).finish.cursor }

/-! ## What a ledger keeps -/

@[simp] lemma Ledger.length_overlay (bytes : List UInt8) (position : Nat) (data : List UInt8) :
    (Ledger.overlay bytes position data).length = bytes.length := by
  unfold Ledger.overlay
  split
  · simp only [List.length_append, List.length_take, List.length_drop]
    omega
  · rfl

lemma Ledger.origin_grant (l : Ledger) (payload : List UInt8) (fate : Fate) :
    (l.grant payload fate).origin = l.origin := by
  unfold grant
  repeat' split
  all_goals rfl

lemma Ledger.origin_revise (l : Ledger) (slot : Nat) (change : LedgerEntry → LedgerEntry) :
    (l.revise slot change).origin = l.origin := by
  unfold revise
  repeat' split
  all_goals rfl

lemma Ledger.origin_step (l : Ledger) (op : JournalOp) : (l.step op).origin = l.origin := by
  cases op with
  | reserve length => exact l.origin_grant ..
  | append payload timestamp => exact l.origin_grant ..
  | write slot position data => exact l.origin_revise ..
  | commit slot timestamp => exact l.origin_revise ..
  | drop slot => exact l.origin_revise ..

@[simp] lemma Ledger.origin_run (l : Ledger) (ops : List JournalOp) :
    (l.run ops).origin = l.origin := by
  induction ops generalizing l with
  | nil => rfl
  | cons op ops ih => exact (ih (l.step op)).trans (l.origin_step op)

end BumpArena
