import BumpArena.Journal.Header

/-!
# Scanning a journal

Nothing in a journal says where it ends.  A `Scan` finds out, by walking from record to record
from the start, and stops at the first slot that holds none: its magic word is missing or wrong,
it runs past the end, its payload does not match its checksum, or it belongs to an older
generation than its predecessor.  What follows such a slot is free space.

Free space can still hold whole records of earlier generations.  `highestGeneration` sweeps all
slots, so that new records can be given a generation above every one of them.
-/

namespace BumpArena.Journal

/-- Why a slot holds no record, or no record that may follow. -/
inductive ScanStop where
  /-- No header fits before the end of the journal. -/
  | endOfRegion
  /-- The magic word is zero: nothing was committed here. -/
  | endOfData
  /-- The magic word is neither zero nor that of a record. -/
  | badMagic
  /-- The record is from an older generation than its predecessor. -/
  | staleGeneration
  /-- The record would run past the end of the journal. -/
  | truncated
  /-- The payload does not match its checksum. -/
  | checksumMismatch
  deriving DecidableEq, Repr, Inhabited

/-- Whether a scan that stopped so met unwritten space rather than damage. -/
def ScanStop.isClean : ScanStop → Bool
  | endOfRegion | endOfData => true
  | _ => false

/-- A committed record in a journal. -/
structure Record where
  /-- The offset of its header. -/
  offset : Nat
  header : Header
  payload : List UInt8
  deriving DecidableEq, Repr, Inhabited

namespace Record

/-- The offset of the first byte of the payload. -/
def payloadOffset (r : Record) : Nat := r.offset + Header.size

/-- The offset just past the padding. -/
def stop (r : Record) : Nat := r.offset + r.header.recordSize.getD 0

end Record

/-- The header at an offset. -/
def headerAt (b : Buffer) (offset : Nat) : Header := .decode (b.read offset Header.size)

/-- The magic word at an offset: that of the header there. -/
def magicAt (b : Buffer) (offset : Nat) : UInt32 :=
  UInt32.ofNat (LittleEndian.decode (b.read (offset + Header.magicOffset) 4))

/-- The header of the record at an offset, if a whole record is there. -/
def committedAt (b : Buffer) (offset : Nat) : Except ScanStop Header :=
  if b.size < offset + Header.size then .error .endOfRegion
  else if magicAt b offset = 0 then .error .endOfData
  else if magicAt b offset ≠ magicWord then .error .badMagic
  else
    let header := headerAt b offset
    match header.recordSize with
    | none => .error .truncated
    | some size =>
      if b.size < offset + size then .error .truncated
      else if Checksum.ofRange b (offset + Header.size) header.length.toNat ≠ header.checksum then
        .error .checksumMismatch
      else .ok header

/-- The record at an offset, whatever came before it. -/
def readSlot (b : Buffer) (offset : Nat) : Except ScanStop Record := do
  let header ← committedAt b offset
  return ⟨offset, header, b.read (offset + Header.size) header.length.toNat⟩

/-- The greater of two generations, where none is below all. -/
def newer : Option UInt32 → Option UInt32 → Option UInt32
  | some x, some y => some (if x < y then y else x)
  | some x, none => some x
  | none, y => y

/-- The generation of the record at an offset, if there is one. -/
def generationAt (b : Buffer) (offset : Nat) : Option UInt32 :=
  match committedAt b offset with
  | .ok header => some header.generation
  | .error _ => none

/-- The number of record-aligned offsets in a buffer. -/
def slotCount (b : Buffer) : Nat := (b.size + (cacheLine.bytes - 1)) / cacheLine.bytes

/-- The highest generation of any record at a record-aligned offset, reached by a scan or not. -/
def highestGeneration (b : Buffer) : Option UInt32 :=
  (slotCount b).fold (fun i _ highest => newer highest (generationAt b (i * cacheLine.bytes))) none

/-- What a scan that went to its end reports. -/
structure Report where
  /-- The number of records. -/
  records : Nat
  /-- The end of the last record, where the next one goes. -/
  cursor : Nat
  /-- The generation of the last record, which is the highest. -/
  generation : Option UInt32
  /-- Why the scan stopped. -/
  stop : ScanStop
  deriving DecidableEq, Repr, Inhabited

/-- A walk through the records of a journal. -/
structure Scan where
  /-- The journal. -/
  bytes : Buffer
  /-- The end of the last record found. -/
  offset : Nat := 0
  /-- The number of records found. -/
  records : Nat := 0
  /-- The generation of the last record found. -/
  generation : Option UInt32 := none
  /-- Why the walk stopped, once it has. -/
  stop : Option ScanStop := none

namespace Scan

/-- The record at the offset that was reached, if it may follow the last one. -/
def check (s : Scan) : Except ScanStop Record :=
  match readSlot s.bytes s.offset with
  | .error stop => .error stop
  | .ok record =>
    match s.generation with
    | some generation =>
      if record.header.generation < generation then .error .staleGeneration else .ok record
    | none => .ok record

/-- Walks on by one record.  Where there is none, the walk stops for good. -/
def next (s : Scan) : Option Record × Scan :=
  if s.stop.isSome then (none, s)
  else
    match s.check with
    | .ok record =>
      (some record, { s with
        offset := record.stop
        records := s.records + 1
        generation := some record.header.generation })
    | .error stop => (none, { s with stop := some stop })

/-- Walks on by up to a number of records: those that it finds, and where it is then. -/
def take : (limit : Nat) → Scan → List Record × Scan
  | 0, s => ([], s)
  | limit + 1, s =>
    match s.next with
    | (some record, s) =>
      let (rest, s) := take limit s
      (record :: rest, s)
    | (none, s) => ([], s)

/-- Walks on by up to a number of steps, without keeping the records. -/
def advance : (limit : Nat) → Scan → Scan
  | 0, s => s
  | limit + 1, s =>
    match s.next with
    | (some _, s) => advance limit s
    | (none, s) => s

/-- The number of steps after which every walk has stopped: one for each slot that a record can
start at, and one to find that nothing follows. -/
def maxSteps (s : Scan) : Nat := slotCount s.bytes + 1

/-- All records that are still ahead, and the walk when it has stopped. -/
def rest (s : Scan) : List Record × Scan := s.take s.maxSteps

/-- Walks to the end and reports, records found earlier included. -/
def finish (s : Scan) : Report :=
  let last := s.advance s.maxSteps
  ⟨last.records, last.offset, last.generation, last.stop.getD .endOfRegion⟩

end Scan

/-- A scan of a journal from its start. -/
def scan (b : Buffer) : Scan := { bytes := b }

end BumpArena.Journal
