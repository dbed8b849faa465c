import BumpArena.Counter
import BumpArena.Journal.Scan
import BumpArena.Storage.Mapping

/-!
# Journal arenas

A `JournalArena` hands out records in a mapped file.  Reserving a record clears the magic word of
its slot, and committing it stores the header and, last of all, the magic word.  So whenever the
program ends, a scan of the file finds just the records that were committed before the first one
that was not.

Each record carries the generation of the arena that wrote it.  An arena that is opened on a file
takes a generation above that of every record in the file, so that what an earlier one left in
the free space can never pass for new.
-/

namespace BumpArena

/-- One store to the bytes of a journal. -/
structure Journal.Store where
  offset : Nat
  bytes : List UInt8
  deriving DecidableEq, Repr, Inhabited

/-- The buffer after a store. -/
def Journal.Store.apply (b : Buffer) (store : Journal.Store) : Buffer :=
  b.write store.offset store.bytes

open Journal

/-- A record that was handed out and is not committed. -/
structure Reservation where
  /-- The region that it is in. -/
  region : RegionId
  /-- The generation that its record will carry. -/
  generation : UInt32
  /-- The offset of its header. -/
  offset : Nat
  /-- The length of its payload. -/
  length : Nat
  deriving DecidableEq, Repr, Inhabited

namespace Reservation

/-- The offset of the first byte of the payload. -/
def payloadOffset (p : Reservation) : Nat := p.offset + Header.size

/-- The payload: what the slot held before, until something is stored. -/
def payload (p : Reservation) (b : Buffer) : List UInt8 := b.read p.payloadOffset p.length

/-- Stores bytes in the payload, if they fit from the position on. -/
def write? (p : Reservation) (b : Buffer) (position : Nat) (data : List UInt8) : Option Buffer :=
  if position + data.length ≤ p.length then some (b.write (p.payloadOffset + position) data)
  else none

/-- The header that committing the record stores. -/
def header (p : Reservation) (b : Buffer) (timestamp : UInt64) : Header where
  timestamp := timestamp
  length := UInt32.ofNat p.length
  checksum := Checksum.ofRange b p.payloadOffset p.length
  generation := p.generation

/-- It is the header of the payload. -/
theorem header_eq (p : Reservation) (b : Buffer) (timestamp : UInt64) :
    p.header b timestamp = .ofPayload (p.payload b) timestamp p.generation := by
  simp [header, Header.ofPayload, payload, Checksum.ofRange_eq]

/-- The stores of a commit in their order: the header byte by byte up to its magic word, then the
magic word as a whole. -/
def stores (p : Reservation) (header : Header) : List Store :=
  let bytes := header.encode
  ((bytes.take Header.magicOffset).mapIdx fun i byte => ⟨p.offset + i, [byte]⟩) ++
    [⟨p.offset + Header.magicOffset, LittleEndian.encode 4 magicWord.toNat⟩]

/-- Commits the record: a handle of its payload, and the bytes after the last store. -/
def commit (p : Reservation) (b : Buffer) (timestamp : UInt64) : Checked (Handle × Buffer) := do
  let header := p.header b timestamp
  let b := (p.stores header).foldl Store.apply b
  let now := Checksum.ofRange b p.payloadOffset p.length
  if now ≠ header.checksum then
    throw (.payloadChanged now header.checksum)
  let offset ← Word.add p.offset Header.size
  return (⟨UInt32.ofNat offset, p.region⟩, b)

end Reservation

/-- An arena whose grants are records in a mapped file. -/
structure JournalArena where
  region : Region
  counter : Counter
  /-- The generation that new records carry. -/
  generation : UInt32
  deriving DecidableEq, Repr, Inhabited

namespace JournalArena

/-- The generation one above another, which stays at the largest one. -/
def following (generation : UInt32) : UInt32 :=
  if generation = 0xFFFFFFFF then generation else generation + 1

/-- The generation of an arena that is opened on a journal. -/
def openingGeneration (b : Buffer) (report : Report) : UInt32 :=
  match newer report.generation (highestGeneration b) with
  | none => 0
  | some generation => following generation

/-- The arena that continues a journal, and what a scan of it found. -/
def recover (region : Region) (b : Buffer) : JournalArena × Report :=
  let report := (scan b).finish
  ({ region
     counter := { capacity := region.capacity, position := report.cursor }
     generation := openingGeneration b report }, report)

/-- Makes an arena over a file of zeros. -/
def create (config : JournalConfig) : StorageM JournalArena := do
  Storage.requireConfig config.validate
  let region ← Region.createMapped config.path config.capacity
  return { region, counter := { capacity := region.capacity }, generation := 0 }

/-- Opens the journal in a file, and continues it. -/
def openExisting (config : JournalConfig) : StorageM (JournalArena × Report) := do
  Storage.requireConfig (if config.path.isEmpty then .error .emptyPath else .ok ())
  let region ← Region.openMapped config.path
  return recover region ((← get).contents region)

/-- Reserves a record with a payload of the length.  Its slot holds no record until it is
committed. -/
def reserve (a : JournalArena) (b : Buffer) (length : Nat) :
    Checked (Option Reservation × JournalArena × Buffer) :=
  match recordSize length with
  | none => .ok (none, a, b)
  | some size => do
    let (claimed, counter) ← a.counter.claim size
    let a := { a with counter }
    match claimed with
    | none => return (none, a, b)
    | some offset =>
      let b := b.write (offset + Header.magicOffset) [0, 0, 0, 0]
      return (some ⟨a.region.id, a.generation, offset, length⟩, a, b)

/-- Reserves a record, stores its payload and commits it. -/
def append (a : JournalArena) (b : Buffer) (payload : List UInt8) (timestamp : UInt64) :
    Checked (Option Handle × JournalArena × Buffer) := do
  match ← a.reserve b payload.length with
  | (none, a, b) => return (none, a, b)
  | (some reservation, a, b) =>
    let (handle, b) ← reservation.commit (b.write reservation.payloadOffset payload) timestamp
    return (some handle, a, b)

/-- Starts over at the base of the file, in a new generation.  Without its magic word the first
slot holds no record, so that the journal is empty from here on. -/
def reset (a : JournalArena) (b : Buffer) : Checked (JournalArena × Buffer) :=
  if a.region.capacity < Header.size then
    .error (.sliceOutOfRange Header.size a.region.capacity)
  else .ok (
    { a with counter := a.counter.reset, generation := following a.generation },
    b.write Header.magicOffset [0, 0, 0, 0])

/-- Whether a claim was refused since the last reset. -/
def isExhausted (a : JournalArena) : Bool := a.counter.isExhausted

/-- The use at this moment. -/
def stats (a : JournalArena) : Checked Stats := a.counter.stats

end JournalArena

end BumpArena
