import BumpArena.Alignment
import BumpArena.Checksum
import BumpArena.LittleEndian

/-!
# Record headers

A journal is a row of records.  Each has a header of 32 bytes, then its payload, then padding up
to the next cache line:

```text
 0  timestamp    8 bytes   nanoseconds since 1970
 8  length       4 bytes   of the payload
12  checksum     4 bytes   of the payload
16  generation   4 bytes   of the arena that wrote it
20  reserved     8 bytes   zero
28  magic        4 bytes   0xDEADBEEF once the record is committed
32  payload
```

The magic word comes last, since it is what commits a record: a slot whose magic word is zero
holds no record, whatever else it holds.
-/

namespace BumpArena.Journal

/-- The magic word of a committed record. -/
def magicWord : UInt32 := 0xDEADBEEF

/-- The fixed part of a record. -/
structure Header where
  /-- When the record was committed, in nanoseconds since 1970. -/
  timestamp : UInt64
  /-- The length of the payload. -/
  length : UInt32
  /-- The checksum of the payload. -/
  checksum : UInt32
  /-- The generation of the arena that wrote the record. -/
  generation : UInt32
  /-- The first reserved word. -/
  reserved₀ : UInt32 := 0
  /-- The second reserved word. -/
  reserved₁ : UInt32 := 0
  /-- The magic word, if the record is committed. -/
  magic : UInt32 := magicWord
  deriving DecidableEq, Repr, Inhabited

/-- The bytes that a record takes up, header and padding included, if their number is a word. -/
def recordSize (length : Nat) : Option Nat :=
  if 32 + length < Word.limit then roundUp (32 + length) cacheLine else none

namespace Header

/-- The bytes of a header. -/
def size : Nat := 32

/-- The offset of the magic word in a header. -/
def magicOffset : Nat := 28

/-- The header of a committed record with the payload. -/
def ofPayload (payload : List UInt8) (timestamp : UInt64) (generation : UInt32) : Header where
  timestamp := timestamp
  length := UInt32.ofNat payload.length
  checksum := Checksum.ofList payload
  generation := generation

/-- Whether the record is committed. -/
def isCommitted (h : Header) : Bool := h.magic == magicWord

/-- The bytes that the record takes up. -/
def recordSize (h : Header) : Option Nat := Journal.recordSize h.length.toNat

/-- The 32 bytes of a header. -/
def encode (h : Header) : List UInt8 :=
  LittleEndian.encode 8 h.timestamp.toNat ++ LittleEndian.encode 4 h.length.toNat ++
    LittleEndian.encode 4 h.checksum.toNat ++ LittleEndian.encode 4 h.generation.toNat ++
    LittleEndian.encode 4 h.reserved₀.toNat ++ LittleEndian.encode 4 h.reserved₁.toNat ++
    LittleEndian.encode 4 h.magic.toNat

/-- The number in a field of a byte string. -/
private def field (bytes : List UInt8) (offset width : Nat) : Nat :=
  LittleEndian.decode ((bytes.drop offset).take width)

/-- The header that 32 bytes stand for.  Every 32 bytes stand for one. -/
def decode (bytes : List UInt8) : Header where
  timestamp := UInt64.ofNat (field bytes 0 8)
  length := UInt32.ofNat (field bytes 8 4)
  checksum := UInt32.ofNat (field bytes 12 4)
  generation := UInt32.ofNat (field bytes 16 4)
  reserved₀ := UInt32.ofNat (field bytes 20 4)
  reserved₁ := UInt32.ofNat (field bytes 24 4)
  magic := UInt32.ofNat (field bytes 28 4)

@[simp]
theorem length_encode (h : Header) : h.encode.length = size := by
  simp [encode, size]

end Header

end BumpArena.Journal
