import BumpArena.Fixture.Payload
import BumpArena.Layout

/-!
# Samples

A `Sample` is a value of three words with a check in it, so that a reader can tell a whole sample
from one that was torn.
-/

namespace BumpArena.Fixture

/-- A numbered value with a check. -/
structure Sample where
  /-- The position in the sequence of its producer. -/
  sequence : UInt64
  value : UInt64
  producer : UInt32
  /-- A check on the sequence number and the value. -/
  check : UInt32
  deriving DecidableEq, Repr, Inhabited

/-- The two halves of a word, added bit by bit. -/
def fold (x : UInt64) : UInt32 := (x ^^^ (x >>> 32)).toUInt32

namespace Sample

/-- How samples lie in memory. -/
def layout : Layout where
  size := 24
  align := ⟨8, by decide⟩

/-- The sample of a producer at a position. -/
def make (producer : UInt32) (sequence : UInt64) : Sample :=
  let value := mix (sequence ^^^ (producer.toUInt64 <<< 32))
  { sequence, value, producer, check := fold (sequence ^^^ value) }

/-- Whether the check still matches. -/
def isIntact (s : Sample) : Bool := s.check == fold (s.sequence ^^^ s.value)

/-- The 24 bytes of a sample. -/
def encode (s : Sample) : List UInt8 :=
  LittleEndian.encode 8 s.sequence.toNat ++ LittleEndian.encode 8 s.value.toNat ++
    LittleEndian.encode 4 s.producer.toNat ++ LittleEndian.encode 4 s.check.toNat

/-- The sample that 24 bytes stand for. -/
def decode (bytes : List UInt8) : Sample where
  sequence := UInt64.ofNat (LittleEndian.decode (bytes.take 8))
  value := UInt64.ofNat (LittleEndian.decode ((bytes.drop 8).take 8))
  producer := UInt32.ofNat (LittleEndian.decode ((bytes.drop 16).take 4))
  check := UInt32.ofNat (LittleEndian.decode ((bytes.drop 20).take 4))

end Sample

end BumpArena.Fixture
