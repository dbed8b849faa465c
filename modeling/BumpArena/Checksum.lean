import BumpArena.Buffer.Basic

/-!
# The checksum of a payload

CRC-32 as IEEE 802.3 defines it, computed with the least significant bit first: the register
starts with all ones, takes in one byte after the other, and is complemented at the end.  Taking
in a byte adds it to the low end of the register and then shifts the register by eight bits, where
each one-bit that falls out adds the generator polynomial.
-/

namespace BumpArena.Checksum

/-- The generator polynomial, its lowest power at the highest bit. -/
def polynomial : UInt32 := 0xEDB88320

/-- Shifts the register by one bit. -/
@[inline]
def shift (register : UInt32) : UInt32 :=
  if register &&& 1 = 1 then (register >>> 1) ^^^ polynomial else register >>> 1

/-- Takes one byte into the register. -/
def absorb (register : UInt32) (byte : UInt8) : UInt32 :=
  shift (shift (shift (shift (shift (shift (shift (shift (register ^^^ byte.toUInt32))))))))

/-- The register before the first byte. -/
def start : UInt32 := 0xFFFFFFFF

/-- The checksum of a byte string. -/
def ofList (bytes : List UInt8) : UInt32 := ~~~ bytes.foldl absorb start

/-- The checksum of a range of a buffer. -/
def ofRange (b : Buffer) (offset length : Nat) : UInt32 :=
  ~~~ b.foldRange absorb offset length start

/-- The checksum of a range is that of its bytes. -/
theorem ofRange_eq (b : Buffer) (offset length : Nat) :
    ofRange b offset length = ofList (b.read offset length) := by
  rw [ofRange, Buffer.foldRange_eq_foldl, ofList]

/-- The check value of the standard: the checksum of the digits from one to nine. -/
example : ofList [0x31, 0x32, 0x33, 0x34, 0x35, 0x36, 0x37, 0x38, 0x39] = 0xCBF43926 := by
  decide +kernel

end BumpArena.Checksum
