/-!
# Hexadecimal text

Offsets are shown in hexadecimal digits, and so are byte strings, with two digits for each byte.
-/

namespace BumpArena.Hexadecimal

/-- The digits of a number, the first of them not zero unless it is the only one. -/
def ofNat (n : Nat) : String := String.ofList (Nat.toDigits 16 n)

/-- The two digits of a byte. -/
def digits (b : UInt8) : List Char := [Nat.digitChar (b.toNat / 16), Nat.digitChar (b.toNat % 16)]

/-- The digits of a byte string. -/
def ofBytes (bytes : List UInt8) : String := String.ofList (bytes.flatMap digits)

/-- The value of a digit, in capital letters or small ones. -/
def value? (c : Char) : Option Nat :=
  if '0' ≤ c ∧ c ≤ '9' then some (c.toNat - '0'.toNat)
  else if 'a' ≤ c ∧ c ≤ 'f' then some (c.toNat - 'a'.toNat + 10)
  else if 'A' ≤ c ∧ c ≤ 'F' then some (c.toNat - 'A'.toNat + 10)
  else none

/-- The bytes that digits stand for.  Their number has to be even. -/
def toBytes? : List Char → Option (List UInt8)
  | [] => some []
  | [_] => none
  | high :: low :: rest => do
    let b := UInt8.ofNat (16 * (← value? high) + (← value? low))
    return b :: (← toBytes? rest)

end BumpArena.Hexadecimal
