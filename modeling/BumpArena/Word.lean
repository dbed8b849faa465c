/-!
# Machine words and broken promises

Sizes, offsets and counts are natural numbers that a caller keeps below `Word.limit`, the number
of values of a 64-bit word.  A computation on them can leave that range in two ways, and the
library keeps the two apart:

* an overflow that the library expects is an outcome: `Word.mul?` answers `none`;
* an overflow that the library rules out by an invariant is a `Fault`: `Word.add` and `Word.sub`
  end the operation that asked for it.

A fault is also what a broken promise of the caller ends in.  An operation that faults has no
other effect: it yields no new state, so the old one stays in force.
-/

namespace BumpArena

/-- Why an operation was abandoned. -/
inductive Fault where
  /-- An alignment that is no power of two. -/
  | notPowerOfTwo (align : Nat)
  /-- An allocation of no elements. -/
  | zeroCount
  /-- An unchecked resolution of a handle that does not resolve. -/
  | invalidHandle
  /-- A sum past the largest word. -/
  | addOverflow
  /-- A difference below zero. -/
  | subOverflow
  /-- More bytes in a row than memory can have. -/
  | capacityOverflow
  /-- A slice that runs past the end of its bytes. -/
  | sliceOutOfRange (stop size : Nat)
  /-- A position past the end of a row of slots. -/
  | indexOutOfRange (index size : Nat)
  /-- A slot that is read before anything was stored in it. -/
  | unwrittenSlot (index : Nat)
  /-- A payload whose checksum changed while its header was being stored. -/
  | payloadChanged (now stored : UInt32)
  deriving DecidableEq, Repr, Inhabited

namespace Fault

/-- The text that reports a fault. -/
def message : Fault → String
  | notPowerOfTwo align => s!"alignment {align} is not a power of two"
  | zeroCount => "allocate called with count 0"
  | invalidHandle => "unchecked resolve of invalid handle"
  | addOverflow => "attempt to add with overflow"
  | subOverflow => "attempt to subtract with overflow"
  | capacityOverflow => "capacity overflow"
  | sliceOutOfRange stop size =>
    s!"range end index {stop} out of range for slice of length {size}"
  | indexOutOfRange index size =>
    s!"index out of bounds: the len is {size} but the index is {index}"
  | unwrittenSlot index => s!"slot {index} was read before it was written"
  | payloadChanged now stored =>
    s!"assertion failed: checksum {now} differs from the stored {stored}"

end Fault

/-- A computation that a fault may end. -/
abbrev Checked := Except Fault

/-- A row of two computations yields a result when both do. -/
theorem bind_eq_ok_iff {ε α β : Type} {x : Except ε α} {f : α → Except ε β} {b : β} :
    (x >>= f) = .ok b ↔ ∃ a, x = .ok a ∧ f a = .ok b := by
  cases x <;> simp [bind, Except.bind]

namespace Word

/-- The number of values of a 64-bit word. -/
def limit : Nat := UInt64.size

/-- The largest word. -/
def max : Nat := limit - 1

/-- The sum of two words that is expected to fit a word. -/
def add (a b : Nat) : Checked Nat :=
  if a + b < limit then .ok (a + b) else .error .addOverflow

/-- The difference of two words of which the second is expected to be no larger. -/
def sub (a b : Nat) : Checked Nat :=
  if b ≤ a then .ok (a - b) else .error .subOverflow

/-- The product of two words, if it is a word. -/
def mul? (a b : Nat) : Option Nat :=
  if a * b < limit then some (a * b) else none

/-- The most bytes in a row.  The distance between any two of them is a signed word. -/
def maxRow : Nat := limit / 2 - 1

/-- Goes on only when elements of a size can lie in a row. -/
def reserve (count size : Nat) : Checked Unit :=
  if count * size ≤ maxRow then .ok () else .error .capacityOverflow

/-- The sum of two words as the hardware adds them, with wraparound at `limit`. -/
def wrappingAdd (a b : Nat) : Nat := (a + b) % limit

theorem add_eq_ok {a b : Nat} (h : a + b < limit) : add a b = .ok (a + b) := if_pos h

theorem sub_eq_ok {a b : Nat} (h : b ≤ a) : sub a b = .ok (a - b) := if_pos h

theorem reserve_eq_ok_iff {count size : Nat} :
    reserve count size = .ok () ↔ count * size ≤ maxRow := by
  grind [reserve]

theorem mul?_eq_some_iff {a b n : Nat} : mul? a b = some n ↔ n = a * b ∧ a * b < limit := by
  grind [mul?]

theorem wrappingAdd_of_lt {a b : Nat} (h : a + b < limit) : wrappingAdd a b = a + b :=
  Nat.mod_eq_of_lt h

end Word

end BumpArena
