import BumpArena.Alignment
import BumpArena.LittleEndian

/-!
# Layouts and requests

A `Layout` says how the elements of one type lie in memory: their size, and the alignment of
their first byte.  The size is a multiple of the alignment, so that elements in a row are all
aligned when the first one is.  A value is the bytes that stand for it, as every byte string of
the size is a value of a plain-data type.

A `Request` asks an arena for a positive number of elements in a row.
-/

namespace BumpArena

/-- Size and alignment of the elements of a type. -/
structure Layout where
  /-- The bytes of one element. -/
  size : Nat
  /-- The alignment of an element. -/
  align : Alignment
  size_lt : size < Word.limit := by decide
  align_dvd : align.bytes ∣ size := by decide
  deriving DecidableEq, Repr

namespace Layout

/-- Single bytes. -/
def byte : Layout where
  size := 1
  align := .byte

instance : Inhabited Layout := ⟨byte⟩

/-- A value: the bytes of one element. -/
abbrev Value (layout : Layout) := { bytes : List UInt8 // bytes.length = layout.size }

end Layout

/-- A request for room: some elements in a row, at least one. -/
structure Request where
  /-- The layout of one element. -/
  layout : Layout
  /-- The number of elements. -/
  count : Nat
  count_pos : 0 < count
  deriving DecidableEq, Repr

namespace Request

/-- A request for a number of elements, which has to be positive. -/
def ofCount (layout : Layout) (count : Nat) : Checked Request :=
  if h : 0 < count then .ok ⟨layout, count, h⟩ else .error .zeroCount

/-- A request for a number of bytes.  A request for none is served as one for a single byte, so
that every grant has an offset of its own. -/
def ofBytes (length : Nat) : Request := ⟨.byte, max length 1, by omega⟩

/-- The bytes that are asked for, rounded up to an alignment, if their number is a word. -/
def roundedSize? (request : Request) (align : Alignment) : Option Nat := do
  let size ← Word.mul? request.layout.size request.count
  roundUp size align

end Request

/-! ## Ordered values -/

/-- A type of integers in a row, all of one width, whose values are ordered position by
position. -/
structure IntegerRow where
  /-- The bytes of one integer, which is also its alignment. -/
  width : Alignment
  /-- The number of integers. -/
  count : Nat := 1
  /-- Whether the highest bit of an integer counts negatively. -/
  signed : Bool := false
  size_lt : width.bytes * count < Word.limit := by decide
  deriving DecidableEq, Repr

namespace IntegerRow

/-- How a row lies in memory. -/
def layout (row : IntegerRow) : Layout where
  size := row.width.bytes * row.count
  align := row.width
  size_lt := row.size_lt
  align_dvd := Nat.dvd_mul_right ..

/-- The integer that a byte string stands for. -/
def integer (row : IntegerRow) (bytes : List UInt8) : Int :=
  let n := LittleEndian.decode bytes
  if row.signed then Int.bmod n (LittleEndian.values bytes.length) else n

/-- The integers of a value, in order. -/
def integers (row : IntegerRow) (value : row.layout.Value) : List Int :=
  let width := row.width.bytes
  (List.range row.count).map fun i => row.integer ((value.val.drop (i * width)).take width)

/-- The order of two values: that of the first integers in which they differ. -/
def compare (row : IntegerRow) (x y : row.layout.Value) : Ordering :=
  List.compareLex Ord.compare (row.integers x) (row.integers y)

end IntegerRow

end BumpArena
