import BumpArena.Layout
import BumpArena.Proofs.WordRow

/-!
# Plain-data types

Regions know values as bytes.  A `PlainType` says what the bytes stand for: words in a row, of any
widths, least significant byte first, with no room between them.  Integers and floating-point
numbers are rows of one word, arrays and records are the rows of their parts one after the other.
Values and their images stand for each other one to one (`PlainType.ofImage_image`,
`PlainType.image_ofImage`), as there is a value for every byte string of the size.
-/

namespace BumpArena

/-- A plain-data type. -/
structure PlainType where
  layout : Layout
  /-- The widths of its words. -/
  widths : List Nat
  sum_widths : widths.sum = layout.size := by decide
  deriving DecidableEq, Repr

namespace PlainType

/-- A value: a number for each word, which fits it. -/
def Value (t : PlainType) : Type := { ns : List Nat // LittleEndian.Fit t.widths ns }

/-- **The little-endian image** of a value. -/
def image (t : PlainType) (v : t.Value) : t.layout.Value :=
  ⟨LittleEndian.encodeRow t.widths v.val, by
    rw [LittleEndian.length_encodeRow v.property, t.sum_widths]⟩

/-- The value that bytes stand for. -/
def ofImage (t : PlainType) (bytes : t.layout.Value) : t.Value :=
  ⟨LittleEndian.decodeRow t.widths bytes.val, LittleEndian.fit_decodeRow (by
    rw [bytes.property, t.sum_widths])⟩

@[simp] lemma ofImage_image (t : PlainType) (v : t.Value) : t.ofImage (t.image v) = v :=
  Subtype.ext (LittleEndian.decodeRow_encodeRow v.property)

@[simp] lemma image_ofImage (t : PlainType) (bytes : t.layout.Value) :
    t.image (t.ofImage bytes) = bytes :=
  Subtype.ext (LittleEndian.encodeRow_decodeRow (by rw [bytes.property, t.sum_widths]))

end PlainType

end BumpArena
