import BumpArena.LittleEndian
import Mathlib.Data.List.Forall2
import Mathlib.Algebra.GroupWithZero.Nat

/-!
# Words in a row

A record header, and a value of any plain-data type, is a row of words, each in as many bytes as its
field is wide, with no room between them.  `LittleEndian.encodeRow` and `LittleEndian.decodeRow` are
the two directions for such a row, and they are inverse to each other: on numbers that fit their
fields (`decodeRow_encodeRow`), and on byte strings as long as all fields together
(`encodeRow_decodeRow`).
-/

namespace BumpArena.LittleEndian

/-- The bytes of numbers in a row, each of the width of its field. -/
def encodeRow : (widths ns : List Nat) → List UInt8
  | width :: widths, n :: ns => encode width n ++ encodeRow widths ns
  | _, _ => []

/-- The numbers that stand in a row of fields. -/
def decodeRow : (widths : List Nat) → List UInt8 → List Nat
  | [], _ => []
  | width :: widths, bytes => decode (bytes.take width) :: decodeRow widths (bytes.drop width)

/-- There is a number for each field, and it fits the field. -/
def Fit (widths ns : List Nat) : Prop := List.Forall₂ (fun width n => n < values width) widths ns

variable {widths ns : List Nat} {bytes : List UInt8}

lemma length_encodeRow (h : Fit widths ns) : (encodeRow widths ns).length = widths.sum := by
  induction h with
  | nil => rfl
  | cons _ _ ih => rw [encodeRow, List.length_append, length_encode, ih, List.sum_cons]

/-- **Numbers are read back.** -/
lemma decodeRow_encodeRow (h : Fit widths ns) : decodeRow widths (encodeRow widths ns) = ns := by
  induction h with
  | nil => rfl
  | @cons width n widths ns hn _ ih =>
    rw [encodeRow, decodeRow, List.take_left' (length_encode width n),
      List.drop_left' (length_encode width n), ih, decode_encode, Nat.mod_eq_of_lt hn]

/-- What is read from fields fits them. -/
lemma fit_decodeRow (h : bytes.length = widths.sum) : Fit widths (decodeRow widths bytes) := by
  induction widths generalizing bytes with
  | nil => exact .nil
  | cons width widths ih =>
    rw [List.sum_cons] at h
    have htake : (bytes.take width).length = width := by
      rw [List.length_take]
      omega
    have hlt := decode_lt (bytes.take width)
    rw [htake] at hlt
    refine .cons hlt (ih ?_)
    rw [List.length_drop]
    omega

/-- **Bytes are stored back.** -/
lemma encodeRow_decodeRow (h : bytes.length = widths.sum) :
    encodeRow widths (decodeRow widths bytes) = bytes := by
  induction widths generalizing bytes with
  | nil => exact (List.length_eq_zero_iff.1 h).symm
  | cons width widths ih =>
    rw [List.sum_cons] at h
    have htake : (bytes.take width).length = width := by
      rw [List.length_take]
      omega
    have hdrop : (bytes.drop width).length = widths.sum := by
      rw [List.length_drop]
      omega
    have hfield := encode_decode (bytes.take width)
    rw [htake] at hfield
    rw [decodeRow, encodeRow, hfield, ih hdrop, List.take_append_drop]

/-- What stands behind the fields does not matter. -/
lemma decodeRow_append (h : bytes.length = widths.sum) (rest : List UInt8) :
    decodeRow widths (bytes ++ rest) = decodeRow widths bytes := by
  induction widths generalizing bytes with
  | nil => rfl
  | cons width widths ih =>
    rw [List.sum_cons] at h
    have hwidth : width ≤ bytes.length := by omega
    have hdrop : (bytes.drop width).length = widths.sum := by
      rw [List.length_drop]
      omega
    rw [decodeRow, decodeRow, List.take_append_of_le_length hwidth,
      List.drop_append_of_le_length hwidth, ih hdrop]

end BumpArena.LittleEndian
