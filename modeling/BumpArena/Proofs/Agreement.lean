import BumpArena.Buffer.Basic
import Mathlib.Data.List.GetD

/-!
# Buffers that agree on a range

Two moments of a journal differ in a few bytes, and most of what is said about it depends on few
bytes as well.  `Buffer.AgreeOn` is the relation through which the two meet: an operation says on
which ranges the buffers before and after it agree, and a fact about a range goes over from the
one to the other.

Buffers are compared byte by byte throughout, never as values.  The same bytes have many trees
that hold them, so that equality of buffers would be too much to ask for.
-/

namespace BumpArena.Buffer

/-- The two buffers hold the same bytes from `start` up to `stop`. -/
def AgreeOn (b c : Buffer) (start stop : Nat) : Prop :=
  ∀ i, start ≤ i → i < stop → b.get i = c.get i

/-- The two buffers have the same length and the same bytes. -/
def Same (b c : Buffer) : Prop := b.size = c.size ∧ ∀ i, b.get i = c.get i

section AgreeOn

variable {b c d : Buffer} {start stop : Nat}

lemma AgreeOn.refl (b : Buffer) (start stop : Nat) : AgreeOn b b start stop :=
  fun _ _ _ => rfl

lemma AgreeOn.symm (h : AgreeOn b c start stop) : AgreeOn c b start stop :=
  fun i hlow hhigh => (h i hlow hhigh).symm

lemma AgreeOn.trans (h : AgreeOn b c start stop) (h' : AgreeOn c d start stop) :
    AgreeOn b d start stop :=
  fun i hlow hhigh => (h i hlow hhigh).trans (h' i hlow hhigh)

lemma AgreeOn.mono (h : AgreeOn b c start stop) {start' stop' : Nat} (hstart : start ≤ start')
    (hstop : stop' ≤ stop) : AgreeOn b c start' stop' :=
  fun i hlow hhigh => h i (Nat.le_trans hstart hlow) (Nat.lt_of_lt_of_le hhigh hstop)

lemma AgreeOn.read_eq (h : AgreeOn b c start stop) {offset length : Nat} (hstart : start ≤ offset)
    (hstop : offset + length ≤ stop) : b.read offset length = c.read offset length :=
  read_congr fun i hlow hhigh => h i (by omega) (by omega)

/-- A store changes nothing outside the range that it stores to. -/
lemma agreeOn_write {offset : Nat} {bytes : List UInt8}
    (h : stop ≤ offset ∨ offset + bytes.length ≤ start) :
    AgreeOn (b.write offset bytes) b start stop := by
  intro i hlow hhigh
  rw [get_write, if_neg (by omega)]

lemma Same.agreeOn (h : Same b c) (start stop : Nat) : AgreeOn b c start stop :=
  fun i _ _ => h.2 i

end AgreeOn

/-- A part of a range that was read is that part of the buffer. -/
lemma take_drop_read (b : Buffer) {start length skip count : Nat} (h : skip + count ≤ length) :
    ((b.read start length).drop skip).take count = b.read (start + skip) count := by
  apply List.ext_getElem
  · simp only [List.length_take, List.length_drop, length_read]
    omega
  · intro i _ _
    simp only [List.getElem_take, List.getElem_drop, getElem_read]
    congr 1
    omega

/-- Bytes that are stored inside a range that is read afterwards replace what was there. -/
lemma read_write_inside (b : Buffer) {start length position : Nat} {data : List UInt8}
    (hfit : position + data.length ≤ length) (hsize : start + length ≤ b.size) :
    (b.write (start + position) data).read start length =
      (b.read start length).take position ++ data ++
        (b.read start length).drop (position + data.length) := by
  apply List.ext_getElem
  · simp only [length_read, List.length_append, List.length_take, List.length_drop]
    omega
  · intro i hi _
    simp only [length_read] at hi
    rw [getElem_read, get_write]
    simp only [List.getElem_append, List.length_append, List.length_take, length_read,
      List.getElem_take, List.getElem_drop, getElem_read]
    by_cases hlow : i < position
    · rw [if_neg (by omega), dif_pos (by omega), dif_pos (by omega)]
    by_cases hhigh : i < position + data.length
    · rw [if_pos (by omega), dif_pos (by omega), dif_neg (by omega),
        List.getD_eq_getElem _ _ (by omega)]
      congr 1
      omega
    · rw [if_neg (by omega), dif_neg (by omega)]
      congr 1
      omega

end BumpArena.Buffer
