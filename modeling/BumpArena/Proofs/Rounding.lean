import BumpArena.Proofs.Journal.Framing
import Mathlib.Algebra.Group.Nat.Defs
import Mathlib.Order.Bounds.Basic
import Mathlib.Order.MinMax

/-!
# Rounding up

`roundUp` finds the least multiple of an alignment at or above a size among all numbers, not only
among those that it could have tried: `Alignment.isLeast_ceil` says so of the number that it
computes, and `Alignment.dvd_wordLimit` that its test for room misses none.  As words end on a
multiple of every alignment, the largest padding overflows exactly when the next multiple does.

Hardware rounds otherwise.  It adds the largest padding and clears the bits below the alignment,
which is what `roundUpByMask` does, and it comes to the same (`roundUp_eq_roundUpByMask`).
-/

namespace BumpArena

/-! ## The next multiple -/

namespace Alignment

variable {a : Alignment} {size size' n : Nat}

/-- The aligned positions at or above a size. -/
def positionsFrom (a : Alignment) (size : Nat) : Set Nat := {n | a.bytes ∣ n ∧ size ≤ n}

lemma ceil_le (hdvd : a.bytes ∣ n) (hle : size ≤ n) : a.ceil size ≤ n := by
  have hlt := a.ceil_lt size
  refine Nat.not_lt.1 fun hbelow => ?_
  -- Two different multiples are at least one alignment apart.
  have hgap := Nat.le_of_dvd (Nat.sub_pos_of_lt hbelow) (Nat.dvd_sub (a.dvd_ceil size) hdvd)
  omega

/-- **No aligned position is nearer.** -/
lemma isLeast_ceil (a : Alignment) (size : Nat) : IsLeast (a.positionsFrom size) (a.ceil size) :=
  ⟨⟨a.dvd_ceil size, a.le_ceil size⟩, fun _ ⟨hdvd, hle⟩ => ceil_le hdvd hle⟩

lemma eq_ceil_iff : n = a.ceil size ↔ IsLeast (a.positionsFrom size) n := by
  constructor
  · rintro rfl
    exact a.isLeast_ceil size
  · exact fun hleast => hleast.unique (a.isLeast_ceil size)

lemma ceil_mono (h : size ≤ size') : a.ceil size ≤ a.ceil size' :=
  ceil_le (a.dvd_ceil size') (Nat.le_trans h (a.le_ceil size'))

lemma ceil_max (a : Alignment) (m n : Nat) : a.ceil (max m n) = max (a.ceil m) (a.ceil n) :=
  Monotone.map_max fun _ _ => ceil_mono

lemma ceil_min (a : Alignment) (m n : Nat) : a.ceil (min m n) = min (a.ceil m) (a.ceil n) :=
  Monotone.map_min fun _ _ => ceil_mono

/-- Words end on a multiple of every alignment that is a word. -/
lemma dvd_wordLimit (h : a.bytes < Word.limit) : a.bytes ∣ Word.limit := by
  obtain ⟨k, hk⟩ := a.isPowerOfTwo_bytes
  have hlimit : Word.limit = 2 ^ 64 := rfl
  rw [hk, hlimit] at h ⊢
  exact Nat.pow_dvd_pow 2 ((Nat.pow_lt_pow_iff_right (by decide)).1 h).le

end Alignment

/-! ## Rounding by bits -/

/-- Rounding up as hardware does it: the largest padding is added, where the sum is a word, and the
bits below the alignment are cleared. -/
def roundUpByMask (size align : UInt64) : Option UInt64 :=
  let mask := align - 1
  if size.toNat + mask.toNat < Word.limit then some ((size + mask) &&& ~~~mask) else none

section Mask

variable {size align n : UInt64} {a : Alignment}

lemma toNat_sub_one (hpos : 0 < align.toNat) : (align - 1).toNat = align.toNat - 1 :=
  UInt64.toNat_sub_of_le align 1 (UInt64.le_iff_toNat_le.2 hpos)

/-- The bits of a number from an alignment on make up a multiple of it. -/
lemma toNat_clear (h : align.toNat.isPowerOfTwo) :
    (n &&& ~~~(align - 1)).toNat = n.toNat / align.toNat * align.toNat := by
  obtain ⟨k, hk⟩ := h
  refine Nat.eq_of_testBit_eq fun i => ?_
  have hbelow : (align - 1).toNat.testBit i = decide (i < k) := by
    rw [toNat_sub_one (hk ▸ Nat.two_pow_pos k), hk, Nat.testBit_two_pow_sub_one]
  have hclear : (n &&& ~~~(align - 1)).toNat.testBit i =
      (n.toNat.testBit i && !decide (i < k)) := by
    rw [← hbelow]
    simp only [← UInt64.toNat_toBitVec, BitVec.testBit_toNat, UInt64.toBitVec_and,
      UInt64.toBitVec_not, BitVec.getLsbD_and, BitVec.getLsbD_not]
    -- From the length of a word on there are no bits that could be cleared.
    by_cases hi : i < 64
    · rw [decide_eq_true hi, Bool.true_and]
    · rw [BitVec.getLsbD_of_ge _ _ (Nat.not_lt.1 hi), Bool.false_and, Bool.false_and]
  rw [hclear, hk, Nat.testBit_mul_two_pow, Nat.testBit_div_two_pow]
  by_cases hi : k ≤ i
  · simp [hi, Nat.sub_add_cancel hi]
  · simp [hi, Nat.not_le.1 hi]

/-- **Rounding by bits is rounding.** -/
lemma roundUp_eq_roundUpByMask (h : align.toNat = a.bytes) :
    roundUp size.toNat a = (roundUpByMask size align).map UInt64.toNat := by
  have hpower : align.toNat.isPowerOfTwo := h ▸ a.isPowerOfTwo_bytes
  have hmask : (align - 1).toNat = a.bytes - 1 := h ▸ toNat_sub_one (h ▸ a.bytes_pos)
  simp only [roundUp, roundUpByMask, hmask]
  split
  · next hroom =>
    have hsum : (size + (align - 1)).toNat = size.toNat + (a.bytes - 1) := by
      rw [UInt64.toNat_add, hmask]
      exact Nat.mod_eq_of_lt hroom
    rw [Option.map_some, toNat_clear hpower, hsum, h]
    rfl
  · rfl

end Mask

/-! ## Powers of two -/

/-- The test for powers of two lets just these pass. -/
lemma isPowerOfTwo_iff (n : Nat) : isPowerOfTwo n = true ↔ ∃ k, n = 2 ^ k := by
  rw [← Nat.isPowerOfTwo, ← Nat.ne_zero_and_sub_one_eq_zero_iff_isPowerOfTwo]
  simp [isPowerOfTwo]

/-! ## What rounding up promises -/

/-- **What rounding up to an alignment promises.** -/
structure RoundsUp (a : Alignment) : Prop where
  /-- It yields the least multiple at or above the size, where that is a word. -/
  eq_some_iff : ∀ size n, roundUp size a = some n ↔
    IsLeast (a.positionsFrom size) n ∧ n < Word.limit
  /-- It yields nothing exactly when no such multiple is a word. -/
  eq_none_iff : ∀ size, roundUp size a = none ↔ ∀ n ∈ a.positionsFrom size, Word.limit ≤ n
  /-- A smaller size is rounded to no more. -/
  mono : ∀ size size' n', size ≤ size' → roundUp size' a = some n' →
    ∃ n, roundUp size a = some n ∧ n ≤ n'
  /-- What was rounded stays as it is. -/
  idempotent : ∀ size n, roundUp size a = some n → roundUp n a = some n
  /-- On words it is what adding and masking them yields. -/
  byMask : ∀ size align : UInt64, align.toNat = a.bytes →
    roundUp size.toNat a = (roundUpByMask size align).map UInt64.toNat

lemma Alignment.roundsUp {a : Alignment} (hword : a.bytes < Word.limit) : RoundsUp a := by
  have hround (size n : Nat) : roundUp size a = some n ↔ n = a.ceil size ∧ n < Word.limit :=
    roundUp_eq_some_iff_of_dvd (Alignment.dvd_wordLimit hword)
  constructor
  case eq_some_iff =>
    intro size n
    rw [hround, Alignment.eq_ceil_iff]
  case eq_none_iff =>
    intro size
    rw [Option.eq_none_iff_forall_ne_some]
    constructor
    · intro hnone n ⟨hdvd, hle⟩
      have hceil : Word.limit ≤ a.ceil size :=
        Nat.not_lt.1 fun hlt => hnone _ ((hround size _).2 ⟨rfl, hlt⟩)
      exact Nat.le_trans hceil (Alignment.ceil_le hdvd hle)
    · intro hall n hsome
      obtain ⟨rfl, hlt⟩ := (hround size n).1 hsome
      exact absurd hlt (Nat.not_lt.2 (hall _ (a.isLeast_ceil size).1))
  case mono =>
    intro size size' n' hle hsome
    obtain ⟨rfl, hlt⟩ := (hround size' n').1 hsome
    have hceil : a.ceil size ≤ a.ceil size' := Alignment.ceil_mono hle
    exact ⟨_, (hround size _).2 ⟨rfl, Nat.lt_of_le_of_lt hceil hlt⟩, hceil⟩
  case idempotent =>
    intro size n hsome
    obtain ⟨hceil, hlt⟩ := (hround size n).1 hsome
    have hleast : IsLeast (a.positionsFrom n) n :=
      ⟨⟨dvd_of_roundUp hsome, Nat.le_refl n⟩, fun _ hm => hm.2⟩
    exact (hround n n).2 ⟨Alignment.eq_ceil_iff.2 hleast, hlt⟩
  case byMask => exact fun size align => roundUp_eq_roundUpByMask

namespace Journal

variable {length size : Nat}

/-- The size of a record is that of its header and payload, rounded up, whether or not the sum of
these is a word. -/
lemma recordSize_eq_roundUp (length : Nat) :
    recordSize length = roundUp (length + 32) cacheLine := by
  rw [recordSize, Nat.add_comm]
  split
  · rfl
  · next hlarge => exact (if_neg (by omega)).symm

end Journal

/-- **Rounding up** to every alignment that is a word.  The test for powers of two lets just these
pass.  Rounding yields the least multiple at or above a size, wherever that is a word, and does the
same by bits.  So a record takes up the least number of whole cache lines that its header and its
payload fit. -/
theorem roundUp_laws :
    (∀ n, isPowerOfTwo n = true ↔ ∃ k, n = 2 ^ k) ∧
    (∀ a : Alignment, a.bytes < Word.limit → RoundsUp a) ∧
    (∀ length size, Journal.recordSize length = some size ↔
      IsLeast {n | 64 ∣ n ∧ length + 32 ≤ n} size ∧ size < Word.limit) ∧
    ∀ length, Journal.recordSize length = none ↔
      ∀ n, 64 ∣ n → length + 32 ≤ n → Word.limit ≤ n := by
  have hlines : RoundsUp cacheLine := Alignment.roundsUp (by decide)
  refine ⟨isPowerOfTwo_iff, fun a => Alignment.roundsUp, fun length size => ?_, fun length => ?_⟩
  · rw [Journal.recordSize_eq_roundUp, hlines.eq_some_iff]
    rfl
  · rw [Journal.recordSize_eq_roundUp, hlines.eq_none_iff]
    exact ⟨fun hall n hdvd hle => hall n ⟨hdvd, hle⟩, fun hall n hn => hall n hn.1 hn.2⟩

/-- The largest alignment that is a word. -/
def halfLimit : Alignment := ⟨2 ^ 63, by decide⟩

/-- At the end of the words: half of them is a multiple of the largest alignment and the next one is
no word, and the longest payload that has a record fills it up to the last cache line. -/
theorem roundUp_laws_atLimit :
    halfLimit.bytes < Word.limit ∧ RoundsUp halfLimit ∧
    roundUp (2 ^ 63) halfLimit = some (2 ^ 63) ∧ roundUp (2 ^ 63 + 1) halfLimit = none ∧
    (∀ n ∈ halfLimit.positionsFrom (2 ^ 63 + 1), Word.limit ≤ n) ∧
    Journal.recordSize (2 ^ 64 - 96) = some (2 ^ 64 - 64) ∧
    IsLeast {n | 64 ∣ n ∧ 2 ^ 64 - 96 + 32 ≤ n} (2 ^ 64 - 64) ∧
    Journal.recordSize (2 ^ 64 - 95) = none := by
  obtain ⟨-, hrounds, hsome, -⟩ := roundUp_laws
  have hword : halfLimit.bytes < Word.limit := by decide
  have hhalf := hrounds halfLimit hword
  have hnone : roundUp (2 ^ 63 + 1) halfLimit = none := by decide
  have hsize : Journal.recordSize (2 ^ 64 - 96) = some (2 ^ 64 - 64) := by decide
  exact ⟨hword, hhalf, by decide, hnone, (hhalf.eq_none_iff _).1 hnone, hsize,
    ((hsome _ _).1 hsize).1, by decide⟩

end BumpArena
