import BumpArena.Word

/-!
# Alignment

An `Alignment` is a power of two, and `roundUp` takes a size to the least multiple of one that is
no smaller, if that multiple is still a word.  The granularities on which the library is built,
the page and the cache line, are stated here with the largest region that they allow.
-/

namespace BumpArena

/-- Whether a number is a power of two.  Subtracting one from a power of two clears its only bit
and sets all lower ones, so that the two share no bit, and no other positive number behaves so. -/
def isPowerOfTwo (n : Nat) : Bool := n != 0 && n &&& (n - 1) == 0

/-- An alignment in bytes: a power of two. -/
structure Alignment where
  /-- The distance of neighbouring aligned positions. -/
  bytes : Nat
  bytes_isPowerOfTwo : isPowerOfTwo bytes = true
  deriving DecidableEq, Repr

namespace Alignment

theorem bytes_pos (a : Alignment) : 0 < a.bytes := by
  have h := a.bytes_isPowerOfTwo
  grind [isPowerOfTwo]

instance : Inhabited Alignment := ⟨⟨1, by decide⟩⟩

/-- Alignment of single bytes: every position is aligned. -/
def byte : Alignment := ⟨1, by decide⟩

/-- The alignment with a given distance, which has to be a power of two. -/
def ofNat (n : Nat) : Checked Alignment :=
  if h : isPowerOfTwo n = true then .ok ⟨n, h⟩ else .error (.notPowerOfTwo n)

theorem isPowerOfTwo_bytes (a : Alignment) : a.bytes.isPowerOfTwo := by
  refine Nat.ne_zero_and_sub_one_eq_zero_iff_isPowerOfTwo.1 ?_
  simpa [isPowerOfTwo] using a.bytes_isPowerOfTwo

/-- Of two alignments the smaller one divides the larger one. -/
theorem dvd_of_le {a b : Alignment} (h : a.bytes ≤ b.bytes) : a.bytes ∣ b.bytes := by
  obtain ⟨i, hi⟩ := a.isPowerOfTwo_bytes
  obtain ⟨j, hj⟩ := b.isPowerOfTwo_bytes
  rw [hi, hj] at h ⊢
  exact Nat.pow_dvd_pow 2 ((Nat.pow_le_pow_iff_right (by decide)).1 h)

/-- Whether an offset is aligned. -/
def Divides (a : Alignment) (offset : Nat) : Prop := offset % a.bytes = 0

instance (a : Alignment) (offset : Nat) : Decidable (a.Divides offset) :=
  inferInstanceAs (Decidable (_ = _))

/-- The least multiple of the alignment at or above a size. -/
def ceil (a : Alignment) (size : Nat) : Nat := (size + (a.bytes - 1)) / a.bytes * a.bytes

theorem le_ceil (a : Alignment) (size : Nat) : size ≤ a.ceil size := by
  have hdiv := Nat.div_add_mod (size + (a.bytes - 1)) a.bytes
  have hmod := Nat.mod_lt (size + (a.bytes - 1)) a.bytes_pos
  have hpos := a.bytes_pos
  rw [Nat.mul_comm] at hdiv
  rw [ceil]
  omega

theorem ceil_lt (a : Alignment) (size : Nat) : a.ceil size < size + a.bytes := by
  have hle := Nat.div_mul_le_self (size + (a.bytes - 1)) a.bytes
  have hpos := a.bytes_pos
  rw [ceil]
  omega

theorem dvd_ceil (a : Alignment) (size : Nat) : a.bytes ∣ a.ceil size := Nat.dvd_mul_left ..

end Alignment

/-- The least multiple of an alignment at or above a size.  There is none when adding the largest
possible padding leaves the range of words. -/
def roundUp (size : Nat) (a : Alignment) : Option Nat :=
  if size + (a.bytes - 1) < Word.limit then some (a.ceil size) else none

/-- The granularity of backing regions. -/
def page : Alignment := ⟨4096, by decide⟩

/-- The granularity of chunks and of journal records. -/
def cacheLine : Alignment := ⟨64, by decide⟩

/-- The largest region that a 32-bit offset can address.  The offset of all ones marks the null
handle, so the range ends at the last whole page below it. -/
def maxCapacity : Nat := (UInt32.size - 1) / page.bytes * page.bytes

/-- Twice the size of a region is a word, and not the last one. -/
theorem two_mul_lt_of_le_maxCapacity {size : Nat} (h : size ≤ maxCapacity) :
    2 * size + 1 < Word.limit := by
  have hmax : 2 * maxCapacity + 1 < Word.limit := by decide
  omega

theorem lt_limit_of_le_maxCapacity {size : Nat} (h : size ≤ maxCapacity) : size < Word.limit := by
  have hlimit := two_mul_lt_of_le_maxCapacity h
  omega

/-! ## What rounding up yields -/

section RoundUp

variable {size n : Nat} {a : Alignment}

theorem roundUp_eq_some_iff :
    roundUp size a = some n ↔ n = a.ceil size ∧ size + (a.bytes - 1) < Word.limit := by
  grind [roundUp]

/-- Where the words end on a multiple of the alignment, a size can be rounded up exactly when the
next multiple is a word. -/
theorem roundUp_eq_some_iff_of_dvd (h : a.bytes ∣ Word.limit) :
    roundUp size a = some n ↔ n = a.ceil size ∧ n < Word.limit := by
  obtain ⟨k, hk⟩ := h
  have hpos := a.bytes_pos
  have hlt : a.ceil size < Word.limit ↔ size + (a.bytes - 1) < Word.limit := by
    rw [Alignment.ceil, hk, Nat.mul_comm a.bytes k, Nat.mul_lt_mul_right hpos,
      Nat.div_lt_iff_lt_mul hpos]
  rw [roundUp_eq_some_iff]
  constructor
  · rintro ⟨rfl, hroom⟩
    exact ⟨rfl, hlt.2 hroom⟩
  · rintro ⟨rfl, hword⟩
    exact ⟨rfl, hlt.1 hword⟩

/-- A rounded size is a multiple of the alignment. -/
theorem dvd_of_roundUp (h : roundUp size a = some n) : a.bytes ∣ n :=
  (roundUp_eq_some_iff.1 h).1 ▸ a.dvd_ceil size

/-- A rounded size is no smaller than the size. -/
theorem le_of_roundUp (h : roundUp size a = some n) : size ≤ n :=
  (roundUp_eq_some_iff.1 h).1 ▸ a.le_ceil size

/-- Rounding up adds less than one alignment. -/
theorem lt_of_roundUp (h : roundUp size a = some n) : n < size + a.bytes :=
  (roundUp_eq_some_iff.1 h).1 ▸ a.ceil_lt size

end RoundUp

end BumpArena
