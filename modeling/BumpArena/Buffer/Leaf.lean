/-!
# Byte leaves

A `ByteLeaf` is a row of eight bytes, small enough to be copied whenever one of them changes.  Its
bytes are numbered from zero, and of a larger number only the remainder by eight counts.
-/

namespace BumpArena

/-- Eight bytes. -/
structure ByteLeaf where
  b₀ : UInt8 := 0
  b₁ : UInt8 := 0
  b₂ : UInt8 := 0
  b₃ : UInt8 := 0
  b₄ : UInt8 := 0
  b₅ : UInt8 := 0
  b₆ : UInt8 := 0
  b₇ : UInt8 := 0
  deriving DecidableEq, Repr, Inhabited

namespace ByteLeaf

/-- Zeros. -/
def zeros : ByteLeaf := {}

/-- The byte at an index. -/
def get (l : ByteLeaf) (i : Nat) : UInt8 :=
  match i % 8 with
  | 0 => l.b₀
  | 1 => l.b₁
  | 2 => l.b₂
  | 3 => l.b₃
  | 4 => l.b₄
  | 5 => l.b₅
  | 6 => l.b₆
  | _ => l.b₇

/-- Stores a byte at an index. -/
def set (l : ByteLeaf) (i : Nat) (value : UInt8) : ByteLeaf :=
  match i % 8 with
  | 0 => { l with b₀ := value }
  | 1 => { l with b₁ := value }
  | 2 => { l with b₂ := value }
  | 3 => { l with b₃ := value }
  | 4 => { l with b₄ := value }
  | 5 => { l with b₅ := value }
  | 6 => { l with b₆ := value }
  | _ => { l with b₇ := value }

/-- Clears every byte at or past an index. -/
def truncate (l : ByteLeaf) (keep : Nat) : ByteLeaf where
  b₀ := if 0 < keep then l.b₀ else 0
  b₁ := if 1 < keep then l.b₁ else 0
  b₂ := if 2 < keep then l.b₂ else 0
  b₃ := if 3 < keep then l.b₃ else 0
  b₄ := if 4 < keep then l.b₄ else 0
  b₅ := if 5 < keep then l.b₅ else 0
  b₆ := if 6 < keep then l.b₆ else 0
  b₇ := if 7 < keep then l.b₇ else 0

/-- Stores bytes from an index on, and yields those that fall past the last one. -/
def write (l : ByteLeaf) (start : Nat) : List UInt8 → ByteLeaf × List UInt8
  | [] => (l, [])
  | value :: rest =>
    if start % 8 = 7 then (l.set start value, rest)
    else (l.set start value).write (start + 1) rest

/-- Folds over a number of bytes from an index on, and yields how many fall past the last one. -/
@[specialize]
def fold {α : Type} (l : ByteLeaf) (step : α → UInt8 → α) (start : Nat) :
    (count : Nat) → α → α × Nat
  | 0, acc => (acc, 0)
  | count + 1, acc =>
    if start % 8 = 7 then (step acc (l.get start), count)
    else l.fold step (start + 1) count (step acc (l.get start))

/-! ## Laws -/

/-- An index is one of eight, as far as it counts. -/
private theorem mod_eight_cases (i : Nat) :
    i % 8 = 0 ∨ i % 8 = 1 ∨ i % 8 = 2 ∨ i % 8 = 3 ∨ i % 8 = 4 ∨ i % 8 = 5 ∨ i % 8 = 6 ∨
      i % 8 = 7 := by
  omega

/-- Only the remainder of an index counts. -/
theorem get_congr (l : ByteLeaf) {i j : Nat} (h : i % 8 = j % 8) : l.get i = l.get j := by
  rw [get, get, h]

@[simp]
theorem get_zeros (i : Nat) : zeros.get i = 0 := by
  rcases mod_eight_cases i with h | h | h | h | h | h | h | h <;> simp [get, h, zeros]

/-- What a stored byte changes: the byte at its index and no other. -/
theorem get_set (l : ByteLeaf) (i j : Nat) (value : UInt8) :
    (l.set i value).get j = if j % 8 = i % 8 then value else l.get j := by
  rcases mod_eight_cases i with h | h | h | h | h | h | h | h <;>
    rcases mod_eight_cases j with k | k | k | k | k | k | k | k <;>
    simp [get, set, h, k]

/-- What truncation leaves: the bytes below the index, and zeros. -/
theorem get_truncate (l : ByteLeaf) (keep : Nat) {i : Nat} (hi : i < 8) :
    (l.truncate keep).get i = if i < keep then l.get i else 0 := by
  rw [← Nat.mod_eq_of_lt hi]
  rcases mod_eight_cases i with h | h | h | h | h | h | h | h <;> simp [get, truncate, h]

/-- The bytes that do not fit are those past the eighth. -/
theorem write_snd (l : ByteLeaf) (start : Nat) (bytes : List UInt8) :
    (l.write start bytes).2 = bytes.drop (8 - start % 8) := by
  induction bytes generalizing l start with
  | nil => simp [write]
  | cons value rest ih =>
    by_cases h : start % 8 = 7
    · simp [write, h]
    · have h₁ : 8 - start % 8 = 8 - (start + 1) % 8 + 1 := by omega
      simp [write, h, ih, h₁]

/-- Stored bytes change the bytes of their range. -/
theorem get_write (l : ByteLeaf) (start j : Nat) (bytes : List UInt8) :
    (l.write start bytes).1.get j =
      if start % 8 ≤ j % 8 ∧ j % 8 < start % 8 + bytes.length then
        bytes.getD (j % 8 - start % 8) 0
      else l.get j := by
  induction bytes generalizing l start with
  | nil =>
    rw [List.length_nil, if_neg (by omega)]
    rfl
  | cons value rest ih =>
    by_cases h : start % 8 = 7
    · by_cases hj : j % 8 = start % 8 <;> grind [write, get_set]
    · have h₁ : (start + 1) % 8 = start % 8 + 1 := by omega
      rw [write, if_neg h, ih, get_set, h₁, List.length_cons]
      rcases Nat.lt_trichotomy (j % 8) (start % 8) with hlt | heq | hgt
      · rw [if_neg (by omega), if_neg (by omega), if_neg (by omega)]
      · rw [if_neg (by omega), if_pos heq, if_pos (by omega), heq, Nat.sub_self]
        rfl
      · have h₂ : j % 8 - start % 8 = j % 8 - (start % 8 + 1) + 1 := by omega
        rw [if_neg (Nat.ne_of_gt hgt), h₂, List.getD_cons_succ]
        congr 1
        apply propext
        omega

/-- Folding over a range is folding over its bytes, as far as there are eight. -/
theorem fold_eq {α : Type} (l : ByteLeaf) (step : α → UInt8 → α) (start count : Nat) (acc : α) :
    l.fold step start count acc =
      (((List.range' (start % 8) (min count (8 - start % 8))).map l.get).foldl step acc,
        count - (8 - start % 8)) := by
  induction count generalizing start acc with
  | zero => simp [fold]
  | succ count ih =>
    have hget : l.get start = l.get (start % 8) := l.get_congr (by omega)
    by_cases h : start % 8 = 7
    · have h₁ : min (count + 1) (8 - start % 8) = 1 := by omega
      simp [fold, h, hget]
    · have h₁ : (start + 1) % 8 = start % 8 + 1 := by omega
      have h₂ : min (count + 1) (8 - start % 8) = min count (8 - (start % 8 + 1)) + 1 := by omega
      have h₃ : count + 1 - (8 - start % 8) = count - (8 - (start % 8 + 1)) := by omega
      rw [fold, if_neg h, ih, h₁, h₂, h₃, List.range'_succ, List.map_cons, List.foldl_cons, hget]

end ByteLeaf

end BumpArena
