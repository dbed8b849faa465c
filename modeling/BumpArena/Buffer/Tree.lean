import BumpArena.Buffer.Leaf

/-!
# Byte trees

A `ByteTree` of depth `d` stands for `2 ^ d` leaves of eight bytes each.  The bytes are numbered
from zero, and of a larger number only the remainder by their count matters.  A stretch of zeros
needs no nodes at all, so a large buffer in which little was stored stays small.  A tree does not
know its depth: every operation is told it, and a node that does not belong at its depth counts as
zeros.  This way each law below holds of every tree, with no well-formedness condition to carry.

Rows of bytes are stored and read in one walk through the nodes that they touch.
-/

namespace BumpArena

/-- A sparse run of bytes, whose leaves are a power of two in number. -/
inductive ByteTree where
  /-- Zeros only, at any depth. -/
  | zeros
  /-- The one leaf of depth zero. -/
  | leaf (bytes : ByteLeaf)
  /-- The lower and the upper half of the leaves. -/
  | fork (lower upper : ByteTree)
  deriving Repr, Inhabited

namespace ByteTree

/-- The number of bytes of a tree. -/
def span (depth : Nat) : Nat := 8 <<< depth

/-- The leaf of a tree of depth zero. -/
@[inline]
def bytes : ByteTree → ByteLeaf
  | leaf bytes => bytes
  | _ => .zeros

/-- The two halves of a tree. -/
@[inline]
def halves : ByteTree → ByteTree × ByteTree
  | fork lower upper => (lower, upper)
  | _ => (zeros, zeros)

/-- The byte at an index.  From the root down, each level looks at one binary digit of the index,
the highest first, and the leaf at the last three. -/
def get (tree : ByteTree) : (depth : Nat) → Nat → UInt8
  | 0, i => tree.bytes.get i
  | depth + 1, i =>
    if i.testBit (depth + 3) then tree.halves.2.get depth i else tree.halves.1.get depth i

/-- Stores bytes from an index on, and yields those that fall past the end. -/
def write (tree : ByteTree) : (depth start : Nat) → List UInt8 → ByteTree × List UInt8
  | _, _, [] => (tree, [])
  | 0, start, values =>
    let (bytes, rest) := tree.bytes.write start values
    (leaf bytes, rest)
  | depth + 1, start, values =>
    if start.testBit (depth + 3) then
      let (upper, rest) := tree.halves.2.write depth start values
      (fork tree.halves.1 upper, rest)
    else
      let (lower, rest) := tree.halves.1.write depth start values
      let (upper, rest) := tree.halves.2.write depth 0 rest
      (fork lower upper, rest)

/-- Folds over a number of bytes from an index on, and yields how many fall past the end. -/
@[specialize]
def fold {α : Type} (tree : ByteTree) (step : α → UInt8 → α) :
    (depth start count : Nat) → α → α × Nat
  | _, _, 0, acc => (acc, 0)
  | 0, start, count, acc => tree.bytes.fold step start count acc
  | depth + 1, start, count, acc =>
    if start.testBit (depth + 3) then tree.halves.2.fold step depth start count acc
    else
      let (acc, count) := tree.halves.1.fold step depth start count acc
      tree.halves.2.fold step depth 0 count acc

/-- One byte all over. -/
def filled (value : UInt8) : (depth : Nat) → ByteTree
  | 0 => leaf ⟨value, value, value, value, value, value, value, value⟩
  | depth + 1 =>
    let half := filled value depth
    fork half half

/-- Clears every byte at or past an index. -/
def truncate (tree : ByteTree) : (depth : Nat) → Nat → ByteTree
  | 0, keep => leaf (tree.bytes.truncate keep)
  | depth + 1, keep =>
    if keep ≤ span depth then fork (tree.halves.1.truncate depth keep) zeros
    else fork tree.halves.1 (tree.halves.2.truncate depth (keep - span depth))

/-- Adds levels above a tree: the bytes it had come first, and zeros follow. -/
def deepen (tree : ByteTree) : (levels : Nat) → ByteTree
  | 0 => tree
  | levels + 1 => fork (tree.deepen levels) zeros

/-! ## Indices -/

theorem span_succ (depth : Nat) : span (depth + 1) = span depth + span depth := by
  rw [span, span, Nat.shiftLeft_succ]
  omega

theorem span_eq_pow (depth : Nat) : span depth = Nat.pow 2 (depth + 3) := by
  rw [span, Nat.shiftLeft_eq, Nat.mul_comm]
  exact (Nat.pow_add 2 depth 3).symm

theorem span_pos (depth : Nat) : 0 < span depth := by
  rw [span_eq_pow]
  exact Nat.two_pow_pos _

theorem span_le_add (depth levels : Nat) : span depth ≤ span (depth + levels) := by
  induction levels with
  | zero => exact Nat.le_refl _
  | succ levels ih =>
    rw [← Nat.add_assoc, span_succ]
    omega

/-- The part of an index that counts, from its highest digit and the rest. -/
theorem mod_span_succ (i depth : Nat) :
    i % span (depth + 1) =
      if i.testBit (depth + 3) then span depth + i % span depth else i % span depth := by
  have hspan : span depth = 2 ^ (depth + 3) := span_eq_pow depth
  have h : i % span (depth + 1) = i % span depth + span depth * (i / span depth % 2) := by
    rw [span_succ, ← Nat.mul_two, Nat.mod_mul]
  rw [h, hspan, ← Nat.toNat_testBit]
  cases i.testBit (depth + 3) <;> simp [Nat.add_comm]

/-! ## Laws -/

@[simp]
theorem get_zeros (depth i : Nat) : zeros.get depth i = 0 := by
  induction depth with
  | zero => simp [get, bytes]
  | succ depth ih => simp [get, halves, ih]

@[simp]
theorem get_filled (value : UInt8) (depth i : Nat) : (filled value depth).get depth i = value := by
  induction depth with
  | zero =>
    simp only [filled, get, bytes, ByteLeaf.get]
    split <;> rfl
  | succ depth ih => simp [filled, get, halves, ih]

theorem get_fork (lower upper : ByteTree) (depth i : Nat) :
    (fork lower upper).get (depth + 1) i =
      if i.testBit (depth + 3) then upper.get depth i else lower.get depth i := rfl

/-- Only the remainder of an index counts. -/
theorem get_congr {depth : Nat} (tree : ByteTree) {i j : Nat}
    (h : i % span depth = j % span depth) :
    tree.get depth i = tree.get depth j := by
  induction depth generalizing tree with
  | zero => exact tree.bytes.get_congr h
  | succ depth ih =>
    rw [mod_span_succ, mod_span_succ] at h
    have hi := Nat.mod_lt i (span_pos depth)
    have hj := Nat.mod_lt j (span_pos depth)
    rw [get, get]
    cases hib : i.testBit (depth + 3) <;> cases hjb : j.testBit (depth + 3) <;>
      simp only [hib, hjb, if_true, Bool.false_eq_true, if_false] at h ⊢
    · exact ih _ h
    · omega
    · omega
    · exact ih _ (by omega)

/-- The lower half has the first bytes. -/
theorem get_of_lt {depth i : Nat} (tree : ByteTree) (hi : i < span depth) :
    tree.get (depth + 1) i = tree.halves.1.get depth i := by
  have hbit := mod_span_succ i depth
  have hsucc := span_succ depth
  rw [Nat.mod_eq_of_lt hi, Nat.mod_eq_of_lt (by omega)] at hbit
  cases h : i.testBit (depth + 3)
  · rw [get, h, if_neg (by decide)]
  · rw [h, if_pos rfl] at hbit
    omega

/-- The upper half has the bytes after those. -/
theorem get_span_add {depth i : Nat} (tree : ByteTree) (hi : i < span depth) :
    tree.get (depth + 1) (span depth + i) = tree.halves.2.get depth i := by
  have hbit := mod_span_succ (span depth + i) depth
  have hsucc := span_succ depth
  rw [Nat.add_mod_left, Nat.mod_eq_of_lt hi, Nat.mod_eq_of_lt (by omega)] at hbit
  cases h : (span depth + i).testBit (depth + 3)
  · rw [h, if_neg (by decide)] at hbit
    omega
  · rw [get, h, if_pos rfl]
    exact get_congr _ (Nat.add_mod_left ..)

/-- The bytes that do not fit are those past the end. -/
theorem write_snd {depth : Nat} (tree : ByteTree) (start : Nat) (values : List UInt8) :
    (tree.write depth start values).2 = values.drop (span depth - start % span depth) := by
  induction depth generalizing tree start values with
  | zero =>
    cases values with
    | nil => simp [write]
    | cons value rest => simp only [write]; exact tree.bytes.write_snd ..
  | succ depth ih =>
    have hlt := Nat.mod_lt start (span_pos depth)
    have hsucc := span_succ depth
    cases values with
    | nil => simp [write]
    | cons value rest =>
      rw [mod_span_succ]
      cases hbit : start.testBit (depth + 3)
      · simp only [write, hbit, Bool.false_eq_true, if_false, ih, List.drop_drop, Nat.zero_mod]
        congr 1
        omega
      · simp only [write, hbit, if_true, ih]
        congr 1
        omega

/-- Stored bytes change the bytes of their range, as far as it lies in the tree. -/
theorem get_write {depth : Nat} (tree : ByteTree) (start j : Nat) (values : List UInt8) :
    (tree.write depth start values).1.get depth j =
      if start % span depth ≤ j % span depth ∧
          j % span depth < start % span depth + values.length then
        values.getD (j % span depth - start % span depth) 0
      else tree.get depth j := by
  induction depth generalizing tree start values with
  | zero =>
    cases values with
    | nil =>
      rw [List.length_nil, if_neg (by omega)]
      simp [write]
    | cons value rest => simp only [write]; exact tree.bytes.get_write ..
  | succ depth ih =>
    have hs := Nat.mod_lt start (span_pos depth)
    have hj := Nat.mod_lt j (span_pos depth)
    cases values with
    | nil =>
      rw [List.length_nil, if_neg (by omega)]
      simp [write]
    | cons value rest =>
      rw [mod_span_succ, mod_span_succ]
      cases hsb : start.testBit (depth + 3) <;> cases hjb : j.testBit (depth + 3) <;>
        simp only [write, hsb, hjb, get_fork, ih, write_snd, get.eq_2 tree, List.length_drop,
          Nat.zero_mod, if_true, Bool.false_eq_true, if_false]
      · rw [List.getD_eq_getElem?_getD, List.getElem?_drop, ← List.getD_eq_getElem?_getD]
        have hindex : span depth - start % span depth + (j % span depth - 0) =
            span depth + j % span depth - start % span depth := by omega
        rw [hindex]
        congr 1
        apply propext
        omega
      · rw [if_neg (by omega)]
      · have hindex : span depth + j % span depth - (span depth + start % span depth) =
            j % span depth - start % span depth := by omega
        rw [hindex]
        congr 1
        apply propext
        omega

/-- The bytes of a range, in the lower half. -/
theorem map_get_of_le {depth : Nat} (tree : ByteTree) {start count : Nat}
    (h : start + count ≤ span depth) :
    (List.range' start count).map (tree.get (depth + 1)) =
      (List.range' start count).map (tree.halves.1.get depth) := by
  apply List.map_congr_left
  intro i hi
  rw [List.mem_range'_1] at hi
  exact tree.get_of_lt (by omega)

/-- The bytes of a range, in the upper half. -/
theorem map_get_span_add {depth : Nat} (tree : ByteTree) {start count : Nat}
    (h : start + count ≤ span depth) :
    (List.range' (span depth + start) count).map (tree.get (depth + 1)) =
      (List.range' start count).map (tree.halves.2.get depth) := by
  rw [← List.map_add_range', List.map_map]
  apply List.map_congr_left
  intro i hi
  rw [List.mem_range'_1] at hi
  exact tree.get_span_add (by omega)

/-- Folding over a range is folding over its bytes, as far as they are in the tree. -/
theorem fold_eq {α : Type} {depth : Nat} (tree : ByteTree) (step : α → UInt8 → α)
    (start count : Nat) (acc : α) :
    tree.fold step depth start count acc =
      (((List.range' (start % span depth) (min count (span depth - start % span depth))).map
          (tree.get depth)).foldl step acc,
        count - (span depth - start % span depth)) := by
  induction depth generalizing tree start count acc with
  | zero =>
    cases count with
    | zero => simp [fold]
    | succ count => exact tree.bytes.fold_eq ..
  | succ depth ih =>
    have hs := Nat.mod_lt start (span_pos depth)
    have hsucc := span_succ depth
    cases count with
    | zero => simp [fold]
    | succ count =>
      generalize hn : count + 1 = n
      have hfold : tree.fold step (depth + 1) start n acc =
          if start.testBit (depth + 3) then tree.halves.2.fold step depth start n acc
          else
            let (acc, n) := tree.halves.1.fold step depth start n acc
            tree.halves.2.fold step depth 0 n acc := by
        rw [← hn]
        rfl
      rw [hfold, mod_span_succ]
      cases start.testBit (depth + 3)
      · simp only [Bool.false_eq_true, if_false, ih, Nat.zero_mod, Nat.sub_zero]
        have hsplit : List.range' (start % span depth)
              (min n (span (depth + 1) - start % span depth)) =
            List.range' (start % span depth) (min n (span depth - start % span depth)) ++
              List.range' (span depth + 0)
                (min (n - (span depth - start % span depth)) (span depth)) := by
          by_cases hle : n ≤ span depth - start % span depth
          · have h₁ : min n (span (depth + 1) - start % span depth) = n := by omega
            have h₂ : min n (span depth - start % span depth) = n := by omega
            have h₃ : min (n - (span depth - start % span depth)) (span depth) = 0 := by omega
            rw [h₁, h₂, h₃, List.range'_zero, List.append_nil]
          · have h₁ : min n (span depth - start % span depth) =
                span depth - start % span depth := by omega
            have h₂ : span depth + 0 = start % span depth + (span depth - start % span depth) := by
              omega
            rw [h₁, h₂, List.range'_append_1]
            congr 1
            omega
        rw [hsplit, List.map_append, List.foldl_append, map_get_of_le _ (by omega),
          map_get_span_add _ (by omega)]
        congr 1
        omega
      · simp only [if_true, ih]
        have h₁ : span (depth + 1) - (span depth + start % span depth) =
            span depth - start % span depth := by omega
        rw [h₁, map_get_span_add _ (by omega)]

/-- What truncation leaves: the bytes below the index, and zeros. -/
theorem get_truncate {depth : Nat} (tree : ByteTree) (keep i : Nat) (hi : i < span depth) :
    (tree.truncate depth keep).get depth i = if i < keep then tree.get depth i else 0 := by
  induction depth generalizing tree keep i with
  | zero => exact tree.bytes.get_truncate keep hi
  | succ depth ih =>
    have hsucc := span_succ depth
    by_cases hlow : i < span depth
    · by_cases hkeep : keep ≤ span depth
      · rw [truncate, if_pos hkeep, get_of_lt _ hlow, get_of_lt _ hlow]
        exact ih _ _ _ hlow
      · rw [truncate, if_neg hkeep, get_of_lt _ hlow, get_of_lt _ hlow, if_pos (by omega)]
        rfl
    · obtain ⟨k, rfl⟩ := Nat.exists_eq_add_of_le (Nat.not_lt.1 hlow)
      have hk : k < span depth := by omega
      by_cases hkeep : keep ≤ span depth
      · rw [truncate, if_pos hkeep, get_span_add _ hk, if_neg (by omega)]
        exact get_zeros ..
      · have hiff : k < keep - span depth ↔ span depth + k < keep := by omega
        rw [truncate, if_neg hkeep, get_span_add _ hk, get_span_add _ hk]
        simp only [← hiff]
        exact ih _ _ _ hk

/-- What added levels hold: the old bytes, and zeros past them. -/
theorem get_deepen (tree : ByteTree) (depth : Nat) {levels i : Nat}
    (hi : i < span (depth + levels)) :
    (tree.deepen levels).get (depth + levels) i =
      if i < span depth then tree.get depth i else 0 := by
  induction levels with
  | zero => simp_all [deepen]
  | succ levels ih =>
    have hsucc := span_succ (depth + levels)
    have hle := span_le_add depth levels
    rw [← Nat.add_assoc] at hi ⊢
    by_cases hlow : i < span (depth + levels)
    · rw [get_of_lt _ hlow]
      exact ih hlow
    · obtain ⟨k, rfl⟩ := Nat.exists_eq_add_of_le (Nat.not_lt.1 hlow)
      rw [get_span_add _ (by omega), if_neg (by omega)]
      exact get_zeros ..

end ByteTree

end BumpArena
