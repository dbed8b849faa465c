import BumpArena.Buffer.Tree

/-!
# Byte buffers

A `Buffer` is a fixed number of bytes, initially zero.  It holds the contents of a backing region
or of a file, and its bytes are stored sparsely, so that only what was written takes up room.

`get` is the view through which everything else is stated: each operation has one law that says
what `get` answers after it.  Bytes past the end read as zero, and storing there has no effect.
-/

namespace BumpArena

/-- A fixed number of bytes. -/
structure Buffer where
  /-- The number of bytes. -/
  size : Nat
  /-- The depth of the tree that holds the bytes. -/
  depth : Nat
  /-- The bytes. -/
  tree : ByteTree
  size_le : size ≤ ByteTree.span depth

namespace Buffer

/-- A depth at which a tree has room for a number of bytes. -/
def depthFor (size : Nat) : Nat := size.log2 - 2

private theorem le_span_of_depthFor_le {size depth : Nat} (h : depthFor size ≤ depth) :
    size ≤ ByteTree.span depth := by
  have hexponent : size.log2 + 1 ≤ depth + 3 := by
    unfold depthFor at h
    omega
  rw [ByteTree.span_eq_pow]
  exact Nat.le_of_lt
    (Nat.lt_of_lt_of_le Nat.lt_log2_self (Nat.pow_le_pow_right (by decide) hexponent))

/-- Zeros. -/
def zeros (size : Nat) : Buffer where
  size := size
  depth := depthFor size
  tree := .zeros
  size_le := le_span_of_depthFor_le (Nat.le_refl _)

/-- One byte all over. -/
def filled (size : Nat) (value : UInt8) : Buffer :=
  { zeros size with tree := .filled value (zeros size).depth }

instance : Inhabited Buffer := ⟨zeros 0⟩

/-- The byte at an index. -/
def get (b : Buffer) (i : Nat) : UInt8 :=
  if i < b.size then b.tree.get b.depth i else 0

/-- Stores bytes from an index on; those that fall past the end are dropped. -/
def write (b : Buffer) (start : Nat) (bytes : List UInt8) : Buffer :=
  if start < b.size then { b with tree := (b.tree.write b.depth start bytes).1 } else b

/-- Folds over the bytes of a range without listing them. -/
@[specialize]
def foldRange {α : Type} (b : Buffer) (step : α → UInt8 → α) (start length : Nat) (acc : α) : α :=
  let inside := min length (b.size - start)
  (List.replicate (length - inside) 0).foldl step (b.tree.fold step b.depth start inside acc).1

/-- The bytes of a range. -/
def read (b : Buffer) (start length : Nat) : List UInt8 :=
  (b.foldRange Array.push start length #[]).toList

/-- The bytes of the whole buffer. -/
def toList (b : Buffer) : List UInt8 := b.read 0 b.size

/-- A buffer that holds the given bytes. -/
def ofList (bytes : List UInt8) : Buffer := (zeros bytes.length).write 0 bytes

/-- Changes the number of bytes: what lies past the new end is lost, and new bytes are zero. -/
def resize (b : Buffer) (size : Nat) : Buffer where
  size := size
  depth := b.depth + (depthFor size - b.depth)
  tree := (b.tree.truncate b.depth (min size b.size)).deepen (depthFor size - b.depth)
  size_le := le_span_of_depthFor_le (by omega)

/-! ## The bytes after each operation -/

section Laws

variable (b : Buffer)

theorem get_of_size_le {i : Nat} (h : b.size ≤ i) : b.get i = 0 :=
  if_neg (Nat.not_lt.2 h)

@[simp]
theorem size_zeros (size : Nat) : (zeros size).size = size := rfl

@[simp]
theorem get_zeros (size i : Nat) : (zeros size).get i = 0 := by
  simp [get, zeros]

@[simp]
theorem size_filled (size : Nat) (value : UInt8) : (filled size value).size = size := rfl

theorem get_filled (size i : Nat) (value : UInt8) :
    (filled size value).get i = if i < size then value else 0 := by
  simp [get, filled, zeros]

@[simp]
theorem size_write (start : Nat) (bytes : List UInt8) : (b.write start bytes).size = b.size := by
  unfold write
  split <;> rfl

/-- Stored bytes change the bytes of their range, as far as it lies in the buffer. -/
theorem get_write (start i : Nat) (bytes : List UInt8) :
    (b.write start bytes).get i =
      if start ≤ i ∧ i < start + bytes.length ∧ i < b.size then bytes.getD (i - start) 0
      else b.get i := by
  by_cases hi : i < b.size
  · by_cases hstart : start < b.size
    · have hi' := Nat.mod_eq_of_lt (Nat.lt_of_lt_of_le hi b.size_le)
      have hs' := Nat.mod_eq_of_lt (Nat.lt_of_lt_of_le hstart b.size_le)
      simp [get, write, hi, hstart, ByteTree.get_write, hi', hs']
    · rw [write, if_neg hstart, if_neg (by omega)]
  · rw [if_neg (by omega), get_of_size_le _ (by rw [size_write]; omega),
      get_of_size_le _ (by omega)]

@[simp]
theorem size_resize (size : Nat) : (b.resize size).size = size := rfl

/-- Resizing keeps each byte that stays in range. -/
theorem get_resize (size i : Nat) :
    (b.resize size).get i = if i < size then b.get i else 0 := by
  by_cases hi : i < size
  · have hle : i < ByteTree.span (b.depth + (depthFor size - b.depth)) :=
      Nat.lt_of_lt_of_le hi (b.resize size).size_le
    simp only [get, size_resize, hi, if_true]
    simp only [resize, ByteTree.get_deepen _ _ hle]
    by_cases hdepth : i < ByteTree.span b.depth
    · simp only [hdepth, if_true, ByteTree.get_truncate _ _ _ hdepth]
      have : i < min size b.size ↔ i < b.size := by omega
      simp [this]
    · have hsize := b.size_le
      have : ¬ i < b.size := by omega
      simp [hdepth, this]
  · simp [get, hi]

/-! ## Ranges -/

/-- Folding over a range is folding over the bytes at its indices. -/
theorem foldRange_eq {α : Type} (step : α → UInt8 → α) (start length : Nat) (acc : α) :
    b.foldRange step start length acc =
      ((List.range' start length).map b.get).foldl step acc := by
  have hsize := b.size_le
  generalize hinside : min length (b.size - start) = inside
  have hsplit : List.range' start length =
      List.range' start inside ++ List.range' (start + inside) (length - inside) := by
    rw [List.range'_append_1]
    congr 1
    omega
  have hwithin : (List.range' start inside).map b.get =
      (List.range' start inside).map (b.tree.get b.depth) := by
    apply List.map_congr_left
    intro i hi
    rw [List.mem_range'_1] at hi
    exact if_pos (by omega)
  have hpast : (List.range' (start + inside) (length - inside)).map b.get =
      List.replicate (length - inside) 0 := by
    rw [List.eq_replicate_iff]
    refine ⟨by simp, fun value hvalue => ?_⟩
    obtain ⟨i, hi, rfl⟩ := List.mem_map.1 hvalue
    rw [List.mem_range'_1] at hi
    exact b.get_of_size_le (by omega)
  rw [hsplit, List.map_append, List.foldl_append, hwithin, hpast, foldRange, hinside,
    ByteTree.fold_eq]
  by_cases hzero : inside = 0
  · simp [hzero]
  · have hmod : start % ByteTree.span b.depth = start := Nat.mod_eq_of_lt (by omega)
    have hmin : min inside (ByteTree.span b.depth - start) = inside := by omega
    rw [hmod, hmin]

/-- The bytes of a range are those at its indices. -/
theorem read_eq (start length : Nat) :
    b.read start length = (List.range' start length).map b.get := by
  have hpush (bytes : List UInt8) : bytes.foldl Array.push #[] = bytes.toArray := by simp
  rw [read, foldRange_eq, hpush]

@[simp]
theorem length_read (start length : Nat) : (b.read start length).length = length := by
  simp [read_eq]

theorem getElem_read {start length i : Nat} (h : i < (b.read start length).length) :
    (b.read start length)[i] = b.get (start + i) := by
  simp [read_eq]

/-- Two ranges hold the same bytes when the buffers agree on each index. -/
theorem read_congr {b c : Buffer} {start length : Nat}
    (h : ∀ i, start ≤ i → i < start + length → b.get i = c.get i) :
    b.read start length = c.read start length := by
  rw [read_eq, read_eq]
  apply List.map_congr_left
  intro i hi
  rw [List.mem_range'_1] at hi
  exact h i hi.1 hi.2

/-- A range that was just stored holds what was stored. -/
theorem read_write_self {start : Nat} {bytes : List UInt8} (h : start + bytes.length ≤ b.size) :
    (b.write start bytes).read start bytes.length = bytes := by
  apply List.ext_getElem (by simp)
  intro i hi _
  rw [getElem_read, get_write]
  simp only [length_read] at hi
  have h₁ : start + i < start + bytes.length := by omega
  have h₂ : start + i < b.size := by omega
  simp [h₁, h₂, hi]

/-- A range apart from the one stored holds what it held. -/
theorem read_write_of_disjoint {start length at' : Nat} {bytes : List UInt8}
    (h : start + length ≤ at' ∨ at' + bytes.length ≤ start) :
    (b.write at' bytes).read start length = b.read start length := by
  apply read_congr
  intro i hlow hhigh
  rw [get_write]
  have : ¬ (at' ≤ i ∧ i < at' + bytes.length ∧ i < b.size) := by omega
  simp [this]

/-- Folding over a range is folding over its bytes. -/
theorem foldRange_eq_foldl {α : Type} (step : α → UInt8 → α) (start length : Nat) (acc : α) :
    b.foldRange step start length acc = (b.read start length).foldl step acc := by
  rw [foldRange_eq, read_eq]

@[simp]
theorem length_toList : b.toList.length = b.size := by
  simp [toList]

@[simp]
theorem size_ofList (bytes : List UInt8) : (ofList bytes).size = bytes.length := by
  simp [ofList]

@[simp]
theorem toList_ofList (bytes : List UInt8) : (ofList bytes).toList = bytes := by
  rw [toList, size_ofList]
  exact (zeros bytes.length).read_write_self (by simp)

end Laws

end Buffer

end BumpArena
