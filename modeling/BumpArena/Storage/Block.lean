import BumpArena.Alignment
import BumpArena.Buffer.Basic

/-!
# Blocks

A `Block` holds the bytes of a file, or those of a region that has no file, in whole pages.  The
file ends at its length, which need not be the end of a page.  Regions that map the file share its
pages, and so see all of the last page: what one of them stores past the end of the file, the others
read, while the file does not hold it.

So a block has two views.  `contents` is what the file holds, and `pages` is what the regions see;
below the length they agree.  Making a file shorter clears the rest of its last page.  Making it
longer adds zeros after the last page, and what was stored past the old end is then in the file.
-/

namespace BumpArena

/-- The number of a block of bytes in the storage. -/
abbrev BlockId := Nat

/-- The bytes of a file, and those up to the end of its last page. -/
structure Block where
  /-- All bytes of the pages. -/
  pages : Buffer
  /-- The number of bytes in the file. -/
  length : Nat
  size_pages : pages.size = page.ceil length

namespace Block

/-- Zeros. -/
def zeros (length : Nat) : Block where
  pages := .zeros (page.ceil length)
  length := length
  size_pages := rfl

instance : Inhabited Block := ⟨zeros 0⟩

/-- The block of a file with the given bytes, and zeros in the rest of its last page. -/
def ofBuffer (bytes : Buffer) : Block where
  pages := bytes.resize (page.ceil bytes.size)
  length := bytes.size
  size_pages := rfl

/-- What the file holds. -/
def contents (b : Block) : Buffer := b.pages.resize b.length

/-- Replaces what the regions see.  The number of pages stays. -/
def setPages (b : Block) (bytes : Buffer) : Block where
  pages := bytes.resize (page.ceil b.length)
  length := b.length
  size_pages := rfl

/-- Stores bytes in the file from an offset on; those that fall past its end are dropped. -/
def write (b : Block) (offset : Nat) (bytes : List UInt8) : Block where
  pages := b.pages.write offset (bytes.take (b.length - offset))
  length := b.length
  size_pages := by rw [Buffer.size_write, b.size_pages]

/-- Gives the file a new length.  Unless it is above the old one, all bytes past it are cleared. -/
def setLength (b : Block) (length : Nat) : Block where
  pages := (if length ≤ b.length then b.pages.resize length else b.pages).resize (page.ceil length)
  length := length
  size_pages := rfl

/-! ## The bytes after each operation -/

section Laws

variable (b : Block)

@[simp]
theorem size_contents : b.contents.size = b.length := rfl

/-- In the file, the two views agree. -/
theorem get_contents (i : Nat) :
    b.contents.get i = if i < b.length then b.pages.get i else 0 :=
  b.pages.get_resize ..

/-- The file ends in its last page. -/
theorem length_le_size_pages : b.length ≤ b.pages.size :=
  b.size_pages ▸ page.le_ceil b.length

@[simp]
theorem get_pages_zeros (length i : Nat) : (zeros length).pages.get i = 0 := by
  simp [zeros]

/-- Past the bytes of a new file there are zeros. -/
@[simp]
theorem get_pages_ofBuffer (bytes : Buffer) (i : Nat) :
    (ofBuffer bytes).pages.get i = bytes.get i := by
  rw [ofBuffer, Buffer.get_resize]
  split
  · rfl
  · exact (bytes.get_of_size_le (by have := page.le_ceil bytes.size; omega)).symm

/-- A new file holds the bytes that it was made of. -/
theorem get_contents_ofBuffer (bytes : Buffer) (i : Nat) :
    (ofBuffer bytes).contents.get i = bytes.get i := by
  rw [get_contents, get_pages_ofBuffer]
  split
  · rfl
  · next h => exact (bytes.get_of_size_le (Nat.not_lt.1 h)).symm

/-- Bytes of the right number are taken over as they are. -/
theorem get_pages_setPages {bytes : Buffer} (h : bytes.size = b.pages.size) (i : Nat) :
    (b.setPages bytes).pages.get i = bytes.get i := by
  rw [setPages, Buffer.get_resize, ← b.size_pages, ← h]
  split
  · rfl
  · next h => exact (bytes.get_of_size_le (Nat.not_lt.1 h)).symm

/-- A store in the file reaches no byte past its end. -/
theorem get_pages_write_of_length_le {offset i : Nat} (bytes : List UInt8) (h : b.length ≤ i) :
    (b.write offset bytes).pages.get i = b.pages.get i := by
  simp only [write, Buffer.get_write, List.length_take]
  rw [if_neg (by omega)]

/-- A shorter file keeps its first bytes, and the rest of its last page is zero. -/
theorem get_pages_setLength_of_le {length : Nat} (h : length ≤ b.length) (i : Nat) :
    (b.setLength length).pages.get i = if i < length then b.pages.get i else 0 := by
  have := page.le_ceil length
  simp only [setLength, if_pos h, Buffer.get_resize]
  grind

/-- A longer file keeps every byte of its pages, and the pages that are added are zero. -/
theorem get_pages_setLength_of_lt {length : Nat} (h : b.length < length) (i : Nat) :
    (b.setLength length).pages.get i = b.pages.get i := by
  have hceil : page.ceil b.length ≤ page.ceil length :=
    Nat.mul_le_mul_right _ (Nat.div_le_div_right (by omega))
  simp only [setLength, if_neg (Nat.not_le.2 h), Buffer.get_resize]
  split
  · rfl
  · exact (b.pages.get_of_size_le (by rw [b.size_pages]; omega)).symm

end Laws

end Block

end BumpArena
