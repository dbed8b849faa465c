import BumpArena.Error
import BumpArena.Handle
import BumpArena.Layout
import BumpArena.Storage.Block

/-!
# Regions

A `Region` is a fixed run of bytes with an identity, which handles resolve against.  Its bytes are
in a block of the storage: a block of its own, or the block of the file that it maps.  The region
itself says only which block that is; operations on the bytes take those in the pages of the block
and yield the bytes after them.

A handle resolves when it is not null, was issued by this very region, and its bytes lie inside.
A typed access also needs the address of the first of them to be aligned for the type.  The address
is that of the region's base and the offset taken together, and all that is known of the base is
that it begins a page.  So for alignments up to a page an address is aligned exactly when its offset
is (`Region.divides_base_add_iff`).  For a larger alignment it depends on where the region lies, and
an aligned offset is neither enough nor needed.
-/

namespace BumpArena

/-- A fixed run of bytes that handles resolve against. -/
structure Region where
  /-- Its identity. -/
  id : RegionId
  /-- The number of its bytes. -/
  capacity : Nat
  /-- Where its bytes are. -/
  block : BlockId
  /-- The file that it maps, if it maps one. -/
  path : Option String
  /-- The page of memory on which it begins.  The page of the null address is not counted, as no
  region begins there. -/
  frame : Nat
  deriving DecidableEq, Repr, Inhabited

namespace Region

/-- The address of its first byte. -/
def base (r : Region) : Nat := page.bytes * (r.frame + 1)

/-- A region begins on a page. -/
theorem dvd_base (r : Region) : page.bytes ∣ r.base := Nat.dvd_mul_right ..

/-- Up to the alignment of a page, it is the offset alone that matters. -/
theorem divides_base_add_iff {r : Region} {align : Alignment} {offset : Nat}
    (h : align.bytes ≤ page.bytes) : align.Divides (r.base + offset) ↔ align.Divides offset := by
  have hbase : align.bytes ∣ r.base := Nat.dvd_trans (Alignment.dvd_of_le h) r.dvd_base
  rw [Alignment.Divides, Alignment.Divides, ← Nat.dvd_iff_mod_eq_zero, ← Nat.dvd_iff_mod_eq_zero]
  exact (Nat.dvd_add_iff_right hbase).symm

/-- Whether the bytes are those of a file. -/
def isDurable (r : Region) : Bool := r.path.isSome

/-- The region as text. -/
def description (r : Region) : String :=
  let id := r.id.value.toNat
  let durable := r.isDurable
  s!"BackingRegion \x7b id: RegionId({id}), capacity: {r.capacity}, durable: {durable} \x7d"

/-- Whether `length` bytes from an offset on lie in the region. -/
def contains (r : Region) (offset length : Nat) : Bool := offset + length ≤ r.capacity

/-- A handle of this region.  An offset past 32 bits loses its high bits. -/
def handleAt (r : Region) (offset : Nat) : Handle := ⟨UInt32.ofNat offset, r.id⟩

/-! ## Resolution -/

/-- The offset of a range of bytes that starts at a handle. -/
def byteRange (r : Region) (h : Handle) (length : Nat) : Option Nat :=
  if h.isNull ∨ h.region ≠ r.id then none
  else if r.contains h.offset.toNat length then some h.offset.toNat
  else none

/-- The offset of an element that starts at a handle, if its address is aligned. -/
def resolve (r : Region) (h : Handle) (layout : Layout) : Option Nat := do
  let offset ← r.byteRange h layout.size
  if layout.align.Divides (r.base + offset) then some offset else none

/-- The offset of a row of elements that starts at a handle, if its address is aligned. -/
def resolveSlice (r : Region) (h : Handle) (layout : Layout) (count : Nat) : Option Nat := do
  let length ← Word.mul? layout.size count
  let offset ← r.byteRange h length
  if layout.align.Divides (r.base + offset) then some offset else none

/-- The offset of an element at a handle that the caller knows to resolve. -/
def resolveUnchecked (r : Region) (h : Handle) (layout : Layout) : Checked Nat :=
  match r.resolve h layout with
  | some offset => .ok offset
  | none => .error .invalidHandle

/-- When a range of bytes is there. -/
theorem byteRange_eq_some_iff {r : Region} {h : Handle} {length offset : Nat} :
    r.byteRange h length = some offset ↔
      h.isNull = false ∧ h.region = r.id ∧ offset + length ≤ r.capacity ∧
        offset = h.offset.toNat := by
  grind [byteRange, contains]

/-- When an element is there. -/
theorem resolve_eq_some_iff {r : Region} {h : Handle} {layout : Layout} {offset : Nat} :
    r.resolve h layout = some offset ↔
      r.byteRange h layout.size = some offset ∧ layout.align.Divides (r.base + offset) := by
  cases hrange : r.byteRange h layout.size <;> grind [resolve]

/-! ## Access to the bytes -/

/-- The value at a handle. -/
def readValue (r : Region) (b : Buffer) (h : Handle) (layout : Layout) : Option layout.Value :=
  (r.resolve h layout).map fun offset => ⟨b.read offset layout.size, b.length_read ..⟩

/-- Stores a value at a handle.  Where the handle does not resolve, nothing is stored. -/
def writeValue (r : Region) (b : Buffer) (h : Handle) {layout : Layout} (value : layout.Value) :
    Bool × Buffer :=
  match r.resolve h layout with
  | some offset => (true, b.write offset value.val)
  | none => (false, b)

/-- The bytes from a handle on. -/
def bytes (r : Region) (b : Buffer) (h : Handle) (length : Nat) : Option (List UInt8) :=
  (r.byteRange h length).map (b.read · length)

/-- Stores bytes from a handle on, as many as fit a range of the length. -/
def setBytes (r : Region) (b : Buffer) (h : Handle) (length : Nat) (data : List UInt8) :
    Option Buffer :=
  (r.byteRange h length).map (b.write · (data.take length))

/-- Stores bytes from an offset on, as many as lie in the region. -/
def store (r : Region) (b : Buffer) (offset : Nat) (data : List UInt8) : Buffer :=
  b.write offset (data.take (r.capacity - offset))

@[simp]
theorem size_store (r : Region) (b : Buffer) (offset : Nat) (data : List UInt8) :
    (r.store b offset data).size = b.size := by
  simp [store]

/-- A store reaches no byte past the region, however long the block is. -/
theorem get_store_of_capacity_le {r : Region} {b : Buffer} {offset i : Nat} {data : List UInt8}
    (h : r.capacity ≤ i) : (r.store b offset data).get i = b.get i := by
  grind [store, Buffer.get_write]

/-- The order of the values at two handles. -/
def compareAt (r : Region) (b : Buffer) (row : IntegerRow) (x y : Handle) : Option Ordering := do
  let first ← r.readValue b x row.layout
  let second ← r.readValue b y row.layout
  return row.compare first second

/-! ## Flushing -/

/-- Hands a range to the file that the region maps.  A region of its own has nothing to flush,
whatever the range. -/
def flushRange (r : Region) (offset length : Nat) : Except ArenaError Unit :=
  if ¬ r.isDurable ∨ r.contains offset length then .ok ()
  else .error (.invalidConfig (.flushRange offset length r.capacity))

/-- Hands all bytes to the file that the region maps. -/
def flush (r : Region) : Except ArenaError Unit := r.flushRange 0 r.capacity

end Region

end BumpArena
