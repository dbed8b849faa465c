import BumpArena.Alignment
import BumpArena.RegionId

/-!
# Local chunks

A `LocalChunk` is what one allocating thread keeps to itself: the part of a region that it last
claimed, with a cursor that moves forward through it.  It remembers from which region the part
is, and in which generation of the arena it was claimed, so that an arena can tell a chunk of its
own that is still in force from any other.
-/

namespace BumpArena

/-- A claimed part of a region, used from one side. -/
structure LocalChunk where
  /-- The region that the chunk is a part of, or the one that no region is. -/
  region : RegionId := .unassigned
  /-- The generation of the arena in which it was claimed. -/
  generation : Nat := 0
  /-- The offset of the first unused byte. -/
  cursor : Nat := 0
  /-- The offset just past the last byte. -/
  stop : Nat := 0
  /-- How often room was claimed on behalf of this chunk's owner. -/
  claims : Nat := 0
  deriving DecidableEq, Repr, Inhabited

namespace LocalChunk

/-- The bytes that are left. -/
def remaining (c : LocalChunk) : Checked Nat := Word.sub c.stop c.cursor

/-- Whether there is a chunk, in force or not. -/
def isHeld (c : LocalChunk) : Bool := !c.region.isUnassigned

/-- Lets go of the chunk.  What was left of it is not returned to the arena. -/
def release (c : LocalChunk) : LocalChunk := { c with region := .unassigned, cursor := 0, stop := 0 }

/-- Takes bytes from the chunk at an aligned offset, if there is room after the padding. -/
def bump (c : LocalChunk) (size : Nat) (align : Alignment) : Option (Nat × LocalChunk) := do
  let start ← roundUp c.cursor align
  if start + size ≤ c.stop then some (start, { c with cursor := start + size }) else none

/-- What bytes taken from a chunk are: they start at the rounded cursor and end in the chunk, and
the cursor moves to their end. -/
theorem bump_eq_some_iff {c d : LocalChunk} {size start : Nat} {align : Alignment} :
    c.bump size align = some (start, d) ↔
      roundUp c.cursor align = some start ∧ start + size ≤ c.stop ∧
        d = { c with cursor := start + size } := by
  cases h : roundUp c.cursor align with
  | none => simp [bump, h]
  | some n => grind [bump]

end LocalChunk

end BumpArena
