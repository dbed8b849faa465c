import BumpArena.Hexadecimal
import BumpArena.RegionId

/-!
# Handles

A `Handle` is a position-independent reference: the offset of its first byte from the base of a
region, and the identity of that region.  It owns nothing and promises nothing; it becomes a
reference to bytes only when it is resolved against a region.
-/

namespace BumpArena

/-- A reference into a region. -/
structure Handle where
  /-- The offset of the first byte from the base of the region. -/
  offset : UInt32
  /-- The region that issued the handle. -/
  region : RegionId
  deriving DecidableEq, Repr

namespace Handle

/-- The offset that marks a handle as null. -/
def nullOffset : UInt32 := 0xFFFFFFFF

/-- The handle that a refused request yields. -/
def null : Handle := ⟨nullOffset, .unassigned⟩

instance : Inhabited Handle := ⟨null⟩

/-- Whether the offset marks the handle as null, whichever region it names. -/
def isNull (h : Handle) : Bool := h.offset == nullOffset

/-- A handle that is not null. -/
def toOption (h : Handle) : Option Handle := if h.isNull then none else some h

/-- A handle as text. -/
def description (h : Handle) : String :=
  if h.isNull then "Handle(null)"
  else "Handle(" ++ h.region.name ++ "+0x" ++ Hexadecimal.ofNat h.offset.toNat ++ ")"

end Handle

end BumpArena
