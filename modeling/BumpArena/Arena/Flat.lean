import BumpArena.Counter
import BumpArena.Layout
import BumpArena.Storage.Mapping

/-!
# Flat arenas

A `FlatArena` serves every request straight from its counter.  Sizes are rounded up to 16 bytes,
so that each grant starts aligned for every type whose alignment is at most that.  Nothing is
given back one by one: a reset starts over at offset zero, and handles from before it still
resolve to bytes that new grants will reuse.
-/

namespace BumpArena

/-- An arena that serves every request from one counter. -/
structure FlatArena where
  region : Region
  counter : Counter
  deriving DecidableEq, Repr, Inhabited

namespace FlatArena

/-- The alignment of every grant. -/
def grain : Alignment := ⟨16, by decide⟩

/-- An arena over a whole region, starting at its base. -/
def ofRegion (region : Region) : FlatArena := ⟨region, { capacity := region.capacity }⟩

/-- Makes an arena over a new volatile region. -/
def make (config : ArenaConfig) : StorageM FlatArena := do
  Storage.requireConfig config.validate
  return ofRegion (← Region.makeVolatile config.capacity)

/-- Grants a request, or yields the null handle.  A request whose size is no word is refused
without a claim. -/
def allocate (a : FlatArena) (request : Request) : Checked (Handle × FlatArena) :=
  match request.roundedSize? grain with
  | none => .ok (.null, a)
  | some size => do
    let (claimed, counter) ← a.counter.claim size
    let a := { a with counter }
    match claimed with
    | some offset => return (a.region.handleAt offset, a)
    | none => return (.null, a)

/-- Starts over at the base of the region. -/
def reset (a : FlatArena) : FlatArena := { a with counter := a.counter.reset }

/-- Whether a request was refused for lack of room since the last reset. -/
def isExhausted (a : FlatArena) : Bool := a.counter.isExhausted

/-- The use at this moment. -/
def stats (a : FlatArena) : Checked Stats := a.counter.stats

end FlatArena

end BumpArena
