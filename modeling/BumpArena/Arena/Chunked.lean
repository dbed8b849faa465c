import BumpArena.Arena.ChunkTable
import BumpArena.Counter
import BumpArena.Layout
import BumpArena.Storage.Mapping

/-!
# Chunked arenas

A `ChunkedArena` serves small requests from local chunks, one per allocating thread, and goes to
its counter only when a chunk is used up.  The size of a new chunk adapts to the request that
needs it: twice the request, but within the bounds of the arena.  A request larger than the
largest chunk goes past the chunk and claims just what it needs.

Chunks start on cache lines, because every claim is a multiple of one, so that any alignment up
to a cache line can be served.  A chunk of another arena, or of an earlier generation of this one,
is let go of before anything else happens.
-/

namespace BumpArena

/-- An arena that serves requests from local chunks. -/
structure ChunkedArena where
  region : Region
  counter : Counter
  /-- How often the arena was reset. -/
  generation : Nat := 0
  /-- The smallest chunk. -/
  minChunk : Nat
  /-- The largest chunk. -/
  maxChunk : Nat
  deriving DecidableEq, Repr, Inhabited

namespace ChunkedArena

/-- Makes an arena over a new volatile region. -/
def make (config : ArenaConfig) : StorageM ChunkedArena := do
  Storage.requireConfig config.validate
  let region ← Region.makeVolatile config.capacity
  return {
    region
    counter := { capacity := region.capacity }
    minChunk := config.minChunk
    maxChunk := config.maxChunk }

/-- The size that a chunk for a request would ideally have: twice the request, which is held to a
word first and then between the bounds. -/
def wantedChunk (a : ChunkedArena) (size : Nat) : Nat :=
  max (min (min (2 * size) Word.max) a.maxChunk) a.minChunk

/-- The size of the chunk that is claimed for a request: what is wanted, in whole cache lines.  The
bounds are whole cache lines themselves, so that rounding up stays within them. -/
def chunkSize (a : ChunkedArena) (size : Nat) : Nat :=
  (roundUp (a.wantedChunk size) cacheLine).getD a.maxChunk

/-- Whether a chunk is one of this arena that is still in force. -/
def owns (a : ChunkedArena) (chunk : LocalChunk) : Bool :=
  chunk.region == a.region.id && chunk.generation == a.generation

/-- Claims a new chunk that has room for a request.  The old chunk is kept when the claim is
refused. -/
def refill (a : ChunkedArena) (chunk : LocalChunk) (size : Nat) :
    Checked (Option LocalChunk × ChunkedArena) := do
  let length := a.chunkSize size
  let (claimed, counter) ← a.counter.claim length
  let a := { a with counter }
  match claimed with
  | none => return (none, a)
  | some offset =>
    let claims ← Word.add chunk.claims 1
    let stop ← Word.add offset length
    return (some ⟨a.region.id, a.generation, offset, stop, claims⟩, a)

/-- Claims room for one request past the chunk, in whole cache lines. -/
def claimDirect (a : ChunkedArena) (chunk : LocalChunk) (size : Nat) :
    Checked (Handle × LocalChunk × ChunkedArena) :=
  match roundUp size cacheLine with
  | none => .ok (.null, chunk, a)
  | some length => do
    let (claimed, counter) ← a.counter.claim length
    let a := { a with counter }
    match claimed with
    | none => return (.null, chunk, a)
    | some offset =>
      let claims ← Word.add chunk.claims 1
      return (a.region.handleAt offset, { chunk with claims }, a)

/-- Grants a request whose size fits a chunk: from the chunk as it is, or else from a new one. -/
def allocateLocal (a : ChunkedArena) (chunk : LocalChunk) (size : Nat) (align : Alignment) :
    Checked (Handle × LocalChunk × ChunkedArena) := do
  let chunk := if a.owns chunk then chunk else chunk.release
  match chunk.bump size align with
  | some (offset, chunk) => return (a.region.handleAt offset, chunk, a)
  | none =>
    match ← a.refill chunk size with
    | (none, a) => return (.null, chunk, a)
    | (some fresh, a) =>
      match fresh.bump size align with
      | some (offset, fresh) => return (a.region.handleAt offset, fresh, a)
      | none => return (.null, fresh, a)

/-- Grants a request, or yields the null handle.  A request whose size is no word is refused
without a claim. -/
def allocate (a : ChunkedArena) (chunk : LocalChunk) (request : Request) :
    Checked (Handle × LocalChunk × ChunkedArena) :=
  match request.roundedSize? request.layout.align with
  | none => .ok (.null, chunk, a)
  | some size =>
    if a.maxChunk < size then a.claimDirect chunk size
    else a.allocateLocal chunk size request.layout.align

/-- Starts over, in a new generation.  Chunks are not touched: each one from before is let go of
when it is next used here. -/
def reset (a : ChunkedArena) : Checked ChunkedArena := do
  let generation ← Word.add a.generation 1
  return { a with counter := a.counter.reset, generation }

/-- Starts over, and lets go of every chunk in a table. -/
def resetAll {κ : Type} (a : ChunkedArena) (table : ChunkTable κ) :
    Checked (ChunkedArena × ChunkTable κ) := do
  return (← a.reset, table.releaseAll)

/-- Whether a claim was refused since the last reset. -/
def isExhausted (a : ChunkedArena) : Bool := a.counter.isExhausted

/-- The use at this moment, where the unused rest of a chunk counts as used. -/
def stats (a : ChunkedArena) : Checked Stats := a.counter.stats

end ChunkedArena

end BumpArena
