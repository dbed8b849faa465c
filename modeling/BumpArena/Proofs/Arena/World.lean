import BumpArena.Proofs.Arena.Pool
import BumpArena.Proofs.Arena.Serving

/-!
# Arenas, chunks and grants

A `World` is all that a program does with chunked arenas: any number of them, the chunks that its
threads serve themselves from, and the grants made so far.  A `Call` is one thing that it can do
next.  Nothing ties a chunk to an arena: any chunk can be given to any arena, one that was filled
by another arena or before a reset included.  Regions that belong to no chunked arena take part
only in that they draw identities from the same source, and so does whoever draws one for no region.

A call that faults has no other effect, and neither has one that names what is not there.

Each grant is recorded with the generation of its arena, so that those between two resets of an
arena in a row are the ones of one generation (`spans`).
-/

namespace BumpArena

/-- A request that an arena granted. -/
structure Grant where
  arena : Nat
  /-- The number of resets of the arena before. -/
  generation : Nat
  request : Request
  handle : Handle
  deriving DecidableEq, Repr

/-- The bytes that were granted. -/
def Grant.span (g : Grant) : Span := g.request.spanAt g.handle.offset.toNat

/-- Where the bytes are in a region, if the handle resolves there. -/
def Grant.resolveIn (g : Grant) (r : Region) : Option Nat :=
  r.resolveSlice g.handle g.request.layout g.request.count

/-- Arenas, chunks, and what was granted. -/
structure World (κ : Type) where
  storage : Storage
  arenas : List ChunkedArena := []
  /-- All other regions. -/
  regions : List Region := []
  /-- Identities that were drawn for no region. -/
  spare : List RegionId := []
  pool : ChunkPool κ := {}
  /-- What was granted so far, in order. -/
  grants : List Grant := []

/-- One thing that can be done.  No alignment above a cache line can be asked for. -/
inductive Call (κ : Type) where
  | makeArena (config : ArenaConfig)
  | makeRegion (capacity : Nat) (block : BlockId) (path : Option String)
  | drawId
  | makeChunk
  | makeTable
  | allocate (arena : Nat) (place : Place κ) (request : Request)
      (align_le : request.layout.align.bytes ≤ cacheLine.bytes)
  | allocateBytes (arena : Nat) (place : Place κ) (length : Nat)
  | reset (arena : Nat)
  | resetAll (arena table : Nat)
  | release (place : Place κ)
  | releaseAll (table : Nat)
  | remove (table : Nat) (key : κ)

namespace World

variable {κ : Type}

/-! ## What each call does -/

def makeArena (w : World κ) (config : ArenaConfig) : World κ :=
  match (ChunkedArena.make config).run w.storage with
  | .ok a storage => { w with storage, arenas := w.arenas ++ [a] }
  | .error _ storage => { w with storage }

def makeRegion (w : World κ) (capacity : Nat) (block : BlockId) (path : Option String) : World κ :=
  match (Storage.makeRegion capacity block path).run w.storage with
  | .ok r storage => { w with storage, regions := w.regions ++ [r] }
  | .error _ storage => { w with storage }

def drawId (w : World κ) : World κ :=
  let (id, ids) := w.storage.ids.next
  { w with storage := { w.storage with ids }, spare := w.spare ++ [id] }

/-- The world after something was done with one arena and the chunks. -/
def setArena (w : World κ) (i : Nat) (a : ChunkedArena) (pool : ChunkPool κ)
    (granted : List Grant) : World κ :=
  { w with arenas := w.arenas.set i a, pool, grants := w.grants ++ granted }

def reset (w : World κ) (i : Nat) : World κ :=
  match w.arenas[i]? with
  | some a =>
    match a.reset with
    | .ok a' => w.setArena i a' w.pool []
    | .error _ => w
  | none => w

def resetAll (w : World κ) (i index : Nat) : World κ :=
  match w.arenas[i]?, w.pool.tables[index]? with
  | some a, some table =>
    match a.resetAll table with
    | .ok (a', table) => w.setArena i a' (w.pool.setTable index table) []
    | .error _ => w
  | _, _ => w

/-- What a request adds to the grants: nothing, when the handle is null. -/
def granted (i : Nat) (a : ChunkedArena) (request : Request) (h : Handle) : List Grant :=
  if h.isNull then [] else [⟨i, a.generation, request, h⟩]

variable [DecidableEq κ]

def allocate (w : World κ) (i : Nat) (place : Place κ) (request : Request) : World κ :=
  match w.arenas[i]?, w.pool.chunk? place with
  | some a, some c =>
    match a.allocate c request with
    | .ok (h, c, a') =>
      w.setArena i a' (w.pool.store place c) (granted i a request h)
    | .error _ => w
  | _, _ => w

def step (w : World κ) : Call κ → World κ
  | .makeArena config => w.makeArena config
  | .makeRegion capacity block path => w.makeRegion capacity block path
  | .drawId => w.drawId
  | .makeChunk => { w with pool := w.pool.addChunk }
  | .makeTable => { w with pool := w.pool.addTable }
  | .allocate i place request _ => w.allocate i place request
  | .allocateBytes i place length => w.allocate i place (.ofBytes length)
  | .reset i => w.reset i
  | .resetAll i index => w.resetAll i index
  | .release place => { w with pool := w.pool.release place }
  | .releaseAll index => { w with pool := w.pool.releaseAll index }
  | .remove index key => { w with pool := w.pool.remove index key }

/-- The world after a row of calls, which begins with no arena and no chunk. -/
def run (s : Storage) (calls : List (Call κ)) : World κ := calls.foldl step { storage := s }

/-! ## No other outcome -/

omit [DecidableEq κ] in
/-- A reset starts the next generation, unless the count of generations is full. -/
lemma reset_cases (w : World κ) (i : Nat) :
    w.reset i = w ∨ ∃ a a', w.arenas[i]? = some a ∧ a.reset = .ok a' ∧
      w.reset i = w.setArena i a' w.pool [] := by
  rw [reset]
  split
  · next a ha =>
    split
    · next a' hreset => exact .inr ⟨a, a', ha, hreset, rfl⟩
    · exact .inl rfl
  · exact .inl rfl

omit [DecidableEq κ] in
lemma resetAll_cases (w : World κ) (i index : Nat) :
    w.resetAll i index = w ∨ ∃ a a', w.arenas[i]? = some a ∧ a.reset = .ok a' ∧
      w.resetAll i index = w.setArena i a' (w.pool.releaseAll index) [] := by
  rw [resetAll]
  split
  · next a table ha htable =>
    split
    · next a' table' hresetAll =>
      obtain ⟨a'', hreset, hok⟩ := bind_eq_ok_iff.1 hresetAll
      obtain ⟨rfl, rfl⟩ : a'' = a' ∧ table.releaseAll = table' := by
        simpa [pure, Except.pure] using hok
      refine .inr ⟨a, a'', ha, hreset, ?_⟩
      rw [ChunkPool.releaseAll, htable]
    · exact .inl rfl
  · exact .inl rfl

lemma allocate_cases (w : World κ) (i : Nat) (place : Place κ) (request : Request) :
    w.allocate i place request = w ∨
      ∃ a c h c' a', w.arenas[i]? = some a ∧ w.pool.chunk? place = some c ∧
        a.allocate c request = .ok (h, c', a') ∧
        w.allocate i place request =
          w.setArena i a' (w.pool.store place c') (granted i a request h) := by
  rw [allocate]
  split
  · next a c ha hc =>
    split
    · next h c' a' hok => exact .inr ⟨a, c, h, c', a', ha, hc, hok, rfl⟩
    · exact .inl rfl
  · exact .inl rfl

/-! ## What was given out -/

omit [DecidableEq κ]

/-- All identities that were given out. -/
def ids (w : World κ) : List RegionId :=
  w.arenas.map (·.region.id) ++ (w.regions.map (·.id) ++ w.spare)

/-- What an arena granted in one generation. -/
def grantsIn (w : World κ) (i generation : Nat) : List Grant :=
  w.grants.filter fun g => g.arena = i ∧ g.generation = generation

/-- The bytes that an arena granted in one generation. -/
def spans (w : World κ) (i generation : Nat) : List Span :=
  (w.grantsIn i generation).map Grant.span

lemma filter_eq_nil {grants : List Grant} {i generation : Nat}
    (h : ∀ g ∈ grants, g.arena = i → g.generation ≠ generation) :
    grants.filter (fun g => g.arena = i ∧ g.generation = generation) = [] := by
  refine List.filter_eq_nil_iff.2 ?_
  intro g hg
  simp only [decide_eq_true_eq, not_and]
  exact h g hg

lemma spans_eq_nil {w : World κ} {i generation : Nat}
    (h : ∀ g ∈ w.grants, g.arena = i → g.generation ≠ generation) :
    w.spans i generation = [] := by
  rw [spans, grantsIn, filter_eq_nil h]
  rfl

/-- No other arena has the identity of this one. -/
def Unshared (w : World κ) (i : Nat) (a : ChunkedArena) : Prop :=
  ∀ j b, w.arenas[j]? = some b → b.region.id = a.region.id → j = i

end World

end BumpArena
