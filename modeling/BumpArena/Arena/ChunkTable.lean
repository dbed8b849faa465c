import BumpArena.Arena.LocalChunk

/-!
# Chunk tables

A `ChunkTable` keeps one local chunk per key, for a program that plays several allocating threads
at once.  Keys are listed in the order in which they first appeared.
-/

namespace BumpArena

/-- Local chunks by key, in order of first appearance. -/
structure ChunkTable (κ : Type) where
  entries : List (κ × LocalChunk) := []
  deriving DecidableEq, Repr, Inhabited

namespace ChunkTable

variable {κ : Type} [DecidableEq κ]

/-- The chunk of a key. -/
def get? (t : ChunkTable κ) (key : κ) : Option LocalChunk :=
  (t.entries.find? (·.1 = key)).map (·.2)

/-- The chunk of a key, where a new key has an empty one. -/
def chunk (t : ChunkTable κ) (key : κ) : LocalChunk := (t.get? key).getD {}

/-- The entries with the chunk of a key replaced.  A new key comes last. -/
def put (key : κ) (chunk : LocalChunk) : List (κ × LocalChunk) → List (κ × LocalChunk)
  | [] => [(key, chunk)]
  | entry :: rest => if entry.1 = key then (key, chunk) :: rest else entry :: put key chunk rest

/-- Stores the chunk of a key. -/
def insert (t : ChunkTable κ) (key : κ) (chunk : LocalChunk) : ChunkTable κ :=
  ⟨put key chunk t.entries⟩

/-- Forgets a key.  The others keep their order, and what was left of its chunk is lost. -/
def erase (t : ChunkTable κ) (key : κ) : ChunkTable κ := ⟨t.entries.filter (·.1 ≠ key)⟩

omit [DecidableEq κ] in
/-- Lets go of every chunk.  Keys and counts of claims stay. -/
def releaseAll (t : ChunkTable κ) : ChunkTable κ :=
  ⟨t.entries.map fun entry => (entry.1, entry.2.release)⟩

omit [DecidableEq κ] in
/-- The number of keys. -/
def size (t : ChunkTable κ) : Nat := t.entries.length

omit [DecidableEq κ] in
/-- How often room was claimed, over all keys. -/
def claims (t : ChunkTable κ) : Nat := (t.entries.map (·.2.claims)).foldr (· + ·) 0

/-! ## The chunks after each operation -/

/-- Storing a chunk changes the chunk of its key and no other. -/
theorem get?_insert (t : ChunkTable κ) (key other : κ) (chunk : LocalChunk) :
    (t.insert key chunk).get? other = if other = key then some chunk else t.get? other := by
  obtain ⟨entries⟩ := t
  induction entries with
  | nil => by_cases h : key = other <;> simp [insert, put, get?, h, eq_comm]
  | cons entry rest ih =>
    simp only [insert, get?, put] at ih ⊢
    by_cases hkey : entry.1 = key
    · by_cases h : key = other <;> simp [hkey, h, eq_comm]
    · by_cases h : entry.1 = other
      · have : other ≠ key := fun hother => hkey (h.trans hother)
        simp [h, this]
      · simpa [hkey, h] using ih

/-- Letting go of all chunks lets go of the chunk of each key. -/
theorem get?_releaseAll (t : ChunkTable κ) (key : κ) :
    t.releaseAll.get? key = (t.get? key).map LocalChunk.release := by
  simp [releaseAll, get?, List.find?_map, Function.comp_def]

/-- Forgetting a key leaves the chunks of the others. -/
theorem get?_erase (t : ChunkTable κ) (key other : κ) :
    (t.erase key).get? other = if other = key then none else t.get? other := by
  obtain ⟨entries⟩ := t
  induction entries with
  | nil => simp [erase, get?]
  | cons entry rest ih =>
    simp only [erase, get?] at ih ⊢
    by_cases hkey : entry.1 = key <;> by_cases h : entry.1 = other <;> grind

end ChunkTable

end BumpArena
