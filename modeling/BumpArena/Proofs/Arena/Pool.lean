import Mathlib.Data.List.Flatten
import Mathlib.Data.List.Perm.Subperm
import BumpArena.Arena.ChunkTable

/-!
# Chunks and where they are kept

A program keeps each of its chunks in one place: by itself, or in a table under a key.  A chunk is
never copied, which is what its owner relies on, and a `ChunkPool` has this by its form: whatever is
done with a chunk is stored back where it was (`store`), and a chunk that is taken out of a table
is put by itself (`remove`).

What matters of a pool is the list of the chunks that it holds, where those that were let go of do
not count (`chunks`).  Storing a chunk exchanges one element of it (`exists_store`), and nothing
else that is done to a pool adds any (`subperm_remove` and the other lemmas of that name).
-/

namespace BumpArena

/-- Where a chunk is kept: by itself, or in a table under a key. -/
inductive Place (κ : Type) where
  | loose (index : Nat)
  | keyed (table : Nat) (key : κ)
  deriving DecidableEq, Repr

/-- The chunks of a program. -/
structure ChunkPool (κ : Type) where
  loose : List LocalChunk := []
  tables : List (ChunkTable κ) := []
  deriving DecidableEq, Repr

namespace LocalChunk

/-- The chunk, unless it was let go of. -/
def live (c : LocalChunk) : List LocalChunk := if c.isHeld then [c] else []

lemma mem_live_iff {c d : LocalChunk} : d ∈ c.live ↔ d = c ∧ c.isHeld = true := by
  rw [live]
  split <;> simp_all

@[simp]
theorem live_release (c : LocalChunk) : c.release.live = [] := rfl

@[simp]
theorem live_empty : ({} : LocalChunk).live = [] := rfl

end LocalChunk

namespace ChunkTable

variable {κ : Type}

/-- The chunks that a table holds. -/
def chunks (t : ChunkTable κ) : List LocalChunk := t.entries.flatMap fun entry => entry.2.live

lemma chunks_releaseAll (t : ChunkTable κ) : t.releaseAll.chunks = [] := by
  simp [chunks, releaseAll, List.flatMap_map]

variable [DecidableEq κ]

/-- Storing a chunk under a key exchanges the chunk of the key. -/
lemma exists_insert (t : ChunkTable κ) (key : κ) :
    ∃ rest, t.chunks.Perm ((t.chunk key).live ++ rest) ∧
      ∀ d, (t.insert key d).chunks.Perm (d.live ++ rest) := by
  obtain ⟨entries⟩ := t
  induction entries with
  | nil => exact ⟨[], .refl _, fun d => by simp [chunks, insert, put]⟩
  | cons entry tail ih =>
    by_cases hkey : entry.1 = key
    · refine ⟨chunks ⟨tail⟩, ?_, fun d => ?_⟩
      · simp [chunks, chunk, get?, hkey]
      · simp [chunks, insert, put, hkey]
    · obtain ⟨rest, hchunks, hinsert⟩ := ih
      refine ⟨entry.2.live ++ rest, ?_, fun d => ?_⟩
      · have hchunk : chunk ⟨entry :: tail⟩ key = chunk ⟨tail⟩ key := by
          simp [chunk, get?, hkey]
        rw [hchunk]
        exact (hchunks.append_left entry.2.live).trans (List.perm_append_comm_assoc ..)
      · have hput : (insert ⟨entry :: tail⟩ key d).chunks =
            entry.2.live ++ (insert ⟨tail⟩ key d).chunks := by
          simp [chunks, insert, put, hkey]
        rw [hput]
        exact ((hinsert d).append_left entry.2.live).trans (List.perm_append_comm_assoc ..)

/-- A chunk that is taken out of a table is no longer in it. -/
lemma subperm_erase {t : ChunkTable κ} {key : κ} {c : LocalChunk} (h : t.get? key = some c) :
    List.Subperm (c.live ++ (t.erase key).chunks) t.chunks := by
  obtain ⟨entries⟩ := t
  induction entries with
  | nil => simp [get?] at h
  | cons entry tail ih =>
    by_cases hkey : entry.1 = key
    · have hchunk : entry.2 = c := by simpa [get?, hkey] using h
      have herase : erase ⟨entry :: tail⟩ key = erase ⟨tail⟩ key := by simp [erase, hkey]
      rw [herase, ← hchunk]
      exact ((List.filter_sublist.flatMap _).append_left entry.2.live).subperm
    · have hchunk : get? ⟨tail⟩ key = some c := by simpa [get?, hkey] using h
      have herase : (erase ⟨entry :: tail⟩ key).chunks =
          entry.2.live ++ (erase ⟨tail⟩ key).chunks := by simp [chunks, erase, hkey]
      rw [herase]
      exact (List.perm_append_comm_assoc ..).subperm.trans
        ((List.subperm_append_left entry.2.live).2 (ih hchunk))

end ChunkTable

/-! ## One element of a list -/

/-- What a list contributes, with one element set apart. -/
lemma exists_flatMap_set {α β : Type} {l : List α} {i : Nat} {x : α} (f : α → List β)
    (h : l[i]? = some x) :
    ∃ rest, (l.flatMap f).Perm (f x ++ rest) ∧
      ∀ y, ((l.set i y).flatMap f).Perm (f y ++ rest) := by
  obtain ⟨hlt, rfl⟩ := List.getElem?_eq_some_iff.1 h
  refine ⟨(l.eraseIdx i).flatMap f, ?_, fun y => ?_⟩
  · exact (List.getElem_cons_eraseIdx_perm hlt).symm.flatMap_right f
  · exact (List.set_perm_cons_eraseIdx hlt y).flatMap_right f

namespace ChunkPool

variable {κ : Type} {p : ChunkPool κ}

/-- The chunks that a pool holds. -/
def chunks (p : ChunkPool κ) : List LocalChunk :=
  p.loose.flatMap LocalChunk.live ++ p.tables.flatMap ChunkTable.chunks

/-- Adds an empty chunk. -/
def addChunk (p : ChunkPool κ) : ChunkPool κ := { p with loose := p.loose ++ [{}] }

/-- Adds an empty table. -/
def addTable (p : ChunkPool κ) : ChunkPool κ := { p with tables := p.tables ++ [{}] }

/-- Replaces a table. -/
def setTable (p : ChunkPool κ) (index : Nat) (table : ChunkTable κ) : ChunkPool κ :=
  { p with tables := p.tables.set index table }

/-- Lets go of all chunks in a table. -/
def releaseAll (p : ChunkPool κ) (index : Nat) : ChunkPool κ :=
  match p.tables[index]? with
  | some table => p.setTable index table.releaseAll
  | none => p

variable [DecidableEq κ]

/-- The chunk in a place.  A key that is new to its table has an empty one. -/
def chunk? (p : ChunkPool κ) : Place κ → Option LocalChunk
  | .loose index => p.loose[index]?
  | .keyed table key => p.tables[table]?.map (·.chunk key)

/-- Stores a chunk in a place. -/
def store (p : ChunkPool κ) (place : Place κ) (c : LocalChunk) : ChunkPool κ :=
  match place with
  | .loose index => { p with loose := p.loose.set index c }
  | .keyed index key =>
    match p.tables[index]? with
    | some table => p.setTable index (table.insert key c)
    | none => p

/-- Lets go of the chunk in a place. -/
def release (p : ChunkPool κ) (place : Place κ) : ChunkPool κ :=
  match p.chunk? place with
  | some c => p.store place c.release
  | none => p

/-- Takes the chunk of a key out of its table. -/
def remove (p : ChunkPool κ) (index : Nat) (key : κ) : ChunkPool κ :=
  match p.tables[index]? with
  | some table =>
    match table.get? key with
    | some c => { p with loose := p.loose ++ [c] }.setTable index (table.erase key)
    | none => p
  | none => p

/-! ## What each operation holds -/

omit [DecidableEq κ] in
lemma exists_setTable {index : Nat} {table : ChunkTable κ} (h : p.tables[index]? = some table) :
    ∃ rest, p.chunks.Perm (table.chunks ++ rest) ∧
      ∀ t, (p.setTable index t).chunks.Perm (t.chunks ++ rest) := by
  obtain ⟨rest, hchunks, hset⟩ := exists_flatMap_set ChunkTable.chunks h
  refine ⟨p.loose.flatMap LocalChunk.live ++ rest, ?_, fun t => ?_⟩
  · exact (hchunks.append_left _).trans (List.perm_append_comm_assoc ..)
  · exact ((hset t).append_left _).trans (List.perm_append_comm_assoc ..)

/-- **Storing a chunk** exchanges the one in its place for another. -/
lemma exists_store {place : Place κ} {c : LocalChunk} (h : p.chunk? place = some c) :
    ∃ rest, p.chunks.Perm (c.live ++ rest) ∧
      ∀ d, (p.store place d).chunks.Perm (d.live ++ rest) := by
  cases place with
  | loose index =>
    obtain ⟨rest, hchunks, hset⟩ := exists_flatMap_set LocalChunk.live h
    refine ⟨rest ++ p.tables.flatMap ChunkTable.chunks, ?_, fun d => ?_⟩
    · rw [← List.append_assoc]
      exact hchunks.append_right _
    · rw [← List.append_assoc]
      exact (hset d).append_right _
  | keyed index key =>
    obtain ⟨table, htable, rfl⟩ := Option.map_eq_some_iff.1 h
    obtain ⟨others, hchunks, hset⟩ := exists_setTable htable
    obtain ⟨rest, htablechunks, hinsert⟩ := table.exists_insert key
    refine ⟨rest ++ others, ?_, fun d => ?_⟩
    · rw [← List.append_assoc]
      exact hchunks.trans (htablechunks.append_right _)
    · rw [store, htable, ← List.append_assoc]
      exact (hset _).trans ((hinsert d).append_right _)

omit [DecidableEq κ] in
@[simp]
lemma chunks_addChunk (p : ChunkPool κ) : p.addChunk.chunks = p.chunks := by
  simp [chunks, addChunk]

omit [DecidableEq κ] in
@[simp]
lemma chunks_addTable (p : ChunkPool κ) : p.addTable.chunks = p.chunks := by
  simp [chunks, addTable, ChunkTable.chunks]

lemma subperm_release (p : ChunkPool κ) (place : Place κ) :
    List.Subperm (p.release place).chunks p.chunks := by
  rw [release]
  split
  · next c hchunk =>
    obtain ⟨rest, hchunks, hstore⟩ := exists_store hchunk
    refine (hstore c.release).subperm.trans ?_
    rw [LocalChunk.live_release, List.nil_append]
    exact (List.sublist_append_right c.live rest).subperm.trans hchunks.symm.subperm
  · exact .refl _

omit [DecidableEq κ] in
lemma subperm_releaseAll (p : ChunkPool κ) (index : Nat) :
    List.Subperm (p.releaseAll index).chunks p.chunks := by
  rw [releaseAll]
  split
  · next table htable =>
    obtain ⟨rest, hchunks, hset⟩ := exists_setTable htable
    refine (hset table.releaseAll).subperm.trans ?_
    rw [ChunkTable.chunks_releaseAll, List.nil_append]
    exact (List.sublist_append_right table.chunks rest).subperm.trans hchunks.symm.subperm
  · exact .refl _

lemma subperm_remove (p : ChunkPool κ) (index : Nat) (key : κ) :
    List.Subperm (p.remove index key).chunks p.chunks := by
  rw [remove]
  split
  · next table htable =>
    split
    · next c hchunk =>
      obtain ⟨rest, hchunks, hset⟩ := exists_setTable htable
      have hadd : (({ p with loose := p.loose ++ [c] } : ChunkPool κ).setTable index
          (table.erase key)).chunks.Perm
          (c.live ++ (p.setTable index (table.erase key)).chunks) := by
        simp only [chunks, setTable, List.flatMap_append, List.flatMap_singleton,
          List.append_assoc]
        exact List.perm_append_comm_assoc ..
      refine hadd.subperm.trans (.trans ?_ hchunks.symm.subperm)
      have hparts := (hset (table.erase key)).append_left c.live
      rw [← List.append_assoc] at hparts
      exact hparts.subperm.trans
        ((List.subperm_append_right rest).2 (ChunkTable.subperm_erase hchunk))
    · exact .refl _
  · exact .refl _

end ChunkPool

end BumpArena
