import BumpArena.Region
import BumpArena.Storage.Path

/-!
# The storage

The storage is the world in which regions are made: numbered blocks of bytes, the files and
directories that name some of them, the source of region identities, whether there is memory for a
block that no file has, and where in memory the next regions come to lie.  A region that maps a file
shares the block of the file.  So whatever
is stored through the region is at once in the file, as far as the file reaches, and the other way
round, without either knowing of the other.

A block outlives the name of its file.  Removing a file takes the name away, while regions that
map it keep their bytes.  Every file that is named has its block: this is kept in the type, so that
opening a file always yields bytes that are there.
-/

namespace BumpArena

/-- What a path can lead to. -/
inductive Entry where
  | directory
  | file (block : BlockId)
  deriving DecidableEq, Repr, Inhabited

/-- Blocks of bytes, names for some of them, the source of identities, and what the memory has room
for. -/
structure Storage where
  /-- All blocks, by number. -/
  blocks : Array Block := #[]
  /-- The files and directories below the root. -/
  entries : List (List String × Entry) := []
  /-- Where region identities are drawn from. -/
  ids : IdSource := {}
  /-- Whether there is memory for a block of so many bytes. -/
  hasMemory : Nat → Bool := fun _ => true
  /-- The pages of memory on which the next regions begin, one after the other. -/
  frames : Nat → Nat := fun _ => 0
  block_lt : ∀ names block, (names, Entry.file block) ∈ entries → block < blocks.size := by simp

namespace Storage

instance : Inhabited Storage := ⟨{}⟩

/-! ## Blocks -/

/-- The block of a number. -/
def block (s : Storage) (id : BlockId) : Block := s.blocks.getD id default

/-- Changes a block. -/
def modifyBlock (s : Storage) (id : BlockId) (change : Block → Block) : Storage :=
  { s with
    blocks := s.blocks.modify id change
    block_lt := by simpa using s.block_lt }

/-- Adds a block. -/
def addBlock (s : Storage) (block : Block) : BlockId × Storage :=
  (s.blocks.size, { s with
    blocks := s.blocks.push block
    block_lt := fun names block h => by
      rw [Array.size_push]
      exact Nat.lt_succ_of_lt (s.block_lt names block h) })

/-- The first bytes in the pages of a block, as one sees them who took its length earlier. -/
def view (s : Storage) (id : BlockId) (length : Nat) : Buffer :=
  let pages := (s.block id).pages
  if pages.size = length then pages else pages.resize length

/-- The bytes of a region. -/
def contents (s : Storage) (r : Region) : Buffer := s.view r.block r.capacity

/-! ## Regions -/

/-- The region that is made next, of a block: an identity and a place in memory are taken for it. -/
def nextRegion (s : Storage) (capacity : Nat) (block : BlockId) (path : Option String) : Region :=
  { id := s.ids.next.1, capacity, block, path, frame := s.frames 0 }

/-- The storage after a region was made. -/
def afterRegion (s : Storage) : Storage :=
  { s with ids := s.ids.next.2, frames := fun i => s.frames (i + 1) }

/-! ## Names -/

/-- Adds a directory. -/
def addDirectory (s : Storage) (names : List String) : Storage :=
  { s with
    entries := s.entries ++ [(names, .directory)]
    block_lt := fun names block h => by
      simp only [List.mem_append, List.mem_singleton, Prod.mk.injEq, reduceCtorEq, and_false,
        or_false] at h
      exact s.block_lt names block h }

/-- Adds an empty file, with a block of its own. -/
def addFile (s : Storage) (names : List String) : BlockId × Storage :=
  (s.blocks.size, { s with
    blocks := s.blocks.push (.zeros 0)
    entries := s.entries ++ [(names, .file s.blocks.size)]
    block_lt := fun names block h => by
      rw [Array.size_push]
      rcases List.mem_append.1 h with h | h
      · exact Nat.lt_succ_of_lt (s.block_lt names block h)
      · simp_all })

/-- Takes away every entry of some names. -/
def removeEntries (s : Storage) (names : List String) : Storage :=
  { s with
    entries := s.entries.filter (·.1 ≠ names)
    block_lt := fun names block h => s.block_lt names block (List.mem_filter.1 h).1 }

/-- What a row of names leads to, if it is there. -/
def entry? (s : Storage) : List String → Option Entry
  | [] => some .directory
  | names => (s.entries.find? (·.1 = names)).map (·.2)

/-- Goes from a directory on through directories of the given names. -/
def enter (s : Storage) (directory : List String) : List String → Except OsError Unit
  | [] => .ok ()
  | name :: rest =>
    if Path.maxNameBytes < name.utf8ByteSize then .error .nameTooLong
    else
      let here := directory ++ [name]
      match s.entry? here with
      | some .directory => s.enter here rest
      | some (.file _) => .error .notDirectory
      | none => .error .notFound

/-- What a path leads to.  All its directories have to be there; whether there is anything of its
last name is left to the caller. -/
def locate (s : Storage) (path : Path) : Except OsError (Option Entry) := do
  s.enter [] path.directories
  match path.last with
  | none => return some .directory
  | some name =>
    if Path.maxNameBytes < name.utf8ByteSize then throw .nameTooLong
    return s.entry? path.names

/-- What an existing path leads to. -/
def find (s : Storage) (text : String) : Except OsError Entry := do
  let path ← Path.parse text
  match ← s.locate path with
  | none => throw .notFound
  | some (.file block) => if path.slashed then throw .notDirectory else return .file block
  | some .directory => return .directory

/-- The block of an existing file that is opened for reading and writing. -/
def openWritable (s : Storage) (text : String) : Except OsError BlockId := do
  match ← s.find text with
  | .file block => return block
  | .directory => throw .isDirectory

/-- The block of a file that is opened for reading and writing, and made first if it is not
there.  A path that has to lead to a directory is refused before its last name is looked at. -/
def openOrCreate (s : Storage) (text : String) : Except OsError (BlockId × Storage) := do
  let path ← Path.parse text
  s.enter [] path.directories
  if path.toDirectory then throw .isDirectory
  match ← s.locate path with
  | some .directory => throw .isDirectory
  | some (.file block) => return (block, s)
  | none => return s.addFile path.names

/-- The block of an empty file: one that was there loses its bytes, and one that was not is made.
-/
def createFile (s : Storage) (text : String) : Except OsError (BlockId × Storage) := do
  let (block, s) ← s.openOrCreate text
  return (block, s.modifyBlock block fun _ => .zeros 0)

end Storage

end BumpArena
