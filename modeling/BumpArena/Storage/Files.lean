import BumpArena.Storage.Basic

/-!
# Files and directories

What can be done to files and directories by their paths alone, without a region: to ask for
a length, to write, resize or remove a file, and to make directories.  Some of these go in steps,
and a step that fails leaves what the steps before it did.
-/

namespace BumpArena

/-- An action on files.  What it did before it failed stays. -/
abbrev FileM := EStateM OsError Storage

namespace Storage

/-! ## Lengths -/

/-- The length of a directory: 20 bytes for each name in it, and as much for each of the two names
`.` and `..` that every directory has. -/
def directoryLength (s : Storage) (names : List String) : Nat :=
  20 * (2 + s.entries.countP fun (name, _) =>
    names.isPrefixOf name && name.length == names.length + 1)

/-- The length of what an existing path leads to. -/
def lengthOf (s : Storage) (text : String) : Except OsError Nat := do
  match ← s.find text with
  | .file block => return (s.block block).length
  | .directory => return s.directoryLength (← Path.parse text).names

/-- The most bytes that a file can have.  Its length is a signed word. -/
def maxFileLength : Nat := UInt64.size / 2 - 1

/-! ## Actions -/

/-- Gives a file new contents, and makes it first if it is not there. -/
def writeFile (text : String) (contents : Buffer) : FileM Unit := do
  let (block, s) ← MonadExcept.ofExcept ((← get).openOrCreate text)
  set (s.modifyBlock block fun _ => .ofBuffer contents)

/-- Gives a file a new length, and makes it first if it is not there.  Only then is a length
refused that no file can have. -/
def setFileLength (text : String) (length : Nat) : FileM Unit := do
  let (block, s) ← MonadExcept.ofExcept ((← get).openOrCreate text)
  set s
  if maxFileLength < length then throw .fileTooLarge
  set (s.modifyBlock block (·.setLength length))

/-- Removes a file.  A directory is not removed this way. -/
def removeFile (text : String) : FileM Unit := do
  let s ← get
  let path ← MonadExcept.ofExcept (Path.parse text)
  match ← MonadExcept.ofExcept (s.locate path) with
  | some (.file _) => if path.slashed then throw .notDirectory else set (s.removeEntries path.names)
  | some .directory => throw .isDirectory
  | none => throw .notFound

/-- Makes those of a row of directories that are not there, each in the one before it. -/
def makeMissing (directory : List String) : List String → FileM Unit
  | [] => pure ()
  | name :: rest => do
    if Path.maxNameBytes < name.utf8ByteSize then throw .nameTooLong
    let here := directory ++ [name]
    let s ← get
    match s.entry? here with
    | some .directory => pure ()
    | some (.file _) => throw .notDirectory
    | none => modify (·.addDirectory here)
    makeMissing here rest

/-- Makes the directory that a path leads to, and those on the way to it.  Where the path ends in
`.`, the last of its names is one to go through, and is not made.  An empty text names no directory,
so nothing is to be made. -/
def makeDirectories (text : String) : FileM Unit := do
  if text.isEmpty then return
  let path ← MonadExcept.ofExcept (Path.parse text)
  makeMissing [] (if path.last.isNone then path.names.dropLast else path.names)
  MonadExcept.ofExcept ((← get).enter [] path.names)

end Storage

end BumpArena
