import BumpArena.Config
import BumpArena.Storage.Basic

/-!
# Making regions

A region is made with bytes of its own, from a new or emptied file, or from a file as it is.  These
are actions on the storage, and an action that fails still leaves its storage behind.  So that a
failure leaves no trace is a statement about that storage, and each action refuses what it can
before it changes anything.
-/

namespace BumpArena

/-- An action on the storage.  It leaves a storage behind also when it fails. -/
abbrev StorageM := EStateM ArenaError Storage

namespace Storage

/-- Goes on only with a configuration that has no flaw. -/
def requireConfig {α : Type} : Except ConfigFlaw α → StorageM α
  | .ok value => pure value
  | .error flaw => throw (.invalidConfig flaw)

/-- Goes on only when an action on a file did not fail. -/
def requireFile {α : Type} (action : FileAction) (path : String) : Except OsError α → StorageM α
  | .ok value => pure value
  | .error error => throw (.file action path (.os error))

/-- Goes on only when there is memory for a block. -/
def requireMemory (size : Nat) : StorageM Unit := do
  unless (← get).hasMemory size do throw (.regionAlloc size page.bytes)

/-- Makes a region of a block, with an identity of its own. -/
def makeRegion (capacity : Nat) (block : BlockId) (path : Option String) : StorageM Region := do
  let s ← get
  set s.afterRegion
  return s.nextRegion capacity block path

end Storage

namespace Region

open Storage

/-- A region with bytes of its own, all zero.  The capacity is rounded up to whole pages. -/
def makeVolatile (capacity : Nat) : StorageM Region := do
  requireConfig (validateCapacity capacity)
  let rounded ← requireConfig (pageRound capacity)
  requireMemory rounded
  let (block, s) := (← get).addBlock (.zeros rounded)
  set s
  makeRegion rounded block none

/-- A region that maps a file of zeros.  A file that was there loses its bytes. -/
def createMapped (path : String) (capacity : Nat) : StorageM Region := do
  requireConfig (validateCapacity capacity)
  let rounded ← requireConfig (pageRound capacity)
  let (block, s) ← requireFile .opening path ((← get).createFile path)
  set (s.modifyBlock block (·.setLength rounded))
  makeRegion rounded block (some path)

/-- A region that maps a file as it is, if it has the length of a region. -/
def openMapped (path : String) : StorageM Region := do
  let block ← requireFile .opening path ((← get).openWritable path)
  let length := ((← get).block block).length
  if length = 0 ∨ ¬ page.Divides length ∨ maxCapacity < length then
    throw (.corrupt 0 (.badLength length))
  makeRegion length block (some path)

end Region

end BumpArena
