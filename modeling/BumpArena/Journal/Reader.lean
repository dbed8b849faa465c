import BumpArena.Journal.Scan
import BumpArena.Storage.AddressRange
import BumpArena.Storage.Mapping

/-!
# Reading a journal

A `JournalReader` looks at the journal in a file without an arena, and changes nothing.  It maps the
file as a region does: it sees the bytes as they are now, but no more of them than there were when
it was opened.
-/

namespace BumpArena

/-- A read-only view of a journal file. -/
structure JournalReader where
  /-- The bytes of the file. -/
  block : BlockId
  /-- The length of the file when it was opened. -/
  length : Nat
  /-- The addresses that the bytes are mapped to. -/
  addresses : AddressRange
  path : String
  deriving DecidableEq, Repr, Inhabited

namespace JournalReader

/-- Opens a file that has any bytes.  A directory can be opened, but it cannot be mapped, and nor
can a file for which there is no place beside the readers that are open.  What regions map is short
by comparison, and leaves room enough. -/
def make (path : String) (others : List JournalReader) : StorageM JournalReader := do
  match ← Storage.requireFile .opening path ((← get).find path) with
  | .directory => throw (.file .mapping path (.os .noDevice))
  | .file block =>
    let length := ((← get).block block).length
    if length = 0 then throw (.corrupt 0 .empty)
    match AddressRange.place (others.map (·.addresses)) length with
    | none => throw (.file .mapping path (.os .outOfMemory))
    | some addresses => return { block, length, addresses, path }

/-- The bytes of the journal. -/
def contents (r : JournalReader) (s : Storage) : Buffer := s.view r.block r.length

end JournalReader

end BumpArena
