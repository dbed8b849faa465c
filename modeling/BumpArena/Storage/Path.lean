import BumpArena.Error

/-!
# Paths

A path is a row of names between slashes.  It leads from the root of the storage through one
directory after the other, and then either to a last name or, where `.` stands at its end, no
further.  Empty names, and `.` in other places, lead nowhere.  A slash after the last name says
that the name has to be that of a directory.
-/

namespace BumpArena

/-- A path that was read from its text. -/
structure Path where
  /-- The names of the directories to go through, from the root on. -/
  directories : List String
  /-- The name to look for in the last of these directories, if the path does not end there. -/
  last : Option String
  /-- Whether a slash follows the last name. -/
  slashed : Bool
  deriving DecidableEq, Repr, Inhabited

namespace Path

/-- The most bytes that one name may have. -/
def maxNameBytes : Nat := 255

/-- The most bytes that a whole path may have. -/
def maxBytes : Nat := 4095

/-- All names of a path, from the root on. -/
def names (p : Path) : List String := p.directories ++ p.last.toList

/-- Whether what the path leads to has to be a directory. -/
def toDirectory (p : Path) : Bool := p.last.isNone || p.slashed

/-- The parts of a text between its slashes. -/
def parts : List Char → List (List Char)
  | [] => [[]]
  | c :: rest =>
    match parts rest with
    | [] => [[c]]
    | part :: more => if c = '/' then [] :: part :: more else (c :: part) :: more

/-- Reads a path.  A zero byte is refused before the length is looked at, and an empty path leads
nowhere. -/
def parse (text : String) : Except OsError Path :=
  let chars := text.toList
  if '\x00' ∈ chars then .error .zeroByteInPath
  else if maxBytes < text.utf8ByteSize then .error .nameTooLong
  else if chars = [] then .error .notFound
  else
    let present := (parts chars).filter (· ≠ [])
    let names := (present.filter (· ≠ ['.'])).map String.ofList
    if present.getLast? = some ['.'] then .ok ⟨names, none, false⟩
    else .ok ⟨names.dropLast, names.getLast?, chars.getLast? = some '/'⟩

/-- Empty names and `.` on the way lead nowhere. -/
example : parse "a//./b" = .ok ⟨["a"], some "b", false⟩ := rfl

/-- Slashes at the end leave the last name the last. -/
example : parse "a/b//" = .ok ⟨["a"], some "b", true⟩ := rfl

/-- Before a final `.`, every name is that of a directory to go through. -/
example : parse "a/b/./" = .ok ⟨["a", "b"], none, false⟩ := rfl

end Path

end BumpArena
