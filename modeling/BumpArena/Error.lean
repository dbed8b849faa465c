/-!
# Errors of construction and of files

Running out of space is an outcome of the arenas, not an error.  The errors here abort the
construction of a region, an arena, a reader or a ring, or a flush.  Each names its cause; the
wording is in the `message` functions alone.
-/

namespace BumpArena

/-- What the file system answers when it refuses. -/
inductive OsError where
  /-- A part of the path is not there. -/
  | notFound
  /-- A part of the path that has to be a directory is a file. -/
  | notDirectory
  /-- The path leads to a directory where a file is needed. -/
  | isDirectory
  /-- A part of the path is over 255 bytes, or the whole is over 4095. -/
  | nameTooLong
  /-- What the path leads to has no bytes to map. -/
  | noDevice
  /-- No file can be that long. -/
  | fileTooLarge
  /-- There are not as many addresses in a row as the file has bytes. -/
  | outOfMemory
  /-- The path holds a zero byte, which no file name may. -/
  | zeroByteInPath
  deriving DecidableEq, Repr, Inhabited

namespace OsError

/-- The text of a refusal. -/
def message : OsError → String
  | notFound => "No such file or directory (os error 2)"
  | notDirectory => "Not a directory (os error 20)"
  | isDirectory => "Is a directory (os error 21)"
  | nameTooLong => "File name too long (os error 36)"
  | noDevice => "No such device (os error 19)"
  | fileTooLarge => "File too large (os error 27)"
  | outOfMemory => "Cannot allocate memory (os error 12)"
  | zeroByteInPath => "file name contained an unexpected NUL byte"

end OsError

/-- What was being done to a file when the file system refused. -/
inductive FileAction where
  | opening
  | sizing
  | inspecting
  | mapping
  | flushing
  /-- An action outside this library. -/
  | named (text : String)
  deriving DecidableEq, Repr, Inhabited

namespace FileAction

/-- The word for an action in messages. -/
def message : FileAction → String
  | opening => "open"
  | sizing => "set_len"
  | inspecting => "metadata"
  | mapping => "mmap"
  | flushing => "flush"
  | named text => text

end FileAction

/-- Why an action on a file failed. -/
inductive FileCause where
  | os (error : OsError)
  /-- A cause outside this library. -/
  | other (text : String)
  deriving DecidableEq, Repr, Inhabited

namespace FileCause

/-- The text of a cause. -/
def message : FileCause → String
  | os error => error.message
  | other text => text

end FileCause

/-- What is wrong with a configuration, or with the range of a flush. -/
inductive ConfigFlaw where
  | zeroCapacity
  | capacityTooLarge (capacity limit : Nat)
  | minChunk (size granularity : Nat)
  | maxChunk (size granularity : Nat)
  | chunkOrder (least greatest : Nat)
  | emptyPath
  | pageOverflow (capacity : Nat)
  | flushRange (offset length capacity : Nat)
  /-- A flaw outside this library. -/
  | other (text : String)
  deriving DecidableEq, Repr, Inhabited

namespace ConfigFlaw

/-- The text of a flaw. -/
def message : ConfigFlaw → String
  | zeroCapacity => "capacity must be non-zero"
  | capacityTooLarge capacity limit =>
    s!"capacity {capacity} exceeds the 32-bit handle limit {limit}"
  | minChunk size granularity =>
    s!"min_chunk {size} must be a non-zero multiple of {granularity}"
  | maxChunk size granularity => s!"max_chunk {size} must be a multiple of {granularity}"
  | chunkOrder least greatest => s!"min_chunk {least} exceeds max_chunk {greatest}"
  | emptyPath => "journal path is empty"
  | pageOverflow capacity => s!"capacity {capacity} overflows page rounding"
  | flushRange offset length capacity =>
    s!"flush range {offset}+{length} exceeds capacity {capacity}"
  | other text => text

end ConfigFlaw

/-- What makes a file unusable as a journal. -/
inductive JournalFlaw where
  /-- A length that no region can have. -/
  | badLength (length : Nat)
  | empty
  /-- A flaw outside this library. -/
  | other (text : String)
  deriving DecidableEq, Repr, Inhabited

namespace JournalFlaw

/-- The text of a flaw. -/
def message : JournalFlaw → String
  | badLength length =>
    s!"journal length {length} is not a non-zero page multiple within the handle limit"
  | empty => "journal is empty"
  | other text => text

end JournalFlaw

/-- Why a region, an arena or a journal could not be made, opened or flushed. -/
inductive ArenaError where
  | invalidConfig (flaw : ConfigFlaw)
  /-- No memory for a region. -/
  | regionAlloc (size align : Nat)
  | file (action : FileAction) (path : String) (cause : FileCause)
  | corrupt (offset : Nat) (flaw : JournalFlaw)
  deriving DecidableEq, Repr, Inhabited

namespace ArenaError

/-- The text that reports an error. -/
def message : ArenaError → String
  | invalidConfig flaw => s!"invalid arena configuration: {flaw.message}"
  | regionAlloc size align =>
    s!"failed to allocate {size} bytes aligned to {align} for backing region"
  | file action path cause => s!"{action.message} failed for {path}: {cause.message}"
  | corrupt offset flaw => s!"corrupt journal at offset {offset}: {flaw.message}"

/-- The text of the error that led to this one, if another did. -/
def source : ArenaError → Option String
  | file _ _ cause => some cause.message
  | _ => none

end ArenaError

/-- Why a ring could not be made. -/
inductive RingError where
  /-- Positions wrap around by a mask, which needs a power of two. -/
  | capacityNotPowerOfTwo (capacity : Nat)
  /-- One slot stays empty, so that one slot alone holds nothing. -/
  | capacityTooSmall (capacity : Nat)
  deriving DecidableEq, Repr, Inhabited

namespace RingError

/-- The text that reports an error. -/
def message : RingError → String
  | capacityNotPowerOfTwo capacity => s!"ring capacity {capacity} is not a power of two"
  | capacityTooSmall capacity => s!"ring capacity must be >= 2, got {capacity}"

end RingError

end BumpArena
