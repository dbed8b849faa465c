import BumpArena.Alignment
import BumpArena.Error

/-!
# Configurations

What a caller asks for when it makes an arena or a journal: a capacity, which becomes a whole
number of pages, and for two-level arenas the bounds of the chunks that a cache claims.
`validate` names the first flaw, in the order in which the fields are listed.
-/

namespace BumpArena

/-- Checks that a region of the capacity can be addressed. -/
def validateCapacity (capacity : Nat) : Except ConfigFlaw Unit :=
  if capacity = 0 then .error .zeroCapacity
  else if maxCapacity < capacity then .error (.capacityTooLarge capacity maxCapacity)
  else .ok ()

/-- The capacity rounded up to whole pages, if a region can have it. -/
def pageRound (capacity : Nat) : Except ConfigFlaw Nat :=
  match roundUp capacity page with
  | some rounded => if rounded ≤ maxCapacity then .ok rounded else .error (.pageOverflow capacity)
  | none => .error (.pageOverflow capacity)

/-- The capacity rounded up to whole pages, for display: a capacity that cannot be rounded shows
as the largest one. -/
def pageRounded (capacity : Nat) : Nat := (roundUp capacity page).getD maxCapacity

/-- The size of a region for which none is asked. -/
def ArenaConfig.defaultCapacity : Nat := 64 * 1024 * 1024

/-- The smallest chunk where no bound is asked. -/
def ArenaConfig.defaultMinChunk : Nat := 64 * 1024

/-- The largest chunk where no bound is asked. -/
def ArenaConfig.defaultMaxChunk : Nat := 1024 * 1024

/-- What a volatile arena is made from. -/
structure ArenaConfig where
  /-- The size of the region in bytes, before it is rounded up to whole pages. -/
  capacity : Nat
  /-- The smallest chunk that a cache claims. -/
  minChunk : Nat := ArenaConfig.defaultMinChunk
  /-- The largest chunk that a cache claims.  A larger request goes past the cache. -/
  maxChunk : Nat := ArenaConfig.defaultMaxChunk
  deriving DecidableEq, Repr

namespace ArenaConfig

instance : Inhabited ArenaConfig := ⟨{ capacity := defaultCapacity }⟩

/-- Checks the capacity, then each chunk bound, then their order. -/
def validate (config : ArenaConfig) : Except ConfigFlaw Unit := do
  validateCapacity config.capacity
  if config.minChunk = 0 ∨ ¬ cacheLine.Divides config.minChunk then
    .error (.minChunk config.minChunk cacheLine.bytes)
  else if ¬ cacheLine.Divides config.maxChunk then
    .error (.maxChunk config.maxChunk cacheLine.bytes)
  else if config.maxChunk < config.minChunk then
    .error (.chunkOrder config.minChunk config.maxChunk)
  else .ok ()

/-- The capacity that the region will have. -/
def regionCapacity (config : ArenaConfig) : Nat := pageRounded config.capacity

/-- Bounds that the chunks of an arena can have: whole cache lines, in order, and none of them
empty. -/
structure ChunkBounds (minChunk maxChunk : Nat) : Prop where
  pos : 0 < minChunk
  minChunk_dvd : cacheLine.bytes ∣ minChunk
  maxChunk_dvd : cacheLine.bytes ∣ maxChunk
  le : minChunk ≤ maxChunk

/-- What a configuration without a flaw has. -/
theorem validate_eq_ok_iff {config : ArenaConfig} :
    config.validate = .ok () ↔
      validateCapacity config.capacity = .ok () ∧
        ChunkBounds config.minChunk config.maxChunk := by
  constructor
  · intro h
    obtain ⟨_, hcapacity, h⟩ := bind_eq_ok_iff.1 h
    refine ⟨hcapacity, ?_⟩
    split at h
    · cases h
    split at h
    · cases h
    split at h
    · cases h
    next hmin hmax horder =>
      rw [not_or, Classical.not_not] at hmin
      exact ⟨Nat.pos_of_ne_zero hmin.1, Nat.dvd_of_mod_eq_zero hmin.2,
        Nat.dvd_of_mod_eq_zero (Classical.not_not.1 hmax), Nat.not_lt.1 horder⟩
  · rintro ⟨hcapacity, hbounds⟩
    refine bind_eq_ok_iff.2 ⟨(), hcapacity, ?_⟩
    have hmin : cacheLine.Divides config.minChunk := Nat.mod_eq_zero_of_dvd hbounds.minChunk_dvd
    have hmax : cacheLine.Divides config.maxChunk := Nat.mod_eq_zero_of_dvd hbounds.maxChunk_dvd
    have hpos : config.minChunk ≠ 0 := Nat.ne_of_gt hbounds.pos
    rw [if_neg (not_or.2 ⟨hpos, not_not_intro hmin⟩), if_neg (not_not_intro hmax),
      if_neg (Nat.not_lt.2 hbounds.le)]

end ArenaConfig

/-- The size of a journal for which none is asked. -/
def JournalConfig.defaultCapacity : Nat := 64 * 1024 * 1024

/-- What a journal is made from. -/
structure JournalConfig where
  /-- The file that holds the journal. -/
  path : String
  /-- The size of the file, before it is rounded up to whole pages.  Opening a file that is
  there ignores it. -/
  capacity : Nat := JournalConfig.defaultCapacity
  deriving DecidableEq, Repr, Inhabited

namespace JournalConfig

/-- Checks the path, then the capacity. -/
def validate (config : JournalConfig) : Except ConfigFlaw Unit :=
  if config.path.isEmpty then .error .emptyPath else validateCapacity config.capacity

/-- The size that the file will have. -/
def regionCapacity (config : JournalConfig) : Nat := pageRounded config.capacity

end JournalConfig

end BumpArena
