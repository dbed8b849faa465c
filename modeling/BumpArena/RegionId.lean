/-!
# Region identities

Every region has an identity of its own, and every handle carries that of the region it was
issued by.  Identities are drawn from a 32-bit counter that wraps around and skips zero, which no
region has.
-/

namespace BumpArena

/-- The identity of a region. -/
structure RegionId where
  value : UInt32
  deriving DecidableEq, Repr, Inhabited

namespace RegionId

/-- The identity that no region has, and that the null handle carries. -/
def unassigned : RegionId := ⟨0⟩

/-- Whether this is the identity that no region has. -/
def isUnassigned (id : RegionId) : Bool := id == unassigned

/-- An identity as text. -/
def name (id : RegionId) : String := s!"region#{id.value.toNat}"

end RegionId

/-- Where identities are drawn from. -/
structure IdSource where
  /-- The next value, which may be the zero that is skipped. -/
  counter : UInt32 := 1
  deriving DecidableEq, Repr, Inhabited

namespace IdSource

/-- The counter one further, with wraparound. -/
def advance (source : IdSource) : IdSource := ⟨source.counter + 1⟩

/-- Draws an identity: the first counter value from here on that is not zero. -/
def next (source : IdSource) : RegionId × IdSource :=
  if source.counter = 0 then source.advance.next else (⟨source.counter⟩, source.advance)
termination_by if source.counter = 0 then 1 else 0
decreasing_by simp_all [advance]

theorem next_of_counter_ne_zero {source : IdSource} (h : source.counter ≠ 0) :
    source.next = (⟨source.counter⟩, source.advance) := by
  rw [next, if_neg h]

/-- At zero the counter is drawn from a second time, and yields one. -/
theorem next_of_counter_eq_zero {source : IdSource} (h : source.counter = 0) :
    source.next = (⟨1⟩, ⟨2⟩) := by
  have hadvance : source.advance = ⟨1⟩ := by simp [advance, h]
  rw [next, if_pos h, hadvance, next_of_counter_ne_zero (by decide)]
  rfl

/-- A drawn identity is that of a region. -/
theorem next_ne_unassigned (source : IdSource) : source.next.1 ≠ .unassigned := by
  by_cases h : source.counter = 0
  · rw [next_of_counter_eq_zero h]
    decide
  · rw [next_of_counter_ne_zero h]
    simpa [RegionId.unassigned] using h

end IdSource

end BumpArena
