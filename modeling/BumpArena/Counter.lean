import BumpArena.Word

/-!
# Counters

All arenas share one way to hand out room: a counter whose position moves forward by the size of
each claim.  A claim that does not fit is refused, and it still moves the position past the
capacity.  There the counter stays: it refuses every later claim until it is reset, so that
refused claims do not add up.  A single one can still take the position around into range again,
where the capacity is half the words or more.
-/

namespace BumpArena

/-- The use of an arena at one moment. -/
structure Stats where
  capacity : Nat
  /-- The bytes that were handed out. -/
  used : Nat
  /-- The bytes that are left. -/
  remaining : Nat
  /-- Whether a claim was refused since the last reset. -/
  exhausted : Bool
  deriving DecidableEq, Repr, Inhabited

/-- A position that claims move forward. -/
structure Counter where
  /-- The number of bytes to hand out. -/
  capacity : Nat
  /-- The bytes claimed so far; past the capacity once a claim was refused. -/
  position : Nat := 0
  deriving DecidableEq, Repr, Inhabited

namespace Counter

/-- The bytes that were handed out. -/
def used (c : Counter) : Nat := min c.position c.capacity

/-- The bytes that are left. -/
def remaining (c : Counter) : Checked Nat := Word.sub c.capacity c.used

/-- Whether a claim was refused since the last reset. -/
def isExhausted (c : Counter) : Bool := c.capacity < c.position

/-- The use at this moment. -/
def stats (c : Counter) : Checked Stats := do
  return ⟨c.capacity, c.used, ← c.remaining, c.isExhausted⟩

/-- Starts over. -/
def reset (c : Counter) : Counter := { c with position := 0 }

/-- Claims a number of bytes: the offset of the first of them, if they fit.

The position moves by no more than one byte past the whole capacity, which is enough to refuse
the claim.  It is a word, and moves as words do. -/
def claim (c : Counter) (size : Nat) : Checked (Option Nat × Counter) :=
  if c.isExhausted then .ok (none, c)
  else do
    let step := min size (← Word.add c.capacity 1)
    let moved := { c with position := Word.wrappingAdd c.position step }
    return (if c.position + step ≤ c.capacity then some c.position else none, moved)

/-- The use can always be told. -/
theorem stats_eq (c : Counter) :
    c.stats = .ok ⟨c.capacity, c.used, c.capacity - c.used, c.isExhausted⟩ := by
  have hused : c.used ≤ c.capacity := Nat.min_le_right ..
  rw [stats, remaining, Word.sub_eq_ok hused]
  rfl

/-- A counter that wrapping cannot reach: twice its capacity is a word. -/
theorem claim_eq (c : Counter) (size : Nat) (h : 2 * c.capacity + 1 < Word.limit) :
    c.claim size = .ok (
      if c.capacity < c.position then (none, c)
      else if c.position + size ≤ c.capacity then
        (some c.position, { c with position := c.position + size })
      else (none, { c with position := c.position + min size (c.capacity + 1) })) := by
  unfold claim isExhausted
  by_cases hp : c.capacity < c.position
  · simp [hp]
  · have hadd : Word.add c.capacity 1 = .ok (c.capacity + 1) := Word.add_eq_ok (by omega)
    have hwrap : Word.wrappingAdd c.position (min size (c.capacity + 1)) =
        c.position + min size (c.capacity + 1) := Word.wrappingAdd_of_lt (by omega)
    by_cases hs : c.position + size ≤ c.capacity
    · have hmin : min size (c.capacity + 1) = size := by omega
      rw [hmin] at hwrap
      simp [hp, hs, hadd, hwrap, hmin, bind, Except.bind, pure, Except.pure]
    · have hfit : ¬ c.position + min size (c.capacity + 1) ≤ c.capacity := by omega
      simp [hp, hs, hfit, hadd, hwrap, bind, Except.bind, pure, Except.pure]

end Counter

end BumpArena
