import BumpArena.Alignment

/-!
# Addresses

Whoever maps a file takes a row of addresses, one for each byte of its pages.  A process has two
long rows to take from: one below its program, and one between the program and the libraries that
it has loaded.  A new row is taken as high up as there is room for it, and where there is none, the
file cannot be mapped.
-/

namespace BumpArena

/-- A row of addresses. -/
structure AddressRange where
  /-- The first address. -/
  start : Nat
  /-- The number of addresses. -/
  length : Nat
  deriving DecidableEq, Repr, Inhabited

namespace AddressRange

/-- The first address past a row. -/
def stop (r : AddressRange) : Nat := r.start + r.length

/-- Whether all addresses of a row are among those of another. -/
def Within (r s : AddressRange) : Prop := s.start ≤ r.start ∧ r.stop ≤ s.stop

/-- Whether two rows lie one above the other. -/
def Apart (r s : AddressRange) : Prop := r.stop ≤ s.start ∨ s.stop ≤ r.start

/-- The addresses that are free in every process before any file is mapped.  Where the program and
its libraries lie differs from process to process by up to a trillion addresses, and none of those
is counted. -/
def available : List AddressRange :=
  [⟨0x10000, 0x555555544000⟩, ⟨0x565600000000, 0x28a500000000⟩]

/-- Whether a row can be taken beside those that are taken. -/
def IsFree (taken : List AddressRange) (r : AddressRange) : Prop :=
  (∃ s ∈ available, r.Within s) ∧ ∀ s ∈ taken, r.Apart s

instance (taken : List AddressRange) (r : AddressRange) : Decidable (IsFree taken r) := by
  unfold IsFree Within Apart
  infer_instance

/-- The first addresses of the rows that end where nothing above them is free. -/
def candidates (taken : List AddressRange) (length : Nat) : List Nat :=
  (available.map stop ++ taken.map start).filterMap fun top =>
    if length ≤ top then some (top - length) else none

/-- The highest free row for a number of bytes, in whole pages. -/
def place (taken : List AddressRange) (bytes : Nat) : Option AddressRange :=
  let length := page.ceil bytes
  let starts := (candidates taken length).filter fun start => IsFree taken ⟨start, length⟩
  starts.max?.map fun start => ⟨start, length⟩

/-- A row that is taken was free, and has room for the bytes. -/
theorem isFree_of_place {taken : List AddressRange} {bytes : Nat} {r : AddressRange}
    (h : place taken bytes = some r) : IsFree taken r ∧ r.length = page.ceil bytes := by
  obtain ⟨start, hmax, rfl⟩ := Option.map_eq_some_iff.1 h
  exact ⟨of_decide_eq_true (List.mem_filter.1 (List.max?_mem hmax)).2, rfl⟩

/-- The longest file that can be mapped fills the row below the program. -/
example : place [] 0x555555544000 = some ⟨0x10000, 0x555555544000⟩ := rfl

/-- A file of one byte more has no place. -/
example : place [] 0x555555544001 = none := rfl

end AddressRange

end BumpArena
