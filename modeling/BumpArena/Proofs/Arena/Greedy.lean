import BumpArena.Proofs.Handoff.Allocator
import Mathlib.Algebra.GroupWithZero.Nat

/-!
# Flat arenas are greedy

What a flat arena promises can be told without its counter.  A `GreedyBump` lays grants side by side
from the base on, each rounded up to the grain, and after the first one that does not fit it grants
nothing until it starts over.  It knows no offset past its capacity, no handle and no word, except
that a size which is no word is passed over.

`FlatArena.Follows` relates the two.  A request keeps it (`FlatArena.Follows.allocate`), and so all
runs of an arena get the answers of the greedy allocator (`FlatArena.run_agrees`).  That what was
granted overlaps nowhere and resolves ever after is carried along with it.
-/

namespace BumpArena

namespace FlatArena

/-- The flat arenas that a program starts with: over a new region, or over one that was there. -/
inductive Made : FlatArena → Prop
  | made {config : ArenaConfig} {s s' : Storage} {a : FlatArena}
      (hmake : (make config).run s = .ok a s') : Made a
  | overRegion {r : Region} (hr : r.Made) : Made (ofRegion r)

/-- The handle names aligned bytes of the region, as many as were asked for. -/
structure Placed (r : Region) (request : Request) (h : Handle) : Prop where
  dvd : grain.bytes ∣ h.offset.toNat
  le : h.offset.toNat + request.layout.size * request.count ≤ r.capacity
  resolves : r.resolveSlice h request.layout request.count = some h.offset.toNat

/-- What can be asked of a flat arena. -/
inductive Call where
  /-- Room for elements of an alignment that every grant has. -/
  | allocate (request : Request) (halign : request.layout.align.bytes ≤ grain.bytes)
  | allocateBytes (length : Nat)
  | reset

/-- The size that a request takes up. -/
def sizeOf (request : Request) : Nat := request.rounded grain

end FlatArena

/-! ## The greedy allocator -/

/-- **The greedy allocator**, with the answers that it gave. -/
structure GreedyBump where
  /-- The number of bytes to hand out. -/
  capacity : Nat
  /-- The sizes that were granted since the last reset, newest first. -/
  sizes : List Nat := []
  /-- Whether a request was refused for lack of room since the last reset. -/
  refused : Bool := false
  /-- Where each request was granted, if it was, newest first. -/
  answers : List (Option Nat) := []
  deriving DecidableEq, Repr

namespace GreedyBump

/-- Grants a size behind all sizes before it, if that fits and none was refused. -/
def grant (g : GreedyBump) (size : Nat) : GreedyBump :=
  if Word.limit ≤ size then { g with answers := none :: g.answers }
  else if g.refused = false ∧ g.sizes.sum + size ≤ g.capacity then
    { g with sizes := size :: g.sizes, answers := some g.sizes.sum :: g.answers }
  else { g with refused := true, answers := none :: g.answers }

/-- What a call changes. -/
def perform (g : GreedyBump) : FlatArena.Call → GreedyBump
  | .allocate request _ => g.grant (FlatArena.sizeOf request)
  | .allocateBytes length => g.grant (FlatArena.sizeOf (.ofBytes length))
  | .reset => { g with sizes := [], refused := false }

/-- What a row of calls changes. -/
def run (g : GreedyBump) (calls : List FlatArena.Call) : GreedyBump := calls.foldl perform g

end GreedyBump

/-! ## Arenas with their answers -/

/-- The offset that a handle names, unless the handle is null. -/
def Handle.place? (h : Handle) : Option Nat := h.toOption.map (·.offset.toNat)

/-- A flat arena, with the requests that it answered and the handles that it answered with, newest
first. -/
structure FlatArena.Session where
  arena : FlatArena
  /-- The answers since the last reset. -/
  current : List (Request × Handle) := []
  /-- The answers from before it. -/
  earlier : List (Request × Handle) := []
  deriving DecidableEq, Repr

namespace FlatArena.Session

/-- All answers. -/
def answers (s : Session) : List (Request × Handle) := s.current ++ s.earlier

/-- The bytes that were granted since the last reset. -/
def granted (s : Session) : List Span := s.current.flatMap fun (request, h) => request.granted h

/-- Has a request answered. -/
def serve (s : Session) (request : Request) : Checked Session := do
  let (h, arena) ← s.arena.allocate request
  return { s with arena, current := (request, h) :: s.current }

/-- What a call changes. -/
def perform (s : Session) : Call → Checked Session
  | .allocate request _ => s.serve request
  | .allocateBytes length => s.serve (.ofBytes length)
  | .reset => .ok { arena := s.arena.reset, current := [], earlier := s.answers }

/-- What a row of calls changes. -/
def run (s : Session) : List Call → Checked Session
  | [] => .ok s
  | call :: calls => do (← s.perform call).run calls

/-- **The answers are those of the greedy allocator**, and so is what the arena says of itself. -/
structure Agrees (s : Session) (g : GreedyBump) : Prop where
  places_eq : (s.answers.map fun (_, h) => h.place?) = g.answers
  isExhausted_eq : s.arena.isExhausted = g.refused

/-- **What was granted is safe.**  Grants overlap nowhere until the next reset.  Each is aligned and
lies in the region, and its handle resolves, also after resets. -/
structure Safe (s : Session) : Prop where
  disjoint : s.granted.Pairwise Span.Disjoint
  answered : ∀ request h, (request, h) ∈ s.answers → h = .null ∨ Placed s.arena.region request h

end FlatArena.Session

/-! ## The two together -/

namespace FlatArena

variable {a : FlatArena} {g : GreedyBump} {request : Request}

lemma roundedSize?_eq (request : Request) :
    request.roundedSize? grain =
      if sizeOf request < Word.limit then some (sizeOf request) else none :=
  Request.roundedSize?_eq (by decide)

/-- A request that is no word changes nothing. -/
lemma allocate_of_limit_le (a : FlatArena) (hsize : Word.limit ≤ sizeOf request) :
    a.allocate request = .ok (.null, a) := by
  rw [allocate, roundedSize?_eq, if_neg (Nat.not_lt.2 hsize)]

/-- **The arena stands for the greedy allocator.**  Its counter is at the sum of the sizes, or past
the capacity once a request was refused. -/
structure Follows (a : FlatArena) (g : GreedyBump) : Prop where
  sound : a.Sound
  capacity_eq : g.capacity = a.counter.capacity
  sum_dvd : grain.bytes ∣ g.sizes.sum
  sum_le : g.sizes.sum ≤ g.capacity
  position_eq : g.refused = false → a.counter.position = g.sizes.sum
  past : g.refused = true → a.counter.capacity < a.counter.position

namespace Follows

lemma isExhausted_eq (h : a.Follows g) : a.isExhausted = g.refused := by
  have hle := h.sum_le
  have hcapacity := h.capacity_eq
  cases hrefused : g.refused with
  | false =>
    have hposition := h.position_eq hrefused
    exact decide_eq_false (by omega)
  | true => exact decide_eq_true (h.past hrefused)

/-- The counter has room exactly when the greedy allocator has. -/
lemma room_iff (h : a.Follows g) (size : Nat) :
    a.counter.position + size ≤ a.counter.capacity ↔
      g.refused = false ∧ g.sizes.sum + size ≤ g.capacity := by
  have hcapacity := h.capacity_eq
  cases hrefused : g.refused with
  | false =>
    have hposition := h.position_eq hrefused
    simp only [true_and]
    omega
  | true =>
    have hpast := h.past hrefused
    simp only [Bool.true_eq_false, false_and, iff_false]
    omega

lemma answers (h : a.Follows g) (answers : List (Option Nat)) : a.Follows { g with answers } :=
  ⟨h.sound, h.capacity_eq, h.sum_dvd, h.sum_le, h.position_eq, h.past⟩

/-- A size is granted. -/
lemma grow (h : a.Follows g) {size : Nat} (hdvd : grain.bytes ∣ size) (hopen : g.refused = false)
    (hroom : g.sizes.sum + size ≤ g.capacity) :
    Follows { a with counter.position := a.counter.position + size }
      { g with sizes := size :: g.sizes } where
  sound := ⟨h.sound.capacity_eq, h.sound.capacity_le⟩
  capacity_eq := h.capacity_eq
  sum_dvd := by
    rw [List.sum_cons]
    exact Nat.dvd_add hdvd h.sum_dvd
  sum_le := by
    rw [List.sum_cons, Nat.add_comm]
    exact hroom
  position_eq _ := by
    rw [List.sum_cons, Nat.add_comm, ← h.position_eq hopen]
  past hrefused := absurd (hopen.symm.trans hrefused) (by decide)

/-- A size is refused. -/
lemma stop (h : a.Follows g) {counter : Counter} (hcapacity : counter.capacity = a.counter.capacity)
    (hpast : counter.capacity < counter.position) :
    Follows { a with counter } { g with refused := true } where
  sound := ⟨hcapacity.trans h.sound.capacity_eq, h.sound.capacity_le⟩
  capacity_eq := h.capacity_eq.trans hcapacity.symm
  sum_dvd := h.sum_dvd
  sum_le := h.sum_le
  position_eq := nofun
  past _ := hpast

lemma reset (h : a.Follows g) : a.reset.Follows (g.perform .reset) where
  sound := ⟨h.sound.capacity_eq, h.sound.capacity_le⟩
  capacity_eq := h.capacity_eq
  sum_dvd := Nat.dvd_zero _
  sum_le := Nat.zero_le _
  position_eq _ := rfl
  past := nofun

lemma position_le (h : a.Follows g) {size : Nat}
    (hroom : a.counter.position + size ≤ a.counter.capacity) : a.counter.position ≤ maxCapacity := by
  have hcapacity := h.sound.capacity_eq
  have hle := h.sound.capacity_le
  omega

/-- What is granted at the counter resolves there. -/
lemma placed (h : a.Follows g) (halign : request.layout.align.bytes ≤ grain.bytes)
    (hword : sizeOf request < Word.limit)
    (hroom : a.counter.position + sizeOf request ≤ a.counter.capacity) :
    Placed a.region request (a.region.handleAt a.counter.position) := by
  have hcapacity := h.sound.capacity_eq
  have hsize : request.layout.size * request.count ≤ sizeOf request := request.le_rounded grain
  have hle : a.counter.position + request.layout.size * request.count ≤ a.region.capacity := by
    omega
  have hdvd : grain.bytes ∣ a.counter.position := by
    rw [h.position_eq ((h.room_iff _).1 hroom).1]
    exact h.sum_dvd
  have hoffset := (Region.toNat_handleAt (r := a.region) (h.position_le hroom)).2
  constructor
  · exact hoffset.symm ▸ hdvd
  · exact hoffset.symm ▸ hle
  · have hpage : request.layout.align.bytes ≤ page.bytes := Nat.le_trans halign (by decide)
    rw [hoffset]
    exact Region.resolveSlice_handleAt (h.position_le hroom) (Nat.lt_of_le_of_lt hsize hword) hle
      hpage (Nat.dvd_trans (Alignment.dvd_of_le halign) hdvd)

/-- **A request is answered alike by both**, and the arena stands for the greedy allocator after it
too. -/
lemma allocate (h : a.Follows g) (halign : request.layout.align.bytes ≤ grain.bytes) :
    ∃ handle b, a.allocate request = .ok (handle, b) ∧ b.Follows (g.grant (sizeOf request)) ∧
      (g.grant (sizeOf request)).answers = handle.place? :: g.answers ∧
      (handle = .null ∨ Placed a.region request handle) := by
  by_cases hword : sizeOf request < Word.limit
  · rw [GreedyBump.grant, if_neg (Nat.not_le.2 hword)]
    rcases outcomes h.sound request with ⟨hnone, -⟩ | ⟨size, hsome, hcases⟩
    · rw [roundedSize?_eq, if_pos hword] at hnone
      exact absurd hnone (by simp)
    obtain rfl : sizeOf request = size := by
      rw [roundedSize?_eq, if_pos hword] at hsome
      exact Option.some.inj hsome
    rcases hcases with ⟨hroom, hok⟩ | ⟨hfull, counter, hok, hcapacity, hpast⟩
    · obtain ⟨hopen, hfits⟩ := (h.room_iff _).1 hroom
      obtain ⟨hnull, hoffset⟩ := Region.toNat_handleAt (r := a.region) (h.position_le hroom)
      rw [if_pos ⟨hopen, hfits⟩]
      refine ⟨_, _, hok, (h.grow (grain.dvd_ceil _) hopen hfits).answers _, ?_,
        .inr (h.placed halign hword hroom)⟩
      rw [Handle.place?, Handle.toOption, hnull, ← h.position_eq hopen]
      exact congrArg (some · :: g.answers) hoffset.symm
    · -- The counter is past the capacity now, where no size has room any more.
      rw [if_neg (mt (h.room_iff _).2 (Nat.not_le.2 hfull))]
      exact ⟨_, _, hok, (h.stop hcapacity hpast).answers _, rfl, .inl rfl⟩
  · have hsize := Nat.not_lt.1 hword
    rw [GreedyBump.grant, if_pos hsize]
    exact ⟨_, _, a.allocate_of_limit_le hsize, h.answers _, rfl, .inl rfl⟩

end Follows

lemma follows_ofRegion {r : Region} (hr : r.Made) :
    (ofRegion r).Follows { capacity := r.capacity } :=
  ⟨sound_ofRegion hr, rfl, Nat.dvd_zero _, Nat.zero_le _, fun _ => rfl, nofun⟩

lemma Made.follows (h : a.Made) : a.Follows { capacity := a.region.capacity } := by
  cases h with
  | made hmake =>
    obtain ⟨r, hr, rfl⟩ := exists_ofRegion_of_make hmake
    exact follows_ofRegion hr
  | overRegion hr => exact follows_ofRegion hr

/-! ## Runs -/

namespace Session

variable {s : Session}

/-- What every call keeps. -/
structure Tracks (s : Session) (g : GreedyBump) : Prop where
  follows : s.arena.Follows g
  places_eq : (s.answers.map fun (_, h) => h.place?) = g.answers
  packed : Span.Packed s.granted s.arena.counter.used
  answered : ∀ request h, (request, h) ∈ s.answers → h = .null ∨ Placed s.arena.region request h

lemma Tracks.serve (h : s.Tracks g) (halign : request.layout.align.bytes ≤ grain.bytes) :
    ∃ t, s.serve request = .ok t ∧ t.arena.region = s.arena.region ∧
      t.Tracks (g.grant (sizeOf request)) := by
  obtain ⟨handle, b, hok, hfollows, hanswers, hanswered⟩ := h.follows.allocate halign
  obtain ⟨hregion, -, hpacked, -⟩ := packed_of_allocate h.follows.sound h.packed hok
  refine ⟨⟨b, (request, handle) :: s.current, s.earlier⟩, ?_, hregion, hfollows, ?_, hpacked, ?_⟩
  · simp only [Session.serve, hok, bind, Except.bind, pure, Except.pure]
  · rw [hanswers, ← h.places_eq]
    rfl
  · intro request' handle' hmem
    rw [hregion]
    rcases List.mem_cons.1 hmem with heq | hmem
    · obtain ⟨rfl, rfl⟩ := Prod.mk.inj heq
      exact hanswered
    · exact h.answered request' handle' hmem

/-- **Every call is answered alike**, and keeps what was answered before. -/
theorem Tracks.perform (h : s.Tracks g) (call : Call) :
    ∃ t, s.perform call = .ok t ∧ t.arena.region = s.arena.region ∧
      t.Tracks (g.perform call) := by
  cases call with
  | allocate request halign => exact h.serve halign
  | allocateBytes length =>
    have halign : (Request.ofBytes length).layout.align.bytes ≤ grain.bytes := show 1 ≤ 16 by decide
    exact h.serve halign
  | reset => exact ⟨_, rfl, rfl, h.follows.reset, h.places_eq, .nil, h.answered⟩

theorem Tracks.run (h : s.Tracks g) (calls : List Call) :
    ∃ t, s.run calls = .ok t ∧ t.arena.region = s.arena.region ∧ t.Tracks (g.run calls) := by
  induction calls generalizing s g with
  | nil => exact ⟨s, rfl, rfl, h⟩
  | cons call calls ih =>
    obtain ⟨t, hperform, hregion, ht⟩ := h.perform call
    obtain ⟨u, hrun, hregion', hu⟩ := ih ht
    exact ⟨u, bind_eq_ok_iff.2 ⟨t, hperform, hrun⟩, hregion'.trans hregion, hu⟩

end Session

/-- **A flat arena is the greedy allocator**, whatever is asked of it.  Every run has the answers of
the greedy allocator, what it grants is safe, and a request whose rounded size is no word still
changes nothing. -/
theorem run_agrees (hmade : a.Made) (calls : List Call) :
    ∃ t, Session.run { arena := a } calls = .ok t ∧ t.arena.region = a.region ∧
      t.Agrees (GreedyBump.run { capacity := a.region.capacity } calls) ∧ t.Safe ∧
      ∀ request : Request, Word.limit ≤ sizeOf request →
        t.arena.allocate request = .ok (.null, t.arena) := by
  have hstart : Session.Tracks { arena := a } { capacity := a.region.capacity } :=
    ⟨hmade.follows, rfl, .nil, nofun⟩
  obtain ⟨t, hrun, hregion, ht⟩ := hstart.run calls
  exact ⟨t, hrun, hregion, ⟨ht.places_eq, ht.follows.isExhausted_eq⟩,
    ⟨ht.packed.disjoint, ht.answered⟩, fun _ => t.arena.allocate_of_limit_le⟩

/-- The second request is no word, and the one for 100 bytes does not fit; nothing is granted after
it until the reset. -/
def untilFull : List Call :=
  [.allocate ⟨⟨20, .byte, by decide, by decide⟩, 2, by decide⟩ (by decide),
    .allocate ⟨⟨16, grain, by decide, by decide⟩, Word.limit / 16, by decide⟩ (by decide),
    .allocateBytes 4000, .allocateBytes 100, .allocateBytes 1, .reset, .allocateBytes 0]

theorem run_agrees_untilFull : ∃ a s' t, (make ⟨4096, 64, 128⟩).run default = .ok a s' ∧
    Session.run { arena := a } untilFull = .ok t ∧ t.Safe ∧ t.arena.isExhausted = false ∧
    (t.answers.map fun (_, h) => h.place?) = [some 0, none, none, some 48, none, some 0] := by
  obtain ⟨a, s', hmake, hrefused, hanswers⟩ : ∃ a s', (make ⟨4096, 64, 128⟩).run default = .ok a s' ∧
      (GreedyBump.run { capacity := a.region.capacity } untilFull).refused = false ∧
      (GreedyBump.run { capacity := a.region.capacity } untilFull).answers =
        [some 0, none, none, some 48, none, some 0] :=
    ⟨_, _, rfl, by decide +kernel, by decide +kernel⟩
  obtain ⟨t, hrun, -, hagrees, hsafe, -⟩ := run_agrees (.made hmake) untilFull
  exact ⟨a, s', t, hmake, hrun, hsafe, hagrees.isExhausted_eq.trans hrefused,
    hagrees.places_eq.trans hanswers⟩

end FlatArena

end BumpArena
