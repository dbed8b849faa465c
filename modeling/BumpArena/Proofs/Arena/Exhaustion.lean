import BumpArena.Proofs.Arena.Interleaving
import BumpArena.Proofs.Arena.Outcome
import BumpArena.Proofs.Counter

/-!
# What an exhausted arena still grants

Once a claim was refused an arena is exhausted until it is reset, and refuses every claim without
moving its counter (`refill_of_isExhausted`, `claimDirect_of_isExhausted`).  A thread that has no
chunk of the arena's own must then be refused whatever it asks for, as it would have to claim.

That is so for elements that have bytes.  But a chunk that was let go of is empty from the base of
the region to the base of the region, and it is tried before a claim is made: a request for elements
without bytes fits it, and is granted there (`exists_granted_of_isExhausted`).
`refusesBytes_of_isExhausted` says that this is the only exception, in every row of requests from
then on.
-/

namespace BumpArena

/-- A request takes up nothing exactly when its elements have no bytes. -/
lemma Request.extent_eq_zero_iff {request : Request} :
    request.extent = 0 ↔ request.layout.size = 0 := by
  constructor
  · intro hextent
    have hle : request.layout.size * request.count ≤ request.extent := request.le_rounded _
    have hzero : request.layout.size * request.count = 0 := by omega
    exact (Nat.mul_eq_zero.1 hzero).resolve_right (Nat.pos_iff_ne_zero.1 request.count_pos)
  · intro hsize
    rw [extent, rounded, hsize, Nat.zero_mul]
    exact Alignment.ceil_of_dvd (Nat.dvd_zero _)

namespace LocalChunk

variable {c : LocalChunk} {request : Request}

/-- A chunk that was let go of has room for a request for nothing, and for no other one. -/
lemma bump_release (halign : request.layout.align.bytes ≤ cacheLine.bytes) :
    c.release.bump request.extent request.layout.align =
      if request.layout.size = 0 then some (0, c.release) else none := by
  have hceil : request.layout.align.ceil c.release.cursor = 0 :=
    Alignment.ceil_of_dvd (Nat.dvd_zero _)
  have hfits : c.release.Fits request ↔ request.layout.size = 0 := by
    rw [Fits, hceil, Nat.zero_add, ← Request.extent_eq_zero_iff]
    exact Nat.le_zero
  rw [bump_eq (Nat.zero_le _) halign]
  by_cases hsize : request.layout.size = 0
  · have hserve : c.release.serve request = c.release := by
      rw [serve, hceil, Request.extent_eq_zero_iff.2 hsize]
      rfl
    rw [if_pos (hfits.2 hsize), if_pos hsize, hceil, hserve]
  · rw [if_neg fun h => hsize (hfits.1 h), if_neg hsize]

end LocalChunk

namespace ChunkedArena

variable {a : ChunkedArena} {c : LocalChunk} {request : Request}

/-! ## One request -/

lemma owns_release (hsound : a.Sound) : a.owns c.release = false := by
  have hne : RegionId.unassigned ≠ a.region.id := Ne.symm hsound.id_ne
  simp [owns, LocalChunk.release, hne]

lemma claim_of_isExhausted (hexhausted : a.isExhausted = true) (length : Nat) :
    a.counter.claim length = .ok (none, a.counter) :=
  Counter.claim_of_past (of_decide_eq_true hexhausted) length

lemma refill_of_isExhausted (hexhausted : a.isExhausted = true) (size : Nat) :
    a.refill c size = .ok (none, a) := by
  rw [refill, claim_of_isExhausted hexhausted]
  rfl

lemma claimDirect_of_isExhausted (hexhausted : a.isExhausted = true) (size : Nat) :
    a.claimDirect c size = .ok (.null, c, a) := by
  rw [claimDirect]
  cases roundUp size cacheLine with
  | none => rfl
  | some length =>
    simp only [claim_of_isExhausted hexhausted]
    rfl

/-- A request that fits a chunk is granted from the one that is kept, or not at all. -/
lemma allocateLocal_of_isExhausted (hexhausted : a.isExhausted = true) (size : Nat)
    (align : Alignment) :
    a.allocateLocal c size align = .ok (((a.keep c).bump size align).elim (.null, a.keep c, a)
      fun taken => (a.region.handleAt taken.1, taken.2, a)) := by
  rw [allocateLocal, ← keep]
  cases (a.keep c).bump size align with
  | some taken => rfl
  | none =>
    rw [refill_of_isExhausted hexhausted]
    rfl

/-- **A request to an exhausted arena** is answered, and changes nothing in the arena. -/
lemma exists_allocate_of_isExhausted (hexhausted : a.isExhausted = true) (c : LocalChunk)
    (request : Request) : ∃ h d, a.allocate c request = .ok (h, d, a) := by
  rw [allocate]
  cases request.roundedSize? request.layout.align with
  | none => exact ⟨_, _, rfl⟩
  | some size =>
    by_cases hlarge : a.maxChunk < size
    · simp only [if_pos hlarge, claimDirect_of_isExhausted hexhausted]
      exact ⟨_, _, rfl⟩
    · simp only [if_neg hlarge, allocateLocal_of_isExhausted hexhausted]
      cases (a.keep c).bump size request.layout.align <;> exact ⟨_, _, rfl⟩

/-- **What an exhausted arena answers** to whoever has no chunk of it: the null handle, unless the
elements that are asked for have no bytes.  Those it grants at the base of the region. -/
structure RefusesBytes (a : ChunkedArena) (request : Request) (h : Handle) : Prop where
  isNull_iff : h.isNull = true ↔ 0 < request.layout.size
  of_size_eq_zero : request.layout.size = 0 → h = a.region.handleAt 0

lemma refusesBytes_ite (a : ChunkedArena) (request : Request) :
    a.RefusesBytes request (if request.layout.size = 0 then a.region.handleAt 0 else .null) := by
  have hbase := (Region.toNat_handleAt (r := a.region) (Nat.zero_le maxCapacity)).1
  by_cases hsize : request.layout.size = 0
  · rw [if_pos hsize]
    exact ⟨by rw [hbase, hsize]; decide, fun _ => rfl⟩
  · rw [if_neg hsize]
    exact ⟨iff_of_true rfl (Nat.pos_of_ne_zero hsize), fun h => absurd h hsize⟩

/-- From a chunk that is not the arena's own, only nothing is granted.  The chunk does not become
the arena's own. -/
lemma exists_allocate_of_not_owns (hsound : a.Sound) (hexhausted : a.isExhausted = true)
    (howns : a.owns c = false) (halign : request.layout.align.bytes ≤ cacheLine.bytes) :
    ∃ h d, a.allocate c request = .ok (h, d, a) ∧ a.owns d = false ∧ a.RefusesBytes request h := by
  suffices hallocate : ∃ d, a.allocate c request =
      .ok (if request.layout.size = 0 then a.region.handleAt 0 else .null, d, a) ∧
        a.owns d = false by
    obtain ⟨d, hok, hd⟩ := hallocate
    exact ⟨_, d, hok, hd, a.refusesBytes_ite request⟩
  have hextent : request.rounded request.layout.align = request.extent := rfl
  have hsize (hpos : 0 < request.extent) : request.layout.size ≠ 0 :=
    fun hzero => Nat.pos_iff_ne_zero.1 hpos (Request.extent_eq_zero_iff.2 hzero)
  rw [allocate, Request.roundedSize?_eq halign, hextent]
  by_cases hword : request.extent < Word.limit
  · rw [if_pos hword]
    by_cases hlarge : a.maxChunk < request.extent
    · simp only [if_pos hlarge, claimDirect_of_isExhausted hexhausted,
        if_neg (hsize (Nat.zero_lt_of_lt hlarge))]
      exact ⟨c, rfl, howns⟩
    · simp only [if_neg hlarge, allocateLocal_of_isExhausted hexhausted, keep_of_not_owns howns,
        LocalChunk.bump_release halign]
      refine ⟨c.release, ?_, owns_release hsound⟩
      split <;> rfl
  · have hpos : 0 < request.extent := Nat.lt_of_lt_of_le (by decide) (Nat.not_lt.1 hword)
    rw [if_neg hword, if_neg (hsize hpos)]
    exact ⟨c, rfl, howns⟩

/-! ## Rows of requests -/

variable {κ : Type} [DecidableEq κ]

/-- **Exhausted until it is reset.**  Whatever is asked of an exhausted arena, from any chunks:
every request is answered and the arena stays as it is.  From a chunk that is not the arena's own,
or none, a request is refused if and only if its elements have bytes. -/
theorem refusesBytes_of_isExhausted (hreached : a.Reached) (hexhausted : a.isExhausted = true)
    (chunks : κ → LocalChunk) (calls : List (κ × Request))
    (halign : ∀ call ∈ calls, call.2.layout.align.bytes ≤ cacheLine.bytes) :
    ∃ handles ends, a.allocateAll chunks calls = .ok (handles, ends, a) ∧
      List.Forall₂ (fun call h => a.owns (chunks call.1) = false → a.RefusesBytes call.2 h)
        calls handles := by
  induction calls generalizing chunks with
  | nil => exact ⟨[], chunks, rfl, .nil⟩
  | cons call calls ih =>
    obtain ⟨k, request⟩ := call
    obtain ⟨hfirst, hlater⟩ := List.forall_mem_cons.1 halign
    obtain ⟨h, d, hallocate, hd⟩ : ∃ h d, a.allocate (chunks k) request = .ok (h, d, a) ∧
        (a.owns (chunks k) = false → a.owns d = false ∧ a.RefusesBytes request h) := by
      cases howns : a.owns (chunks k) with
      | true =>
        obtain ⟨h, d, hallocate⟩ := exists_allocate_of_isExhausted hexhausted (chunks k) request
        exact ⟨h, d, hallocate, by simp⟩
      | false =>
        obtain ⟨h, d, hallocate, hd⟩ :=
          exists_allocate_of_not_owns hreached.sound hexhausted howns hfirst
        exact ⟨h, d, hallocate, fun _ => hd⟩
    obtain ⟨handles, ends, hrest, hall⟩ := ih (Function.update chunks k d) hlater
    have hall' : List.Forall₂ (fun call h => a.owns (chunks call.1) = false →
        a.RefusesBytes call.2 h) calls handles := by
      refine hall.imp fun other g hg howns => hg ?_
      by_cases hk : other.1 = k
      · rw [hk, Function.update_self]
        exact (hd (hk ▸ howns)).1
      · rwa [Function.update_of_ne hk]
    exact ⟨h :: handles, ends,
      allocateAll_cons_eq_ok_iff.2 ⟨h, d, a, handles, hallocate, hrest, rfl⟩,
      .cons (fun howns => (hd howns).2) hall'⟩

/-- A request for three elements without bytes. -/
def emptyElements : Request := ⟨⟨0, .byte, by decide, by decide⟩, 3, by decide⟩

/-- Requests of two threads, in turns. -/
def lateRequests : List (Bool × Request) :=
  [(false, .ofBytes 8), (true, .ofBytes 24), (false, emptyElements), (true, .ofBytes 100),
    (false, .ofBytes 5000)]

/-- Of two threads at an exhausted arena, one has what is left of a chunk, and one has nothing. -/
theorem refusesBytes_of_isExhausted_twoThreads : ∃ a s' c b ends,
    (make ⟨4096, 64, 128⟩).run default = .ok a s' ∧
    a.allocate {} (.ofBytes 40) = .ok (a.region.handleAt 0, c, a.advance 128) ∧
    (a.advance 128).allocate {} (.ofBytes 5000) = .ok (.null, {}, b) ∧ b.isExhausted = true ∧
    b.owns c = true ∧ b.owns {} = false ∧
    b.allocateAll (fun hasChunk => if hasChunk then c else {}) lateRequests =
      .ok ([.null, b.region.handleAt 40, b.region.handleAt 0, .null, .null], ends, b) ∧
    b.RefusesBytes (.ofBytes 8) .null ∧ b.RefusesBytes emptyElements (b.region.handleAt 0) ∧
    b.RefusesBytes (.ofBytes 5000) .null := by
  obtain ⟨a, s', hmake, hfirst, hlarge, hexhausted, howns, howns', hhandles⟩ :
      ∃ a s', (make ⟨4096, 64, 128⟩).run default = .ok a s' ∧
        a.allocate {} (.ofBytes 40) =
          .ok (a.region.handleAt 0, { a.freshChunk 128 1 with cursor := 40 }, a.advance 128) ∧
        (a.advance 128).allocate {} (.ofBytes 5000) = .ok (.null, {}, a.advance 4225) ∧
        (a.advance 4225).isExhausted = true ∧
        (a.advance 4225).owns { a.freshChunk 128 1 with cursor := 40 } = true ∧
        (a.advance 4225).owns {} = false ∧
        ((a.advance 4225).allocateAll
          (fun hasChunk => if hasChunk then { a.freshChunk 128 1 with cursor := 40 } else {})
          lateRequests).toOption.map (·.1) =
            some [.null, a.region.handleAt 40, a.region.handleAt 0, .null, .null] :=
    ⟨_, _, rfl, by decide +kernel, by decide +kernel, by decide +kernel, by decide +kernel,
      by decide +kernel, by decide +kernel⟩
  have hreached : (a.advance 4225).Reached := ((Reached.made hmake).served hfirst).served hlarge
  obtain ⟨handles, ends, hok, hall⟩ := refusesBytes_of_isExhausted hreached hexhausted
    (fun hasChunk => if hasChunk then { a.freshChunk 128 1 with cursor := 40 } else {})
    lateRequests (by decide)
  rw [hok] at hhandles
  obtain rfl : handles = _ := Option.some.inj hhandles
  simp only [lateRequests, List.forall₂_cons] at hall
  obtain ⟨hsmall, -, hempty, -, hbig, -⟩ := hall
  exact ⟨a, s', _, _, ends, hmake, hfirst, hlarge, hexhausted, howns, howns', hok, hsmall howns',
    hempty howns', hbig howns'⟩

/-- **Not everything is refused.**  An arena is exhausted by a request for more than there is.  Then
elements without bytes are asked for, from a chunk that is none, and are granted. -/
theorem exists_granted_of_isExhausted : ∃ a s',
    (make ⟨4096, 64, 128⟩).run default = .ok a s' ∧
    a.allocate {} (.ofBytes 5000) = .ok (.null, {}, a.advance 4097) ∧
    (a.advance 4097).isExhausted = true ∧ (a.advance 4097).owns {} = false ∧
    (a.advance 4097).allocate {} emptyElements = .ok (a.region.handleAt 0, {}, a.advance 4097) ∧
    (a.region.handleAt 0).isNull = false :=
  ⟨_, _, rfl, by decide +kernel, by decide +kernel, by decide +kernel, by decide +kernel,
    by decide +kernel⟩

end ChunkedArena

end BumpArena
