import BumpArena.Arena.Flat
import BumpArena.Proofs.Arena.Starting
import BumpArena.Proofs.Arena.Translation

/-!
# Requests are always answered

Whether a request is granted or refused, an arena has an answer to it.  What could go wrong is a sum
that is no word.  A flat arena only adds offsets, which its capacity bounds
(`FlatArena.allocate_cases`).  A chunked arena counts the claims for a chunk as well, and each of
them takes at least a byte: so the count and the bytes that are left do not grow together
(`ChunkedArena.budget`), and as long as their sum is a word, so is every count to come
(`ChunkedArena.exists_allocate`).
-/

namespace BumpArena

/-! ## Claims -/

/-- The bytes that are left. -/
def Counter.left (c : Counter) : Nat := c.capacity - c.used

/-- **A claim is always answered**, and no bytes are taken back. -/
lemma Counter.claim_cases {c : Counter} (hlimit : 2 * c.capacity + 1 < Word.limit) (size : Nat) :
    (∃ c', c.claim size = .ok (none, c') ∧ c'.capacity = c.capacity ∧ c.used ≤ c'.used) ∨
      (c.position + size ≤ c.capacity ∧
        c.claim size = .ok (some c.position, { c with position := c.position + size })) := by
  rw [claim_eq c size hlimit]
  by_cases hpast : c.capacity < c.position
  · exact .inl ⟨c, by rw [if_pos hpast], rfl, Nat.le_refl _⟩
  by_cases hroom : c.position + size ≤ c.capacity
  · exact .inr ⟨hroom, by rw [if_neg hpast, if_pos hroom]⟩
  · refine .inl ⟨{ c with position := c.position + min size (c.capacity + 1) }, ?_, rfl, ?_⟩
    · rw [if_neg hpast, if_neg hroom]
    · simp only [used]
      omega

/-! ## Flat arenas -/

namespace FlatArena

/-- What every flat arena has from the start and keeps. -/
structure Sound (a : FlatArena) : Prop where
  capacity_eq : a.counter.capacity = a.region.capacity
  capacity_le : a.region.capacity ≤ maxCapacity

variable {a : FlatArena}

/-- **How a flat arena serves a request.**  One whose rounded size is no word changes nothing.  Any
other one is granted the bytes at the counter, if they are left, and leaves the counter past its
capacity if they are not. -/
lemma outcomes (hsound : a.Sound) (request : Request) :
    (request.roundedSize? grain = none ∧ a.allocate request = .ok (.null, a)) ∨
      ∃ size, request.roundedSize? grain = some size ∧
        ((a.counter.position + size ≤ a.counter.capacity ∧
            a.allocate request = .ok (a.region.handleAt a.counter.position,
              { a with counter.position := a.counter.position + size })) ∨
          (a.counter.capacity < a.counter.position + size ∧
            ∃ counter : Counter, a.allocate request = .ok (.null, { a with counter }) ∧
              counter.capacity = a.counter.capacity ∧ counter.capacity < counter.position)) := by
  have hlimit : 2 * a.counter.capacity + 1 < Word.limit := by
    rw [hsound.capacity_eq]
    exact two_mul_lt_of_le_maxCapacity hsound.capacity_le
  rw [allocate]
  cases hsize : request.roundedSize? grain with
  | none => exact .inl ⟨rfl, rfl⟩
  | some size =>
    refine .inr ⟨size, rfl, ?_⟩
    have hclaim := Counter.claim_eq a.counter size hlimit
    by_cases hroom : a.counter.position + size ≤ a.counter.capacity
    · rw [if_neg (by omega), if_pos hroom] at hclaim
      refine .inl ⟨hroom, ?_⟩
      simp only [hclaim, bind, Except.bind, pure, Except.pure]
    · rw [if_neg hroom, ← apply_ite (Prod.mk none)] at hclaim
      refine .inr ⟨Nat.not_le.1 hroom, _, ?_, Counter.of_claim_none hlimit hclaim⟩
      simp only [hclaim, bind, Except.bind, pure, Except.pure]

/-- A request is refused, or granted the bytes at the counter. -/
lemma allocate_cases (hsound : a.Sound) (request : Request) :
    (∃ counter : Counter, a.allocate request = .ok (.null, { a with counter }) ∧
        counter.capacity = a.counter.capacity ∧ a.counter.used ≤ counter.used) ∨
      ∃ size, request.roundedSize? grain = some size ∧
        a.counter.position + size ≤ a.counter.capacity ∧
        a.allocate request = .ok (a.region.handleAt a.counter.position,
          { a with counter.position := a.counter.position + size }) := by
  rcases outcomes hsound request with
    ⟨-, hok⟩ | ⟨size, hsize, ⟨hroom, hok⟩ | ⟨-, counter, hok, hcapacity, hpast⟩⟩
  · exact .inl ⟨a.counter, hok, rfl, Nat.le_refl _⟩
  · exact .inr ⟨size, hsize, hroom, hok⟩
  · refine .inl ⟨counter, hok, hcapacity, ?_⟩
    simp only [Counter.used]
    omega

end FlatArena

/-! ## Chunked arenas -/

namespace ChunkedArena

variable {a : ChunkedArena} {c : LocalChunk}

lemma chunkSize_pos (hchunks : a.HasChunks) (size : Nat) : 0 < a.chunkSize size := by
  have hpos := hchunks.pos
  have hle := hchunks.le
  have hwanted : a.minChunk ≤ a.wantedChunk size := Nat.le_max_right ..
  rw [chunkSize]
  cases hround : roundUp (a.wantedChunk size) cacheLine with
  | none => exact Nat.lt_of_lt_of_le hpos hle
  | some length =>
    have hlength := le_of_roundUp hround
    show 0 < length
    omega

/-- The most claims that a chunk can come to, when each takes at least a byte. -/
def budget (a : ChunkedArena) (c : LocalChunk) : Nat := c.claims + a.counter.left

/-- What a claim adds to the count, it takes from the bytes that are left. -/
lemma budget_advance {d : LocalChunk} {length : Nat} (hpos : 0 < length) (hroom : a.HasRoom length)
    (hclaims : d.claims = c.claims + 1) : (a.advance length).budget d ≤ a.budget c := by
  have hle := hroom.le
  simp only [budget, hclaims, advance, Counter.left, Counter.used]
  omega

lemma budget_le {counter : Counter} (hcapacity : counter.capacity = a.counter.capacity)
    (hused : a.counter.used ≤ counter.used) : budget { a with counter } c ≤ a.budget c := by
  simp only [budget, Counter.left]
  omega

/-- Bytes that come from the chunk are not counted. -/
lemma budget_of_bump {d : LocalChunk} {size start : Nat} {align : Alignment}
    (hbump : c.bump size align = some (start, d)) : a.budget d = a.budget c := by
  obtain ⟨-, -, rfl⟩ := LocalChunk.bump_eq_some_iff.1 hbump
  rfl

lemma exists_claimDirect (hsound : a.Sound) (hbudget : a.budget c < Word.limit) {size : Nat}
    (hpos : 0 < size) :
    ∃ h d a', a.claimDirect c size = .ok (h, d, a') ∧ a'.budget d ≤ a.budget c := by
  rw [claimDirect]
  cases hround : roundUp size cacheLine with
  | none => exact ⟨_, _, _, rfl, Nat.le_refl _⟩
  | some length =>
    have hlength := le_of_roundUp hround
    rcases Counter.claim_cases hsound.limit length with
      ⟨counter, hclaim, hcapacity, hused⟩ | ⟨hle, hclaim⟩
    · simp only [hclaim, bind, Except.bind, pure, Except.pure]
      exact ⟨_, _, _, rfl, budget_le hcapacity hused⟩
    · have hroom : a.HasRoom length := ⟨dvd_of_roundUp hround, hle⟩
      have hpos : 0 < length := Nat.lt_of_lt_of_le hpos hlength
      have hbudget' : (a.advance length).budget { c with claims := c.claims + 1 } ≤ a.budget c :=
        budget_advance hpos hroom rfl
      have hadd : Word.add c.claims 1 = .ok (c.claims + 1) :=
        Word.add_eq_ok (Nat.lt_of_le_of_lt (Nat.le_trans (Nat.le_add_right ..) hbudget') hbudget)
      simp only [hclaim, hadd, bind, Except.bind, pure, Except.pure]
      exact ⟨_, _, _, rfl, hbudget'⟩

lemma exists_refill (hsound : a.Sound) (hchunks : a.HasChunks) (hbudget : a.budget c < Word.limit)
    (size : Nat) :
    (∃ a', a.refill c size = .ok (none, a') ∧ a'.budget c ≤ a.budget c) ∨
      ∃ e a', a.refill c size = .ok (some e, a') ∧ a'.budget e ≤ a.budget c := by
  rw [refill]
  rcases Counter.claim_cases hsound.limit (a.chunkSize size) with
    ⟨counter, hclaim, hcapacity, hused⟩ | ⟨hle, hclaim⟩
  · simp only [hclaim, bind, Except.bind, pure, Except.pure]
    exact .inl ⟨_, rfl, budget_le hcapacity hused⟩
  · have hroom : a.HasRoom (a.chunkSize size) := ⟨dvd_chunkSize hsound size, hle⟩
    have hbudget' : (a.advance (a.chunkSize size)).budget
        (a.freshChunk (a.chunkSize size) (c.claims + 1)) ≤ a.budget c :=
      budget_advance (chunkSize_pos hchunks size) hroom rfl
    have hadd : Word.add c.claims 1 = .ok (c.claims + 1) :=
      Word.add_eq_ok (Nat.lt_of_le_of_lt (Nat.le_trans (Nat.le_add_right ..) hbudget') hbudget)
    have hstop : Word.add a.counter.position (a.chunkSize size) =
        .ok (a.counter.position + a.chunkSize size) :=
      Word.add_eq_ok (Nat.lt_of_le_of_lt (hroom.stop_le hsound) (by decide))
    simp only [hclaim, hadd, hstop, bind, Except.bind, pure, Except.pure]
    exact .inr ⟨_, _, rfl, hbudget'⟩

/-- **A request is always answered**, as long as a word can count a claim for every byte that is
left. -/
lemma exists_allocate (hsound : a.Sound) (hchunks : a.HasChunks) (hbudget : a.budget c < Word.limit)
    (request : Request) :
    ∃ h d a', a.allocate c request = .ok (h, d, a') ∧ a'.budget d ≤ a.budget c := by
  have hkeep : a.budget (a.keep c) = a.budget c := by simp only [budget, claims_keep]
  rw [allocate]
  cases hsize : request.roundedSize? request.layout.align with
  | none => exact ⟨_, _, _, rfl, Nat.le_refl _⟩
  | some size =>
    dsimp only
    split
    · next hlarge => exact exists_claimDirect hsound hbudget (by omega)
    · rw [allocateLocal, ← keep]
      cases hbump : (a.keep c).bump size request.layout.align with
      | some taken =>
        obtain ⟨start, d⟩ := taken
        exact ⟨_, _, _, rfl, Nat.le_of_eq ((budget_of_bump hbump).trans hkeep)⟩
      | none =>
        rw [← hkeep] at hbudget ⊢
        rcases exists_refill hsound hchunks hbudget size with
          ⟨a', hrefill, hle⟩ | ⟨e, a', hrefill, hle⟩
        · simp only [hrefill, bind, Except.bind, pure, Except.pure]
          exact ⟨_, _, _, rfl, hle⟩
        · simp only [hrefill, bind, Except.bind, pure, Except.pure]
          cases hfresh : e.bump size request.layout.align with
          | none => exact ⟨_, _, _, rfl, hle⟩
          | some taken =>
            obtain ⟨start, d⟩ := taken
            refine ⟨_, _, _, rfl, ?_⟩
            rw [budget_of_bump hfresh]
            exact hle

end ChunkedArena

end BumpArena
