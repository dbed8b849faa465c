import BumpArena.Counter
import BumpArena.Proofs.Arena.Span
import Mathlib.Algebra.GroupWithZero.Nat

/-!
# Rows of claims

What a counter is to promise about the claims made on it since it was set up or reset: the ranges
that it grants overlap nowhere and lie in order below its capacity, and once it has refused a claim
it refuses every later one, and says so (`Counter.Safe`).

A refusal is remembered by the position alone, which then lies past the capacity.  But the position
is a word, and the step of a refused claim may be one byte more than the capacity.  Where the two
together are no word, the position comes round into range again: the counter has forgotten that it
refused, and goes on to grant what it granted before (`claimAll_granted_twice`).
`claimAll_safe_iff` says that a counter is safe except for this, and that one whose capacity is
below half the words is safe always.  The capacities of arenas are far below.
-/

namespace BumpArena.Counter

/-- Claims in turn: the answers to them, and the counter after the last. -/
def claimAll (c : Counter) : List Nat → Checked (List (Option Nat) × Counter)
  | [] => .ok ([], c)
  | size :: sizes => do
    let (answer, c) ← c.claim size
    let (answers, c) ← c.claimAll sizes
    return (answer :: answers, c)

/-- The ranges that were granted, when claims of the sizes got the answers. -/
def granted : List Nat → List (Option Nat) → List Span
  | size :: sizes, some start :: answers => ⟨start, start + size⟩ :: granted sizes answers
  | _ :: sizes, none :: answers => granted sizes answers
  | _, _ => []

/-- What a row of claims is to be like, by its answers and the counter after the last. -/
structure Safe (c : Counter) (sizes : List Nat) (answers : List (Option Nat)) (last : Counter) :
    Prop where
  length_eq : answers.length = sizes.length
  disjoint : (granted sizes answers).Pairwise Span.Disjoint
  ordered : (granted sizes answers).Pairwise fun x y => x.start ≤ y.start
  stop_le : ∀ x ∈ granted sizes answers, x.stop ≤ c.capacity
  refused : answers.Pairwise fun earlier later => earlier = none → later = none
  isExhausted_iff : last.isExhausted ↔ c.capacity < c.position ∨ none ∈ answers

/-- The first claim that does not fit takes the position past the largest word. -/
def Wraps (c : Counter) (sizes : List Nat) : Prop :=
  ∃ fitting size rest, sizes = fitting ++ size :: rest ∧
    c.position + fitting.sum ≤ c.capacity ∧
    Word.limit ≤ c.position + fitting.sum + min size (c.capacity + 1)

/-- The counter after claims that fit. -/
def advance (c : Counter) (size : Nat) : Counter := { c with position := c.position + size }

/-- The counter after a claim that does not fit. -/
def overrun (c : Counter) (size : Nat) : Counter :=
  { c with position := Word.wrappingAdd c.position (min size (c.capacity + 1)) }

section Claims

variable {c last middle : Counter} {size : Nat} {sizes more : List Nat} {answer : Option Nat}
  {answers further : List (Option Nat)}

@[simp] lemma capacity_advance : (c.advance size).capacity = c.capacity := rfl

@[simp] lemma position_advance : (c.advance size).position = c.position + size := rfl

@[simp] lemma capacity_overrun : (c.overrun size).capacity = c.capacity := rfl

lemma position_overrun :
    (c.overrun size).position = Word.wrappingAdd c.position (min size (c.capacity + 1)) := rfl

/-! ## One claim -/

lemma claim_of_past (hpast : c.capacity < c.position) (size : Nat) :
    c.claim size = .ok (none, c) := by
  simp [claim, isExhausted, hpast]

lemma claim_of_fits (hcapacity : c.capacity + 1 < Word.limit)
    (hfits : c.position + size ≤ c.capacity) :
    c.claim size = .ok (some c.position, c.advance size) := by
  have hpast : ¬ c.capacity < c.position := by omega
  have hmin : min size (c.capacity + 1) = size := by omega
  have hstep : Word.wrappingAdd c.position size = c.position + size :=
    Word.wrappingAdd_of_lt (by omega)
  simp [claim, isExhausted, hpast, hfits, Word.add_eq_ok hcapacity, hmin, hstep, advance, bind,
    Except.bind, pure, Except.pure]

lemma claim_of_not_fits (hcapacity : c.capacity + 1 < Word.limit)
    (hstart : c.position ≤ c.capacity) (hfits : ¬ c.position + size ≤ c.capacity) :
    c.claim size = .ok (none, c.overrun size) := by
  have hpast : ¬ c.capacity < c.position := Nat.not_lt.2 hstart
  have hstep : ¬ c.position + min size (c.capacity + 1) ≤ c.capacity := by omega
  simp [claim, isExhausted, hpast, hstep, Word.add_eq_ok hcapacity, overrun, bind, Except.bind,
    pure, Except.pure]

/-- A refused claim takes the position past the capacity. -/
lemma lt_position_overrun (hfits : ¬ c.position + size ≤ c.capacity)
    (hword : c.position + min size (c.capacity + 1) < Word.limit) :
    c.capacity < (c.overrun size).position := by
  rw [position_overrun, Word.wrappingAdd_of_lt hword]
  omega

/-- Where that is no word, it takes it back into range. -/
lemma position_overrun_le (hcapacity : c.capacity + 1 < Word.limit)
    (hstart : c.position ≤ c.capacity)
    (hwraps : Word.limit ≤ c.position + min size (c.capacity + 1)) :
    (c.overrun size).position ≤ c.capacity := by
  rw [position_overrun, Word.wrappingAdd, Nat.mod_eq_sub_mod hwraps, Nat.mod_eq_of_lt (by omega)]
  omega

/-! ## Rows -/

lemma claimAll_cons (hclaim : c.claim size = .ok (answer, middle))
    (hrest : middle.claimAll sizes = .ok (answers, last)) :
    c.claimAll (size :: sizes) = .ok (answer :: answers, last) := by
  simp only [claimAll, hclaim, hrest, bind, Except.bind]
  rfl

/-- Past its capacity a counter refuses every claim, and stays where it is. -/
lemma claimAll_of_past (hpast : c.capacity < c.position) (sizes : List Nat) :
    c.claimAll sizes = .ok (List.replicate sizes.length none, c) := by
  induction sizes with
  | nil => rfl
  | cons size sizes ih => exact claimAll_cons (claim_of_past hpast size) ih

/-- While everything fits, the position is the sum of the claims. -/
lemma exists_claimAll_append (hcapacity : c.capacity + 1 < Word.limit)
    (hfits : c.position + sizes.sum ≤ c.capacity)
    (hrest : (c.advance sizes.sum).claimAll more = .ok (further, last)) :
    ∃ answers, c.claimAll (sizes ++ more) = .ok (answers ++ further, last) := by
  induction sizes generalizing c with
  | nil => exact ⟨[], hrest⟩
  | cons size sizes ih =>
    have hadvance : c.advance (size :: sizes).sum = (c.advance size).advance sizes.sum := by
      simp only [advance, List.sum_cons, Nat.add_assoc]
    rw [hadvance] at hrest
    rw [List.sum_cons, ← Nat.add_assoc] at hfits
    obtain ⟨answers, hanswers⟩ := ih (c := c.advance size) hcapacity hfits hrest
    exact ⟨some c.position :: answers, claimAll_cons (claim_of_fits hcapacity (by omega)) hanswers⟩

lemma granted_replicate_none (sizes : List Nat) (count : Nat) :
    granted sizes (List.replicate count none) = [] := by
  induction sizes generalizing count with
  | nil => cases count <;> rfl
  | cons size sizes ih =>
    cases count with
    | zero => rfl
    | succ count => exact ih count

/-- **In any case** every claim is answered, and what is granted ends by the capacity. -/
lemma exists_claimAll (hcapacity : c.capacity + 1 < Word.limit) (sizes : List Nat) :
    ∃ answers last, c.claimAll sizes = .ok (answers, last) ∧ answers.length = sizes.length ∧
      ∀ x ∈ granted sizes answers, x.stop ≤ c.capacity := by
  induction sizes generalizing c with
  | nil => exact ⟨[], c, rfl, rfl, by simp [granted]⟩
  | cons size sizes ih =>
    by_cases hpast : c.capacity < c.position
    · refine ⟨_, c, claimAll_of_past hpast _, List.length_replicate, ?_⟩
      simp [granted_replicate_none]
    by_cases hfits : c.position + size ≤ c.capacity
    · obtain ⟨answers, last, hrest, hlength, hstop⟩ := ih (c := c.advance size) hcapacity
      exact ⟨_, last, claimAll_cons (claim_of_fits hcapacity hfits) hrest,
        congrArg (· + 1) hlength, List.forall_mem_cons.2 ⟨hfits, hstop⟩⟩
    · obtain ⟨answers, last, hrest, hlength, hstop⟩ := ih (c := c.overrun size) hcapacity
      exact ⟨_, last, claimAll_cons (claim_of_not_fits hcapacity (Nat.not_lt.1 hpast) hfits) hrest,
        congrArg (· + 1) hlength, hstop⟩

/-! ## Safety -/

lemma safe_of_past (hpast : c.capacity < c.position) (sizes : List Nat) :
    c.Safe sizes (List.replicate sizes.length none) c where
  length_eq := List.length_replicate
  disjoint := by simp [granted_replicate_none]
  ordered := by simp [granted_replicate_none]
  stop_le := by simp [granted_replicate_none]
  refused := List.pairwise_replicate.2 (.inr fun _ => rfl)
  isExhausted_iff := by simp [isExhausted, hpast]

/-- A row is safe that begins with a claim that fits, if the rest is safe and grants nothing below
the end of that claim. -/
lemma Safe.cons_of_fits (hfits : c.position + size ≤ c.capacity)
    (hrest : (c.advance size).Safe sizes answers last)
    (hbehind : ∀ x ∈ granted sizes answers, c.position + size ≤ x.start) :
    c.Safe (size :: sizes) (some c.position :: answers) last where
  length_eq := congrArg (· + 1) hrest.length_eq
  disjoint := List.pairwise_cons.2 ⟨fun x hx => .inl (hbehind x hx), hrest.disjoint⟩
  ordered := List.pairwise_cons.2
    ⟨fun x hx => Nat.le_trans (Nat.le_add_right ..) (hbehind x hx), hrest.ordered⟩
  stop_le := List.forall_mem_cons.2 ⟨hfits, hrest.stop_le⟩
  refused := List.pairwise_cons.2 ⟨by simp, hrest.refused⟩
  isExhausted_iff := by
    have hpast : ¬ c.capacity < c.position := by omega
    have hpast' : ¬ c.capacity < c.position + size := Nat.not_lt.2 hfits
    simpa [hpast, hpast'] using hrest.isExhausted_iff

/-- A row is safe that begins with a claim that is refused for good. -/
lemma safe_cons_of_overrun (hpast : c.capacity < (c.overrun size).position) (sizes : List Nat) :
    c.Safe (size :: sizes) (none :: List.replicate sizes.length none) (c.overrun size) where
  length_eq := by simp
  disjoint := by simp [granted, granted_replicate_none]
  ordered := by simp [granted, granted_replicate_none]
  stop_le := by simp [granted, granted_replicate_none]
  refused := List.pairwise_cons.2
    ⟨fun _ h _ => List.eq_of_mem_replicate h, List.pairwise_replicate.2 (.inr fun _ => rfl)⟩
  isExhausted_iff := by simp [isExhausted, hpast]

lemma Wraps.cons (h : (c.advance size).Wraps sizes) : c.Wraps (size :: sizes) := by
  obtain ⟨fitting, larger, rest, rfl, hfits, hwraps⟩ := h
  refine ⟨size :: fitting, larger, rest, rfl, ?_, ?_⟩
  · rwa [List.sum_cons, ← Nat.add_assoc]
  · rwa [List.sum_cons, ← Nat.add_assoc]

lemma Wraps.append (h : c.Wraps sizes) (more : List Nat) : c.Wraps (sizes ++ more) := by
  obtain ⟨fitting, size, rest, rfl, hfits, hwraps⟩ := h
  exact ⟨fitting, size, rest ++ more, by simp, hfits, hwraps⟩

/-- **A row of claims is safe when the position does not wrap,** and it grants nothing below the
position at which it begins. -/
lemma exists_safe (hcapacity : c.capacity + 1 < Word.limit) (hwraps : ¬ c.Wraps sizes) :
    ∃ answers last, c.claimAll sizes = .ok (answers, last) ∧ c.Safe sizes answers last ∧
      ∀ x ∈ granted sizes answers, c.position ≤ x.start := by
  induction sizes generalizing c with
  | nil =>
    refine ⟨[], c, rfl, ?_, by simp [granted]⟩
    exact ⟨rfl, .nil, .nil, by simp [granted], .nil, by simp [isExhausted]⟩
  | cons size sizes ih =>
    by_cases hpast : c.capacity < c.position
    · refine ⟨_, c, claimAll_of_past hpast _, safe_of_past hpast _, ?_⟩
      simp [granted_replicate_none]
    have hstart : c.position ≤ c.capacity := Nat.not_lt.1 hpast
    by_cases hfits : c.position + size ≤ c.capacity
    · obtain ⟨answers, last, hrest, hsafe, hbehind⟩ :=
        ih (c := c.advance size) hcapacity fun h => hwraps h.cons
      refine ⟨_, last, claimAll_cons (claim_of_fits hcapacity hfits) hrest,
        hsafe.cons_of_fits hfits hbehind, ?_⟩
      exact List.forall_mem_cons.2 ⟨Nat.le_refl _, fun x hx =>
        Nat.le_trans (Nat.le_add_right ..) (hbehind x hx)⟩
    · have hword : c.position + min size (c.capacity + 1) < Word.limit :=
        Nat.not_le.1 fun h => hwraps ⟨[], size, sizes, rfl, hstart, h⟩
      have hpast' : c.capacity < (c.overrun size).position := lt_position_overrun hfits hword
      refine ⟨_, _, claimAll_cons (claim_of_not_fits hcapacity hstart hfits)
        (claimAll_of_past hpast' sizes), safe_cons_of_overrun hpast' sizes, ?_⟩
      simp [granted, granted_replicate_none]

/-- A counter whose position wraps has just refused a claim, and does not know it. -/
lemma exists_not_safe (hcapacity : c.capacity + 1 < Word.limit) (hwraps : c.Wraps sizes) :
    ∃ made, made <+: sizes ∧ ∀ answers last, c.claimAll made = .ok (answers, last) →
      ¬ c.Safe made answers last := by
  obtain ⟨fitting, size, rest, rfl, hfits, hwraps⟩ := hwraps
  let full := c.advance fitting.sum
  have hclaim : full.claim size = .ok (none, full.overrun size) :=
    claim_of_not_fits hcapacity hfits (by dsimp only [full, advance]; omega)
  obtain ⟨answers, hmade⟩ := exists_claimAll_append hcapacity hfits
    (show full.claimAll [size] = .ok ([none], full.overrun size) from claimAll_cons hclaim rfl)
  refine ⟨fitting ++ [size], ⟨rest, by simp⟩, fun answers' last hanswers hsafe => ?_⟩
  obtain ⟨rfl, rfl⟩ := Prod.mk.inj (Except.ok.inj (hanswers.symm.trans hmade))
  have hexhausted := hsafe.isExhausted_iff.2 (.inr (by simp))
  exact absurd (of_decide_eq_true hexhausted)
    (Nat.not_lt.2 (position_overrun_le hcapacity hfits hwraps))

end Claims

/-- **When claims are safe.**  Every claim is answered, and what is granted ends by the capacity.
Everything else that a counter is to promise holds at every moment of a row of claims if and only if
the first claim that does not fit leaves the position a word.  With a capacity below half the words
it always does. -/
theorem claimAll_safe_iff (c : Counter) (sizes : List Nat)
    (hcapacity : c.capacity + 1 < Word.limit) :
    (∃ answers last, c.claimAll sizes = .ok (answers, last) ∧ answers.length = sizes.length ∧
        ∀ x ∈ granted sizes answers, x.stop ≤ c.capacity) ∧
      ((∀ made, made <+: sizes → ∃ answers last, c.claimAll made = .ok (answers, last) ∧
        c.Safe made answers last) ↔ ¬ c.Wraps sizes) ∧
      (2 * c.capacity + 1 < Word.limit → ¬ c.Wraps sizes) := by
  refine ⟨exists_claimAll hcapacity sizes, ⟨fun hsafe hwraps => ?_, ?_⟩, ?_⟩
  · obtain ⟨made, hmade, hnot⟩ := exists_not_safe hcapacity hwraps
    obtain ⟨answers, last, hanswers, hmade'⟩ := hsafe made hmade
    exact hnot answers last hanswers hmade'
  · rintro hwraps made ⟨rest, rfl⟩
    obtain ⟨answers, last, hanswers, hsafe, -⟩ :=
      exists_safe hcapacity fun h => hwraps (h.append rest)
    exact ⟨answers, last, hanswers, hsafe⟩
  · rintro hhalf ⟨fitting, size, rest, -, hfits, hwraps⟩
    omega

/-- The largest capacity with which no row of claims goes wrong, and a claim of the largest word. -/
theorem claimAll_safe_iff_half :
    2 ^ 63 - 1 + 1 < Word.limit ∧ ∃ answers last,
      claimAll ⟨2 ^ 63 - 1, 0⟩ [2 ^ 62, 2 ^ 64 - 1, 0] = .ok (answers, last) ∧
        Safe ⟨2 ^ 63 - 1, 0⟩ [2 ^ 62, 2 ^ 64 - 1, 0] answers last := by
  have hlimit : 2 ^ 63 - 1 + 1 < Word.limit := by decide
  have hdouble : 2 * (2 ^ 63 - 1) + 1 < Word.limit := by decide
  obtain ⟨-, hsafe, hhalf⟩ := claimAll_safe_iff ⟨2 ^ 63 - 1, 0⟩ [2 ^ 62, 2 ^ 64 - 1, 0] hlimit
  exact ⟨hlimit, hsafe.2 (hhalf hdouble) _ (List.prefix_refl _)⟩

/-- **A counter that grants twice.**  With one byte more of capacity, a claim that is refused takes
the position round to 1.  The counter is not exhausted, and what it grants next it has granted
before. -/
theorem claimAll_granted_twice :
    claimAll ⟨2 ^ 63, 0⟩ [2 ^ 63, 2 ^ 64 - 1] = .ok ([some 0, none], ⟨2 ^ 63, 1⟩) ∧
      isExhausted ⟨2 ^ 63, 1⟩ = false ∧
      claimAll ⟨2 ^ 63, 0⟩ [2 ^ 63, 2 ^ 64 - 1, 64] =
        .ok ([some 0, none, some 1], ⟨2 ^ 63, 65⟩) ∧
      granted [2 ^ 63, 2 ^ 64 - 1, 64] [some 0, none, some 1] = [⟨0, 2 ^ 63⟩, ⟨1, 65⟩] ∧
      ¬ Span.Disjoint ⟨0, 2 ^ 63⟩ ⟨1, 65⟩ := by
  decide +kernel

end BumpArena.Counter
