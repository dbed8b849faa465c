import Mathlib.Data.List.Perm.Subperm

/-!
# Spans

A `Span` is a run of bytes of a region.  Whoever may use bytes has them as a span: a grant the ones
that were asked for, a chunk the ones that are left of it, and an arena the ones that it has not
handed out yet.  Bytes change hands in one way only, which `Packed.advance` describes: the spans of
one party, with a new one from behind all others, are cut into smaller ones.  What overlapped
nowhere before overlaps nowhere after.
-/

namespace BumpArena

/-- The bytes from one offset up to another, which is not among them. -/
structure Span where
  start : Nat
  stop : Nat
  deriving DecidableEq, Repr

namespace Span

/-- One span ends before the other starts. -/
def Disjoint (x y : Span) : Prop := x.stop ≤ y.start ∨ y.stop ≤ x.start

instance (x y : Span) : Decidable (x.Disjoint y) := inferInstanceAs (Decidable (_ ∨ _))

/-- One span is a part of the other. -/
def Within (x y : Span) : Prop := y.start ≤ x.start ∧ x.stop ≤ y.stop

theorem Disjoint.symm {x y : Span} (h : x.Disjoint y) : y.Disjoint x := Or.symm h

theorem Within.disjoint {x y z : Span} (hwithin : x.Within y) (h : y.Disjoint z) :
    x.Disjoint z := by
  obtain ⟨hstart, hstop⟩ := hwithin
  rcases h with h | h
  · exact .inl (Nat.le_trans hstop h)
  · exact .inr (Nat.le_trans h hstart)

/-- Spans that overlap nowhere and end by a limit. -/
structure Packed (spans : List Span) (limit : Nat) : Prop where
  disjoint : spans.Pairwise Disjoint
  stop_le : ∀ x ∈ spans, x.stop ≤ limit

/-- Spans that overlap nowhere, and that are parts of others unless they are empty at the base. -/
structure Parts (parts wholes : List Span) : Prop where
  disjoint : parts.Pairwise Disjoint
  within : ∀ x ∈ parts, x.stop = 0 ∨ ∃ y ∈ wholes, x.Within y

theorem Within.refl (x : Span) : x.Within x := ⟨Nat.le_refl _, Nat.le_refl _⟩

variable {spans fewer parts wholes rest : List Span} {limit further : Nat}

lemma Parts.nil : Parts [] wholes where
  disjoint := .nil
  within := by simp

lemma Parts.cons {x y : Span} (h : Parts parts wholes) (hy : y ∈ wholes) (hwithin : x.Within y)
    (hdisjoint : ∀ z ∈ parts, x.Disjoint z) : Parts (x :: parts) wholes where
  disjoint := List.pairwise_cons.2 ⟨hdisjoint, h.disjoint⟩
  within := by
    intro z hz
    rcases List.mem_cons.1 hz with rfl | hz
    · exact .inr ⟨y, hy, hwithin⟩
    · exact h.within z hz

lemma Parts.single {x y : Span} (hy : y ∈ wholes) (hwithin : x.Within y) : Parts [x] wholes :=
  Parts.nil.cons hy hwithin (by simp)

lemma Parts.base {x : Span} (hx : x.stop = 0) : Parts [x] wholes where
  disjoint := List.pairwise_singleton _ x
  within := by
    intro y hy
    exact .inl (List.mem_singleton.1 hy ▸ hx)

lemma Packed.nil : Packed [] limit where
  disjoint := .nil
  stop_le := by simp

/-- Giving spans up, or listing them in another order, does no harm. -/
lemma Packed.subperm (h : Packed spans limit) (hfewer : List.Subperm fewer spans) :
    Packed fewer limit where
  disjoint := by
    obtain ⟨ordered, hperm, hsublist⟩ := hfewer
    exact (h.disjoint.sublist hsublist).perm hperm Disjoint.symm
  stop_le x hx := h.stop_le x (hfewer.subset hx)

/-- **How bytes change hands.**  Some spans, and all bytes between an old limit and a new one, are
replaced by parts of them.  A span that is empty at the base can always be added. -/
lemma Packed.advance (h : Packed (wholes ++ rest) limit) (hle : limit ≤ further)
    (hparts : Parts parts (wholes ++ [⟨limit, further⟩])) : Packed (parts ++ rest) further where
  disjoint := by
    obtain ⟨-, hrest, hacross⟩ := List.pairwise_append.1 h.disjoint
    refine List.pairwise_append.2 ⟨hparts.disjoint, hrest, ?_⟩
    intro x hx y hy
    rcases hparts.within x hx with hbase | ⟨whole, hwhole, hwithin⟩
    · exact .inl (hbase ▸ Nat.zero_le _)
    refine hwithin.disjoint ?_
    rcases List.mem_append.1 hwhole with hwhole | hwhole
    · exact hacross whole hwhole y hy
    · -- The new bytes lie behind everything that was handed out.
      obtain rfl := List.mem_singleton.1 hwhole
      exact .inr (h.stop_le y (List.mem_append_right _ hy))
  stop_le x hx := by
    rcases List.mem_append.1 hx with hx | hx
    · rcases hparts.within x hx with hbase | ⟨whole, hwhole, -, hstop⟩
      · exact hbase ▸ Nat.zero_le _
      rcases List.mem_append.1 hwhole with hwhole | hwhole
      · have hlimit := h.stop_le whole (List.mem_append_left _ hwhole)
        exact Nat.le_trans hstop (Nat.le_trans hlimit hle)
      · obtain rfl := List.mem_singleton.1 hwhole
        exact hstop
    · exact Nat.le_trans (h.stop_le x (List.mem_append_right _ hx)) hle

end Span

end BumpArena
