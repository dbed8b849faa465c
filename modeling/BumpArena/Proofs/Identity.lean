import BumpArena.RegionId
import Mathlib.Algebra.Ring.Periodic
import Mathlib.Data.List.Nodup
import Mathlib.Data.Nat.ModEq

/-!
# Identities in a row

The counter that identities are drawn from wraps around, and skips zero when it does.  Counted from
one, the identities so go round in a circle of `2 ^ 32 - 1` places, one place a draw
(`place_next`).  The identity that a number of draws leads to is known from the place where the row
began (`toNat_idAt`), and two draws yield the same one exactly when whole rounds lie between them
(`idAt_eq_iff`).

Skipping costs one more fetch of the counter, and never two, because zero is followed by one.
`Fetches` counts what a draw fetches, and `fetches_iff` says that there is no other way for it to
end.
-/

namespace BumpArena

/-- An identity is known from its number. -/
lemma RegionId.toNat_inj {id id' : RegionId} : id.value.toNat = id'.value.toNat ↔ id = id' := by
  rw [UInt32.toNat_inj]
  exact ⟨congrArg RegionId.mk, congrArg RegionId.value⟩

namespace IdSource

/-- The number of identities. -/
def period : Nat := UInt32.size - 1

/-- The place of the identity that is drawn next. -/
def place (source : IdSource) : Nat := source.next.1.value.toNat - 1

/-- The source after a number of draws. -/
def after (source : IdSource) : Nat → IdSource
  | 0 => source
  | draws + 1 => (source.after draws).next.2

/-- The identity that is drawn after a number of others. -/
def idAt (source : IdSource) (draws : Nat) : RegionId := (source.after draws).next.1

lemma place_eq (source : IdSource) :
    source.next.1.value.toNat = source.place + 1 := by
  have hne := source.next_ne_unassigned
  have hpos : source.next.1.value.toNat ≠ 0 := by
    intro hzero
    refine hne ?_
    have hvalue : source.next.1.value = 0 := UInt32.toNat_inj.1 hzero
    rw [RegionId.unassigned, ← hvalue]
  rw [place]
  omega

lemma place_lt (source : IdSource) : source.place < period := by
  have hlt := source.next.1.value.toNat_lt
  have hplace := source.place_eq
  rw [period, UInt32.size]
  omega

/-- Each draw leads one place on. -/
lemma place_next (source : IdSource) : source.next.2.place = (source.place + 1) % period := by
  by_cases hzero : source.counter = 0
  · have hnext := next_of_counter_eq_zero hzero
    have htwo : (⟨2⟩ : IdSource).next = (⟨2⟩, ⟨3⟩) := next_of_counter_ne_zero (by decide)
    rw [place, place, hnext, htwo]
    rfl
  have hnext := next_of_counter_ne_zero hzero
  have hplace : source.place = source.counter.toNat - 1 := by rw [place, hnext]
  have hpos : 0 < source.counter.toNat := by
    have hne : source.counter.toNat ≠ 0 := fun h => hzero (UInt32.toNat_inj.1 h)
    omega
  have hlt := source.counter.toNat_lt
  by_cases hlast : source.advance.counter = 0
  · have hvalue : source.advance.place = 0 := by
      rw [place, next_of_counter_eq_zero hlast]
      rfl
    have hend : source.counter.toNat = 2 ^ 32 - 1 := by
      have hsum : (source.counter.toNat + 1) % 2 ^ 32 = 0 := by
        have := congrArg UInt32.toNat hlast
        simpa [advance] using this
      omega
    rw [hnext, hvalue, hplace, hend]
    rfl
  · have hvalue : source.advance.place = source.advance.counter.toNat - 1 := by
      rw [place, next_of_counter_ne_zero hlast]
    have hcounter : source.advance.counter.toNat = source.counter.toNat + 1 := by
      have hsum : source.advance.counter.toNat = (source.counter.toNat + 1) % 2 ^ 32 := by
        simp [advance]
      have hne : source.advance.counter.toNat ≠ 0 := fun h => hlast (UInt32.toNat_inj.1 h)
      omega
    have hfits := source.advance.counter.toNat_lt
    rw [hnext, hvalue, hplace, hcounter, period, UInt32.size, Nat.mod_eq_of_lt (by omega)]
    omega

lemma place_after (source : IdSource) (draws : Nat) :
    (source.after draws).place = (source.place + draws) % period := by
  induction draws with
  | zero => exact (Nat.mod_eq_of_lt source.place_lt).symm
  | succ draws ih => rw [after, place_next, ih, Nat.mod_add_mod, Nat.add_assoc]

/-- The identity that a number of draws leads to. -/
lemma toNat_idAt (source : IdSource) (draws : Nat) :
    (source.idAt draws).value.toNat = (source.place + draws) % period + 1 := by
  rw [idAt, place_eq, place_after]

/-- **Identities repeat** when whole rounds lie between them, and only then. -/
lemma idAt_eq_iff (source : IdSource) {i j : Nat} :
    source.idAt i = source.idAt j ↔ i ≡ j [MOD period] := by
  rw [← RegionId.toNat_inj, toNat_idAt, toNat_idAt, Nat.add_right_cancel_iff]
  exact ⟨Nat.ModEq.add_left_cancel' source.place, Nat.ModEq.add_left source.place⟩

/-- **Identities do not repeat** within one round. -/
lemma nodup_idAt (source : IdSource) {draws : Nat} (h : draws ≤ period) :
    ((List.range draws).map source.idAt).Nodup := by
  refine List.Nodup.map_on ?_ List.nodup_range
  intro i hi j hj hsame
  have hi := List.mem_range.1 hi
  have hj := List.mem_range.1 hj
  exact Nat.ModEq.eq_of_lt_of_lt (source.idAt_eq_iff.1 hsame) (by omega) (by omega)

/-- The row of identities has the round as its period, and no period but whole rounds. -/
lemma periodic_idAt_iff (source : IdSource) {shift : Nat} :
    Function.Periodic source.idAt shift ↔ period ∣ shift := by
  simp only [Function.Periodic, idAt_eq_iff]
  constructor
  · intro hperiodic
    have hstart := hperiodic 0
    rw [Nat.zero_add] at hstart
    exact (Nat.modEq_zero_iff_dvd).1 hstart
  · intro hdvd draws
    have hshift : shift ≡ 0 [MOD period] := (Nat.modEq_zero_iff_dvd).2 hdvd
    exact hshift.add_left draws

/-- A row of draws, counted from its second one. -/
lemma after_next (source : IdSource) (draws : Nat) :
    source.next.2.after draws = source.after (draws + 1) := by
  induction draws with
  | zero => rfl
  | succ draws ih =>
    rw [after, ih]
    rfl

/-- **What was drawn first is drawn again** after the rest of the round. -/
lemma idAt_rest (source : IdSource) : source.next.2.idAt (period - 1) = source.next.1 := by
  have hround : period - 1 + 1 = period := Nat.sub_add_cancel (by decide)
  have hsame : source.idAt period = source.idAt 0 :=
    source.idAt_eq_iff.2 (Nat.modEq_zero_iff_dvd.2 (Nat.dvd_refl period))
  rw [idAt, after_next, hround, ← idAt, hsame, idAt, after]

/-! ## Fetching -/

/-- **How a draw goes on**: it fetches the value of the counter, which moves on, and takes the value
unless that is zero.  Then it draws again.  The fetches are counted. -/
inductive Fetches : IdSource → Nat → RegionId → IdSource → Prop
  /-- The value is an identity. -/
  | taken {source : IdSource} (hvalue : source.counter ≠ 0) :
      Fetches source 1 ⟨source.counter⟩ source.advance
  /-- The value is the zero that is skipped. -/
  | skipped {source source' : IdSource} {fetches : Nat} {id : RegionId}
      (hvalue : source.counter = 0) (hagain : Fetches source.advance fetches id source') :
      Fetches source (fetches + 1) id source'

/-- The number of fetches that a draw takes. -/
def fetchesOf (source : IdSource) : Nat := if source.counter = 0 then 2 else 1

lemma advance_counter_ne_zero {source : IdSource} (h : source.counter = 0) :
    source.advance.counter ≠ 0 := by
  simp [advance, h]

/-- A draw comes to its end. -/
lemma fetches_next (source : IdSource) :
    source.Fetches source.fetchesOf source.next.1 source.next.2 := by
  by_cases hzero : source.counter = 0
  · have hnext : source.next = source.advance.next := by rw [next, if_pos hzero]
    have hone := advance_counter_ne_zero hzero
    rw [hnext, next_of_counter_ne_zero hone, fetchesOf, if_pos hzero]
    exact .skipped hzero (.taken hone)
  · rw [next_of_counter_ne_zero hzero, fetchesOf, if_neg hzero]
    exact .taken hzero

/-- **A draw has one end,** after one fetch, or two. -/
lemma fetches_iff {source source' : IdSource} {fetches : Nat} {id : RegionId} :
    source.Fetches fetches id source' ↔
      fetches = source.fetchesOf ∧ source.next = (id, source') := by
  constructor
  · intro h
    induction h with
    | taken hvalue =>
      rw [fetchesOf, if_neg hvalue]
      exact ⟨rfl, next_of_counter_ne_zero hvalue⟩
    | skipped hvalue hagain ih =>
      obtain ⟨rfl, hnext⟩ := ih
      rw [fetchesOf, fetchesOf, if_pos hvalue, if_neg (advance_counter_ne_zero hvalue)]
      refine ⟨rfl, ?_⟩
      rw [next, if_pos hvalue, hnext]
  · rintro ⟨rfl, hnext⟩
    have h := source.fetches_next
    rwa [hnext] at h

/-- **Identities go round.**  Whatever the counter holds, every draw of a row ends after one fetch
of it, or after two where the first is zero, and in no other way.  No identity of a row is the one
that no region has, as many as `2 ^ 32 - 1` of them in a row are all different, and the row has just
the multiples of this number as periods. -/
theorem idAt_laws (source : IdSource) :
    (∀ draws fetches id later, (source.after draws).Fetches fetches id later ↔
      fetches = (if (source.after draws).counter = 0 then 2 else 1) ∧
        id = source.idAt draws ∧ later = source.after (draws + 1)) ∧
    (∀ draws, source.idAt draws ≠ .unassigned) ∧
    (∀ n ≤ 2 ^ 32 - 1, ((List.range n).map source.idAt).Nodup) ∧
    (∀ i j, source.idAt i = source.idAt j ↔ i ≡ j [MOD 2 ^ 32 - 1]) ∧
    ∀ shift, Function.Periodic source.idAt shift ↔ 2 ^ 32 - 1 ∣ shift := by
  refine ⟨fun draws fetches id later => ?_, fun draws => ?_, fun n => source.nodup_idAt,
    fun i j => source.idAt_eq_iff, fun shift => source.periodic_idAt_iff⟩
  · rw [fetches_iff, Prod.ext_iff]
    exact and_congr_right fun _ => and_congr eq_comm eq_comm
  · exact (source.after draws).next_ne_unassigned

/-- The last identity, then the first two: the second draw meets zero and fetches twice.  A round
later the row is where it began. -/
theorem idAt_laws_atWrap :
    ((List.range 3).map (⟨0xFFFFFFFF⟩ : IdSource).idAt = [⟨0xFFFFFFFF⟩, ⟨1⟩, ⟨2⟩]) ∧
    3 ≤ 2 ^ 32 - 1 ∧ ((List.range 3).map (⟨0xFFFFFFFF⟩ : IdSource).idAt).Nodup ∧
    (⟨0⟩ : IdSource).Fetches 2 ⟨1⟩ ⟨2⟩ ∧
    (⟨0xFFFFFFFF⟩ : IdSource).idAt (2 ^ 32 - 1) = ⟨0xFFFFFFFF⟩ := by
  obtain ⟨hdraw, -, hnodup, hsame, -⟩ := idAt_laws ⟨0xFFFFFFFF⟩
  have hlast : (⟨0xFFFFFFFF⟩ : IdSource).next = (⟨0xFFFFFFFF⟩, ⟨0⟩) :=
    next_of_counter_ne_zero (by decide)
  have hzero : (⟨0⟩ : IdSource).next = (⟨1⟩, ⟨2⟩) := next_of_counter_eq_zero rfl
  have htwo : (⟨2⟩ : IdSource).next = (⟨2⟩, ⟨3⟩) := next_of_counter_ne_zero (by decide)
  have hround : (⟨0xFFFFFFFF⟩ : IdSource).idAt (2 ^ 32 - 1) = (⟨0xFFFFFFFF⟩ : IdSource).idAt 0 :=
    (hsame _ _).2 (by decide)
  have hfirst : (⟨0xFFFFFFFF⟩ : IdSource).idAt 0 = ⟨0xFFFFFFFF⟩ := by rw [idAt, after, hlast]
  refine ⟨?_, by decide, hnodup 3 (by decide), ?_, hround.trans hfirst⟩
  · simp only [List.range_succ, List.range_zero, List.nil_append, List.cons_append, List.map_cons,
      List.map_nil, idAt, after, hlast, hzero, htwo]
  · have hafter : (⟨0xFFFFFFFF⟩ : IdSource).after 1 = ⟨0⟩ := by rw [after, after, hlast]
    have hafter' : (⟨0xFFFFFFFF⟩ : IdSource).after 2 = ⟨2⟩ := by rw [after, hafter, hzero]
    have hid : (⟨0xFFFFFFFF⟩ : IdSource).idAt 1 = ⟨1⟩ := by rw [idAt, hafter, hzero]
    rw [← hafter', ← hid, ← hafter]
    exact (hdraw 1 2 _ _).2 ⟨by rw [hafter]; rfl, rfl, rfl⟩

end IdSource

end BumpArena
