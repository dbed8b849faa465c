import BumpArena.Ring.Basic
import Mathlib.Algebra.Group.Nat.Defs

/-!
# What a ring holds

The slots from `head` up to `tail`, in the order in which positions follow one another, hold the
values of the ring (`RingBuffer.Holds`).  Around that the two halves have their own view, which may
be out of date: the producer counts on some values that were taken in the meantime, and the consumer
does not know of some that were stored (`Producer.Lags`, `Consumer.Lags`).  Both err to the same
side, and that is why a half needs to look again only when it cannot go on:

* what the producer believes to be queued, and the one slot that stays empty, never come to more
  than all slots, so a position that differs from the one it remembers is free;
* what the consumer believes to be queued is queued.

Each operation has one lemma, which says what it answers, what the ring holds then, and that the
half that did nothing lags as before.
-/

namespace BumpArena

/-! ## Positions -/

/-- Positions wrap around at most once. -/
lemma add_mod_cases {n a b : Nat} (ha : a < n) (hb : b ≤ n) :
    (a + b < n ∧ (a + b) % n = a + b) ∨ (n ≤ a + b ∧ (a + b) % n = a + b - n) := by
  rcases Nat.lt_or_ge (a + b) n with hlt | hge
  · exact .inl ⟨hlt, Nat.mod_eq_of_lt hlt⟩
  · rw [Nat.mod_eq_sub_mod hge]
    exact .inr ⟨hge, Nat.mod_eq_of_lt (by omega)⟩

/-- A number that shares no bit with the number below it has only one. -/
lemma exists_eq_two_pow {n : Nat} (h : isPowerOfTwo n = true) : ∃ k, n = 2 ^ k := by
  simp only [isPowerOfTwo, Bool.and_eq_true, bne_iff_ne, ne_eq, beq_iff_eq] at h
  exact (Nat.and_sub_one_eq_zero_iff_isPowerOfTwo h.1).1 h.2

namespace RingBuffer

variable {α : Type} {s : RingBuffer α} {values : List α} {value : α}

/-- The slot that lies a number of steps behind the head. -/
def slotAt (s : RingBuffer α) (i : Nat) : Nat := (s.head + i) % s.capacity

/-- **What a ring holds,** oldest value first. -/
structure Holds (s : RingBuffer α) (values : List α) : Prop where
  masked : ∃ k ≤ 64, s.capacity = 2 ^ k
  size_eq : s.slots.size = s.capacity
  head_lt : s.head < s.capacity
  tail_eq : s.tail = s.slotAt values.length
  length_le : values.length ≤ s.mask
  slot_eq : ∀ i (h : i < values.length), s.slots[s.slotAt i]? = some (some values[i])

lemma and_mask (h : ∃ k ≤ 64, s.capacity = 2 ^ k) (x : Nat) : x &&& s.mask = x % s.capacity := by
  obtain ⟨k, -, hk⟩ := h
  have hmask : s.mask = 2 ^ k - 1 := by
    rw [← hk, capacity, Nat.add_sub_cancel]
  rw [hmask, hk, Nat.and_two_pow_sub_one_eq_mod]

lemma capacity_dvd_limit (h : ∃ k ≤ 64, s.capacity = 2 ^ k) : s.capacity ∣ Word.limit := by
  obtain ⟨k, hle, hk⟩ := h
  have hlimit : Word.limit = 2 ^ 64 := by decide
  rw [hk, hlimit]
  exact Nat.pow_dvd_pow 2 hle

lemma slotAt_lt (s : RingBuffer α) (i : Nat) : s.slotAt i < s.capacity :=
  Nat.mod_lt _ (Nat.succ_pos _)

namespace Holds

lemma following_eq (h : s.Holds values) (position : Nat) :
    s.following position = (position + 1) % s.capacity := by
  rw [following, and_mask h.masked]

/-- One step further on. -/
lemma following_slotAt (h : s.Holds values) (i : Nat) :
    s.following (s.slotAt i) = s.slotAt (i + 1) := by
  rw [h.following_eq, slotAt, slotAt, Nat.mod_add_mod, Nat.add_assoc]

/-- Within one round, no slot is met twice. -/
lemma slotAt_inj (h : s.Holds values) {i j : Nat} (hi : i < s.capacity) (hj : j < s.capacity)
    (heq : s.slotAt i = s.slotAt j) : i = j := by
  have hhead := h.head_lt
  unfold slotAt at heq
  rcases add_mod_cases hhead (Nat.le_of_lt hi) with ⟨_, _⟩ | ⟨_, _⟩ <;>
    rcases add_mod_cases hhead (Nat.le_of_lt hj) with ⟨_, _⟩ | ⟨_, _⟩ <;> omega

lemma slotAt_zero (h : s.Holds values) : s.slotAt 0 = s.head := Nat.mod_eq_of_lt h.head_lt

/-- **The mask yields the number of values,** even where the tail has wrapped around and the head
has not. -/
lemma length_eq (h : s.Holds values) : s.length = values.length := by
  obtain ⟨rounds, hrounds⟩ := capacity_dvd_limit h.masked
  have hhead := h.head_lt
  have hlength := h.length_le
  have hcapacity : s.capacity = s.mask + 1 := rfl
  have hpos : 0 < rounds := by
    refine Nat.pos_of_ne_zero fun hzero => ?_
    have hlimit : 0 < Word.limit := by decide
    simp [hrounds, hzero] at hlimit
  have hle : s.capacity ≤ s.capacity * rounds := Nat.le_mul_of_pos_right _ hpos
  rw [length, and_mask h.masked, hrounds, h.tail_eq, slotAt, Nat.mod_add_mod]
  have hsum : s.head + values.length + (s.capacity * rounds - s.head) =
      values.length + s.capacity * rounds := by omega
  rw [hsum, Nat.add_mul_mod_self_left, Nat.mod_eq_of_lt (by omega)]

/-- The head is at the tail when nothing is queued, and only then. -/
lemma head_eq_tail_iff (h : s.Holds values) : s.head = s.tail ↔ values = [] := by
  have hlength := h.length_le
  have hcapacity : s.capacity = s.mask + 1 := rfl
  rw [h.tail_eq]
  constructor
  · intro heq
    rw [← h.slotAt_zero] at heq
    exact List.length_eq_zero_iff.1 (h.slotAt_inj (by omega) (by omega) heq).symm
  · rintro rfl
    exact h.slotAt_zero.symm

/-- The tail is right behind the head when the ring is full, and only then. -/
lemma following_tail_eq_head_iff (h : s.Holds values) :
    s.following s.tail = s.head ↔ values.length = s.mask := by
  have hlength := h.length_le
  have hhead := h.head_lt
  have hcapacity : s.capacity = s.mask + 1 := rfl
  rw [h.tail_eq, h.following_slotAt, slotAt]
  rcases add_mod_cases hhead (show values.length + 1 ≤ s.capacity by omega) with
    ⟨_, hmod⟩ | ⟨_, hmod⟩ <;> rw [hmod] <;> omega

end Holds

end RingBuffer

/-! ## What the halves remember -/

/-- The producer counts on values that were taken in the meantime, and on no more of them than there
are slots for. -/
def Producer.Lags {α : Type} (p : Producer) (s : RingBuffer α) (values : List α) : Prop :=
  ∃ taken, (p.seenHead + taken) % s.capacity = s.head ∧ p.seenHead < s.capacity ∧
    taken + values.length ≤ s.mask

/-- The consumer knows of some of the values that are queued. -/
def Consumer.Lags {α : Type} (c : Consumer) (s : RingBuffer α) (values : List α) : Prop :=
  ∃ known ≤ values.length, c.seenTail = s.slotAt known

section Operations

open RingBuffer

variable {α : Type} {s : RingBuffer α} {values : List α} {value : α} {p : Producer} {c : Consumer}

/-! ## A new ring -/

/-- A ring of so many slots in which nothing was stored. -/
def RingBuffer.fresh (α : Type) (capacity : Nat) : RingBuffer α :=
  { mask := capacity - 1, slots := Array.replicate capacity none }

lemma RingBuffer.holds_fresh {k : Nat} (hk : k ≤ 64) : (fresh α (2 ^ k)).Holds [] := by
  have hpos : 0 < 2 ^ k := Nat.two_pow_pos k
  have hcapacity : (fresh α (2 ^ k)).capacity = 2 ^ k := Nat.sub_add_cancel hpos
  refine ⟨⟨k, hk, hcapacity⟩, ?_, ?_, ?_, Nat.zero_le _, by simp⟩
  · rw [hcapacity]
    exact Array.size_replicate
  · rw [hcapacity]
    exact hpos
  · exact (Nat.zero_mod _).symm

/-! ## Storing -/

/-- The ring after a value was stored. -/
def RingBuffer.stored (s : RingBuffer α) (value : α) : RingBuffer α :=
  { s with slots := s.slots.setIfInBounds s.tail (some value), tail := s.following s.tail }

lemma RingBuffer.Holds.stored (h : s.Holds values) (hroom : values.length < s.mask) :
    (s.stored value).Holds (values ++ [value]) where
  masked := h.masked
  size_eq := (Array.size_setIfInBounds ..).trans h.size_eq
  head_lt := h.head_lt
  tail_eq := by
    rw [List.length_append, List.length_singleton]
    show s.following s.tail = s.slotAt (values.length + 1)
    rw [h.tail_eq, h.following_slotAt]
  length_le := by
    rw [List.length_append, List.length_singleton]
    exact hroom
  slot_eq i hi := by
    have hcapacity : s.capacity = s.mask + 1 := rfl
    have hslot : (s.stored value).slotAt i = s.slotAt i := rfl
    rw [List.length_append, List.length_singleton] at hi
    rw [hslot, RingBuffer.stored, Array.getElem?_setIfInBounds, h.tail_eq]
    rcases Nat.lt_or_eq_of_le (Nat.le_of_lt_succ hi) with hlt | rfl
    · have hne : s.slotAt values.length ≠ s.slotAt i := fun heq =>
        absurd (h.slotAt_inj (by omega) (by omega) heq) (by omega)
      rw [if_neg hne, h.slot_eq i hlt, List.getElem_append_left hlt]
    · rw [if_pos rfl, if_pos (by rw [h.size_eq]; exact s.slotAt_lt _)]
      simp

lemma Consumer.Lags.stored (hc : c.Lags s values) :
    c.Lags (s.stored value) (values ++ [value]) := by
  obtain ⟨known, hknown, hseen⟩ := hc
  refine ⟨known, ?_, hseen⟩
  rw [List.length_append]
  omega

/-- The producer that has just looked. -/
lemma Producer.lags_head (h : s.Holds values) : (⟨s.head⟩ : Producer).Lags s values :=
  ⟨0, Nat.mod_eq_of_lt h.head_lt, h.head_lt, by simpa using h.length_le⟩

/-- **A position that differs from the one that the producer remembers is free,** and the producer
lags no less after it stored a value there. -/
lemma Producer.Lags.stored (hp : p.Lags s values) (h : s.Holds values)
    (hne : s.following s.tail ≠ p.seenHead) (value : α) :
    values.length < s.mask ∧ p.Lags (s.stored value) (values ++ [value]) := by
  obtain ⟨taken, hhead, hseen, hle⟩ := hp
  have hcapacity : s.capacity = s.mask + 1 := rfl
  have hnext : s.following s.tail = (p.seenHead + (taken + values.length + 1)) % s.capacity := by
    rw [h.tail_eq, h.following_slotAt, slotAt, ← hhead, Nat.mod_add_mod, Nat.add_assoc,
      Nat.add_assoc]
  have hroom : taken + values.length < s.mask := by
    -- Were there none left, the next position would be once around from the one remembered.
    refine Nat.lt_of_le_of_ne hle fun hfull => hne ?_
    rw [hnext, hfull, ← hcapacity, Nat.add_mod_right]
    exact Nat.mod_eq_of_lt hseen
  refine ⟨by omega, taken, hhead, hseen, ?_⟩
  rw [List.length_append, List.length_singleton]
  exact hroom

/-- **What storing a value does.**  It is refused where the ring is full, and nothing changes then
but what the producer remembers. -/
lemma Producer.Lags.enqueue (hp : p.Lags s values) (h : s.Holds values) (value : α) :
    (values.length = s.mask ∧ ∃ p', p.enqueue s value = .ok (false, p', s) ∧ p'.Lags s values) ∨
      (values.length < s.mask ∧ ∃ p', p.enqueue s value = .ok (true, p', s.stored value) ∧
        p'.Lags (s.stored value) (values ++ [value])) := by
  have hslot : s.tail < s.slots.size := by
    rw [h.size_eq, h.tail_eq]
    exact s.slotAt_lt _
  have hstored : s.slots.set s.tail (some value) hslot =
      s.slots.setIfInBounds s.tail (some value) := by rw [Array.setIfInBounds, dif_pos hslot]
  -- The producer looks again when the next position is the one that it remembers.
  by_cases hnext : s.following s.tail = p.seenHead
  · by_cases hfull : s.following s.tail = s.head
    · refine .inl ⟨h.following_tail_eq_head_iff.1 hfull, ⟨s.head⟩, ?_, lags_head h⟩
      simp only [Producer.enqueue, if_pos hnext, if_pos hfull]
    · obtain ⟨hroom, hp'⟩ := (lags_head h).stored h hfull value
      refine .inr ⟨hroom, ⟨s.head⟩, ?_, hp'⟩
      simp only [Producer.enqueue, if_pos hnext, if_neg hfull, dif_pos hslot, hstored]
      rfl
  · obtain ⟨hroom, hp'⟩ := hp.stored h hnext value
    refine .inr ⟨hroom, p, ?_, hp'⟩
    simp only [Producer.enqueue, if_neg hnext, dif_pos hslot, hstored]
    rfl

/-! ## Taking -/

/-- The ring after its oldest value was taken. -/
def RingBuffer.taken (s : RingBuffer α) : RingBuffer α := { s with head := s.following s.head }

lemma RingBuffer.Holds.slotAt_taken (h : s.Holds values) (i : Nat) :
    s.taken.slotAt i = s.slotAt (i + 1) := by
  show (s.following s.head + i) % s.capacity = (s.head + (i + 1)) % s.capacity
  rw [h.following_eq, Nat.mod_add_mod, Nat.add_assoc, Nat.add_comm 1]

lemma RingBuffer.Holds.taken (h : s.Holds (value :: values)) : s.taken.Holds values where
  masked := h.masked
  size_eq := h.size_eq
  head_lt := by
    show s.following s.head < s.capacity
    rw [h.following_eq]
    exact Nat.mod_lt _ (Nat.succ_pos _)
  tail_eq := by
    rw [h.slotAt_taken]
    exact h.tail_eq
  length_le := Nat.le_of_succ_le h.length_le
  slot_eq i hi := by
    rw [h.slotAt_taken]
    exact h.slot_eq (i + 1) (Nat.succ_lt_succ hi)

lemma Producer.Lags.taken (hp : p.Lags s (value :: values)) (h : s.Holds (value :: values)) :
    p.Lags s.taken values := by
  obtain ⟨taken, hhead, hseen, hle⟩ := hp
  rw [List.length_cons] at hle
  refine ⟨taken + 1, ?_, hseen, ?_⟩
  · show (p.seenHead + (taken + 1)) % s.capacity = s.following s.head
    rw [h.following_eq, ← hhead, Nat.mod_add_mod, Nat.add_assoc]
  · show taken + 1 + values.length ≤ s.mask
    omega

/-- The consumer that has just looked. -/
lemma Consumer.lags_tail (h : s.Holds values) : (⟨s.tail⟩ : Consumer).Lags s values :=
  ⟨values.length, Nat.le_refl _, h.tail_eq⟩

/-- **A position that differs from the one that the consumer remembers holds a value.** -/
lemma Consumer.Lags.taken (hc : c.Lags s values) (h : s.Holds values) (hne : s.head ≠ c.seenTail) :
    ∃ value rest, values = value :: rest ∧ c.Lags s.taken rest := by
  obtain ⟨known, hknown, hseen⟩ := hc
  cases known with
  | zero => exact absurd (h.slotAt_zero.symm.trans hseen.symm) hne
  | succ known =>
    cases values with
    | nil => simp at hknown
    | cons value rest =>
      refine ⟨value, rest, rfl, known, Nat.le_of_succ_le_succ hknown, ?_⟩
      rw [hseen, h.slotAt_taken]

/-- Each value can be read from its slot. -/
lemma RingBuffer.Holds.valueAt_slotAt (h : s.Holds values) {i : Nat} (hi : i < values.length) :
    s.valueAt (s.slotAt i) = .ok values[i] := by
  rw [valueAt, h.slot_eq i hi]

/-- **What taking a value does.**  An empty ring has none to take, and nothing changes then but what
the consumer remembers. -/
lemma Consumer.Lags.dequeue (hc : c.Lags s values) (h : s.Holds values) :
    (values = [] ∧ ∃ c', c.dequeue s = .ok (none, c', s) ∧ c'.Lags s values) ∨
      ∃ value rest, values = value :: rest ∧
        ∃ c', c.dequeue s = .ok (some value, c', s.taken) ∧ c'.Lags s.taken rest := by
  have hvalue {value : α} {rest : List α} (hvalues : values = value :: rest) :
      s.valueAt s.head = .ok value := by
    subst hvalues
    rw [← h.slotAt_zero]
    exact h.valueAt_slotAt (Nat.succ_pos _)
  -- The consumer looks again when the head is the position that it remembers.
  by_cases hseen : s.head = c.seenTail
  · by_cases hempty : s.head = s.tail
    · refine .inl ⟨h.head_eq_tail_iff.1 hempty, ⟨s.tail⟩, ?_, lags_tail h⟩
      simp only [Consumer.dequeue, if_pos hseen, if_pos hempty]
    · obtain ⟨value, rest, hvalues, hc'⟩ := (lags_tail h).taken h hempty
      refine .inr ⟨value, rest, hvalues, ⟨s.tail⟩, ?_, hc'⟩
      simp only [Consumer.dequeue, if_pos hseen, if_neg hempty, hvalue hvalues]
      rfl
  · obtain ⟨value, rest, hvalues, hc'⟩ := hc.taken h hseen
    refine .inr ⟨value, rest, hvalues, c, ?_, hc'⟩
    simp only [Consumer.dequeue, if_neg hseen, hvalue hvalues]
    rfl

/-! ## Draining -/

/-- The ring after all its values were taken. -/
def RingBuffer.drained (s : RingBuffer α) : RingBuffer α := { s with head := s.tail }

lemma RingBuffer.Holds.valuesFrom_slotAt (h : s.Holds values) (i : Nat) :
    Consumer.valuesFrom s (s.slotAt i) (values.length - i) = .ok (values.drop i) := by
  induction hleft : values.length - i generalizing i with
  | zero => rw [Consumer.valuesFrom, List.drop_of_length_le (by omega)]
  | succ left ih =>
    have hi : i < values.length := by omega
    have hrest := ih (i + 1) (by omega)
    rw [Consumer.valuesFrom, h.valueAt_slotAt hi, h.following_slotAt, List.drop_eq_getElem_cons hi]
    simp only [bind, Except.bind, hrest, pure, Except.pure]

lemma RingBuffer.Holds.drained (h : s.Holds values) : s.drained.Holds [] where
  masked := h.masked
  size_eq := h.size_eq
  head_lt := by
    show s.tail < s.capacity
    rw [h.tail_eq]
    exact s.slotAt_lt _
  tail_eq := by
    show s.tail = s.tail % s.capacity
    rw [h.tail_eq, slotAt, Nat.mod_mod]
  length_le := Nat.zero_le _
  slot_eq i hi := absurd hi (Nat.not_lt_zero _)

lemma Producer.Lags.drained (hp : p.Lags s values) (h : s.Holds values) : p.Lags s.drained [] := by
  obtain ⟨taken, hhead, hseen, hle⟩ := hp
  refine ⟨taken + values.length, ?_, hseen, hle⟩
  show (p.seenHead + (taken + values.length)) % s.capacity = s.tail
  rw [h.tail_eq, slotAt, ← hhead, Nat.mod_add_mod, Nat.add_assoc]

/-- **What taking all values does.** -/
lemma RingBuffer.Holds.drain (h : s.Holds values) :
    ∃ c', Consumer.drain s = .ok (values, c', s.drained) ∧ c'.Lags s.drained [] := by
  have hvalues := h.valuesFrom_slotAt 0
  rw [h.slotAt_zero, Nat.sub_zero, List.drop_zero] at hvalues
  refine ⟨⟨s.tail⟩, ?_, Consumer.lags_tail h.drained⟩
  simp only [Consumer.drain, h.length_eq, hvalues, bind, Except.bind, pure, Except.pure]
  rfl

end Operations

end BumpArena
