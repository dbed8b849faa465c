import BumpArena.Proofs.Handoff.Allocator
import BumpArena.Proofs.Ring.Queue

/-!
# Handing bytes over

A producer has payloads to hand over.  For each it allocates bytes, copies the payload there, and
stores where it lies in a ring; when the ring is full it tries again later, and a payload for which
no bytes are granted is skipped.  The consumer takes what it finds in the ring and reads the bytes.
A `Handoff` is the state of both, and an `Event` is the next thing that one of them does.  They can
take turns in any way, also between two things that belong together.

**What the consumer reads is what the producer sent** (`Handoff.received_of_run`).  Three things
have to work together for that, and `Handoff.Sound` says how:

* the allocator grants no bytes twice, so that copying a payload leaves the others as they are;
* the region yields the bytes that were stored last;
* the ring is a queue, so that nothing is lost on the way and nothing overtakes.

What is on the way is a list of parcels: those that were sent and not yet read.
-/

namespace BumpArena

/-- A payload, and the handle of the bytes that were granted for it. -/
structure Parcel where
  handle : Handle
  payload : List UInt8
  deriving DecidableEq, Repr

namespace Parcel

/-- What goes through the ring: the handle, and the number of bytes. -/
def note (p : Parcel) : Handle × Nat := (p.handle, p.payload.length)

/-- The bytes that were granted. -/
def span (p : Parcel) : Span := (Request.ofBytes p.payload.length).spanAt p.handle.offset.toNat

end Parcel

/-- What the producer is about to do. -/
inductive Stage where
  /-- To allocate bytes for the next payload. -/
  | idle
  /-- To copy the payload. -/
  | filling (p : Parcel)
  /-- To store the note in the ring, or to try again. -/
  | offering (p : Parcel)
  deriving DecidableEq, Repr

namespace Stage

/-- The parcel that bytes were granted for. -/
def parcels : Stage → List Parcel
  | .idle => []
  | .filling p => [p]
  | .offering p => [p]

/-- The parcel that was copied. -/
def written : Stage → List Parcel
  | .offering p => [p]
  | _ => []

end Stage

/-- One thing that the producer or the consumer does. -/
inductive Handoff.Event where
  | allocate
  | copy
  | enqueue
  | dequeue
  | read
  /-- To take a note and to read at once what it tells of. -/
  | consume
  deriving DecidableEq, Repr

/-- A producer and a consumer, with all that they share. -/
structure Handoff where
  allocator : Allocator
  /-- The bytes of the allocator's region. -/
  bytes : Buffer
  ring : Ring (Handle × Nat)
  /-- The payloads that the producer has not begun with. -/
  pending : List (List UInt8)
  stage : Stage := .idle
  /-- What the consumer took from the ring and has not read yet. -/
  taken : Option (Handle × Nat) := none
  /-- The payloads that were stored in the ring, in order. -/
  sent : List (List UInt8) := []
  /-- The byte strings that the consumer read, in order. -/
  received : List (List UInt8) := []

namespace Handoff

/-! ## What happens -/

/-- The producer allocates bytes for the next payload, and skips it when there are none. -/
def allocate (s : Handoff) : Checked Handoff :=
  match s.stage, s.pending with
  | .idle, payload :: pending => do
    let (handle, allocator) ← s.allocator.allocateBytes payload.length
    let stage := if handle.isNull then .idle else .filling ⟨handle, payload⟩
    return { s with allocator, pending, stage }
  | _, _ => return s

/-- The producer copies the payload. -/
def copy (s : Handoff) : Checked Handoff :=
  match s.stage with
  | .filling p =>
    match s.allocator.region.setBytes s.bytes p.handle p.payload.length p.payload with
    | some bytes => return { s with bytes, stage := .offering p }
    | none => throw .invalidHandle
  | _ => return s

/-- The producer stores the note in the ring.  It will try again when the ring is full. -/
def enqueue (s : Handoff) : Checked Handoff :=
  match s.stage with
  | .offering p => do
    let (answer, ring) ← s.ring.perform (.enqueue p.note)
    if answer = .stored true then
      return { s with ring, stage := .idle, sent := s.sent ++ [p.payload] }
    else return { s with ring }
  | _ => return s

/-- The consumer takes a note from the ring, if there is one. -/
def dequeue (s : Handoff) : Checked Handoff :=
  match s.taken with
  | none => do
    match ← s.ring.perform .dequeue with
    | (.taken value, ring) => return { s with ring, taken := value }
    | (_, ring) => return { s with ring }
  | some _ => return s

/-- The consumer reads the bytes that its note tells of. -/
def read (s : Handoff) : Checked Handoff :=
  match s.taken with
  | some (handle, length) =>
    match s.allocator.region.bytes s.bytes handle length with
    | some payload => return { s with taken := none, received := s.received ++ [payload] }
    | none => throw .invalidHandle
  | none => return s

/-- The next thing that the producer or the consumer does.  One that is not at that point does
nothing. -/
def step (s : Handoff) : Event → Checked Handoff
  | .allocate => s.allocate
  | .copy => s.copy
  | .enqueue => s.enqueue
  | .dequeue => s.dequeue
  | .read => s.read
  | .consume => do
    let s ← s.dequeue
    s.read

/-- A row of things that the two do. -/
def run (s : Handoff) : List Event → Checked Handoff
  | [] => .ok s
  | event :: events => do
    let s ← s.step event
    s.run events

/-! ## What is on the way -/

/-- **What every step keeps.**  The parcels that were sent and not yet read, with the one that the
producer is at, lie apart from each other.  Those that were copied still hold their payloads.  The
ring, with what the consumer took from it, holds the notes of those that were sent. -/
structure Sound (s : Handoff) (payloads : List (List UInt8)) (capacity : Nat)
    (carried : List Parcel) : Prop where
  covers : s.allocator.Covers ((carried ++ s.stage.parcels).map Parcel.span)
  size_eq : s.bytes.size = s.allocator.region.capacity
  inRange : ∀ p ∈ carried ++ s.stage.parcels,
    s.allocator.region.byteRange p.handle p.payload.length = some p.handle.offset.toNat
  holds : ∀ p ∈ carried ++ s.stage.written,
    s.bytes.read p.handle.offset.toNat p.payload.length = p.payload
  queued : ∃ values, s.ring.Represents ⟨capacity - 1, values, true, true⟩ ∧
    s.taken.toList ++ values = carried.map Parcel.note
  sent_eq : s.sent = s.received ++ carried.map (·.payload)
  ordered : (s.sent ++ s.stage.parcels.map (·.payload) ++ s.pending).Sublist payloads

variable {s s' : Handoff} {payloads : List (List UInt8)} {capacity : Nat} {carried : List Parcel}

/-! ## What the producer does -/

/-- Allocating bytes for the next payload. -/
lemma Sound.allocate (h : s.Sound payloads capacity carried) (hok : s.allocate = .ok s') :
    s'.Sound payloads capacity carried := by
  have hordered := h.ordered
  have hcovers := h.covers
  have hinRange := h.inRange
  rw [Handoff.allocate] at hok
  split at hok
  · next payload pending hidle hpending =>
    obtain ⟨⟨handle, alloc⟩, hallocate, hok⟩ := bind_eq_ok_iff.1 hok
    simp only [pure, Except.pure, Except.ok.injEq] at hok
    subst hok
    rw [hidle] at hcovers hinRange hordered
    rw [hpending] at hordered
    simp only [Stage.parcels, List.append_nil, List.map_nil] at hcovers hinRange hordered
    obtain ⟨hregion, hcovers', hrange⟩ := hcovers.allocateBytes hallocate
    have hholds : ∀ p ∈ carried,
        s.bytes.read p.handle.offset.toNat p.payload.length = p.payload :=
      fun p hp => h.holds p (List.mem_append_left _ hp)
    have hsize : s.bytes.size = alloc.region.capacity := hregion ▸ h.size_eq
    rw [← hregion] at hinRange hrange
    cases hnull : handle.isNull with
    | true =>
      rw [Request.granted, hnull] at hcovers'
      refine ⟨?_, hsize, ?_, ?_, h.queued, h.sent_eq, ?_⟩
      · simpa [Stage.parcels] using hcovers'
      · simpa [Stage.parcels] using hinRange
      · simpa [Stage.written] using hholds
      · -- The payload is skipped.
        simpa [Stage.parcels] using
          ((List.Sublist.refl s.sent).append (List.sublist_cons_self ..)).trans hordered
    | false =>
      rw [Request.granted, hnull] at hcovers'
      refine ⟨?_, hsize, ?_, ?_, h.queued, h.sent_eq, ?_⟩
      · rw [List.map_append]
        exact hcovers'.subperm List.perm_append_comm.subperm
      · intro p hp
        rcases List.mem_append.1 hp with hp | hp
        · exact hinRange p hp
        · obtain rfl := List.mem_singleton.1 hp
          exact hrange hnull
      · simpa [Stage.written] using hholds
      · simpa [Stage.parcels] using hordered
  · simp only [pure, Except.pure, Except.ok.injEq] at hok
    exact hok ▸ h

/-- What is on the way lies apart from what the producer is at. -/
lemma Sound.apart (h : s.Sound payloads capacity carried) {p q : Parcel} (hq : q ∈ carried)
    (hp : p ∈ s.stage.parcels) :
    q.handle.offset.toNat + q.payload.length ≤ p.handle.offset.toNat ∨
      p.handle.offset.toNat + p.payload.length ≤ q.handle.offset.toNat := by
  have hdisjoint := (List.pairwise_append.1 h.covers.packed.disjoint).2.1
  rw [List.map_append] at hdisjoint
  have hapart : q.span.Disjoint p.span := (List.pairwise_append.1 hdisjoint).2.2 _
    (List.mem_map_of_mem hq) _ (List.mem_map_of_mem hp)
  simp only [Span.Disjoint, Parcel.span, Request.spanAt, Request.ofBytes, Layout.byte] at hapart
  omega

/-- Copying a payload leaves all others as they are. -/
lemma Sound.copy (h : s.Sound payloads capacity carried) :
    ∃ s' carried', s.copy = .ok s' ∧ s'.allocator = s.allocator ∧
      s'.Sound payloads capacity carried' := by
  rw [Handoff.copy]
  split
  · next p hstage =>
    have hp : p ∈ s.stage.parcels := by
      rw [hstage]
      exact List.mem_singleton_self p
    have hrange := h.inRange p (List.mem_append_right _ hp)
    obtain ⟨-, -, hle, -⟩ := Region.byteRange_eq_some_iff.1 hrange
    have hset : s.allocator.region.setBytes s.bytes p.handle p.payload.length p.payload =
        some (s.bytes.write p.handle.offset.toNat p.payload) := by
      rw [Region.setBytes, hrange, List.take_length]
      rfl
    simp only [hset, pure, Except.pure]
    have hparcels : s.stage.parcels = (Stage.offering p).parcels := by
      rw [hstage]
      rfl
    refine ⟨_, carried, rfl, rfl, ?_⟩
    refine ⟨hparcels ▸ h.covers, (s.bytes.size_write ..).trans h.size_eq, hparcels ▸ h.inRange, ?_,
      h.queued, h.sent_eq, hparcels ▸ h.ordered⟩
    intro q hq
    rcases List.mem_append.1 hq with hq | hq
    · rw [s.bytes.read_write_of_disjoint (h.apart hq hp)]
      exact h.holds q (List.mem_append_left _ hq)
    · obtain rfl := List.mem_singleton.1 hq
      exact s.bytes.read_write_self (h.size_eq ▸ hle)
  · exact ⟨s, carried, rfl, rfl, h⟩

/-- Storing a note in the ring, or not when the ring is full. -/
lemma Sound.enqueue (h : s.Sound payloads capacity carried) :
    ∃ s' carried', s.enqueue = .ok s' ∧ s'.allocator = s.allocator ∧
      s'.Sound payloads capacity carried' := by
  rw [Handoff.enqueue]
  split
  · next p hstage =>
    obtain ⟨values, hring, hnotes⟩ := h.queued
    obtain ⟨ring, hperform, hring'⟩ := hring.enqueue p.note
    by_cases hroom : values.length < capacity - 1
    · simp only [BoundedQueue.perform, not_true_eq_false, if_false, if_pos hroom] at hperform hring'
      simp only [hperform, bind, Except.bind, pure, Except.pure, if_true]
      -- The parcel that the producer was at is on the way now.
      have hcovers := h.covers
      have hinRange := h.inRange
      have hholds := h.holds
      have hordered := h.ordered
      rw [hstage] at hcovers hinRange hholds hordered
      refine ⟨_, carried ++ [p], rfl, rfl, ?_⟩
      refine ⟨?_, h.size_eq, ?_, ?_, ⟨_, hring', ?_⟩, ?_, ?_⟩
      · simpa [Stage.parcels] using hcovers
      · simpa [Stage.parcels] using hinRange
      · simpa [Stage.written] using hholds
      · rw [← List.append_assoc, hnotes, List.map_append]
        rfl
      · rw [h.sent_eq, List.map_append, List.append_assoc]
        rfl
      · simpa [Stage.parcels] using hordered
    · simp only [BoundedQueue.perform, not_true_eq_false, if_false, if_neg hroom] at hperform hring'
      simp only [hperform, bind, Except.bind, pure, Except.pure]
      refine ⟨_, carried, rfl, rfl, ?_⟩
      exact ⟨h.covers, h.size_eq, h.inRange, h.holds, ⟨values, hring', hnotes⟩, h.sent_eq,
        h.ordered⟩
  · exact ⟨s, carried, rfl, rfl, h⟩

/-! ## What the consumer does -/

/-- Taking a note from the ring, if there is one. -/
lemma Sound.dequeue (h : s.Sound payloads capacity carried) :
    ∃ s' carried', s.dequeue = .ok s' ∧ s'.allocator = s.allocator ∧
      s'.Sound payloads capacity carried' := by
  rw [Handoff.dequeue]
  split
  · next htaken =>
    obtain ⟨values, hring, hnotes⟩ := h.queued
    obtain ⟨ring, hperform, hring'⟩ := hring.dequeue
    rw [htaken] at hnotes
    simp only [BoundedQueue.perform, not_true_eq_false, if_false] at hperform hring'
    cases values with
    | nil =>
      simp only [hperform, bind, Except.bind, pure, Except.pure]
      refine ⟨_, carried, rfl, rfl, ?_⟩
      exact ⟨h.covers, h.size_eq, h.inRange, h.holds, ⟨[], hring', hnotes⟩, h.sent_eq, h.ordered⟩
    | cons value rest =>
      simp only [hperform, bind, Except.bind, pure, Except.pure]
      refine ⟨_, carried, rfl, rfl, ?_⟩
      exact ⟨h.covers, h.size_eq, h.inRange, h.holds, ⟨rest, hring', hnotes⟩, h.sent_eq, h.ordered⟩
  · exact ⟨s, carried, rfl, rfl, h⟩

/-- Reading the bytes that a note tells of. -/
lemma Sound.read (h : s.Sound payloads capacity carried) :
    ∃ s' carried', s.read = .ok s' ∧ s'.allocator = s.allocator ∧
      s'.Sound payloads capacity carried' := by
  rw [Handoff.read]
  split
  · next handle length htaken =>
    obtain ⟨values, hring, hnotes⟩ := h.queued
    rw [htaken] at hnotes
    obtain ⟨p, rest, rfl, hp, hrest⟩ := List.map_eq_cons_iff.1 hnotes.symm
    obtain ⟨rfl, rfl⟩ := Prod.mk.inj hp
    have hmem : p ∈ p :: rest := List.mem_cons_self
    have hbytes : s.allocator.region.bytes s.bytes p.handle p.payload.length = some p.payload := by
      rw [Region.bytes, h.inRange p (List.mem_append_left _ hmem), Option.map_some,
        h.holds p (List.mem_append_left _ hmem)]
    simp only [hbytes, pure, Except.pure]
    refine ⟨_, rest, rfl, rfl, ?_⟩
    refine ⟨h.covers.subperm (List.sublist_cons_self ..).subperm, h.size_eq,
      fun q hq => h.inRange q (List.mem_cons_of_mem _ hq),
      fun q hq => h.holds q (List.mem_cons_of_mem _ hq), ⟨values, hring, hrest.symm⟩, ?_, h.ordered⟩
    rw [h.sent_eq, List.map_cons, List.append_assoc]
    rfl
  · exact ⟨s, carried, rfl, rfl, h⟩

/-! ## Every row of steps -/

/-- Nothing but a request changes the allocator, or can fail. -/
lemma Sound.step_of_ne (h : s.Sound payloads capacity carried) {event : Event}
    (hne : event ≠ .allocate) :
    ∃ s' carried', s.step event = .ok s' ∧ s'.allocator = s.allocator ∧
      s'.Sound payloads capacity carried' := by
  cases event with
  | allocate => exact absurd rfl hne
  | copy => exact h.copy
  | enqueue => exact h.enqueue
  | dequeue => exact h.dequeue
  | read => exact h.read
  | consume =>
    obtain ⟨t, between, hdequeue, hsame, ht⟩ := h.dequeue
    obtain ⟨s', carried', hread, hsame', hs'⟩ := ht.read
    exact ⟨s', carried', bind_eq_ok_iff.2 ⟨t, hdequeue, hread⟩, hsame'.trans hsame, hs'⟩

/-- **Every step keeps it.** -/
theorem Sound.step (h : s.Sound payloads capacity carried) {event : Event}
    (hok : s.step event = .ok s') : ∃ carried', s'.Sound payloads capacity carried' := by
  by_cases hevent : event = .allocate
  · subst hevent
    exact ⟨carried, h.allocate hok⟩
  · obtain ⟨t, carried', hstep, -, ht⟩ := h.step_of_ne hevent
    obtain rfl := Except.ok.inj (hstep.symm.trans hok)
    exact ⟨carried', ht⟩

/-- No step fails, as long as a word can count the claims. -/
lemma Sound.exists_step (h : s.Sound payloads capacity carried)
    (hbudget : s.allocator.budget < Word.limit) (event : Event) :
    ∃ s', s.step event = .ok s' ∧ s'.allocator.budget ≤ s.allocator.budget := by
  by_cases hevent : event = .allocate
  · subst hevent
    rw [Handoff.step, Handoff.allocate]
    split
    · next payload pending _ _ =>
      obtain ⟨handle, alloc, hallocate, hle⟩ :=
        h.covers.exists_allocateBytes hbudget payload.length
      simp only [hallocate, bind, Except.bind, pure, Except.pure]
      exact ⟨_, rfl, hle⟩
    · exact ⟨s, rfl, Nat.le_refl _⟩
  · obtain ⟨t, -, hstep, hsame, -⟩ := h.step_of_ne hevent
    exact ⟨t, hstep, Nat.le_of_eq (congrArg Allocator.budget hsame)⟩

/-- **Every run keeps it.** -/
theorem Sound.run (h : s.Sound payloads capacity carried) {events : List Event}
    (hok : s.run events = .ok s') : ∃ carried', s'.Sound payloads capacity carried' := by
  induction events generalizing s carried with
  | nil => exact ⟨carried, Except.ok.inj hok ▸ h⟩
  | cons event events ih =>
    obtain ⟨t, hstep, hrun⟩ := bind_eq_ok_iff.1 hok
    obtain ⟨_, ht⟩ := h.step hstep
    exact ih ht hrun

/-- **No run fails**, as long as a word can count the claims. -/
theorem Sound.exists_run (h : s.Sound payloads capacity carried)
    (hbudget : s.allocator.budget < Word.limit) (events : List Event) :
    ∃ s', s.run events = .ok s' := by
  induction events generalizing s carried with
  | nil => exact ⟨s, rfl⟩
  | cons event events ih =>
    obtain ⟨t, hstep, hle⟩ := h.exists_step hbudget event
    obtain ⟨_, ht⟩ := h.step hstep
    obtain ⟨s', hrun⟩ := ih ht (Nat.lt_of_le_of_lt hle hbudget)
    exact ⟨s', bind_eq_ok_iff.2 ⟨t, hstep, hrun⟩⟩

/-! ## From the start -/

/-- Before anything happened. -/
def start (alloc : Allocator) (bytes : Buffer) (ring : Ring (Handle × Nat))
    (payloads : List (List UInt8)) : Handoff :=
  { allocator := alloc, bytes, ring, pending := payloads }

lemma sound_start {alloc : Allocator} {bytes : Buffer} {ring : Ring (Handle × Nat)}
    (hfresh : alloc.Fresh) (hsize : bytes.size = alloc.region.capacity)
    (hring : ring.Represents ⟨capacity - 1, [], true, true⟩) (payloads : List (List UInt8)) :
    (start alloc bytes ring payloads).Sound payloads capacity [] where
  covers := hfresh.covers
  size_eq := hsize
  inRange _ hp := absurd hp List.not_mem_nil
  holds _ hp := absurd hp List.not_mem_nil
  queued := ⟨[], hring, rfl⟩
  sent_eq := rfl
  ordered := List.Sublist.refl payloads

/-- What is on the way fits the ring, but for what the consumer took from it. -/
lemma Sound.length_sent (h : s.Sound payloads capacity carried) :
    s.sent.length ≤ s.received.length + s.taken.toList.length + (capacity - 1) := by
  obtain ⟨values, hring, hnotes⟩ := h.queued
  have hroom : values.length ≤ s.ring.buffer.mask := hring.holds.length_le
  have hmask : capacity - 1 = s.ring.buffer.mask := hring.bound_eq
  have hlength := congrArg List.length hnotes
  rw [List.length_append, List.length_map] at hlength
  rw [h.sent_eq, List.length_append, List.length_map]
  omega

/-- What was read is not in hand any more. -/
lemma taken_of_read (hok : s.read = .ok s') : s'.taken = none := by
  rw [Handoff.read] at hok
  split at hok
  · split at hok
    · exact Except.ok.inj hok ▸ rfl
    · cases hok
  · next htaken => exact Except.ok.inj hok ▸ htaken

/-- The producer takes nothing out of the consumer's hand. -/
lemma taken_of_allocate (hok : s.allocate = .ok s') : s'.taken = s.taken := by
  rw [Handoff.allocate] at hok
  split at hok
  · obtain ⟨_, -, hok⟩ := bind_eq_ok_iff.1 hok
    exact Except.ok.inj hok ▸ rfl
  · exact Except.ok.inj hok ▸ rfl

lemma taken_of_copy (hok : s.copy = .ok s') : s'.taken = s.taken := by
  rw [Handoff.copy] at hok
  split at hok
  · split at hok
    · exact Except.ok.inj hok ▸ rfl
    · cases hok
  · exact Except.ok.inj hok ▸ rfl

lemma taken_of_enqueue (hok : s.enqueue = .ok s') : s'.taken = s.taken := by
  rw [Handoff.enqueue] at hok
  split at hok
  · obtain ⟨⟨answer, ring⟩, -, hok⟩ := bind_eq_ok_iff.1 hok
    dsimp only at hok
    split at hok
    · exact Except.ok.inj hok ▸ rfl
    · exact Except.ok.inj hok ▸ rfl
  · exact Except.ok.inj hok ▸ rfl

/-- A consumer that reads at once what it takes has nothing in hand between its steps. -/
lemma taken_eq_none_of_step {event : Event} (hevent : event ≠ .dequeue) (htaken : s.taken = none)
    (hok : s.step event = .ok s') : s'.taken = none := by
  cases event with
  | allocate => exact (taken_of_allocate hok).trans htaken
  | copy => exact (taken_of_copy hok).trans htaken
  | enqueue => exact (taken_of_enqueue hok).trans htaken
  | dequeue => exact absurd rfl hevent
  | read => exact taken_of_read hok
  | consume =>
    obtain ⟨_, -, hread⟩ := bind_eq_ok_iff.1 hok
    exact taken_of_read hread

lemma taken_eq_none_of_run {events : List Event} (hevents : .dequeue ∉ events)
    (htaken : s.taken = none) (hok : s.run events = .ok s') : s'.taken = none := by
  induction events generalizing s with
  | nil => exact Except.ok.inj hok ▸ htaken
  | cons event events ih =>
    rw [List.mem_cons, not_or] at hevents
    obtain ⟨t, hstep, hrun⟩ := bind_eq_ok_iff.1 hok
    exact ih hevents.2 (taken_eq_none_of_step (Ne.symm hevents.1) htaken hstep) hrun

/-- **What the consumer reads is what the producer sent,** byte for byte and in order.  Take an
allocator that granted nothing yet, a new ring and any payloads, and let the two take turns in any
way.  What was read is the beginning of what was sent.  Whenever the consumer has read what it took,
it is behind by no more than fits the ring, and when it reads at once what it takes, that is always.
What was sent are payloads in their order.  Nothing fails on the way, unless the claims for the chunk
came close to the largest word before. -/
theorem received_of_run {alloc : Allocator} {bytes : Buffer} {slot : Layout} {capacity : Nat}
    {ring : Ring (Handle × Nat)} (hfresh : alloc.Fresh)
    (hsize : bytes.size = alloc.region.capacity) (hlimit : capacity < Word.limit)
    (hring : Ring.make slot capacity = .ok (.ok ring)) (payloads : List (List UInt8))
    (events : List Event) :
    (∀ s, (start alloc bytes ring payloads).run events = .ok s →
      s.received <+: s.sent ∧ s.sent.Sublist payloads ∧
        (s.taken = none → s.sent.length ≤ s.received.length + (capacity - 1)) ∧
        (.dequeue ∉ events → s.taken = none)) ∧
      (alloc.claims + maxCapacity < Word.limit →
        ∃ s, (start alloc bytes ring payloads).run events = .ok s) := by
  have hstart := sound_start hfresh hsize (Ring.of_make hlimit hring).2 payloads
  refine ⟨fun s hrun => ?_, fun hclaims => ?_⟩
  · obtain ⟨carried, hs⟩ := hstart.run hrun
    refine ⟨?_, ?_, ?_, fun hevents => taken_eq_none_of_run hevents rfl hrun⟩
    · rw [hs.sent_eq]
      exact List.prefix_append ..
    · refine List.Sublist.trans ?_ hs.ordered
      rw [List.append_assoc]
      exact List.sublist_append_left ..
    · intro htaken
      have hlength := hs.length_sent
      rw [htaken] at hlength
      exact hlength
  · exact hstart.exists_run (Nat.lt_of_le_of_lt hfresh.budget_le hclaims) events

/-- The second payload has to wait until the consumer took the first one, and is stored before that
one is read. -/
def oneAtATime : List Event :=
  [.allocate, .copy, .enqueue, .allocate, .copy, .enqueue, .dequeue, .enqueue, .read, .allocate,
    .consume, .copy, .enqueue, .allocate]

/-- In a ring with room for one note, the third payload, which is empty, is still on the way.  The
fourth one is larger than the arena. -/
theorem received_of_run_oneAtATime :
    ∃ (a : ChunkedArena) (s' : Storage) (ring : Ring (Handle × Nat)),
      (ChunkedArena.make ⟨4096, 64, 128⟩).run default = .ok a s' ∧
      Ring.make ⟨16, ⟨8, by decide⟩, by decide, by decide⟩ 2 = .ok (.ok ring) ∧
      ∃ s, (start (.chunked a {}) (s'.contents a.region) ring
          [[1, 2, 3], [4], [], List.replicate 5000 5]).run oneAtATime = .ok s ∧
        s.sent = [[1, 2, 3], [4], []] ∧ s.received = [[1, 2, 3], [4]] ∧
        s.received <+: s.sent ∧ s.sent.length ≤ s.received.length + 1 := by
  obtain ⟨a, s', hmake, howns, hrun⟩ :
      ∃ (a : ChunkedArena) (s' : Storage),
        (ChunkedArena.make ⟨4096, 64, 128⟩).run default = .ok a s' ∧ a.owns {} = false ∧
        ((start (.chunked a {}) (s'.contents a.region) (.fresh _ 2)
          [[1, 2, 3], [4], [], List.replicate 5000 5]).run oneAtATime).toOption.map (fun s =>
            (s.sent, s.received, s.taken)) = some ([[1, 2, 3], [4], []], [[1, 2, 3], [4]], none) :=
    ⟨_, _, rfl, by decide +kernel, by decide +kernel⟩
  have hring : Ring.make ⟨16, ⟨8, by decide⟩, by decide, by decide⟩ 2 =
      .ok (.ok (.fresh (Handle × Nat) 2)) := rfl
  have hfresh : (Allocator.chunked a {}).Fresh := .chunked (.made hmake) howns
  obtain ⟨hends, hexists⟩ := received_of_run hfresh (Region.size_contents s' a.region) (by decide)
    hring [[1, 2, 3], [4], [], List.replicate 5000 5] oneAtATime
  obtain ⟨s, hs⟩ := hexists (show 0 + maxCapacity < Word.limit by decide)
  obtain ⟨hreceived, -, hlength, -⟩ := hends s hs
  obtain ⟨hsent, hread, htaken⟩ :
      s.sent = [[1, 2, 3], [4], []] ∧ s.received = [[1, 2, 3], [4]] ∧ s.taken = none := by
    rw [hs] at hrun
    simpa only [Except.toOption, Option.map_some, Option.some.injEq, Prod.mk.injEq] using hrun
  exact ⟨a, s', _, hmake, hring, s, hs, hsent, hread, hreceived, hlength htaken⟩

end Handoff

end BumpArena
