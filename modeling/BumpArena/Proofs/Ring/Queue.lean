import BumpArena.Proofs.Ring.Contents

/-!
# Rings as queues

A `BoundedQueue` is what a ring is used as: a list of values with room for a fixed number, and two
halves that can be let go of.  A `Ring.Call` is anything that can be asked of a half, and
`Ring.perform` and `BoundedQueue.perform` answer it, the one with slots, positions and what the
halves remember, the other with the list.

`Ring.Represents` relates the two, and every call keeps it (`Ring.Represents.perform`).  So all runs
of a ring get the answers of the queue (`Ring.answers_eq_queue`).  In particular none of them ends
in a fault, and to read a slot in which nothing was stored is one.
-/

namespace BumpArena

/-- One of the two halves of a ring. -/
inductive Ring.Half where
  | producer
  | consumer
  deriving DecidableEq, Repr

/-- What can be asked of a half of a ring. -/
inductive Ring.Call (α : Type) where
  /-- The producer stores a value. -/
  | enqueue (value : α)
  /-- The consumer takes a value. -/
  | dequeue
  /-- The consumer takes all values, and puts them behind others. -/
  | drain (into : List α)
  | length (half : Half)
  | isEmpty (half : Half)
  | isFull (half : Half)
  | isAbandoned (half : Half)
  | drop (half : Half)
  deriving DecidableEq, Repr

/-- What a half answers. -/
inductive Ring.Answer (α : Type) where
  /-- The half was let go of before. -/
  | absent
  | stored (done : Bool)
  | taken (value : Option α)
  /-- The values before and those that were taken, and the number of those that were taken. -/
  | drained (values : List α) (count : Nat)
  | length (count : Nat)
  | verdict (holds : Bool)
  | dropped
  deriving DecidableEq, Repr

/-! ## The ring -/

namespace Ring

variable {α : Type}

/-- Whether a half is still held. -/
def has (r : Ring α) : Half → Bool
  | .producer => r.producer.isSome
  | .consumer => r.consumer.isSome

/-- What a half answers that changes nothing. -/
def ask (r : Ring α) (half : Half) (answer : Answer α) : Checked (Answer α × Ring α) :=
  .ok (if r.has half then answer else .absent, r)

/-- Whether a half finds the ring empty. -/
def isEmptyFor (r : Ring α) : Half → Bool
  | .producer => Producer.isEmpty r.buffer
  | .consumer => Consumer.isEmpty r.buffer

/-- Whether a half finds the ring full. -/
def isFullFor (r : Ring α) : Half → Bool
  | .producer => Producer.isFull r.buffer
  | .consumer => Consumer.isFull r.buffer

/-- Lets go of a half. -/
def drop (r : Ring α) : Half → Ring α
  | .producer => r.dropProducer
  | .consumer => r.dropConsumer

/-- The answer to a call, and the ring after it. -/
def perform (r : Ring α) : Call α → Checked (Answer α × Ring α)
  | .enqueue value =>
    match r.producer with
    | none => .ok (.absent, r)
    | some p => do
      let (done, p, buffer) ← p.enqueue r.buffer value
      return (.stored done, { r with buffer, producer := some p })
  | .dequeue =>
    match r.consumer with
    | none => .ok (.absent, r)
    | some c => do
      let (value, c, buffer) ← c.dequeue r.buffer
      return (.taken value, { r with buffer, consumer := some c })
  | .drain into =>
    match r.consumer with
    | none => .ok (.absent, r)
    | some _ => do
      let (values, c, buffer) ← Consumer.drain r.buffer
      return (.drained (into ++ values) values.length, { r with buffer, consumer := some c })
  | .length half => r.ask half (.length r.buffer.length)
  | .isEmpty half => r.ask half (.verdict (r.isEmptyFor half))
  | .isFull half => r.ask half (.verdict (r.isFullFor half))
  | .isAbandoned half => r.ask half (.verdict r.isAbandoned)
  | .drop half => .ok (if r.has half then .dropped else .absent, r.drop half)

/-- The answers to a row of calls, and the ring after them. -/
def run (r : Ring α) : List (Call α) → Checked (List (Answer α) × Ring α)
  | [] => .ok ([], r)
  | call :: calls => do
    let (answer, r) ← r.perform call
    let (answers, r) ← r.run calls
    return (answer :: answers, r)

/-- The answers to a row of calls. -/
def answers (r : Ring α) (calls : List (Call α)) : Checked (List (Answer α)) :=
  (r.run calls).map (·.1)

/-- A ring of so many slots, with both halves. -/
def fresh (α : Type) (capacity : Nat) : Ring α := { buffer := .fresh α capacity }

end Ring

/-! ## The queue -/

/-- Values in a row, and the halves that are still held. -/
structure BoundedQueue (α : Type) where
  /-- The number of values that there is room for. -/
  bound : Nat
  /-- The values, oldest first. -/
  values : List α := []
  producer : Bool := true
  consumer : Bool := true
  deriving DecidableEq, Repr

namespace BoundedQueue

open BumpArena.Ring (Half Call Answer)

variable {α : Type}

/-- Whether a half is still held. -/
def has (q : BoundedQueue α) : Half → Bool
  | .producer => q.producer
  | .consumer => q.consumer

/-- What a half answers that changes nothing. -/
def ask (q : BoundedQueue α) (half : Half) (answer : Answer α) : Answer α × BoundedQueue α :=
  (if q.has half then answer else .absent, q)

/-- Lets go of a half. -/
def drop (q : BoundedQueue α) : Half → BoundedQueue α
  | .producer => { q with producer := false }
  | .consumer => { q with consumer := false }

/-- The answer to a call, and the queue after it. -/
def perform (q : BoundedQueue α) : Call α → Answer α × BoundedQueue α
  | .enqueue value =>
    if ¬ q.producer then (.absent, q)
    else if q.values.length < q.bound then
      (.stored true, { q with values := q.values ++ [value] })
    else (.stored false, q)
  | .dequeue =>
    if ¬ q.consumer then (.absent, q)
    else
      match q.values with
      | [] => (.taken none, q)
      | value :: rest => (.taken (some value), { q with values := rest })
  | .drain into =>
    if ¬ q.consumer then (.absent, q)
    else (.drained (into ++ q.values) q.values.length, { q with values := [] })
  | .length half => q.ask half (.length q.values.length)
  | .isEmpty half => q.ask half (.verdict q.values.isEmpty)
  | .isFull half => q.ask half (.verdict (q.values.length == q.bound))
  | .isAbandoned half => q.ask half (.verdict (!(q.producer && q.consumer)))
  | .drop half => (if q.has half then .dropped else .absent, q.drop half)

/-- The answers to a row of calls, and the queue after them. -/
def run (q : BoundedQueue α) : List (Call α) → List (Answer α) × BoundedQueue α
  | [] => ([], q)
  | call :: calls =>
    let (answer, q) := q.perform call
    let (answers, q) := q.run calls
    (answer :: answers, q)

end BoundedQueue

/-! ## The two together -/

namespace Ring

variable {α : Type} {r : Ring α} {q : BoundedQueue α}

/-- **The ring stands for the queue.** -/
structure Represents (r : Ring α) (q : BoundedQueue α) : Prop where
  holds : r.buffer.Holds q.values
  bound_eq : q.bound = r.buffer.mask
  has_producer : r.producer.isSome = q.producer
  has_consumer : r.consumer.isSome = q.consumer
  producer_lags : ∀ p ∈ r.producer, p.Lags r.buffer q.values
  consumer_lags : ∀ c ∈ r.consumer, c.Lags r.buffer q.values

namespace Represents

lemma has_eq (h : r.Represents q) (half : Half) : r.has half = q.has half := by
  cases half with
  | producer => exact h.has_producer
  | consumer => exact h.has_consumer

/-- A question has the same answer, if both sides agree on it. -/
lemma ask (h : r.Represents q) (half : Half) {answer answer' : Answer α} (heq : answer = answer') :
    ∃ r', r.ask half answer = .ok ((q.ask half answer').1, r') ∧
      r'.Represents (q.ask half answer').2 := by
  refine ⟨r, ?_, h⟩
  rw [Ring.ask, BoundedQueue.ask, h.has_eq, heq]

lemma enqueue (h : r.Represents q) (value : α) :
    ∃ r', r.perform (.enqueue value) = .ok ((q.perform (.enqueue value)).1, r') ∧
      r'.Represents (q.perform (.enqueue value)).2 := by
  have hhas := h.has_producer
  rw [Ring.perform, BoundedQueue.perform]
  cases hp : r.producer with
  | none =>
    rw [hp] at hhas
    rw [if_pos (by simp [← hhas])]
    exact ⟨r, rfl, h⟩
  | some p =>
    rw [hp] at hhas
    rw [if_neg (by simp [← hhas])]
    rcases (h.producer_lags p hp).enqueue h.holds value with
      ⟨hfull, p', hok, hp'⟩ | ⟨hroom, p', hok, hp'⟩
    · rw [if_neg (by rw [h.bound_eq]; omega)]
      refine ⟨{ r with producer := some p' },
        by simp [hok, bind, Except.bind, pure, Except.pure], ?_⟩
      exact ⟨h.holds, h.bound_eq, hhas, h.has_consumer, by simpa using hp', h.consumer_lags⟩
    · rw [if_pos (by rw [h.bound_eq]; exact hroom)]
      refine ⟨{ r with buffer := r.buffer.stored value, producer := some p' },
        by simp [hok, bind, Except.bind, pure, Except.pure], ?_⟩
      exact ⟨h.holds.stored hroom, h.bound_eq, hhas, h.has_consumer, by simpa using hp',
        fun c hc => (h.consumer_lags c hc).stored⟩

lemma dequeue (h : r.Represents q) :
    ∃ r', r.perform .dequeue = .ok ((q.perform .dequeue).1, r') ∧
      r'.Represents (q.perform .dequeue).2 := by
  have hhas := h.has_consumer
  rw [Ring.perform, BoundedQueue.perform]
  cases hc : r.consumer with
  | none =>
    rw [hc] at hhas
    rw [if_pos (by simp [← hhas])]
    exact ⟨r, rfl, h⟩
  | some c =>
    rw [hc] at hhas
    rw [if_neg (by simp [← hhas])]
    rcases (h.consumer_lags c hc).dequeue h.holds with
      ⟨hempty, c', hok, hc'⟩ | ⟨value, rest, hvalues, c', hok, hc'⟩
    · rw [hempty]
      refine ⟨{ r with consumer := some c' },
        by simp [hok, bind, Except.bind, pure, Except.pure], ?_⟩
      exact ⟨h.holds, h.bound_eq, h.has_producer, hhas, h.producer_lags, by simpa using hc'⟩
    · have hholds := hvalues ▸ h.holds
      rw [hvalues]
      refine ⟨{ r with buffer := r.buffer.taken, consumer := some c' },
        by simp [hok, bind, Except.bind, pure, Except.pure], ?_⟩
      exact ⟨hholds.taken, h.bound_eq, h.has_producer, hhas,
        fun p hp => (hvalues ▸ h.producer_lags p hp).taken hholds, by simpa using hc'⟩

lemma drain (h : r.Represents q) (into : List α) :
    ∃ r', r.perform (.drain into) = .ok ((q.perform (.drain into)).1, r') ∧
      r'.Represents (q.perform (.drain into)).2 := by
  have hhas := h.has_consumer
  rw [Ring.perform, BoundedQueue.perform]
  cases hc : r.consumer with
  | none =>
    rw [hc] at hhas
    rw [if_pos (by simp [← hhas])]
    exact ⟨r, rfl, h⟩
  | some c =>
    rw [hc] at hhas
    rw [if_neg (by simp [← hhas])]
    obtain ⟨c', hok, hc'⟩ := h.holds.drain
    refine ⟨{ r with buffer := r.buffer.drained, consumer := some c' },
      by simp [hok, bind, Except.bind, pure, Except.pure], ?_⟩
    exact ⟨h.holds.drained, h.bound_eq, h.has_producer, hhas,
      fun p hp => (h.producer_lags p hp).drained h.holds, by simpa using hc'⟩

lemma drop (h : r.Represents q) (half : Half) : (r.drop half).Represents (q.drop half) := by
  cases half with
  | producer =>
    exact ⟨h.holds, h.bound_eq, rfl, h.has_consumer, by simp [Ring.drop, dropProducer],
      h.consumer_lags⟩
  | consumer =>
    exact ⟨h.holds, h.bound_eq, h.has_producer, rfl, h.producer_lags,
      by simp [Ring.drop, dropConsumer]⟩

lemma isEmptyFor_eq (h : r.Represents q) (half : Half) :
    r.isEmptyFor half = q.values.isEmpty := by
  cases half with
  | producer =>
    rw [isEmptyFor, Producer.isEmpty, h.holds.length_eq]
    cases q.values <;> rfl
  | consumer =>
    rw [isEmptyFor, Consumer.isEmpty, Bool.eq_iff_iff, beq_iff_eq, h.holds.head_eq_tail_iff,
      List.isEmpty_iff]

lemma isFullFor_eq (h : r.Represents q) (half : Half) :
    r.isFullFor half = (q.values.length == q.bound) := by
  cases half with
  | producer =>
    rw [isFullFor, Producer.isFull, Bool.eq_iff_iff, beq_iff_eq, beq_iff_eq,
      h.holds.following_tail_eq_head_iff, h.bound_eq]
  | consumer => rw [isFullFor, Consumer.isFull, h.holds.length_eq, h.bound_eq]

/-- **Every call has the same answer,** and the ring stands for the queue after it too. -/
theorem perform (h : r.Represents q) (call : Call α) :
    ∃ r', r.perform call = .ok ((q.perform call).1, r') ∧ r'.Represents (q.perform call).2 := by
  cases call with
  | enqueue value => exact h.enqueue value
  | dequeue => exact h.dequeue
  | drain into => exact h.drain into
  | length half => exact h.ask half (congrArg Answer.length h.holds.length_eq)
  | isEmpty half => exact h.ask half (congrArg Answer.verdict (h.isEmptyFor_eq half))
  | isFull half => exact h.ask half (congrArg Answer.verdict (h.isFullFor_eq half))
  | isAbandoned half =>
    refine h.ask half (congrArg Answer.verdict ?_)
    rw [isAbandoned, ← h.has_producer, ← h.has_consumer]
    cases r.producer <;> cases r.consumer <;> rfl
  | drop half =>
    refine ⟨r.drop half, ?_, h.drop half⟩
    rw [Ring.perform, BoundedQueue.perform, h.has_eq]

/-- **Every run has the same answers.** -/
theorem run (h : r.Represents q) (calls : List (Call α)) :
    ∃ r', r.run calls = .ok ((q.run calls).1, r') ∧ r'.Represents (q.run calls).2 := by
  induction calls generalizing r q with
  | nil => exact ⟨r, rfl, h⟩
  | cons call calls ih =>
    obtain ⟨r', hperform, h'⟩ := h.perform call
    obtain ⟨r'', hrun, h''⟩ := ih h'
    refine ⟨r'', ?_, h''⟩
    simp only [Ring.run, BoundedQueue.run, hperform, hrun, bind, Except.bind, pure, Except.pure]

lemma answers_eq (h : r.Represents q) (calls : List (Call α)) :
    r.answers calls = .ok (q.run calls).1 := by
  obtain ⟨r', hrun, -⟩ := h.run calls
  rw [answers, hrun]
  rfl

end Represents

/-- A ring can be made of every power of two from two on, unless the slots are more bytes than
memory can have in a row. -/
lemma make_eq (slot : Layout) {capacity : Nat} (htwo : 2 ≤ capacity)
    (hpower : isPowerOfTwo capacity = true) :
    (make slot capacity : Checked (Except RingError (Ring α))) =
      if capacity * slot.size ≤ Word.maxRow then .ok (.ok (fresh α capacity))
      else .error .capacityOverflow := by
  simp only [make, RingBuffer.make, if_neg (Nat.not_lt.2 htwo), hpower, not_true_eq_false, if_false,
    Word.reserve]
  split <;> rfl

/-- A new ring stands for an empty queue, with room for one value less than it has slots. -/
lemma represents_fresh {capacity : Nat} (hlimit : capacity < Word.limit)
    (hpower : isPowerOfTwo capacity = true) :
    (fresh α capacity).Represents ⟨capacity - 1, [], true, true⟩ := by
  obtain ⟨k, rfl⟩ := exists_eq_two_pow hpower
  have hk : k ≤ 64 := by
    have hword : Word.limit = 2 ^ 64 := by decide
    rw [hword] at hlimit
    exact Nat.le_of_lt ((Nat.pow_lt_pow_iff_right (by decide)).1 hlimit)
  have hholds : (RingBuffer.fresh α (2 ^ k)).Holds [] := RingBuffer.holds_fresh hk
  refine ⟨hholds, rfl, rfl, rfl, ?_, ?_⟩
  · rintro p ⟨⟩
    exact Producer.lags_head hholds
  · rintro c ⟨⟩
    exact Consumer.lags_tail hholds

/-- A ring that was made stands for an empty queue. -/
lemma of_make {slot : Layout} {capacity : Nat} {r : Ring α} (hlimit : capacity < Word.limit)
    (hmake : make slot capacity = .ok (.ok r)) :
    2 ≤ capacity ∧ r.Represents ⟨capacity - 1, [], true, true⟩ := by
  by_cases htwo : 2 ≤ capacity
  · by_cases hpower : isPowerOfTwo capacity = true
    · rw [make_eq slot htwo hpower] at hmake
      split at hmake
      · obtain rfl : fresh α capacity = r := by simpa using hmake
        exact ⟨htwo, represents_fresh hlimit hpower⟩
      · cases hmake
    · simp [make, RingBuffer.make, Nat.not_lt.2 htwo, hpower, bind, Except.bind, pure, Except.pure,
        Except.map] at hmake
  · simp [make, RingBuffer.make, Nat.not_le.1 htwo, bind, Except.bind, pure, Except.pure,
      Except.map] at hmake

end Ring

/-! ## What queues have in common with their runs -/

namespace BoundedQueue

open BumpArena.Ring (Half Call Answer)

variable {α : Type}

lemma run_append (q : BoundedQueue α) (calls more : List (Call α)) :
    q.run (calls ++ more) =
      ((q.run calls).1 ++ ((q.run calls).2.run more).1, ((q.run calls).2.run more).2) := by
  induction calls generalizing q with
  | nil => rfl
  | cons call calls ih => simp only [List.cons_append, run, ih]

lemma length_run (q : BoundedQueue α) (calls : List (Call α)) :
    (q.run calls).1.length = calls.length := by
  induction calls generalizing q with
  | nil => rfl
  | cons call calls ih => simp only [run, List.length_cons, ih]

/-- Taking values one by one until there are none left is taking them all. -/
lemma run_dequeues (q : BoundedQueue α) (hconsumer : q.consumer = true) :
    q.run (List.replicate (q.values.length + 1) .dequeue) =
      (q.values.map (fun value => .taken (some value)) ++ [.taken none],
        { q with values := [] }) := by
  obtain ⟨bound, values, producer, consumer⟩ := q
  obtain rfl : consumer = true := hconsumer
  induction values with
  | nil => rfl
  | cons value rest ih =>
    rw [List.length_cons, List.replicate_succ, run]
    simp only [perform, not_true_eq_false, if_false]
    rw [ih]
    rfl

/-- The consumer is held until it is let go of. -/
lemma consumer_perform {q : BoundedQueue α} {call : Call α} (hheld : call ≠ .drop .consumer) :
    (q.perform call).2.consumer = q.consumer := by
  cases call with
  | drop half =>
    cases half with
    | producer => rfl
    | consumer => exact absurd rfl hheld
  | _ => grind [perform, ask]

lemma consumer_run {q : BoundedQueue α} {calls : List (Call α)}
    (hheld : .drop .consumer ∉ calls) : (q.run calls).2.consumer = q.consumer := by
  induction calls generalizing q with
  | nil => rfl
  | cons call calls ih =>
    rw [List.mem_cons, not_or] at hheld
    exact (ih hheld.2).trans (consumer_perform (Ne.symm hheld.1))

/-- A value that is refused changes nothing. -/
lemma perform_enqueue_of_not_stored {q : BoundedQueue α} {value : α}
    (hrefused : (q.perform (.enqueue value)).1 ≠ .stored true) :
    (q.perform (.enqueue value)).2 = q := by
  grind [perform]

end BoundedQueue

/-! ## Every run of every ring -/

namespace Ring

variable {α : Type}

/-- **A ring is a bounded queue.**  A ring can be made of every power of two from two on for which
there is memory.  Whatever is asked of its halves, in whatever order and whether or not one of them
was let go of, it answers as a queue does that has room for one value less.  So nothing but what was
stored is ever read.  A value that is refused makes no difference to any later answer, and nor does
it make one whether values are taken all at once or one by one. -/
theorem answers_eq_queue (slot : Layout) {capacity : Nat} (hlimit : capacity < Word.limit)
    (htwo : 2 ≤ capacity) (hpower : isPowerOfTwo capacity = true) :
    (make slot capacity : Checked (Except RingError (Ring α))) =
        (if capacity * slot.size ≤ Word.maxRow then .ok (.ok (fresh α capacity))
          else .error .capacityOverflow) ∧
      (∀ calls : List (Call α), (fresh α capacity).answers calls =
        .ok ((⟨capacity - 1, [], true, true⟩ : BoundedQueue α).run calls).1) ∧
      (∀ (before : List (Call α)) (value : α) (later : List (Call α)),
        ∃ early answer late, early.length = before.length ∧
          (fresh α capacity).answers (before ++ .enqueue value :: later) =
            .ok (early ++ answer :: late) ∧
          (answer ≠ .stored true →
            (fresh α capacity).answers (before ++ later) = .ok (early ++ late))) ∧
      ∀ (before : List (Call α)) (into : List α) (later : List (Call α)),
        .drop .consumer ∉ before → ∃ early values late, early.length = before.length ∧
          (fresh α capacity).answers (before ++ .drain into :: later) =
            .ok (early ++ .drained (into ++ values) values.length :: late) ∧
          (fresh α capacity).answers
              (before ++ (List.replicate (values.length + 1) .dequeue ++ later)) =
            .ok (early ++ (values.map (fun value => .taken (some value)) ++ .taken none :: late)) := by
  have hfresh : (fresh α capacity).Represents ⟨capacity - 1, [], true, true⟩ :=
    represents_fresh hlimit hpower
  generalize hq : (⟨capacity - 1, [], true, true⟩ : BoundedQueue α) = q at hfresh ⊢
  refine ⟨make_eq slot htwo hpower, hfresh.answers_eq, ?_, ?_⟩
  · intro before value later
    let q' := (q.run before).2
    refine ⟨(q.run before).1, (q'.perform (.enqueue value)).1,
      ((q'.perform (.enqueue value)).2.run later).1, q.length_run before, ?_, ?_⟩
    · rw [hfresh.answers_eq, BoundedQueue.run_append]
      rfl
    · intro hrefused
      rw [hfresh.answers_eq, BoundedQueue.run_append,
        BoundedQueue.perform_enqueue_of_not_stored hrefused]
  · intro before into later hheld
    let q' := (q.run before).2
    have hconsumer : q'.consumer = true := by
      rw [BoundedQueue.consumer_run hheld, ← hq]
    have hdrain : q'.perform (.drain into) =
        (.drained (into ++ q'.values) q'.values.length, { q' with values := [] }) := by
      rw [BoundedQueue.perform, if_neg (by simp [hconsumer])]
    refine ⟨(q.run before).1, q'.values, (({ q' with values := [] } : BoundedQueue α).run later).1,
      q.length_run before, ?_, ?_⟩
    · rw [hfresh.answers_eq, BoundedQueue.run_append, BoundedQueue.run, hdrain]
    · rw [hfresh.answers_eq, BoundedQueue.run_append, BoundedQueue.run_append,
        q'.run_dequeues hconsumer, List.append_assoc, List.singleton_append]

/-- Four slots hold three values.  The producer finds the ring full before it looks again, positions
wrap around, and what is left when the producer was let go of can still be taken. -/
theorem answers_eq_queue_four :
    (fresh UInt64 4).answers
        [.dequeue, .enqueue 1, .enqueue 2, .enqueue 3, .enqueue 4, .isFull .producer, .dequeue,
          .enqueue 5, .length .consumer, .drop .producer, .enqueue 6, .dequeue, .drain [7]] =
      .ok [.taken none, .stored true, .stored true, .stored true, .stored false, .verdict true,
        .taken (some 1), .stored true, .length 3, .dropped, .absent, .taken (some 2),
        .drained [7, 3, 5] 2] ∧
      ∃ early values late, early.length = 1 ∧
        (fresh UInt64 4).answers [.enqueue 1, .drain [7], .isEmpty .producer] =
          .ok (early ++ .drained (7 :: values) values.length :: late) ∧
        (fresh UInt64 4).answers
            ([.enqueue 1] ++ (List.replicate (values.length + 1) .dequeue ++ [.isEmpty .producer])) =
          .ok (early ++ (values.map (fun value => .taken (some value)) ++ .taken none :: late)) := by
  obtain ⟨-, hanswers, -, hdrain⟩ :=
    @answers_eq_queue UInt64 ⟨8, ⟨8, by decide⟩, by decide, by decide⟩ 4 (by decide) (by decide)
      (by decide)
  refine ⟨?_, hdrain [.enqueue 1] [7] [.isEmpty .producer] (by decide)⟩
  rw [hanswers]
  rfl

end Ring

end BumpArena
