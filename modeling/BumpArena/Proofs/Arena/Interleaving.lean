import Mathlib.Logic.Function.Basic
import BumpArena.Proofs.Arena.Starting
import BumpArena.Proofs.Arena.Translation

/-!
# The order in which threads allocate

Several threads serve themselves from one arena, each from a chunk of its own.  Which bytes a thread
gets depends on the order in which the threads claim chunks.  How many it claims does not, and with
it neither whether all requests are granted nor what is left at the end: that is
`ChunkedArena.allocateAll_of_interleaving`.

**Two requests of different threads can change places** (`GrantsAll.swap`).  Each is granted where
the other one was, from a chunk that lies elsewhere but serves alike, and takes as many bytes from
the counter.  What the two take together is the same in both orders, and the one that is first now
stands no further up than before, so that no order exhausts the counter when one does not.  Any two
orders that agree on each thread are then brought together from the front: the first request of the
one is moved to the front of the other (`GrantsAll.delay`), and the rest is the same question again.
-/

namespace BumpArena

namespace ChunkedArena

/-! ## Rows of calls -/

variable {κ : Type} [DecidableEq κ]

/-- Serves a row of requests, each from the chunk that it names. -/
def allocateAll (a : ChunkedArena) (chunks : κ → LocalChunk) :
    List (κ × Request) → Checked (List Handle × (κ → LocalChunk) × ChunkedArena)
  | [] => .ok ([], chunks, a)
  | (k, request) :: calls => do
    let (h, c, a) ← a.allocate (chunks k) request
    let (handles, chunks, a) ← a.allocateAll (Function.update chunks k c) calls
    return (h :: handles, chunks, a)

/-- The requests of one chunk among calls, in order. -/
def requestsOf (k : κ) (calls : List (κ × Request)) : List Request :=
  (calls.filter (·.1 = k)).map (·.2)

/-- **Interleavings**: calls that make the requests of each chunk in the order of its own list. -/
def Interleaving (lists : κ → List Request) (calls : List (κ × Request)) : Prop :=
  ∀ k, requestsOf k calls = lists k

/-- A row of calls that are all granted: the chunks and the arena after it. -/
inductive GrantsAll : ChunkedArena → (κ → LocalChunk) → List (κ × Request) →
    (κ → LocalChunk) → ChunkedArena → Prop
  | nil {a : ChunkedArena} {chunks : κ → LocalChunk} : GrantsAll a chunks [] chunks a
  | cons {a a' : ChunkedArena} {chunks chunks' : κ → LocalChunk} {k : κ} {request : Request}
      {calls : List (κ × Request)} {h : Handle} {d : LocalChunk} {n : Nat}
      (halign : request.layout.align.bytes ≤ cacheLine.bytes)
      (hgrants : a.Grants (chunks k) request h d n) (hnull : h.isNull = false)
      (hrest : GrantsAll (a.advance n) (Function.update chunks k d) calls chunks' a') :
      GrantsAll a chunks ((k, request) :: calls) chunks' a'

variable {a a' : ChunkedArena} {chunks chunks' others ends : κ → LocalChunk}
  {calls : List (κ × Request)} {handles : List Handle} {k : κ}

/-- A row of calls yields a result when the first one and the others do. -/
lemma allocateAll_cons_eq_ok_iff {request : Request} :
    a.allocateAll chunks ((k, request) :: calls) = .ok (handles, chunks', a') ↔
      ∃ h d b later, a.allocate (chunks k) request = .ok (h, d, b) ∧
        b.allocateAll (Function.update chunks k d) calls = .ok (later, chunks', a') ∧
        handles = h :: later := by
  simp only [allocateAll, bind_eq_ok_iff, pure, Except.pure, Except.ok.injEq, Prod.mk.injEq]
  constructor
  · rintro ⟨⟨h, d, b⟩, hfirst, ⟨later, _, _⟩, hrest, rfl, rfl, rfl⟩
    exact ⟨h, d, b, later, hfirst, hrest, rfl⟩
  · rintro ⟨h, d, b, later, hfirst, hrest, rfl⟩
    exact ⟨(h, d, b), hfirst, (later, chunks', a'), hrest, rfl, rfl, rfl⟩

/-- An arena that has not refused a claim. -/
structure Open (a : ChunkedArena) : Prop where
  sound : a.Sound
  le : a.counter.position ≤ a.counter.capacity

lemma Starting.isOpen (h : Starting a) : a.Open where
  sound := h.sound
  le := h.position_eq ▸ Nat.zero_le _

lemma Open.advance (hopen : a.Open) {c d : LocalChunk} {request : Request} {h : Handle} {n : Nat}
    (hgrants : a.Grants c request h d n) : (a.advance n).Open where
  sound := (hgrants.hasRoom hopen.le).sound hopen.sound
  le := (hgrants.hasRoom hopen.le).le

/-- The rows that are granted are those that the program runs through without a null handle. -/
lemma grantsAll_of_allocateAll (hopen : a.Open)
    (halign : ∀ call ∈ calls, call.2.layout.align.bytes ≤ cacheLine.bytes)
    (hok : a.allocateAll chunks calls = .ok (handles, chunks', a'))
    (hnull : ∀ h ∈ handles, h.isNull = false) : GrantsAll a chunks calls chunks' a' := by
  induction calls generalizing a chunks handles with
  | nil =>
    simp only [allocateAll, Except.ok.injEq, Prod.mk.injEq] at hok
    obtain ⟨-, rfl, rfl⟩ := hok
    exact .nil
  | cons call calls ih =>
    obtain ⟨k, request⟩ := call
    obtain ⟨h, d, b, later, hallocate, hrest, rfl⟩ := allocateAll_cons_eq_ok_iff.1 hok
    have hfirst := hnull h List.mem_cons_self
    obtain ⟨n, hgrants, rfl⟩ := (allocate_eq_ok_iff hopen.sound hfirst).1 hallocate
    refine .cons (halign _ List.mem_cons_self) hgrants hfirst ?_
    exact ih (hopen.advance hgrants) (fun call hcall => halign call (List.mem_cons_of_mem _ hcall))
      hrest fun h hh => hnull h (List.mem_cons_of_mem _ hh)

lemma GrantsAll.exists_allocateAll (hgrants : GrantsAll a chunks calls chunks' a')
    (hopen : a.Open) : ∃ handles, a.allocateAll chunks calls = .ok (handles, chunks', a') ∧
      ∀ h ∈ handles, h.isNull = false := by
  induction hgrants with
  | nil => exact ⟨[], rfl, by simp⟩
  | @cons a _ chunks _ k request calls h d n _ hgrants hnull _ ih =>
    obtain ⟨handles, hrest, hall⟩ := ih (hopen.advance hgrants)
    have hallocate := (allocate_eq_ok_iff hopen.sound hnull).2 ⟨n, hgrants, rfl⟩
    exact ⟨h :: handles, allocateAll_cons_eq_ok_iff.2 ⟨h, d, _, handles, hallocate, hrest, rfl⟩,
      List.forall_mem_cons.2 ⟨hnull, hall⟩⟩

/-! ## Chunks that serve alike -/

lemma alike_update {c d : LocalChunk} (halike : ∀ k, (chunks k).Alike (others k))
    (hd : c.Alike d) (i : κ) :
    (Function.update chunks k c i).Alike (Function.update others k d i) := by
  by_cases hi : i = k
  · subst hi
    simpa using hd
  · simpa [hi] using halike i

/-- Alike chunks serve the same calls, and are alike at the end. -/
lemma GrantsAll.alike (hgrants : GrantsAll a chunks calls chunks' a') (hopen : a.Open)
    (halike : ∀ k, (chunks k).Alike (others k)) :
    ∃ ends, GrantsAll a others calls ends a' ∧ ∀ k, (chunks' k).Alike (ends k) := by
  induction hgrants generalizing others with
  | nil => exact ⟨others, .nil, halike⟩
  | @cons a _ chunks _ k request calls h d n halign hgrants hnull _ ih =>
    have hroom := hgrants.hasRoom hopen.le
    obtain ⟨h', d', hgrants', hnull', hd⟩ :=
      hgrants.alike hnull hopen.sound halign a.counter.position hopen.sound hroom.le (halike k)
    obtain ⟨ends, hrest, hends⟩ := ih (hopen.advance hgrants) (alike_update halike hd)
    exact ⟨ends, .cons halign hgrants' hnull' hrest, hends⟩

/-! ## Other orders -/

/-- **Two requests of different chunks change places.**  The counter and the chunks come to the
same. -/
lemma GrantsAll.swap {i : κ} {first second : Request}
    (hgrants : GrantsAll a chunks ((k, first) :: (i, second) :: calls) chunks' a')
    (hopen : a.Open) (hne : i ≠ k) :
    ∃ ends, GrantsAll a chunks ((i, second) :: (k, first) :: calls) ends a' ∧
      ∀ k, (chunks' k).Alike (ends k) := by
  cases hgrants with
  | @cons _ _ _ _ _ _ _ h d n halign hfirst hnull hrest =>
  cases hrest with
  | @cons _ _ _ _ _ _ _ h' d' m halign' hsecond hnull' hrest =>
  rw [Function.update_of_ne hne] at hsecond
  have hmid := hopen.advance hfirst
  have hsum : a.counter.position + n + m ≤ a.counter.capacity := (hsecond.hasRoom hmid.le).le
  -- The second request goes first.  It no longer finds taken what the first one took.
  have hroom : a.counter.position + m ≤ a.counter.capacity := by omega
  obtain ⟨_, e', hsecond', hnull₂, he'⟩ :=
    hsecond.alike hnull' hmid.sound halign' a.counter.position hopen.sound hroom (.refl _)
  have hmid' : (a.advance m).Open := hopen.advance hsecond'
  -- The first request goes second, and ends where the second one ended.
  have hroom' : a.counter.position + m + n ≤ a.counter.capacity := by omega
  obtain ⟨h₁, e, hfirst', hnull₁, he⟩ :=
    hfirst.alike hnull hopen.sound halign (a.counter.position + m) hmid'.sound hroom' (.refl _)
  have hmeet : (a.advance m).advance n = (a.advance n).advance m := by
    simp only [advance, Nat.add_right_comm]
  obtain ⟨ends, hrest', hends⟩ := hrest.alike (hmid.advance hsecond)
    (alike_update (alike_update (fun _ => .refl _) he) he')
  have hrest' : GrantsAll ((a.advance m).advance n)
      (Function.update (Function.update chunks i e') k e) calls ends a' := by
    rw [Function.update_comm hne, hmeet]
    exact hrest'
  have hfirst' : (a.advance m).Grants (Function.update chunks i e' k) first h₁ e n := by
    rw [Function.update_of_ne (Ne.symm hne)]
    exact hfirst'
  exact ⟨ends, .cons halign' hsecond' hnull₂ (.cons halign hfirst' hnull₁ hrest'), hends⟩

/-- A request can wait for any requests of other chunks. -/
lemma GrantsAll.delay {request : Request} {before after : List (κ × Request)}
    (hgrants : GrantsAll a chunks ((k, request) :: (before ++ after)) chunks' a') (hopen : a.Open)
    (hbefore : ∀ call ∈ before, call.1 ≠ k) :
    ∃ ends, GrantsAll a chunks (before ++ (k, request) :: after) ends a' ∧
      ∀ k, (chunks' k).Alike (ends k) := by
  induction before generalizing a chunks chunks' with
  | nil => exact ⟨chunks', hgrants, fun _ => .refl _⟩
  | cons call before ih =>
    obtain ⟨i, other⟩ := call
    obtain ⟨hne, hbefore⟩ := List.forall_mem_cons.1 hbefore
    obtain ⟨middle, hswapped, hmiddle⟩ := hgrants.swap hopen hne
    cases hswapped with
    | cons halign hfirst hnull hrest =>
    obtain ⟨ends, hdelayed, hends⟩ := ih hrest (hopen.advance hfirst) hbefore
    exact ⟨ends, .cons halign hfirst hnull hdelayed, fun k => (hmiddle k).trans (hends k)⟩

/-! ## All orders -/

lemma requestsOf_cons (k : κ) (call : κ × Request) (calls : List (κ × Request)) :
    requestsOf k (call :: calls) =
      if call.1 = k then call.2 :: requestsOf k calls else requestsOf k calls := by
  by_cases hk : call.1 = k <;> simp [requestsOf, hk]

lemma requestsOf_append (k : κ) (before after : List (κ × Request)) :
    requestsOf k (before ++ after) = requestsOf k before ++ requestsOf k after := by
  simp [requestsOf]

lemma requestsOf_eq_nil (hcalls : ∀ call ∈ calls, call.1 ≠ k) : requestsOf k calls = [] := by
  simpa [requestsOf] using hcalls

/-- The first request of a chunk, with what stands before it and after it. -/
lemma exists_of_requestsOf_eq_cons {request : Request} {later : List Request}
    (h : requestsOf k calls = request :: later) :
    ∃ before after, calls = before ++ (k, request) :: after ∧ ∀ call ∈ before, call.1 ≠ k := by
  obtain ⟨⟨i, first⟩, rest, hfilter, rfl, -⟩ := List.map_eq_cons_iff.1 h
  obtain ⟨before, after, rfl, hbefore, hi, -⟩ := List.filter_eq_cons_iff.1 hfilter
  obtain rfl : i = k := by simpa using hi
  exact ⟨before, after, rfl, by simpa using hbefore⟩

/-- **Any two orders come to the same**, if they agree on the requests of each chunk. -/
theorem GrantsAll.reorder {reordered : List (κ × Request)}
    (hgrants : GrantsAll a chunks calls chunks' a') (hopen : a.Open)
    (hsame : ∀ k, requestsOf k reordered = requestsOf k calls) :
    ∃ ends, GrantsAll a chunks reordered ends a' ∧ ∀ k, (chunks' k).Alike (ends k) := by
  induction hgrants generalizing reordered with
  | @nil a chunks =>
    have hnil : reordered = [] := by
      refine List.eq_nil_iff_forall_not_mem.2 ?_
      rintro ⟨k, request⟩ hmem
      have hrequest : request ∈ requestsOf k reordered := by
        simpa [requestsOf] using hmem
      rw [hsame k] at hrequest
      simp [requestsOf] at hrequest
    rw [hnil]
    exact ⟨chunks, .nil, fun _ => .refl _⟩
  | @cons a _ chunks _ k request calls h d n halign hfirst hnull _ ih =>
    obtain ⟨before, after, rfl, hbefore⟩ :=
      exists_of_requestsOf_eq_cons ((hsame k).trans (by rw [requestsOf_cons, if_pos rfl]))
    have hrest : ∀ i, requestsOf i (before ++ after) = requestsOf i calls := by
      intro i
      have hi := hsame i
      rw [requestsOf_append, requestsOf_cons, requestsOf_cons] at hi
      rw [requestsOf_append]
      by_cases hk : k = i
      · subst hk
        rw [requestsOf_eq_nil hbefore] at hi ⊢
        simpa using hi
      · simpa [hk] using hi
    obtain ⟨middle, hafter, hmiddle⟩ := ih (hopen.advance hfirst) hrest
    obtain ⟨ends, hdelayed, hends⟩ :=
      GrantsAll.delay (.cons halign hfirst hnull hafter) hopen hbefore
    exact ⟨ends, hdelayed, fun k => (hmiddle k).trans (hends k)⟩

/-! ## What is left at the end -/

/-- The use of an arena can always be told. -/
lemma exists_stats (a : ChunkedArena) : ∃ stats, a.stats = .ok stats := ⟨_, a.counter.stats_eq⟩

lemma GrantsAll.claims_le (hgrants : GrantsAll a chunks calls chunks' a') (i : κ) :
    (chunks i).claims ≤ (chunks' i).claims := by
  induction hgrants with
  | nil => exact Nat.le_refl _
  | @cons _ _ chunks _ k _ _ _ d _ _ hfirst _ _ ih =>
    refine Nat.le_trans ?_ ih
    by_cases hi : i = k
    · subst hi
      simpa using hfirst.claims_le
    · simp [hi]

lemma GrantsAll.cursor_le_stop (hgrants : GrantsAll a chunks calls chunks' a') (i : κ)
    (hle : (chunks i).cursor ≤ (chunks i).stop) : (chunks' i).cursor ≤ (chunks' i).stop := by
  induction hgrants with
  | nil => exact hle
  | @cons _ _ chunks _ k _ _ _ d _ _ hfirst _ _ ih =>
    refine ih ?_
    by_cases hi : i = k
    · subst hi
      simpa using hfirst.cursor_le_stop hle
    · simpa [hi] using hle

/-- **No order of the threads' requests is different.**  From an arena that starts over, whatever
the chunks hold: where one interleaving of the threads' requests is granted as a whole, so is every
other one, and in the end as much of the arena is used, every thread claimed as often, and as much is
left of its chunk. -/
theorem allocateAll_of_interleaving {lists : κ → List Request} {reordered : List (κ × Request)}
    (hstart : a.Starting)
    (halign : ∀ k, ∀ request ∈ lists k, request.layout.align.bytes ≤ cacheLine.bytes)
    (hcalls : Interleaving lists calls) (hreordered : Interleaving lists reordered)
    (hok : a.allocateAll chunks calls = .ok (handles, chunks', a'))
    (hnull : ∀ h ∈ handles, h.isNull = false) :
    ∃ handles₂ chunks₂ a₂, a.allocateAll chunks reordered = .ok (handles₂, chunks₂, a₂) ∧
      (∀ h ∈ handles₂, h.isNull = false) ∧
      (∃ stats, a'.stats = .ok stats ∧ a₂.stats = .ok stats) ∧
      ∀ k,
        (∃ increase, (chunks' k).claims = (chunks k).claims + increase ∧
          (chunks₂ k).claims = (chunks k).claims + increase) ∧
        (chunks₂ k).remaining = (chunks' k).remaining ∧
        ((∃ left, (chunks k).remaining = .ok left) → ∃ left, (chunks₂ k).remaining = .ok left) := by
  have halign : ∀ call ∈ calls, call.2.layout.align.bytes ≤ cacheLine.bytes := by
    intro call hcall
    refine halign call.1 call.2 ?_
    rw [← hcalls call.1]
    exact List.mem_map.2 ⟨call, List.mem_filter.2 ⟨hcall, by simp⟩, rfl⟩
  have hgrants := grantsAll_of_allocateAll hstart.isOpen halign hok hnull
  obtain ⟨chunks₂, hgrants₂, halike⟩ :=
    hgrants.reorder hstart.isOpen fun k => (hreordered k).trans (hcalls k).symm
  obtain ⟨handles₂, hok₂, hnull₂⟩ := hgrants₂.exists_allocateAll hstart.isOpen
  obtain ⟨stats, hstats⟩ := a'.exists_stats
  refine ⟨handles₂, chunks₂, a', hok₂, hnull₂, ⟨stats, hstats, hstats⟩, ?_⟩
  intro k
  have hclaims := hgrants.claims_le k
  refine ⟨⟨(chunks' k).claims - (chunks k).claims, by omega, ?_⟩, (halike k).remaining_eq.symm, ?_⟩
  · rw [← (halike k).claims_eq]
    omega
  · intro hleft
    rw [← (halike k).remaining_eq]
    rw [LocalChunk.exists_remaining_iff] at hleft ⊢
    exact hgrants.cursor_le_stop k hleft

/-- What two threads ask for: the second also for more than fits a chunk. -/
def twoThreads : Bool → List Request
  | false => [.ofBytes 40, .ofBytes 40]
  | true => [.ofBytes 24, .ofBytes 200, .ofBytes 24]

def inTurns : List (Bool × Request) :=
  [(false, .ofBytes 40), (true, .ofBytes 24), (true, .ofBytes 200), (false, .ofBytes 40),
    (true, .ofBytes 24)]

def oneByOne : List (Bool × Request) :=
  [(true, .ofBytes 24), (true, .ofBytes 200), (true, .ofBytes 24), (false, .ofBytes 40),
    (false, .ofBytes 40)]

/-- Where the requests of the first thread lie is not the same one by one: the second thread claims
first.  All else is. -/
theorem allocateAll_of_interleaving_twoThreads :
    ∃ a s' handles chunks a', (make ⟨4096, 64, 128⟩).run default = .ok a s' ∧
      Interleaving twoThreads inTurns ∧ Interleaving twoThreads oneByOne ∧
      a.allocateAll (fun _ => {}) inTurns = .ok (handles, chunks, a') ∧
      handles.map (·.offset.toNat) = [0, 128, 192, 40, 152] ∧
      ∃ handles₂ chunks₂ a₂, a.allocateAll (fun _ => {}) oneByOne = .ok (handles₂, chunks₂, a₂) ∧
        (∀ h ∈ handles₂, h.isNull = false) ∧
        (∃ stats, a'.stats = .ok stats ∧ a₂.stats = .ok stats) ∧
        ∀ k, (chunks₂ k).remaining = (chunks k).remaining := by
  have halign : ∀ k, ∀ request ∈ twoThreads k, request.layout.align.bytes ≤ cacheLine.bytes := by
    decide
  have hinTurns : Interleaving twoThreads inTurns := by rintro (_ | _) <;> decide
  have honeByOne : Interleaving twoThreads oneByOne := by rintro (_ | _) <;> decide
  obtain ⟨a, s', hmake, hrun⟩ : ∃ a s', (make ⟨4096, 64, 128⟩).run default = .ok a s' ∧
      ((a.allocateAll (fun _ => {}) inTurns).toOption.map fun ends =>
        (ends.1.map (·.offset.toNat), ends.1.all (!·.isNull))) =
          some ([0, 128, 192, 40, 152], true) := ⟨_, _, rfl, by decide +kernel⟩
  cases hok : a.allocateAll (fun _ => {}) inTurns with
  | error fault => simp [hok, Except.toOption] at hrun
  | ok ends =>
    obtain ⟨handles, chunks, a'⟩ := ends
    obtain ⟨hoffsets, hall⟩ : handles.map (·.offset.toNat) = [0, 128, 192, 40, 152] ∧
        ∀ h ∈ handles, h.isNull = false := by
      simpa [hok, Except.toOption] using hrun
    obtain ⟨handles₂, chunks₂, a₂, hok₂, hnull, hstats, hends⟩ :=
      allocateAll_of_interleaving (.made hmake) halign hinTurns honeByOne hok hall
    exact ⟨a, s', handles, chunks, a', hmake, hinTurns, honeByOne, hok, hoffsets, handles₂, chunks₂,
      a₂, hok₂, hnull, hstats, fun k => (hends k).2.1⟩

end ChunkedArena

end BumpArena
