import BumpArena.Proofs.Making
import BumpArena.Proofs.Program.Arenas
import BumpArena.Proofs.Program.Journals

/-!
# No operation ends in a fault

A `Program` is all that one process does with regions, arenas and journals: any number of each, the
chunks that its threads serve themselves from, and the records that it has reserved.  Chunks and
records are given to whom it likes, and are used again after they were settled or copied, which is
more than a real program may do with them.

Not all that happens is done by the program (`Elsewhere`).  Files change, and with them what regions
hold.  And the counter of an arena moves, when other threads claim from it.  A claim looks at the
position once and moves it once, and where others come in between, it does what a claim does that
finds the second position: the counter has moved just before it, and goes on to move just after.

The checks on the way of an operation are there for sums that leave the range of words, differences
below zero, slices that run past their bytes, and a checksum that changes while it is being stored.
`Program.run_no_fault` says that none of them fails, in any program that performs fewer operations
than there are words.  One event keeps what all parts of a program have
(`Program.Sound.exists_step`), and so does a row of events (`Program.Sound.exists_foldlM`).
-/

namespace BumpArena

/-- Regions, arenas, journals, chunks and records. -/
structure Program (κ : Type) where
  storage : Storage
  regions : List Region := []
  flats : List FlatArena := []
  chunked : List ChunkedArena := []
  journals : List JournalArena := []
  pool : ChunkPool κ := {}
  /-- The records that were reserved, each with its region. -/
  pending : List (Region × Reservation) := []

/-- One thing that a program can do. -/
inductive Operation (κ : Type) where
  | make (what : Making)
  /-- Makes a flat arena over a region. -/
  | flatOver (region : Nat)
  | flat (index : Nat) (use : FlatArena.Use)
  | chunked (index : Nat) (use : ChunkedArena.Use κ)
  | journal (index : Nat) (use : JournalArena.Use)
  | pending (index : Nat) (use : Reservation.Use)
  | pool (use : ChunkPool.Use κ)

/-- One thing that can happen without it. -/
inductive Elsewhere where
  /-- Something is done to files. -/
  | files (change : Storage → Storage)
  /-- The counter of a flat arena moves. -/
  | flat (index : Nat) (position : UInt64)
  | chunked (index : Nat) (position : UInt64)
  | journal (index : Nat) (position : UInt64)

/-- What happens next. -/
inductive Event (κ : Type) where
  | operation (operation : Operation κ)
  | elsewhere (change : Elsewhere)

namespace Program

variable {κ : Type}

/-- Whether an event is something that the program does. -/
def isOperation : Event κ → Bool
  | .operation _ => true
  | .elsewhere _ => false

/-- The number of operations among some events. -/
def operations (events : List (Event κ)) : Nat := events.countP isOperation

/-! ## What each event does -/

/-- The program after something was made, or not. -/
def after {α : Type} (p : Program κ) (outcome : EStateM.Result ArenaError Storage α)
    (keep : α → Program κ → Program κ) : Program κ :=
  match outcome with
  | .ok x storage => keep x { p with storage }
  | .error _ storage => { p with storage }

/-- What making something adds to a program.  A reader takes no part in anything that follows. -/
def make (p : Program κ) : Making → Program κ
  | .volatileRegion capacity =>
    p.after ((Region.makeVolatile capacity).run p.storage) fun r p =>
      { p with regions := p.regions ++ [r] }
  | .createdRegion path capacity =>
    p.after ((Region.createMapped path capacity).run p.storage) fun r p =>
      { p with regions := p.regions ++ [r] }
  | .openedRegion path =>
    p.after ((Region.openMapped path).run p.storage) fun r p =>
      { p with regions := p.regions ++ [r] }
  | .flatArena config =>
    p.after ((FlatArena.make config).run p.storage) fun a p =>
      { p with flats := p.flats ++ [a] }
  | .chunkedArena config =>
    p.after ((ChunkedArena.make config).run p.storage) fun a p =>
      { p with chunked := p.chunked ++ [a] }
  | .createdJournal config =>
    p.after ((JournalArena.create config).run p.storage) fun a p =>
      { p with journals := p.journals ++ [a] }
  | .openedJournal config =>
    p.after ((JournalArena.openExisting config).run p.storage) fun (a, _) p =>
      { p with journals := p.journals ++ [a] }
  | .reader path others =>
    p.after ((JournalReader.make path others).run p.storage) fun _ p => p

/-- The program after something that it did not do. -/
def changed (p : Program κ) : Elsewhere → Program κ
  | .files change => { p with storage := change p.storage }
  | .flat index position =>
    { p with flats := p.flats.modify index fun a =>
        { a with counter.position := position.toNat } }
  | .chunked index position =>
    { p with chunked := p.chunked.modify index (·.overtaken position.toNat) }
  | .journal index position =>
    { p with journals := p.journals.modify index (·.moveTo position.toNat) }

variable [DecidableEq κ]

/-- The program after an operation.  One that names what is not there does nothing. -/
def perform (p : Program κ) : Operation κ → Checked (Program κ)
  | .make what => .ok (p.make what)
  | .flatOver index =>
    match p.regions[index]? with
    | some r => .ok { p with flats := p.flats ++ [.ofRegion r] }
    | none => .ok p
  | .flat index use =>
    match p.flats[index]? with
    | some a => do
      let a ← a.use use
      return { p with flats := p.flats.set index a }
    | none => .ok p
  | .chunked index use =>
    match p.chunked[index]? with
    | some a => do
      let (a, pool) ← a.use p.pool use
      return { p with chunked := p.chunked.set index a, pool }
    | none => .ok p
  | .journal index use =>
    match p.journals[index]? with
    | some a => do
      let (granted, a', storage) ← a.use p.storage use
      return { p with
        storage
        journals := p.journals.set index a'
        pending := p.pending ++ (granted.map (a.region, ·)).toList }
    | none => .ok p
  | .pending index use =>
    match p.pending[index]? with
    | some (r, q) => do
      let storage ← q.use r p.storage use
      return { p with storage }
    | none => .ok p
  | .pool use => do
    let pool ← p.pool.use use
    return { p with pool }

/-- The program after the next event. -/
def step (p : Program κ) : Event κ → Checked (Program κ)
  | .operation operation => p.perform operation
  | .elsewhere change => .ok (p.changed change)

/-- The program after a row of events, which begins with nothing but the storage. -/
def run (s : Storage) (events : List (Event κ)) : Checked (Program κ) :=
  events.foldlM step { storage := s }

/-! ## What every event keeps -/

section Sound

omit [DecidableEq κ]

variable {p : Program κ} {n : Nat}

/-- **What every event keeps,** when so many operations were performed. -/
structure Sound (n : Nat) (p : Program κ) : Prop where
  region : ∀ r ∈ p.regions, r.capacity ≤ maxCapacity
  flat : ∀ a ∈ p.flats, a.Sound
  chunked : ∀ a ∈ p.chunked, a.SoundAt n
  journal : ∀ a ∈ p.journals, a.Sound
  chunk : p.pool.Forall (LocalChunk.Sound n)
  pending : ∀ q ∈ p.pending, q.2.Inside q.1

lemma sound_start (s : Storage) : Sound n ({ storage := s } : Program κ) where
  region := nofun
  flat := nofun
  chunked := nofun
  journal := nofun
  chunk := ⟨nofun, nofun⟩
  pending := nofun

lemma Sound.mono (h : p.Sound n) : p.Sound (n + 1) where
  region := h.region
  flat := h.flat
  chunked a ha := (h.chunked a ha).mono
  journal := h.journal
  chunk := h.chunk.mono fun _ hc => hc.mono
  pending := h.pending

/-- What holds of the parts of a program does not depend on the storage. -/
lemma Sound.withStorage (h : p.Sound n) (storage : Storage) : Sound n { p with storage } :=
  ⟨h.region, h.flat, h.chunked, h.journal, h.chunk, h.pending⟩

/-- What cannot be made adds nothing. -/
lemma Sound.after {α : Type} {outcome : EStateM.Result ArenaError Storage α}
    {keep : α → Program κ → Program κ} (h : p.Sound n)
    (hkeep : ∀ x s, outcome = .ok x s → Sound n (keep x { p with storage := s })) :
    (p.after outcome keep).Sound n := by
  cases outcome with
  | ok x s => exact hkeep x s rfl
  | error error s => exact h.withStorage s

/-- Whatever is made, it is sound from the start. -/
lemma Sound.make (h : p.Sound n) (what : Making) : (p.make what).Sound n := by
  rw [Program.make.eq_def]
  have hregion {r : Region} (hr : r.Made) (s : Storage) :
      Sound n { p with storage := s, regions := p.regions ++ [r] } :=
    { h.withStorage s with region := forall_mem_concat h.region hr.capacity_le }
  have hjournal {config : JournalConfig} {a : JournalArena} {s : Storage}
      (ha : JournalArena.Opens config p.storage a s) :
      Sound n { p with storage := s, journals := p.journals ++ [a] } :=
    { h.withStorage s with journal := forall_mem_concat h.journal ha.sound }
  cases what with
  | volatileRegion capacity => exact h.after fun r s hr => hregion (.volatile hr) s
  | createdRegion path capacity => exact h.after fun r s hr => hregion (.created hr) s
  | openedRegion path => exact h.after fun r s hr => hregion (.opened hr) s
  | flatArena config =>
    refine h.after fun a s hmake => ?_
    obtain ⟨r, hr, rfl⟩ := FlatArena.exists_ofRegion_of_make hmake
    exact { h.withStorage s with flat := forall_mem_concat h.flat (FlatArena.sound_ofRegion hr) }
  | chunkedArena config =>
    refine h.after fun a s hmake => ?_
    have ha := ChunkedArena.soundAt_of_make n hmake
    exact { h.withStorage s with chunked := forall_mem_concat h.chunked ha }
  | createdJournal config => exact h.after fun a s hmake => hjournal (.create hmake)
  | openedJournal config => exact h.after fun (a, report) s hmake => hjournal (.openExisting hmake)
  | reader path others => exact h.after fun reader s hmake => h.withStorage s

/-- Nothing that happens elsewhere does any harm. -/
lemma Sound.changed (h : p.Sound n) (change : Elsewhere) : (p.changed change).Sound n := by
  cases change with
  | files change => exact h.withStorage _
  | flat index position =>
    exact { h with flat := forall_mem_modify h.flat fun a ha => ⟨ha.capacity_eq, ha.capacity_le⟩ }
  | chunked index position =>
    exact { h with chunked := forall_mem_modify h.chunked fun a ha => ha.overtaken _ }
  | journal index position =>
    exact { h with journal := forall_mem_modify h.journal fun a ha => ha.moveTo _ }

end Sound

variable {p : Program κ} {n : Nat}

/-- **No operation ends in a fault.** -/
lemma Sound.exists_perform (h : p.Sound n) (hn : n + 1 < Word.limit) (operation : Operation κ) :
    ∃ p', p.perform operation = .ok p' ∧ p'.Sound (n + 1) := by
  have hmono := h.mono
  cases operation with
  | make what => exact ⟨_, rfl, (h.make what).mono⟩
  | flatOver index =>
    rw [perform]
    cases hr : p.regions[index]? with
    | none => exact ⟨p, rfl, hmono⟩
    | some r =>
      have hsound : (FlatArena.ofRegion r).Sound := ⟨rfl, h.region r (List.mem_of_getElem? hr)⟩
      exact ⟨_, rfl, { hmono with flat := forall_mem_concat h.flat hsound }⟩
  | flat index use =>
    rw [perform]
    cases ha : p.flats[index]? with
    | none => exact ⟨p, rfl, hmono⟩
    | some a =>
      obtain ⟨a', huse, hsound⟩ := (h.flat a (List.mem_of_getElem? ha)).exists_use use
      simp only [huse]
      exact ⟨_, rfl, { hmono with flat := forall_mem_set h.flat hsound }⟩
  | chunked index use =>
    rw [perform]
    cases ha : p.chunked[index]? with
    | none => exact ⟨p, rfl, hmono⟩
    | some a =>
      obtain ⟨a', pool, huse, hsound, hpool⟩ :=
        (h.chunked a (List.mem_of_getElem? ha)).exists_use h.chunk hn use
      simp only [huse]
      exact ⟨_, rfl,
        { hmono with chunked := forall_mem_set hmono.chunked hsound, chunk := hpool }⟩
  | journal index use =>
    rw [perform]
    cases ha : p.journals[index]? with
    | none => exact ⟨p, rfl, hmono⟩
    | some a =>
      obtain ⟨granted, a', s, huse, hsound, hinside⟩ :=
        (h.journal a (List.mem_of_getElem? ha)).exists_use p.storage use
      simp only [huse]
      refine ⟨_, rfl, { hmono.withStorage s with
        journal := forall_mem_set h.journal hsound, pending := ?_ }⟩
      cases granted with
      | none => simpa using h.pending
      | some q => exact forall_mem_concat h.pending (hinside q rfl)
  | pending index use =>
    rw [perform]
    cases hq : p.pending[index]? with
    | none => exact ⟨p, rfl, hmono⟩
    | some held =>
      obtain ⟨r, q⟩ := held
      obtain ⟨s, huse⟩ := (h.pending (r, q) (List.mem_of_getElem? hq)).exists_use p.storage use
      simp only [huse]
      exact ⟨_, rfl, hmono.withStorage s⟩
  | pool use =>
    obtain ⟨pool, huse, hpool⟩ := h.chunk.exists_use use
    rw [perform, huse]
    exact ⟨_, rfl, { hmono with chunk := hpool.mono fun c hc => hc.mono }⟩

lemma Sound.exists_step (h : p.Sound n) (event : Event κ)
    (hn : n + operations [event] < Word.limit) :
    ∃ p', p.step event = .ok p' ∧ p'.Sound (n + operations [event]) := by
  cases event with
  | operation operation => exact h.exists_perform hn operation
  | elsewhere change => exact ⟨_, rfl, h.changed change⟩

lemma Sound.exists_foldlM (h : p.Sound n) (events : List (Event κ))
    (hn : n + operations events < Word.limit) :
    ∃ p', events.foldlM step p = .ok p' ∧ p'.Sound (n + operations events) := by
  induction events generalizing n p with
  | nil => exact ⟨p, rfl, h⟩
  | cons event events ih =>
    have hcount : operations (event :: events) = operations [event] + operations events := by
      rw [← List.singleton_append, operations, List.countP_append, operations, operations]
    rw [hcount, ← Nat.add_assoc] at hn ⊢
    obtain ⟨p', hstep, hp'⟩ := h.exists_step event (by omega)
    obtain ⟨p'', hrun, hp''⟩ := ih hp' hn
    refine ⟨p'', ?_, hp''⟩
    rw [List.foldlM_cons, hstep]
    exact hrun

/-! ## Runs -/

/-- **No program ends in a fault,** as long as it performs fewer operations than there are words. -/
theorem run_no_fault (s : Storage) (events : List (Event κ))
    (hcount : operations events < Word.limit) : ∃ p, run s events = .ok p := by
  obtain ⟨p, hrun, -⟩ := (sound_start s).exists_foldlM (n := 0) events (by omega)
  exact ⟨p, hrun⟩

/-- One arena of each kind, and all of them in use.  Other threads take what the flat arena had
left. -/
def oneOfEach : List (Event Nat) :=
  [.operation (.make (.flatArena { capacity := 4096 })),
    .operation (.make (.chunkedArena { capacity := 4096, minChunk := 64, maxChunk := 128 })),
    .operation (.make (.createdJournal ⟨"journal", 4096⟩)),
    .operation (.flat 0 (.allocateBytes 0)),
    .elsewhere (.flat 0 4096),
    .operation (.flat 0 (.allocateBytes 100)),
    .operation (.flat 0 .reset),
    .operation (.pool .addChunk),
    .operation (.pool .addTable),
    .operation (.chunked 0 (.allocateBytes (.loose 0) 100)),
    .operation (.chunked 0 (.allocateBytes (.keyed 0 7) 5000)),
    .operation (.pool (.remaining (.loose 0))),
    .operation (.chunked 0 (.resetAll 0)),
    .operation (.journal 0 (.reserve 3)),
    .operation (.journal 0 (.append [1, 2] 5)),
    .operation (.pending 0 (.write 1 [9])),
    .operation (.pending 0 (.commit 6)),
    .operation (.journal 0 .reset),
    .operation (.journal 0 .stats)]

theorem run_no_fault_oneOfEach : ∃ p, run default oneOfEach = .ok p ∧ operations oneOfEach = 18 ∧
    p.flats.length = 1 ∧ p.chunked.length = 1 ∧ p.journals.length = 1 ∧ p.pending.length = 1 := by
  obtain ⟨p, hrun⟩ := run_no_fault default oneOfEach (by decide)
  have hparts : (run default oneOfEach).toOption.map
      (fun p => (p.flats.length, p.chunked.length, p.journals.length, p.pending.length)) =
        some (1, 1, 1, 1) := by
    decide +kernel
  rw [hrun] at hparts
  simp only [Except.toOption, Option.map_some, Option.some.injEq, Prod.mk.injEq] at hparts
  exact ⟨p, hrun, rfl, hparts⟩

end Program

end BumpArena
