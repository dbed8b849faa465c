import BumpArena.Proofs.Mapping

/-!
# Actions that fail without a trace

An action on the storage leaves a storage behind also when it fails.  It is atomic when that is the
storage from before (`StorageM.Atomic`).  What is made of parts that each are atomic need not be
atomic itself: when the first part has done its work and the second one fails, the work is there.
So the parts are told apart further.  Some look at the storage and change nothing, be it that they
may refuse to go on (`StorageM.Reads`) or that they may not (`StorageM.Looks`), and some never fail
whatever they change (`StorageM.Succeeds`).

A row of actions is atomic when everything that may refuse comes before everything that changes
something.  Each action that makes a region has this form, and the lemmas at the end show where in
it the last refusal is.  It also draws one identity when it succeeds (`StorageM.Draws`), and both
are kept by what an arena adds to it: a look at the configuration before
(`StorageM.Reads.bind_draws`), and a look at the region after (`StorageM.Draws.bind`).
-/

namespace BumpArena

namespace StorageM

variable {α β : Type} {x : StorageM α} {f : α → StorageM β} {s t : Storage}

/-! ## What an action can leave behind -/

/-- The action changes nothing and never fails. -/
def Looks (x : StorageM α) : Prop := ∀ s, ∃ a, x.run s = .ok a s

/-- The action changes nothing, whatever comes of it. -/
def Reads (x : StorageM α) : Prop :=
  ∀ s, (∃ a, x.run s = .ok a s) ∨ ∃ error, x.run s = .error error s

/-- The action never fails. -/
def Succeeds (x : StorageM α) : Prop := ∀ s, ∃ a t, x.run s = .ok a t

/-- The action changes nothing when it fails. -/
def Atomic (x : StorageM α) : Prop := ∀ s error t, x.run s = .error error t → t = s

/-- The action changes nothing when it fails, and draws one identity when it succeeds. -/
structure Draws (x : StorageM α) : Prop where
  atomic : Atomic x
  ids_eq : ∀ s a t, x.run s = .ok a t → t.ids = s.ids.next.2

lemma run_bind_of_ok {a : α} (h : x.run s = .ok a t) : (x >>= f).run s = (f a).run t := by
  have h' : x s = .ok a t := h
  simp only [bind, EStateM.bind, EStateM.run, h']

lemma run_bind_of_error {error : ArenaError} (h : x.run s = .error error t) :
    (x >>= f).run s = .error error t := by
  have h' : x s = .error error t := h
  simp only [bind, EStateM.bind, EStateM.run, h']

lemma Looks.reads (h : Looks x) : Reads x := fun s => .inl (h s)

lemma Reads.atomic (h : Reads x) : Atomic x := by
  intro s error t herror
  rcases h s with ⟨a, hok⟩ | ⟨error', herror'⟩
  · cases hok.symm.trans herror
  · cases herror'.symm.trans herror
    rfl

lemma Reads.eq_of_ok {a : α} (h : Reads x) (hok : x.run s = .ok a t) : t = s := by
  rcases h s with ⟨a', hok'⟩ | ⟨error, herror⟩
  · cases hok'.symm.trans hok
    rfl
  · cases herror.symm.trans hok

lemma Succeeds.atomic (h : Succeeds x) : Atomic x := by
  intro s error t herror
  obtain ⟨a, t', hok⟩ := h s
  cases hok.symm.trans herror

/-- An atomic action has one of two outcomes. -/
lemma Atomic.cases (h : Atomic x) (s : Storage) :
    (∃ error, x.run s = .error error s) ∨ ∃ a t, x.run s = .ok a t := by
  cases hrun : x.run s with
  | ok a t => exact .inr ⟨a, t, rfl⟩
  | error error t =>
    obtain rfl := h s error t hrun
    exact .inl ⟨error, rfl⟩

/-! ## Rows of actions -/

lemma Looks.bind (hx : Looks x) (hf : ∀ a, Looks (f a)) : Looks (x >>= f) := by
  intro s
  obtain ⟨a, hok⟩ := hx s
  rw [run_bind_of_ok hok]
  exact hf a s

lemma Reads.bind (hx : Reads x) (hf : ∀ a, Reads (f a)) : Reads (x >>= f) := by
  intro s
  rcases hx s with ⟨a, hok⟩ | ⟨error, herror⟩
  · rw [run_bind_of_ok hok]
    exact hf a s
  · exact .inr ⟨error, run_bind_of_error herror⟩

lemma Succeeds.bind (hx : Succeeds x) (hf : ∀ a, Succeeds (f a)) : Succeeds (x >>= f) := by
  intro s
  obtain ⟨a, t, hok⟩ := hx s
  rw [run_bind_of_ok hok]
  exact hf a t

/-- Nothing was changed yet when the rest fails. -/
lemma Reads.bind_atomic (hx : Reads x) (hf : ∀ a, Atomic (f a)) : Atomic (x >>= f) := by
  intro s error t herror
  rcases hx s with ⟨a, hok⟩ | ⟨error', herror'⟩
  · rw [run_bind_of_ok hok] at herror
    exact hf a s error t herror
  · rw [run_bind_of_error herror'] at herror
    cases herror
    rfl

lemma Reads.bind_draws (hx : Reads x) (hf : ∀ a, Draws (f a)) : Draws (x >>= f) := by
  refine ⟨hx.bind_atomic fun a => (hf a).atomic, ?_⟩
  intro s b t hok
  obtain ⟨a, u, hread, hrest⟩ := bind_eq_ok_iff.1 hok
  obtain rfl := hx.eq_of_ok hread
  exact (hf a).ids_eq u b t hrest

/-- The rest neither fails nor draws another one. -/
lemma Draws.bind (hx : Draws x) (hf : ∀ a, Looks (f a)) : Draws (x >>= f) := by
  constructor
  · intro s error t herror
    rcases hx.atomic.cases s with ⟨error', herror'⟩ | ⟨a, u, hok⟩
    · rw [run_bind_of_error herror'] at herror
      cases herror
      rfl
    · rw [run_bind_of_ok hok] at herror
      obtain ⟨b, hlook⟩ := hf a u
      cases hlook.symm.trans herror
  · intro s b t hok
    obtain ⟨a, u, hdraw, hlook⟩ := bind_eq_ok_iff.1 hok
    obtain rfl := (hf a).reads.eq_of_ok hlook
    exact hx.ids_eq s a _ hdraw

/-! ## Single actions -/

lemma looks_pure (a : α) : Looks (pure a) := fun _ => ⟨a, rfl⟩

lemma looks_get : Looks (get : StorageM Storage) := fun s => ⟨s, rfl⟩

lemma succeeds_set (t : Storage) : Succeeds (set t : StorageM PUnit) := fun _ => ⟨⟨⟩, t, rfl⟩

lemma reads_throw (error : ArenaError) : Reads (throw error : StorageM α) :=
  fun _ => .inr ⟨error, rfl⟩

/-- Nothing follows a failure. -/
lemma reads_throw_bind (error : ArenaError) (f : α → StorageM β) : Reads (throw error >>= f) :=
  fun _ => .inr ⟨error, rfl⟩

end StorageM

open StorageM

namespace Storage

variable {α : Type}

lemma reads_requireConfig (x : Except ConfigFlaw α) : Reads (requireConfig x) := by
  cases x with
  | ok value => exact (looks_pure value).reads
  | error flaw => exact reads_throw (.invalidConfig flaw)

lemma reads_requireFile (action : FileAction) (path : String) (x : Except OsError α) :
    Reads (requireFile action path x) := by
  cases x with
  | ok value => exact (looks_pure value).reads
  | error error => exact reads_throw (.file action path (.os error))

lemma reads_requireMemory (size : Nat) : Reads (requireMemory size) := by
  refine looks_get.reads.bind fun s => ?_
  split
  · exact (looks_pure ()).reads
  · exact reads_throw _

lemma succeeds_makeRegion (capacity : Nat) (block : BlockId) (path : Option String) :
    Succeeds (makeRegion capacity block path) := by
  intro s
  exact ⟨_, _, makeRegion_eq_ok_iff.2 ⟨rfl, rfl⟩⟩

/-- A file is made without drawing an identity. -/
lemma ids_of_createFile {s t : Storage} {text : String} {block : BlockId}
    (h : s.createFile text = .ok (block, t)) : t.ids = s.ids := by
  obtain ⟨⟨opened, u⟩, hopen, hempty⟩ := bind_eq_ok_iff.1 h
  obtain ⟨path, -, hpath⟩ := bind_eq_ok_iff.1 hopen
  obtain ⟨_, -, hentry⟩ := bind_eq_ok_iff.1 hpath
  have hopened : u.ids = s.ids := by
    split at hentry
    · cases hentry
    obtain ⟨e?, -, he?⟩ := bind_eq_ok_iff.1 hentry
    rcases e? with _ | _ | found
    · cases he?
      rfl
    · cases he?
    · cases he?
      rfl
  cases hempty
  exact hopened

end Storage

open Storage

/-! ## Regions -/

namespace Region

/-- The last refusal is for lack of memory, before there is a block. -/
lemma draws_makeVolatile (capacity : Nat) : Draws (makeVolatile capacity) := by
  refine ⟨?_, fun s r t h => (of_makeVolatile h).2.1⟩
  refine (reads_requireConfig _).bind_atomic fun _ => ?_
  refine (reads_requireConfig _).bind_atomic fun rounded => ?_
  refine (reads_requireMemory rounded).bind_atomic fun _ => ?_
  refine looks_get.reads.bind_atomic fun s => ?_
  exact ((succeeds_set _).bind fun _ => succeeds_makeRegion _ _ _).atomic

/-- The last refusal is that of the file system, and a file loses its bytes only when it was
opened. -/
lemma draws_createMapped (path : String) (capacity : Nat) :
    Draws (createMapped path capacity) := by
  constructor
  · refine (reads_requireConfig _).bind_atomic fun _ => ?_
    refine (reads_requireConfig _).bind_atomic fun rounded => ?_
    refine looks_get.reads.bind_atomic fun s => ?_
    refine (reads_requireFile _ _ _).bind_atomic fun ⟨block, t⟩ => ?_
    exact ((succeeds_set _).bind fun _ => succeeds_makeRegion _ _ _).atomic
  · intro s r t h
    obtain ⟨block, u, rounded, -, -, hfile, -, rfl⟩ := createMapped_eq_ok_iff.1 h
    rw [← ids_of_createFile hfile]
    rfl

/-- The last refusal is because of the length of the file, before there is an identity. -/
lemma draws_openMapped (path : String) : Draws (openMapped path) := by
  constructor
  · refine looks_get.reads.bind_atomic fun s => ?_
    refine (reads_requireFile _ _ _).bind_atomic fun block => ?_
    refine looks_get.reads.bind_atomic fun s => ?_
    dsimp only
    split
    · exact (reads_throw_bind _ _).atomic
    · exact (succeeds_makeRegion _ _ _).atomic
  · intro s r t h
    obtain ⟨block, -, -, -, rfl⟩ := openMapped_eq_ok_iff.1 h
    rfl

end Region

end BumpArena
