import BumpArena.Arena.Flat
import BumpArena.Journal.Reader
import BumpArena.Proofs.Arena.Disjointness
import BumpArena.Proofs.Journal.Recovery

/-!
# Making something, or failing to

There are eight ways to make a region, an arena, a journal or a reader (`Making`).  Each of them
looks at its arguments, then at the file that it was given, then at the memory, and may refuse at
any of these.  `Making.leaves_no_trace` says what is left after that: the storage from before, with
all its files, their bytes, and the next identity.  The order of the looks matters most where a
journal is created over another one, whose bytes are gone as soon as the file is opened.

What succeeds draws one identity, for the region that it makes.  A reader makes none.
-/

namespace BumpArena

open Storage StorageM Journal

/-- Something to make, with all that it is made from. -/
inductive Making where
  | volatileRegion (capacity : Nat)
  | createdRegion (path : String) (capacity : Nat)
  | openedRegion (path : String)
  | flatArena (config : ArenaConfig)
  | chunkedArena (config : ArenaConfig)
  | createdJournal (config : JournalConfig)
  | openedJournal (config : JournalConfig)
  /-- A reader, beside those that are open. -/
  | reader (path : String) (others : List JournalReader)

namespace Making

/-- What making it does to the storage. -/
def act : Making → StorageM Unit
  | volatileRegion capacity => do let _ ← Region.makeVolatile capacity
  | createdRegion path capacity => do let _ ← Region.createMapped path capacity
  | openedRegion path => do let _ ← Region.openMapped path
  | flatArena config => do let _ ← FlatArena.make config
  | chunkedArena config => do let _ ← ChunkedArena.make config
  | createdJournal config => do let _ ← JournalArena.create config
  | openedJournal config => do let _ ← JournalArena.openExisting config
  | reader path others => do let _ ← JournalReader.make path others

/-- What is checked of the arguments alone.  Opening a file that is there ignores the capacity of a
configuration. -/
def check : Making → Except ConfigFlaw Unit
  | volatileRegion capacity => validateCapacity capacity
  | createdRegion _ capacity => validateCapacity capacity
  | flatArena config => config.validate
  | chunkedArena config => config.validate
  | createdJournal config => config.validate
  | openedJournal config => if config.path.isEmpty then .error .emptyPath else .ok ()
  | openedRegion _ => .ok ()
  | reader _ _ => .ok ()

/-- The identities after it was made. -/
def idsAfter : Making → IdSource → IdSource
  | reader _ _, ids => ids
  | _, ids => ids.next.2

end Making

/-! ## Arenas, journals and readers -/

lemma FlatArena.draws_make (config : ArenaConfig) : (make config).Draws := by
  refine (reads_requireConfig _).bind_draws fun _ => ?_
  exact (Region.draws_makeVolatile _).bind fun r => looks_pure _

lemma JournalArena.draws_create (config : JournalConfig) : (create config).Draws := by
  refine (reads_requireConfig _).bind_draws fun _ => ?_
  exact (Region.draws_createMapped _ _).bind fun region => looks_pure _

/-- Whatever the scan finds, a journal that was mapped is opened. -/
lemma JournalArena.draws_openExisting (config : JournalConfig) :
    (openExisting config).Draws := by
  refine (reads_requireConfig _).bind_draws fun _ => ?_
  refine (Region.draws_openMapped _).bind fun region => ?_
  exact looks_get.bind fun s => looks_pure _

/-- A reader changes nothing, made or not. -/
lemma JournalReader.reads_make (path : String) (others : List JournalReader) :
    (make path others).Reads := by
  refine looks_get.reads.bind fun s => (reads_requireFile _ _ _).bind fun entry => ?_
  cases entry with
  | directory => exact reads_throw _
  | file block =>
    refine looks_get.reads.bind fun s => ?_
    dsimp only
    split
    · exact reads_throw_bind _ _
    · split
      · exact reads_throw _
      · exact (looks_pure _).reads

namespace Making

variable {m : Making} {s t : Storage}

/-! ## The eight together -/

/-- Each one but a reader draws an identity. -/
lemma act_cases (m : Making) : (m.act.Reads ∧ ∀ ids, m.idsAfter ids = ids) ∨
    (m.act.Draws ∧ ∀ ids, m.idsAfter ids = ids.next.2) := by
  cases m with
  | reader path others =>
    refine .inl ⟨?_, fun _ => rfl⟩
    exact (JournalReader.reads_make path others).bind fun _ => (looks_pure ()).reads
  | volatileRegion capacity =>
    exact .inr ⟨(Region.draws_makeVolatile capacity).bind fun _ => looks_pure (), fun _ => rfl⟩
  | createdRegion path capacity =>
    exact .inr ⟨(Region.draws_createMapped path capacity).bind fun _ => looks_pure (), fun _ => rfl⟩
  | openedRegion path =>
    exact .inr ⟨(Region.draws_openMapped path).bind fun _ => looks_pure (), fun _ => rfl⟩
  | flatArena config =>
    exact .inr ⟨(FlatArena.draws_make config).bind fun _ => looks_pure (), fun _ => rfl⟩
  | chunkedArena config =>
    exact .inr ⟨(ChunkedArena.draws_make config).bind fun _ => looks_pure (), fun _ => rfl⟩
  | createdJournal config =>
    exact .inr ⟨(JournalArena.draws_create config).bind fun _ => looks_pure (), fun _ => rfl⟩
  | openedJournal config =>
    exact .inr ⟨(JournalArena.draws_openExisting config).bind fun _ => looks_pure (), fun _ => rfl⟩

/-- A flaw ends a row of actions that begins with a look for it. -/
lemma run_requireConfig_bind {α β : Type} {x : Except ConfigFlaw α} {flaw : ConfigFlaw}
    {f : α → StorageM β} (h : x = .error flaw) :
    (requireConfig x >>= f).run s = .error (.invalidConfig flaw) s := by
  subst h
  rfl

/-- The arguments are looked at before anything else. -/
lemma act_of_check {flaw : ConfigFlaw} (h : m.check = .error flaw) :
    m.act.run s = .error (.invalidConfig flaw) s := by
  cases m with
  | openedRegion path => cases h
  | reader path others => cases h
  | _ => exact run_bind_of_error (run_requireConfig_bind h)

/-- **What fails leaves no trace.**  A region, an arena, a journal or a reader that cannot be made
leaves the storage as it was: its names, the bytes of its files and the identity that is drawn
next.  One that is made draws the identity of its region and no other.  And where the arguments
alone have a flaw, that is what the error says, so that a journal is never emptied for a
configuration that is refused. -/
theorem leaves_no_trace (m : Making) (s : Storage) :
    (∀ error t, m.act.run s = .error error t → t = s) ∧
      (∀ t, m.act.run s = .ok () t → t.ids = m.idsAfter s.ids) ∧
      ∀ flaw, m.check = .error flaw → m.act.run s = .error (.invalidConfig flaw) s := by
  rcases m.act_cases with ⟨hreads, hids⟩ | ⟨hdraws, hids⟩
  · refine ⟨hreads.atomic s, fun t hok => ?_, fun flaw hcheck => act_of_check hcheck⟩
    rw [hids, hreads.eq_of_ok hok]
  · refine ⟨hdraws.atomic s, fun t hok => ?_, fun flaw hcheck => act_of_check hcheck⟩
    rw [hids, hdraws.ids_eq s () t hok]

/-- A journal is not created over the one that is there when no capacity is asked for.  The file
keeps its records. -/
theorem leaves_no_trace_leftover : ∃ error t,
    (createdJournal ⟨"journal", 0⟩).act.run leftoverStorage = .error error t ∧
      t = leftoverStorage ∧
      error.message = "invalid arena configuration: capacity must be non-zero" ∧
      records (t.contents leftoverRegion) = [⟨0, .ofPayload [1, 2, 3] 7 2, [1, 2, 3]⟩] := by
  obtain ⟨htrace, -, hflaw⟩ := leaves_no_trace (createdJournal ⟨"journal", 0⟩) leftoverStorage
  have herror := hflaw .zeroCapacity rfl
  have ht := htrace _ _ herror
  exact ⟨_, _, herror, ht, rfl, by decide +kernel⟩

end Making

end BumpArena
