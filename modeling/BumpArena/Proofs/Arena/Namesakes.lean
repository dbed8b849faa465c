import BumpArena.Proofs.Arena.World
import BumpArena.Proofs.Identity

/-!
# Arenas of one identity

Identities go round.  An arena that is made after a whole round of draws gets the identity of an
earlier one, which may still be in use.  A chunk tells whose it is by this identity and by a
generation, which counts from zero in every arena.  So each of the two takes chunks of the other for
its own, and what is promised of arenas and their chunks is promised of arenas without a namesake.

Here two namesakes are made, of different capacities and different largest chunks.  The whole round
of draws between them is dealt with once (`World.foldl_step_drawId`).  What a program then does with
its arenas and chunks depends neither on the storage nor on what was drawn
(`World.foldl_step_of_isLocal`), and so it can be computed from the two arenas alone
(`World.run_wholeRound_append`).
-/

namespace BumpArena

/-- A call that makes no arena and no region, and draws no identity. -/
def Call.isLocal {κ : Type} : Call κ → Bool
  | .makeArena _ | .makeRegion .. | .drawId => false
  | _ => true

namespace World

variable {κ : Type} [DecidableEq κ]

/-! ## Draws in a row -/

/-- A row of draws leaves all as it is but the source and the list of what was drawn for nothing. -/
lemma foldl_step_drawId (w : World κ) (draws : Nat) :
    ∃ spare, (List.replicate draws .drawId).foldl step w =
      { w with storage := { w.storage with ids := w.storage.ids.after draws }, spare } := by
  induction draws with
  | zero => exact ⟨w.spare, rfl⟩
  | succ draws ih =>
    obtain ⟨spare, hdrawn⟩ := ih
    rw [List.replicate_succ', List.foldl_append, hdrawn]
    exact ⟨_, rfl⟩

/-! ## Calls without the storage -/

/-- What is done with arenas and chunks has nothing to do with the storage. -/
lemma step_of_isLocal (w : World κ) (storage : Storage) (spare : List RegionId) {call : Call κ}
    (hlocal : call.isLocal = true) :
    ({ w with storage, spare } : World κ).step call = { w.step call with storage, spare } := by
  have hallocate (i : Nat) (place : Place κ) (request : Request) :
      ({ w with storage, spare } : World κ).allocate i place request =
        { w.allocate i place request with storage, spare } := by
    simp only [allocate]
    split
    · split <;> rfl
    · rfl
  cases call with
  | makeArena => cases hlocal
  | makeRegion => cases hlocal
  | drawId => cases hlocal
  | makeChunk => rfl
  | makeTable => rfl
  | allocate i place request => exact hallocate i place request
  | allocateBytes i place length => exact hallocate i place (.ofBytes length)
  | reset i =>
    simp only [step, reset]
    split
    · split <;> rfl
    · rfl
  | resetAll i index =>
    simp only [step, resetAll]
    split
    · split <;> rfl
    · rfl
  | release => rfl
  | releaseAll => rfl
  | remove => rfl

lemma foldl_step_of_isLocal (w : World κ) (storage : Storage) (spare : List RegionId)
    {calls : List (Call κ)} (hlocal : ∀ call ∈ calls, call.isLocal = true) :
    calls.foldl step { w with storage, spare } = { calls.foldl step w with storage, spare } := by
  induction calls generalizing w with
  | nil => rfl
  | cons call calls ih =>
    obtain ⟨hfirst, hrest⟩ := List.forall_mem_cons.1 hlocal
    rw [List.foldl_cons, step_of_isLocal w storage spare hfirst, ih _ hrest]
    rfl

/-! ## Two namesakes -/

/-- What the first of two namesakes is made from.  Its largest chunk is the larger one. -/
def elderConfig : ArenaConfig := ⟨8192, 64, 256⟩

/-- What the second is made from. -/
def youngerConfig : ArenaConfig := ⟨4096, 64, 128⟩

/-- The first of two namesakes, when it is new. -/
def elder : ChunkedArena where
  region := ⟨⟨1⟩, 8192, 0, none, 0⟩
  counter := { capacity := 8192 }
  minChunk := 64
  maxChunk := 256

/-- The second, when it is new. -/
def younger : ChunkedArena where
  region := ⟨⟨1⟩, 4096, 1, none, 0⟩
  counter := { capacity := 4096 }
  minChunk := 64
  maxChunk := 128

/-- How a program comes to have both: between the two it draws all other identities. -/
def wholeRound : List (Call κ) :=
  .makeArena elderConfig ::
    (List.replicate (IdSource.period - 1) .drawId ++ [.makeArena youngerConfig])

/-- The storage with the bytes of the first arena only. -/
def elderStorage (ids : IdSource) : Storage := { blocks := #[.zeros 8192], ids }

/-- The first arena that is made gets the first identity. -/
lemma run_make_elder : (ChunkedArena.make elderConfig).run default =
    .ok elder (elderStorage ({} : IdSource).next.2) := by
  have hfirst : ({} : IdSource).next.1 = ⟨1⟩ := by
    rw [IdSource.next_of_counter_ne_zero (by decide)]
  rw [elder, ← hfirst]
  rfl

/-- So does the one that is made after the rest of the round. -/
lemma exists_run_make_younger : ∃ s, (ChunkedArena.make youngerConfig).run
    (elderStorage (({} : IdSource).next.2.after (IdSource.period - 1))) = .ok younger s := by
  have hround : (({} : IdSource).next.2.after (IdSource.period - 1)).next.1 = ⟨1⟩ := by
    rw [← IdSource.idAt, IdSource.idAt_rest, IdSource.next_of_counter_ne_zero (by decide)]
  rw [younger, ← hround]
  exact ⟨_, rfl⟩

omit [DecidableEq κ] in
lemma makeArena_of_ok {w : World κ} {config : ArenaConfig} {a : ChunkedArena} {s : Storage}
    (hmake : (ChunkedArena.make config).run w.storage = .ok a s) :
    w.makeArena config = { w with storage := s, arenas := w.arenas ++ [a] } := by
  rw [makeArena, hmake]

/-- Two new arenas of one identity are what the whole round leaves. -/
lemma exists_run_wholeRound : ∃ storage spare, run default wholeRound =
    ({ storage, arenas := [elder, younger], spare } : World κ) := by
  let first : World κ :=
    { storage := elderStorage ({} : IdSource).next.2, arenas := [elder] }
  obtain ⟨spare, hdrawn⟩ := first.foldl_step_drawId (IdSource.period - 1)
  obtain ⟨storage, hyounger⟩ := exists_run_make_younger
  have helder : ({ storage := default } : World κ).makeArena elderConfig = first :=
    makeArena_of_ok run_make_elder
  refine ⟨storage, spare, ?_⟩
  rw [run, wholeRound, List.foldl_cons, List.foldl_append, step, helder, hdrawn, List.foldl_cons,
    List.foldl_nil, step]
  exact makeArena_of_ok hyounger

/-- Two new arenas of one identity. -/
def namesakes : World κ := { storage := default, arenas := [elder, younger] }

/-- **What a program does with two namesakes** is known from the arenas. -/
lemma run_wholeRound_append (calls : List (Call κ)) (hlocal : ∀ call ∈ calls, call.isLocal = true) :
    (run default (wholeRound ++ calls)).arenas = (calls.foldl step namesakes).arenas ∧
      (run default (wholeRound ++ calls)).pool = (calls.foldl step namesakes).pool ∧
      (run default (wholeRound ++ calls)).grants = (calls.foldl step namesakes).grants := by
  obtain ⟨storage, spare, hround⟩ := exists_run_wholeRound (κ := κ)
  have hrun : run default (wholeRound ++ calls) = calls.foldl step (run default wholeRound) :=
    List.foldl_append
  have hlater := foldl_step_of_isLocal namesakes storage spare hlocal
  rw [hrun, hround, show ({ storage, arenas := [elder, younger], spare } : World κ) =
    { namesakes with storage, spare } from rfl, hlater]
  exact ⟨rfl, rfl, rfl⟩

end World

end BumpArena
