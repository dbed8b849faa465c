import Mathlib.Data.List.Nodup
import BumpArena.Proofs.Arena.Isolation
import BumpArena.Proofs.Arena.Namesakes
import BumpArena.Proofs.Atomic

/-!
# Grants do not overlap

An arena is new when nothing was granted by it and no chunk was filled by it, and that it is new
has to be known from its identity: a chunk tells by it whose it is.  Identities come from a counter
that goes round, and so the development rests on one condition, that no other arena has the same one
(`World.Unshared`).  It holds for all arenas until the counter has gone round
(`World.unshared_of_nodup`).

Every call keeps what `World.Sound` says (`World.Sound.step`), and so every run does
(`World.sound_run`).  `World.grants_of_run` reads off what that means for the grants, and
`World.exists_overlap_of_namesakes` is a run in which two arenas come to have one identity.  Nothing
is left there of all this but that grants are aligned.
-/

namespace BumpArena

/-! ## Making an arena -/

open Storage

lemma ChunkedArena.draws_make (config : ArenaConfig) : (make config).Draws := by
  refine (reads_requireConfig _).bind_draws fun _ => ?_
  exact (Region.draws_makeVolatile _).bind fun r => StorageM.looks_pure _

/-- **Making an arena** either fails and leaves the storage as it was, or draws one identity. -/
lemma ChunkedArena.make_cases (config : ArenaConfig) (s : Storage) :
    (∃ error, (make config).run s = .error error s) ∨
      ∃ a s', (make config).run s = .ok a s' ∧ a.region.id = s.ids.next.1 ∧
        s'.ids = s.ids.next.2 ∧ a.Sound := by
  rcases (draws_make config).atomic.cases s with herror | ⟨a, s', hmake⟩
  · exact .inl herror
  obtain ⟨_, _, hconfig, hmade⟩ := StorageM.bind_eq_ok_iff.1 hmake
  obtain ⟨hvalid, rfl⟩ := requireConfig_eq_ok_iff.1 hconfig
  obtain ⟨-, hbounds⟩ := ArenaConfig.validate_eq_ok_iff.1 hvalid
  obtain ⟨r, t, hregion, hpure⟩ := StorageM.bind_eq_ok_iff.1 hmade
  obtain ⟨rfl, rfl⟩ := StorageM.pure_eq_ok_iff.1 hpure
  obtain ⟨hid, hids, -, hmappable⟩ := Region.of_makeVolatile hregion
  refine .inr ⟨_, t, hmake, hid, hids, ?_⟩
  exact ⟨hid ▸ s.ids.next_ne_unassigned, rfl, hmappable.le, fun _ => Nat.dvd_zero _,
    hbounds.maxChunk_dvd⟩

namespace World

variable {κ : Type} {w : World κ} {s₀ : Storage} {i : Nat} {a : ChunkedArena}

/-! ## New arenas and regions -/

/-- A row of identities is one longer after a draw. -/
lemma Sound.drawn_next (h : w.Sound s₀) {ids : List RegionId}
    (hids : ids.Perm (w.storage.ids.next.1 :: w.ids)) :
    ∃ draws, w.storage.ids.next.2 = s₀.ids.after draws ∧
      ids.Perm ((List.range draws).map s₀.ids.idAt) := by
  obtain ⟨draws, hdrawn, hperm⟩ := h.drawn
  refine ⟨draws + 1, by rw [hdrawn]; rfl, ?_⟩
  have hnext : w.storage.ids.next.1 = s₀.ids.idAt draws := by rw [hdrawn]; rfl
  rw [List.range_succ, List.map_append, List.map_singleton, ← hnext]
  exact hids.trans ((hperm.cons _).trans (List.perm_append_singleton _ _).symm)

/-- Nothing was granted by an arena that is yet to be made, and no chunk was filled by it. -/
lemma Sound.isolated_new (h : w.Sound s₀) {storage : Storage}
    (hunshared : Unshared { w with storage, arenas := w.arenas ++ [a] } w.arenas.length a) :
    Isolated { w with storage, arenas := w.arenas ++ [a] } w.arenas.length a := by
  have hgrants : ∀ g ∈ w.grants, g.arena ≠ w.arenas.length := by
    intro g hg
    exact Nat.ne_of_lt (h.grant_lt g hg)
  have hspans (generation : Nat) : w.spans w.arenas.length generation = [] :=
    spans_eq_nil fun g hg harena => absurd harena (hgrants g hg)
  have hheld : w.pool.chunks.flatMap a.held = [] := by
    refine List.flatMap_eq_nil_iff.2 fun c hc => ChunkedArena.held_of_not_owns ?_
    obtain ⟨b, hb, hid, -⟩ := h.issued c hc
    have hne : b.region.id ≠ a.region.id := by
      intro hsame
      obtain ⟨k, hk⟩ := List.getElem?_of_mem hb
      obtain ⟨hlt, -⟩ := List.getElem?_eq_some_iff.1 hk
      have hlast : k = w.arenas.length :=
        hunshared k b (by rw [← hk]; exact List.getElem?_append_left hlt) hsame
      omega
    simp [ChunkedArena.owns, hid, hne]
  refine ⟨?_, ?_, ?_, ?_⟩
  · show Span.Packed (w.spans w.arenas.length a.generation ++ w.pool.chunks.flatMap a.held) _
    rw [hspans, hheld]
    exact .nil
  · intro generation
    show (w.spans w.arenas.length generation).Pairwise _
    rw [hspans]
    exact .nil
  · exact fun g hg harena => absurd harena (hgrants g hg)
  · exact fun g hg harena => absurd harena (hgrants g hg)

lemma Sound.makeArena (h : w.Sound s₀) (config : ArenaConfig) :
    Sound s₀ (w.makeArena config) := by
  rw [World.makeArena]
  rcases ChunkedArena.make_cases config w.storage with
    ⟨error, hmake⟩ | ⟨a, storage, hmake, hid, hids, hsound⟩
  · rw [hmake]
    exact h
  rw [hmake]
  refine ⟨?_, ?_, ?_, h.stop_le, ?_, h.aligned, ?_⟩
  · rw [hids]
    refine h.drawn_next ?_
    simp only [ids, List.map_append, List.map_singleton, hid, List.append_assoc]
    exact List.perm_middle
  · intro b hb
    rcases List.mem_append.1 hb with hb | hb
    · exact h.arena b hb
    · obtain rfl := List.mem_singleton.1 hb
      exact hsound
  · intro c hc
    obtain ⟨b, hb, hissued⟩ := h.issued c hc
    exact ⟨b, List.mem_append_left _ hb, hissued⟩
  · intro g hg
    have hlt := h.grant_lt g hg
    show g.arena < (w.arenas ++ [a]).length
    rw [List.length_append]
    omega
  · intro i b hb hunshared
    by_cases hlt : i < w.arenas.length
    · have hold : w.arenas[i]? = some b := by
        rw [← hb]
        exact (List.getElem?_append_left hlt).symm
      have hisolated := h.isolated i b hold fun k c hc hid => by
        obtain ⟨hk, -⟩ := List.getElem?_eq_some_iff.1 hc
        exact hunshared k c (by rw [← hc]; exact List.getElem?_append_left hk) hid
      exact ⟨hisolated.packed, hisolated.disjoint, hisolated.grant_le, hisolated.resolves⟩
    · have hlast : i = w.arenas.length := by
        obtain ⟨hi, -⟩ := List.getElem?_eq_some_iff.1 hb
        have hlength : i < (w.arenas ++ [a]).length := hi
        rw [List.length_append, List.length_singleton] at hlength
        omega
      subst hlast
      obtain rfl : a = b := Option.some.inj (List.getElem?_concat_length.symm.trans hb)
      exact h.isolated_new hunshared

/-- Regions of other kinds, and identities that are drawn for nothing, concern no arena. -/
lemma Sound.draw {storage : Storage} {regions : List Region} {spare : List RegionId}
    (h : w.Sound s₀) (hids : storage.ids = w.storage.ids.next.2)
    (hperm : (regions.map (·.id) ++ spare).Perm
      (w.storage.ids.next.1 :: (w.regions.map (·.id) ++ w.spare))) :
    Sound s₀ { w with storage, regions, spare } where
  drawn := by
    rw [hids]
    exact h.drawn_next ((hperm.append_left _).trans List.perm_middle)
  arena := h.arena
  issued := h.issued
  stop_le := h.stop_le
  grant_lt := h.grant_lt
  aligned := h.aligned
  isolated i a ha hunshared := by
    have hisolated := h.isolated i a ha hunshared
    exact ⟨hisolated.packed, hisolated.disjoint, hisolated.grant_le, hisolated.resolves⟩

lemma Sound.makeRegion (h : w.Sound s₀) (capacity : Nat) (block : BlockId)
    (path : Option String) : Sound s₀ (w.makeRegion capacity block path) := by
  have hmake : (Storage.makeRegion capacity block path).run w.storage =
      .ok (w.storage.nextRegion capacity block path) w.storage.afterRegion :=
    Storage.makeRegion_eq_ok_iff.2 ⟨rfl, rfl⟩
  rw [World.makeRegion, hmake]
  refine h.draw rfl ?_
  rw [List.map_append, List.map_singleton, List.append_assoc]
  exact List.perm_middle

lemma Sound.drawId (h : w.Sound s₀) : Sound s₀ w.drawId := by
  refine h.draw rfl ?_
  rw [← List.append_assoc]
  exact List.perm_append_singleton _ _

/-! ## Every run -/

lemma sound_start (s : Storage) : Sound s ({ storage := s } : World κ) where
  drawn := ⟨0, rfl, .refl _⟩
  arena a ha := by simp at ha
  issued c hc := by simp [ChunkPool.chunks] at hc
  stop_le c hc := by simp [ChunkPool.chunks] at hc
  grant_lt g hg := by simp at hg
  aligned g hg := by simp at hg
  isolated i a ha := by simp at ha

section Run

variable [DecidableEq κ]

/-- **What every call keeps**, every call keeps. -/
theorem Sound.step (h : w.Sound s₀) (call : Call κ) : Sound s₀ (w.step call) := by
  cases call with
  | makeArena config => exact h.makeArena config
  | makeRegion capacity block path => exact h.makeRegion capacity block path
  | drawId => exact h.drawId
  | makeChunk => exact h.withPool (by rw [ChunkPool.chunks_addChunk])
  | makeTable => exact h.withPool (by rw [ChunkPool.chunks_addTable])
  | allocate i place request halign => exact h.allocate i place request halign
  | allocateBytes i place length =>
    have hbyte : Alignment.byte.bytes ≤ cacheLine.bytes := by decide
    exact h.allocate i place (.ofBytes length) hbyte
  | reset i =>
    show Sound s₀ (w.reset i)
    rcases w.reset_cases i with hsame | ⟨a, a', ha, hreset, hafter⟩
    · rwa [hsame]
    · rw [hafter]
      exact h.reset ha hreset (.refl _)
  | resetAll i index =>
    show Sound s₀ (w.resetAll i index)
    rcases w.resetAll_cases i index with hsame | ⟨a, a', ha, hreset, hafter⟩
    · rwa [hsame]
    · rw [hafter]
      exact h.reset ha hreset (w.pool.subperm_releaseAll index)
  | release place => exact h.withPool (w.pool.subperm_release place)
  | releaseAll index => exact h.withPool (w.pool.subperm_releaseAll index)
  | remove index key => exact h.withPool (w.pool.subperm_remove index key)

theorem sound_run (s : Storage) (calls : List (Call κ)) : Sound s (run s calls) := by
  have hfold (w : World κ) (h : w.Sound s) : Sound s (calls.foldl World.step w) := by
    induction calls generalizing w with
    | nil => exact h
    | cons call calls ih => exact ih _ (h.step call)
  exact hfold _ (sound_start s)

/-! ## Regions stay -/

omit [DecidableEq κ] in
lemma exists_setArena {j : Nat} {b b' : ChunkedArena} {pool : ChunkPool κ} {granted : List Grant}
    (ha : w.arenas[i]? = some a) (hb : w.arenas[j]? = some b) (hregion : b'.region = b.region) :
    ∃ a', (w.setArena j b' pool granted).arenas[i]? = some a' ∧ a'.region = a.region := by
  by_cases hij : j = i
  · subst hij
    obtain ⟨hlt, -⟩ := List.getElem?_eq_some_iff.1 ha
    obtain rfl : a = b := Option.some.inj (ha.symm.trans hb)
    exact ⟨b', List.getElem?_set_self hlt, hregion⟩
  · refine ⟨a, ?_, rfl⟩
    rw [← ha]
    exact List.getElem?_set_ne hij

/-- An arena stays over its region. -/
lemma Sound.step_region (h : w.Sound s₀) (ha : w.arenas[i]? = some a) (call : Call κ) :
    ∃ a', (w.step call).arenas[i]? = some a' ∧ a'.region = a.region := by
  have hallocate (j : Nat) (place : Place κ) (request : Request) :
      ∃ a', (w.allocate j place request).arenas[i]? = some a' ∧ a'.region = a.region := by
    rcases w.allocate_cases j place request with
      hsame | ⟨b, c, handle, c', b', hb, hc, hok, hafter⟩
    · exact ⟨a, by rw [hsame, ha], rfl⟩
    · rw [hafter]
      have hserves := ChunkedArena.serves_of_allocate (h.arena b (List.mem_of_getElem? hb)) hok
      exact exists_setArena ha hb hserves.region_eq
  cases call with
  | makeArena config =>
    refine ⟨a, ?_, rfl⟩
    show (w.makeArena config).arenas[i]? = some a
    obtain ⟨hlt, -⟩ := List.getElem?_eq_some_iff.1 ha
    rw [World.makeArena]
    split
    · rw [← ha]
      exact List.getElem?_append_left hlt
    · exact ha
  | makeRegion capacity block path => exact ⟨a, ha, rfl⟩
  | allocate j place request => exact hallocate j place request
  | allocateBytes j place length => exact hallocate j place (.ofBytes length)
  | reset j =>
    show ∃ a', (w.reset j).arenas[i]? = some a' ∧ a'.region = a.region
    rcases w.reset_cases j with hsame | ⟨b, b', hb, hreset, hafter⟩
    · exact ⟨a, by rw [hsame, ha], rfl⟩
    · rw [hafter]
      exact exists_setArena ha hb (by rw [ChunkedArena.eq_of_reset hreset])
  | resetAll j index =>
    show ∃ a', (w.resetAll j index).arenas[i]? = some a' ∧ a'.region = a.region
    rcases w.resetAll_cases j index with hsame | ⟨b, b', hb, hreset, hafter⟩
    · exact ⟨a, by rw [hsame, ha], rfl⟩
    · rw [hafter]
      exact exists_setArena ha hb (by rw [ChunkedArena.eq_of_reset hreset])
  | drawId => exact ⟨a, ha, rfl⟩
  | makeChunk => exact ⟨a, ha, rfl⟩
  | makeTable => exact ⟨a, ha, rfl⟩
  | release place => exact ⟨a, ha, rfl⟩
  | releaseAll index => exact ⟨a, ha, rfl⟩
  | remove index key => exact ⟨a, ha, rfl⟩

lemma Sound.run_region (later : List (Call κ)) (h : w.Sound s₀) (ha : w.arenas[i]? = some a) :
    ∃ a', (later.foldl World.step w).arenas[i]? = some a' ∧ a'.region = a.region := by
  induction later generalizing w a with
  | nil => exact ⟨a, ha, rfl⟩
  | cons call later ih =>
    obtain ⟨a', ha', hregion⟩ := h.step_region ha call
    obtain ⟨a'', ha'', hregion'⟩ := ih (h.step call) ha'
    exact ⟨a'', ha'', hregion'.trans hregion⟩

end Run

/-! ## What was granted -/

/-- Identities that were drawn in one round are all different. -/
lemma Sound.nodup_ids (h : w.Sound s₀) (hround : w.ids.length ≤ IdSource.period) :
    w.ids.Nodup := by
  obtain ⟨draws, -, hperm⟩ := h.drawn
  have hdraws : draws ≤ IdSource.period := by
    have hlength := hperm.length_eq
    rw [List.length_map, List.length_range] at hlength
    omega
  exact hperm.nodup_iff.2 (s₀.ids.nodup_idAt hdraws)

lemma unshared_of_nodup (h : w.ids.Nodup) (ha : w.arenas[i]? = some a) : w.Unshared i a := by
  intro j b hb hid
  have harenas : (w.arenas.map (·.region.id)).Nodup := h.of_append_left
  obtain ⟨hj, rfl⟩ := List.getElem?_eq_some_iff.1 hb
  obtain ⟨hi, rfl⟩ := List.getElem?_eq_some_iff.1 ha
  have hj' : j < (w.arenas.map (·.region.id)).length := by rwa [List.length_map]
  have hi' : i < (w.arenas.map (·.region.id)).length := by rwa [List.length_map]
  have hget : (w.arenas.map (·.region.id))[j] = (w.arenas.map (·.region.id))[i] := by
    rw [List.getElem_map, List.getElem_map]
    exact hid
  exact harenas.getElem_inj_iff.1 hget

/-- A handle resolves against no region of another identity. -/
lemma resolveIn_eq_none {g : Grant} {r r' : Region} {offset : Nat}
    (h : g.resolveIn r = some offset) (hne : r'.id ≠ r.id) : g.resolveIn r' = none := by
  obtain ⟨length, -, hrange, -⟩ := Region.resolveSlice_eq_some_iff.1 h
  obtain ⟨-, hregion, -⟩ := Region.byteRange_eq_some_iff.1 hrange
  refine Option.eq_none_iff_forall_ne_some.2 fun other hother => hne ?_
  obtain ⟨length', -, hrange', -⟩ := Region.resolveSlice_eq_some_iff.1 hother
  obtain ⟨-, hregion', -⟩ := Region.byteRange_eq_some_iff.1 hrange'
  rw [← hregion, hregion']

variable [DecidableEq κ]

/-- **Grants do not overlap.**  Whatever is granted is aligned.  As long as no other arena has come
to have its identity, what an arena granted between two resets overlaps nowhere, and whatever it
ever granted lies in its region and resolves there from then on, however chunks went round between
the arenas and whatever is reset later.  As long as identities have not gone round once, no other
arena has its identity, and what it granted resolves in no other region. -/
theorem grants_of_run (s : Storage) (calls : List (Call κ)) {i : Nat} {a : ChunkedArena}
    (ha : (run s calls).arenas[i]? = some a) :
    (∀ g ∈ (run s calls).grants, g.request.layout.align.Divides g.span.start) ∧
    ((run s calls).Unshared i a →
      (∀ generation, ((run s calls).spans i generation).Pairwise Span.Disjoint) ∧
      ∀ g ∈ (run s calls).grants, g.arena = i →
        g.span.stop ≤ a.region.capacity ∧
        ∀ later, ∃ a', (run s (calls ++ later)).arenas[i]? = some a' ∧
          g.resolveIn a'.region = some g.span.start) ∧
    ((run s calls).ids.length ≤ IdSource.period →
      (run s calls).Unshared i a ∧
      ∀ g ∈ (run s calls).grants, g.arena = i →
        (∀ j b, (run s calls).arenas[j]? = some b → j ≠ i → g.resolveIn b.region = none) ∧
        ∀ r ∈ (run s calls).regions, g.resolveIn r = none) := by
  have hsound := sound_run s calls
  refine ⟨hsound.aligned, fun hunshared => ?_, fun hround => ?_⟩
  · have hisolated := hsound.isolated i a ha hunshared
    refine ⟨hisolated.disjoint, ?_⟩
    intro g hg harena
    have hresolves := hisolated.resolves g hg harena
    obtain ⟨length, hlength, hrange, -⟩ := Region.resolveSlice_eq_some_iff.1 hresolves
    obtain ⟨rfl, -⟩ := Word.mul?_eq_some_iff.1 hlength
    obtain ⟨-, -, hstop, -⟩ := Region.byteRange_eq_some_iff.1 hrange
    refine ⟨hstop, ?_⟩
    intro later
    obtain ⟨a', ha', hregion⟩ := hsound.run_region later ha
    refine ⟨a', ?_, ?_⟩
    · rw [run, List.foldl_append]
      exact ha'
    · rw [hregion]
      exact hresolves
  · have hnodup := hsound.nodup_ids hround
    have hunshared := unshared_of_nodup hnodup ha
    refine ⟨hunshared, ?_⟩
    intro g hg harena
    have hresolves := (hsound.isolated i a ha hunshared).resolves g hg harena
    constructor
    · intro j b hb hne
      exact resolveIn_eq_none hresolves fun hid => hne (hunshared j b hb hid)
    · intro r hr
      refine resolveIn_eq_none hresolves ?_
      intro hid
      have hdisjoint := List.nodup_append.1 hnodup
      refine hdisjoint.2.2 a.region.id ?_ r.id ?_ hid.symm
      · exact List.mem_map_of_mem (List.mem_of_getElem? ha)
      · exact List.mem_append_left _ (List.mem_map_of_mem hr)

/-- Two arenas take turns at one chunk.  The first is reset in between, and serves a request that is
too large for a chunk. -/
def takingTurns : List (Call Unit) :=
  let config : ArenaConfig := ⟨4096, 64, 128⟩
  [.makeArena config, .drawId, .makeArena config, .makeRegion 4096 0 none, .makeChunk,
    .allocateBytes 0 (.loose 0) 40, .allocateBytes 1 (.loose 0) 40, .allocateBytes 0 (.loose 0) 40,
    .allocateBytes 0 (.loose 0) 200, .reset 0, .allocateBytes 0 (.loose 0) 40]

/-- What was left of a chunk is lost when the other arena is given it, and after the reset the first
arena starts over at its base. -/
theorem grants_of_run_takingTurns :
    ∃ a, (run default takingTurns).arenas[0]? = some a ∧
      (run default takingTurns).ids.length ≤ IdSource.period ∧
      (run default takingTurns).Unshared 0 a ∧
      (run default takingTurns).spans 0 0 = [⟨0, 40⟩, ⟨128, 168⟩, ⟨256, 456⟩] ∧
      (run default takingTurns).spans 0 1 = [⟨0, 40⟩] ∧
      (∀ generation, ((run default takingTurns).spans 0 generation).Pairwise Span.Disjoint) ∧
      ∀ g ∈ (run default takingTurns).grants, g.arena = 0 →
        (∀ later, ∃ a', (run default (takingTurns ++ later)).arenas[0]? = some a' ∧
          g.resolveIn a'.region = some g.span.start) ∧
        ∀ r ∈ (run default takingTurns).regions, g.resolveIn r = none := by
  have hlt : 0 < (run default takingTurns).arenas.length := by decide +kernel
  have hround : (run default takingTurns).ids.length ≤ IdSource.period := by decide +kernel
  have harena := List.getElem?_eq_getElem hlt
  obtain ⟨-, hown, hothers⟩ := grants_of_run default takingTurns harena
  obtain ⟨hunshared, hforeign⟩ := hothers hround
  obtain ⟨hdisjoint, hgrants⟩ := hown hunshared
  refine ⟨_, harena, hround, hunshared, by decide +kernel, by decide +kernel, hdisjoint, ?_⟩
  intro g hg hzero
  exact ⟨(hgrants g hg hzero).2, (hforeign g hg hzero).2⟩

/-- What is done with two namesakes.  The elder fills two chunks, the second of them behind a large
request, and both are given to the younger, which has a chunk of its own as well. -/
def mistakenChunks : List (Call Unit) :=
  [.makeChunk, .makeChunk, .makeChunk, .allocateBytes 0 (.loose 0) 64,
    .allocateBytes 0 (.loose 1) 5000, .allocateBytes 0 (.loose 1) 64,
    .allocateBytes 1 (.loose 2) 64, .allocateBytes 1 (.loose 0) 64,
    .allocateBytes 1 (.loose 2) 64, .allocateBytes 1 (.loose 1) 64]

/-- **Grants of an arena with a namesake overlap.**  The younger takes the chunks of the elder for
its own.  What it grants from the first of them it grants from its own chunk once more, and what it
grants from the second lies past its region, where it does not resolve. -/
theorem exists_overlap_of_namesakes :
    ∃ a, (run default (wholeRound ++ mistakenChunks)).arenas[1]? = some a ∧
      (run default (wholeRound ++ mistakenChunks)).spans 1 0 =
        [⟨0, 64⟩, ⟨64, 128⟩, ⟨64, 128⟩, ⟨5248, 5312⟩] ∧
      ¬ ((run default (wholeRound ++ mistakenChunks)).spans 1 0).Pairwise Span.Disjoint ∧
      ∃ g ∈ (run default (wholeRound ++ mistakenChunks)).grants,
        g.arena = 1 ∧ a.region.capacity < g.span.stop ∧ g.resolveIn a.region = none := by
  obtain ⟨harenas, -, hgrants⟩ := run_wholeRound_append mistakenChunks (by decide)
  have hspans : (run default (wholeRound ++ mistakenChunks)).spans 1 0 =
      (mistakenChunks.foldl step namesakes).spans 1 0 := by
    rw [spans, spans, grantsIn, grantsIn, hgrants]
  rw [harenas, hspans, hgrants]
  refine ⟨younger.advance 128, ?_, ?_, ?_, ⟨1, 0, .ofBytes 64, ⟨5248, ⟨1⟩⟩⟩, ?_, rfl, ?_, ?_⟩
  all_goals decide +kernel

end World

end BumpArena
