import BumpArena.Proofs.Arena.World
import BumpArena.Proofs.Identity

/-!
# What keeps arenas apart

The invariant of a world.  For an arena whose identity is its own, the bytes that it granted since
its last reset and those that its chunks may still give out are packed below its counter
(`World.Isolated`).  That this lasts comes down to three facts, one for each thing that can happen
to an arena:

* a request cuts what its chunk held, and what the arena had not handed out, into what is granted
  and what the chunk holds afterwards (`World.Isolated.packed_of_serves`);
* a reset makes every chunk that the arena filled one of an earlier generation, as no chunk is of a
  generation that is yet to come (`World.Sound.flatMap_held_of_lt`);
* what another arena does with a chunk leaves it as it was or makes it worthless to this one
  (`World.subperm_held_of_serves`).

`World.Sound.setArena` puts them together: nothing but one arena and the chunks change in a call.
-/

namespace BumpArena

/-! ## What chunks hold -/

/-- What holds nothing need not be listed. -/
lemma ChunkedArena.flatMap_live {a : ChunkedArena} (hsound : a.Sound) (c : LocalChunk) :
    c.live.flatMap a.held = a.held c := by
  rw [LocalChunk.live]
  split
  · simp
  · next hheld =>
    have hregion : c.region = .unassigned := by
      simpa [LocalChunk.isHeld, RegionId.isUnassigned] using hheld
    rw [held_of_unassigned hsound hregion]
    rfl

/-- Fewer chunks hold fewer bytes. -/
lemma ChunkedArena.subperm_flatMap_held (a : ChunkedArena) {fewer chunks : List LocalChunk}
    (h : List.Subperm fewer chunks) :
    List.Subperm (fewer.flatMap a.held) (chunks.flatMap a.held) := by
  obtain ⟨ordered, hperm, hsublist⟩ := h
  exact ⟨ordered.flatMap a.held, hperm.flatMap_right _, hsublist.flatMap _⟩

/-! ## The invariant -/

namespace World

variable {κ : Type} {w : World κ} {s₀ : Storage} {i : Nat} {a a' : ChunkedArena}

/-- **What holds for an arena whose identity is its own.**  The bytes that it granted since its last
reset and those that its chunks still hold overlap nowhere, and they were all handed out by its
counter. -/
structure Isolated (w : World κ) (i : Nat) (a : ChunkedArena) : Prop where
  packed : Span.Packed (w.spans i a.generation ++ w.pool.chunks.flatMap a.held) a.counter.used
  disjoint : ∀ generation, (w.spans i generation).Pairwise Span.Disjoint
  grant_le : ∀ g ∈ w.grants, g.arena = i → g.generation ≤ a.generation
  resolves : ∀ g ∈ w.grants, g.arena = i → g.resolveIn a.region = some g.span.start

/-- The arena that a chunk was filled by has not gone back to an earlier generation. -/
def Issued (w : World κ) (c : LocalChunk) : Prop :=
  ∃ a ∈ w.arenas, c.region = a.region.id ∧ c.generation ≤ a.generation

/-- **What every call keeps.** -/
structure Sound (s₀ : Storage) (w : World κ) : Prop where
  drawn : ∃ draws, w.storage.ids = s₀.ids.after draws ∧
    w.ids.Perm ((List.range draws).map s₀.ids.idAt)
  arena : ∀ a ∈ w.arenas, a.Sound
  issued : ∀ c ∈ w.pool.chunks, w.Issued c
  stop_le : ∀ c ∈ w.pool.chunks, c.stop ≤ maxCapacity
  grant_lt : ∀ g ∈ w.grants, g.arena < w.arenas.length
  aligned : ∀ g ∈ w.grants, g.request.layout.align.Divides g.span.start
  isolated : ∀ i a, w.arenas[i]? = some a → w.Unshared i a → w.Isolated i a

lemma Isolated.of_pool {pool : ChunkPool κ} (h : w.Isolated i a)
    (hpool : List.Subperm (pool.chunks.flatMap a.held) (w.pool.chunks.flatMap a.held)) :
    Isolated { w with pool } i a where
  packed := h.packed.subperm ((List.subperm_append_left _).2 hpool)
  disjoint := h.disjoint
  grant_le := h.grant_le
  resolves := h.resolves

/-- Chunks that are let go of, or put elsewhere, do no harm. -/
lemma Sound.withPool {pool : ChunkPool κ} (h : w.Sound s₀)
    (hpool : List.Subperm pool.chunks w.pool.chunks) : Sound s₀ { w with pool } where
  drawn := h.drawn
  arena := h.arena
  issued c hc := h.issued c (hpool.subset hc)
  stop_le c hc := h.stop_le c (hpool.subset hc)
  grant_lt := h.grant_lt
  aligned := h.aligned
  isolated i a ha hunshared :=
    (h.isolated i a ha hunshared).of_pool (a.subperm_flatMap_held hpool)

/-! ## When something is done with one arena -/

section SetArena

variable {pool : ChunkPool κ} {granted : List Grant} {j : Nat} {b : ChunkedArena}

lemma Unshared.of_setArena (ha : w.arenas[i]? = some a) (hregion : a'.region = a.region)
    (h : (w.setArena i a' pool granted).Unshared j b) : w.Unshared j b := by
  obtain ⟨hlt, -⟩ := List.getElem?_eq_some_iff.1 ha
  intro k c hc hid
  by_cases hk : k = i
  · subst hk
    obtain rfl : a = c := Option.some.inj (ha.symm.trans hc)
    exact h k a' (List.getElem?_set_self hlt) (by rw [hregion, hid])
  · have hother : (w.arenas.set i a')[k]? = some c := by
      rw [List.getElem?_set_ne (Ne.symm hk), hc]
    exact h k c hother hid

lemma ids_setArena (ha : w.arenas[i]? = some a) (hregion : a'.region = a.region) :
    (w.setArena i a' pool granted).ids = w.ids := by
  obtain ⟨hlt, rfl⟩ := List.getElem?_eq_some_iff.1 ha
  have hmap : (w.arenas.set i a').map (·.region.id) = w.arenas.map (·.region.id) := by
    rw [List.map_set, hregion, ← List.map_set, List.set_getElem_self]
  simp only [ids, setArena, hmap]

lemma Issued.setArena {c : LocalChunk} (h : w.Issued c) (ha : w.arenas[i]? = some a)
    (hregion : a'.region = a.region) (hgeneration : a.generation ≤ a'.generation) :
    (w.setArena i a' pool granted).Issued c := by
  obtain ⟨b, hb, hid, hle⟩ := h
  obtain ⟨hlt, ha⟩ := List.getElem?_eq_some_iff.1 ha
  obtain ⟨k, hk, rfl⟩ := List.getElem_of_mem hb
  by_cases hki : k = i
  · subst hki
    refine ⟨a', List.mem_set hlt _, ?_, ?_⟩
    · rw [hid, hregion, ha]
    · rw [ha] at hle
      exact Nat.le_trans hle hgeneration
  · refine ⟨w.arenas[k], ?_, hid, hle⟩
    refine List.mem_of_getElem? (i := k) ?_
    show (w.arenas.set i a')[k]? = some w.arenas[k]
    rw [List.getElem?_set_ne (Ne.symm hki), List.getElem?_eq_getElem hk]

lemma spans_setArena_of_ne (hgranted : ∀ g ∈ granted, g.arena = i) (hne : j ≠ i)
    (generation : Nat) :
    (w.setArena i a' pool granted).spans j generation = w.spans j generation := by
  have hnone : granted.filter (fun g => g.arena = j ∧ g.generation = generation) = [] := by
    refine filter_eq_nil ?_
    intro g hg harena
    exact absurd (harena.symm.trans (hgranted g hg)) hne
  simp only [spans, grantsIn, setArena, List.filter_append, hnone, List.append_nil]

/-- Another arena stays isolated. -/
lemma Isolated.setArena_of_ne (h : w.Isolated j b) (hgranted : ∀ g ∈ granted, g.arena = i)
    (hne : j ≠ i)
    (hpool : List.Subperm (pool.chunks.flatMap b.held) (w.pool.chunks.flatMap b.held)) :
    (w.setArena i a' pool granted).Isolated j b := by
  have hgrants : ∀ g ∈ w.grants ++ granted, g.arena = j → g ∈ w.grants := by
    intro g hg harena
    rcases List.mem_append.1 hg with hg | hg
    · exact hg
    · exact absurd (harena.symm.trans (hgranted g hg)) hne
  refine ⟨?_, ?_, ?_, ?_⟩
  · rw [spans_setArena_of_ne hgranted hne]
    exact h.packed.subperm ((List.subperm_append_left _).2 hpool)
  · intro generation
    rw [spans_setArena_of_ne hgranted hne]
    exact h.disjoint generation
  · intro g hg harena
    exact h.grant_le g (hgrants g hg harena) harena
  · intro g hg harena
    exact h.resolves g (hgrants g hg harena) harena

/-- **Nothing but one arena changes.**  What is left to show is that the arena itself stays
isolated, and that its call left the chunks of the others alone. -/
lemma Sound.setArena (h : w.Sound s₀) (ha : w.arenas[i]? = some a) (hregion : a'.region = a.region)
    (hgeneration : a.generation ≤ a'.generation) (hsound : a'.Sound)
    (hissued : ∀ c ∈ pool.chunks, w.Issued c ∨ a'.owns c = true)
    (hstop : ∀ c ∈ pool.chunks, c.stop ≤ maxCapacity)
    (hgranted : ∀ g ∈ granted, g.arena = i)
    (haligned : ∀ g ∈ granted, g.request.layout.align.Divides g.span.start)
    (hself : w.Unshared i a → (w.setArena i a' pool granted).Isolated i a')
    (hothers : ∀ b : ChunkedArena, b.Sound → b.region.id ≠ a.region.id →
      List.Subperm (pool.chunks.flatMap b.held) (w.pool.chunks.flatMap b.held)) :
    Sound s₀ (w.setArena i a' pool granted) where
  drawn := by
    obtain ⟨draws, hids, hperm⟩ := h.drawn
    exact ⟨draws, hids, ids_setArena ha hregion ▸ hperm⟩
  arena b hb := by
    rcases List.mem_or_eq_of_mem_set hb with hb | rfl
    · exact h.arena b hb
    · exact hsound
  issued c hc := by
    rcases hissued c hc with hc | hc
    · exact hc.setArena ha hregion hgeneration
    · obtain ⟨hlt, -⟩ := List.getElem?_eq_some_iff.1 ha
      obtain ⟨hid, hsame⟩ := ChunkedArena.owns_eq_true_iff.1 hc
      exact ⟨a', List.mem_set hlt _, hid, Nat.le_of_eq hsame⟩
  stop_le := hstop
  aligned g hg := by
    rcases List.mem_append.1 hg with hg | hg
    · exact h.aligned g hg
    · exact haligned g hg
  grant_lt g hg := by
    obtain ⟨hlt, -⟩ := List.getElem?_eq_some_iff.1 ha
    show g.arena < (w.arenas.set i a').length
    rw [List.length_set]
    rcases List.mem_append.1 hg with hg | hg
    · exact h.grant_lt g hg
    · rw [hgranted g hg]
      exact hlt
  isolated j b hb hunshared := by
    have hbefore := hunshared.of_setArena ha hregion
    by_cases hj : j = i
    · subst hj
      obtain ⟨hlt, -⟩ := List.getElem?_eq_some_iff.1 ha
      obtain rfl : a' = b := Option.some.inj ((List.getElem?_set_self hlt).symm.trans hb)
      refine hself fun k c hc hid => hbefore k c hc ?_
      rw [hid, hregion]
    · have hsame : w.arenas[j]? = some b := by
        rw [← hb]
        exact (List.getElem?_set_ne (Ne.symm hj)).symm
      have hne : b.region.id ≠ a.region.id := fun hid => hj (hbefore i a ha hid.symm).symm
      exact (h.isolated j b hsame hbefore).setArena_of_ne hgranted hj
        (hothers b (h.arena b (List.mem_of_getElem? hsame)) hne)

end SetArena

/-! ## Resets -/

/-- No chunk is of a generation that is yet to come. -/
lemma Sound.flatMap_held_of_lt {chunks : List LocalChunk} (h : w.Sound s₀)
    (ha : w.arenas[i]? = some a) (hunshared : w.Unshared i a) (hregion : a'.region = a.region)
    (hgeneration : a.generation < a'.generation) (hchunks : chunks ⊆ w.pool.chunks) :
    chunks.flatMap a'.held = [] := by
  refine List.flatMap_eq_nil_iff.2 fun c hc => ChunkedArena.held_of_not_owns ?_
  obtain ⟨b, hb, hid, hle⟩ := h.issued c (hchunks hc)
  by_cases hsame : c.region = a.region.id
  · obtain ⟨k, hk⟩ := List.getElem?_of_mem hb
    obtain rfl := hunshared k b hk (hid.symm.trans hsame)
    obtain rfl : a = b := Option.some.inj (ha.symm.trans hk)
    have hne : c.generation ≠ a'.generation := by omega
    simp [ChunkedArena.owns, hne]
  · simp [ChunkedArena.owns, hregion, hsame]

/-- Nor is any grant. -/
lemma Isolated.spans_of_lt (h : w.Isolated i a) {generation : Nat}
    (hlt : a.generation < generation) : w.spans i generation = [] := by
  refine spans_eq_nil ?_
  intro g hg harena
  have hle := h.grant_le g hg harena
  omega

/-- **A reset leaves all chunks behind**, those that the arena filled as well as the others. -/
lemma Sound.reset {pool : ChunkPool κ} (h : w.Sound s₀) (ha : w.arenas[i]? = some a)
    (hreset : a.reset = .ok a') (hpool : List.Subperm pool.chunks w.pool.chunks) :
    Sound s₀ (w.setArena i a' pool []) := by
  have hafter := ChunkedArena.eq_of_reset hreset
  have hsound := h.arena a (List.mem_of_getElem? ha)
  have hregion : a'.region = a.region := by rw [hafter]
  have hlt : a.generation < a'.generation := by
    rw [hafter]
    exact Nat.lt_succ_self _
  have hgrants : (w.setArena i a' pool []).grants = w.grants := List.append_nil _
  refine h.setArena ha hregion (Nat.le_of_lt hlt) (hsound.reset hreset) ?_ ?_ (by simp) (by simp)
    ?_ ?_
  · exact fun c hc => .inl (h.issued c (hpool.subset hc))
  · exact fun c hc => h.stop_le c (hpool.subset hc)
  · intro hunshared
    have hisolated := h.isolated i a ha hunshared
    refine ⟨?_, ?_, ?_, ?_⟩
    · rw [spans, grantsIn, hgrants]
      show Span.Packed (w.spans i a'.generation ++ pool.chunks.flatMap a'.held) _
      rw [hisolated.spans_of_lt hlt,
        h.flatMap_held_of_lt ha hunshared hregion hlt hpool.subset]
      exact .nil
    · intro generation
      rw [spans, grantsIn, hgrants]
      exact hisolated.disjoint generation
    · intro g hg harena
      rw [hgrants] at hg
      exact Nat.le_trans (hisolated.grant_le g hg harena) (Nat.le_of_lt hlt)
    · intro g hg harena
      rw [hgrants] at hg
      rw [hregion]
      exact hisolated.resolves g hg harena
  · exact fun b _ _ => b.subperm_flatMap_held hpool

/-! ## Requests -/

section Allocate

variable {place : Place κ} {c c' : LocalChunk} {request : Request} {handle : Handle}

lemma eq_of_mem_granted {g : Grant} (hg : g ∈ granted i a request handle) :
    handle.isNull = false ∧ g = ⟨i, a.generation, request, handle⟩ := by
  rw [granted] at hg
  split at hg
  · simp at hg
  · next hnull => exact ⟨by simpa using hnull, List.mem_singleton.1 hg⟩

lemma map_span_granted :
    (granted i a request handle).map Grant.span = request.granted handle := by
  rw [granted, Request.granted]
  split <;> rfl

lemma spans_setArena_granted {pool : ChunkPool κ} (generation : Nat) :
    (w.setArena i a' pool (granted i a request handle)).spans i generation =
      w.spans i generation ++
        (if generation = a.generation then request.granted handle else []) := by
  have hfilter : (granted i a request handle).filter
      (fun g => g.arena = i ∧ g.generation = generation) =
      if generation = a.generation then granted i a request handle else [] := by
    split
    · next heq =>
      refine List.filter_eq_self.2 ?_
      intro g hg
      obtain ⟨-, rfl⟩ := eq_of_mem_granted hg
      simp [heq]
    · next hne =>
      refine List.filter_eq_nil_iff.2 ?_
      intro g hg
      obtain ⟨-, rfl⟩ := eq_of_mem_granted hg
      simp [Ne.symm hne]
  simp only [spans, grantsIn, setArena, List.filter_append, hfilter, List.map_append]
  split
  · rw [map_span_granted]
  · rfl

/-- To another arena, the chunk of a request is worth no more than before. -/
lemma subperm_held_of_serves {b : ChunkedArena} (hserves : a.Serves c request handle c' a')
    (hb : b.Sound) (hne : b.region.id ≠ a.region.id) : List.Subperm (b.held c') (b.held c) := by
  rcases hserves.fate with ⟨claims, rfl⟩ | hregion | howns
  · exact .refl _
  · rw [ChunkedArena.held_of_unassigned hb hregion]
    exact List.nil_subperm
  · obtain ⟨hid, -⟩ := ChunkedArena.owns_eq_true_iff.1 howns
    have hnot : b.owns c' = false := by simp [ChunkedArena.owns, hid, Ne.symm hne]
    rw [ChunkedArena.held_of_not_owns hnot]
    exact List.nil_subperm

/-- The chunk of a request comes from where it came from before, or from the arena. -/
lemma Sound.issued_of_serves (h : w.Sound s₀) (hserves : a.Serves c request handle c' a')
    (hmem : c.live ⊆ w.pool.chunks) {d : LocalChunk} (hd : d ∈ c'.live) :
    w.Issued d ∨ a'.owns d = true := by
  obtain ⟨rfl, hheld⟩ := LocalChunk.mem_live_iff.1 hd
  rcases hserves.fate with ⟨claims, rfl⟩ | hregion | howns
  · exact .inl (h.issued c (hmem (LocalChunk.mem_live_iff.2 ⟨rfl, hheld⟩)))
  · simp [LocalChunk.isHeld, RegionId.isUnassigned, hregion] at hheld
  · refine .inr ?_
    rwa [ChunkedArena.owns, hserves.region_eq, hserves.generation_eq]

variable {pool : ChunkPool κ} {rest : List LocalChunk}

lemma flatMap_held_of_perm {chunks : List LocalChunk} (hsound : a.Sound)
    (h : chunks.Perm (c.live ++ rest)) :
    (chunks.flatMap a.held).Perm (a.held c ++ rest.flatMap a.held) := by
  have hperm := h.flatMap_right a.held
  rwa [List.flatMap_append, ChunkedArena.flatMap_live hsound] at hperm

/-- What the chunk of a request holds was handed out, as everything else was. -/
lemma Isolated.held_le (h : w.Isolated i a) (hsound : a.Sound)
    (hbefore : w.pool.chunks.Perm (c.live ++ rest)) :
    ∀ x ∈ a.held c, x.stop ≤ a.counter.used := by
  intro x hx
  refine h.packed.stop_le x (List.mem_append_right _ ?_)
  exact (flatMap_held_of_perm hsound hbefore).mem_iff.2 (List.mem_append_left _ hx)

/-- **The bytes of a request** are parts of what its chunk held and of what the arena had not handed
out, so that the spans stay packed. -/
lemma Isolated.packed_of_serves (h : w.Isolated i a) (hsound : a.Sound)
    (hserves : a.Serves c request handle c' a') (hbefore : w.pool.chunks.Perm (c.live ++ rest))
    (hafter : pool.chunks.Perm (c'.live ++ rest)) :
    Span.Packed ((w.spans i a.generation ++ request.granted handle) ++ pool.chunks.flatMap a'.held)
      a'.counter.used := by
  have hcongr := hserves.held_eq
  have hchunks := flatMap_held_of_perm hsound hbefore
  have hchunks' := flatMap_held_of_perm (hserves.sound hsound) hafter
  have hpacked : Span.Packed (a.held c ++ (w.spans i a.generation ++ rest.flatMap a.held))
      a.counter.used := by
    refine h.packed.subperm (List.Perm.subperm ?_)
    exact (List.perm_append_comm_assoc ..).trans (hchunks.symm.append_left _)
  have hadvance := hpacked.advance hserves.used_le
    (hserves.parts hsound (h.held_le hsound hbefore))
  refine hadvance.subperm (List.Perm.subperm ?_)
  rw [hcongr] at hchunks'
  calc (w.spans i a.generation ++ request.granted handle) ++ pool.chunks.flatMap a'.held
    _ = w.spans i a.generation ++ (request.granted handle ++ pool.chunks.flatMap a.held) := by
        rw [hcongr, List.append_assoc]
    _ |>.Perm (w.spans i a.generation ++
          ((request.granted handle ++ a'.held c') ++ rest.flatMap a.held)) := by
        rw [List.append_assoc, hcongr]
        exact (hchunks'.append_left _).append_left _
    _ |>.Perm ((request.granted handle ++ a'.held c') ++
          (w.spans i a.generation ++ rest.flatMap a.held)) := List.perm_append_comm_assoc ..

lemma Isolated.of_serves (h : w.Isolated i a) (hsound : a.Sound)
    (hserves : a.Serves c request handle c' a')
    (halign : request.layout.align.bytes ≤ cacheLine.bytes)
    (hbefore : w.pool.chunks.Perm (c.live ++ rest)) (hafter : pool.chunks.Perm (c'.live ++ rest)) :
    (w.setArena i a' pool (granted i a request handle)).Isolated i a' := by
  have hpacked := h.packed_of_serves hsound hserves hbefore hafter
  refine ⟨?_, ?_, ?_, ?_⟩
  · rw [spans_setArena_granted, hserves.generation_eq, if_pos rfl]
    exact hpacked
  · intro generation
    rw [spans_setArena_granted]
    split
    · next heq =>
      rw [heq]
      exact (List.pairwise_append.1 hpacked.disjoint).1
    · rw [List.append_nil]
      exact h.disjoint generation
  · intro g hg harena
    rw [hserves.generation_eq]
    rcases List.mem_append.1 hg with hg | hg
    · exact h.grant_le g hg harena
    · obtain ⟨-, rfl⟩ := eq_of_mem_granted hg
      exact Nat.le_refl _
  · intro g hg harena
    rw [hserves.region_eq]
    rcases List.mem_append.1 hg with hg | hg
    · exact h.resolves g hg harena
    · obtain ⟨hnull, rfl⟩ := eq_of_mem_granted hg
      exact hserves.resolves hsound (h.held_le hsound hbefore) halign hnull

variable [DecidableEq κ]

/-- **A request** keeps what every call keeps, whichever chunk it is served from. -/
lemma Sound.allocate (h : w.Sound s₀) (i : Nat) (place : Place κ) (request : Request)
    (halign : request.layout.align.bytes ≤ cacheLine.bytes) :
    Sound s₀ (w.allocate i place request) := by
  rcases w.allocate_cases i place request with
    hsame | ⟨a, c, handle, c', a', ha, hc, hok, hafter⟩
  · rw [hsame]
    exact h
  rw [hafter]
  have hsound := h.arena a (List.mem_of_getElem? ha)
  have hserves := ChunkedArena.serves_of_allocate hsound hok
  obtain ⟨rest, hbefore, hstore⟩ := ChunkPool.exists_store hc
  have hafter := hstore c'
  have hmem : c.live ⊆ w.pool.chunks := fun e he =>
    hbefore.mem_iff.2 (List.mem_append_left _ he)
  have hstop (hheld : c.isHeld = true) : c.stop ≤ maxCapacity :=
    h.stop_le c (hmem (LocalChunk.mem_live_iff.2 ⟨rfl, hheld⟩))
  refine h.setArena ha hserves.region_eq (Nat.le_of_eq hserves.generation_eq.symm)
    (hserves.sound hsound) ?_ ?_ ?_ ?_ ?_ ?_
  · intro d hd
    rcases List.mem_append.1 (hafter.mem_iff.1 hd) with hd | hd
    · exact h.issued_of_serves hserves hmem hd
    · exact .inl (h.issued d (hbefore.mem_iff.2 (List.mem_append_right _ hd)))
  · intro d hd
    rcases List.mem_append.1 (hafter.mem_iff.1 hd) with hd | hd
    · obtain ⟨rfl, hheld⟩ := LocalChunk.mem_live_iff.1 hd
      exact hserves.stop_le hsound hstop hheld
    · exact h.stop_le d (hbefore.mem_iff.2 (List.mem_append_right _ hd))
  · intro g hg
    rw [(eq_of_mem_granted hg).2]
  · intro g hg
    obtain ⟨hnull, rfl⟩ := eq_of_mem_granted hg
    exact hserves.divides hsound (fun howns => hstop (ChunkedArena.isHeld_of_owns hsound howns))
      halign hnull
  · exact fun hunshared =>
      (h.isolated i a ha hunshared).of_serves hsound hserves halign hbefore hafter
  · intro b hb hne
    refine (flatMap_held_of_perm hb hafter).subperm.trans ?_
    refine .trans ?_ (flatMap_held_of_perm hb hbefore).symm.subperm
    exact (List.subperm_append_right _).2 (subperm_held_of_serves hserves hb hne)

end Allocate

end World

end BumpArena
