import BumpArena.Proofs.Arena.Disjointness

/-!
# Arenas that start over

`ChunkedArena.Reached` holds of every arena that a program can have: it was made, and served
requests and was reset any number of times.  `ChunkedArena.Starting` holds of those that were just
made or just reset, which have handed out nothing in their generation.
-/

namespace BumpArena

namespace ChunkedArena

/-- The arenas that a program can have. -/
inductive Reached : ChunkedArena → Prop
  | made {config : ArenaConfig} {s s' : Storage} {a : ChunkedArena}
      (hmake : (make config).run s = .ok a s') : Reached a
  | served {a a' : ChunkedArena} {c d : LocalChunk} {request : Request} {h : Handle}
      (hreached : Reached a) (hok : a.allocate c request = .ok (h, d, a')) : Reached a'
  | reset {a a' : ChunkedArena} (hreached : Reached a) (hreset : a.reset = .ok a') : Reached a'

/-- The arenas that were just made or just reset. -/
inductive Starting : ChunkedArena → Prop
  | made {config : ArenaConfig} {s s' : Storage} {a : ChunkedArena}
      (hmake : (make config).run s = .ok a s') : Starting a
  | reset {a a' : ChunkedArena} (hreached : Reached a) (hreset : a.reset = .ok a') : Starting a'

/-- No chunk that an arena claims is empty. -/
structure HasChunks (a : ChunkedArena) : Prop where
  pos : 0 < a.minChunk
  le : a.minChunk ≤ a.maxChunk

section Starting

variable {a : ChunkedArena} {config : ArenaConfig} {s s' : Storage}

lemma sound_of_make (hmake : (make config).run s = .ok a s') : a.Sound := by
  rcases make_cases config s with ⟨error, herror⟩ | ⟨b, t, hok, -, -, hsound⟩
  · exact absurd (hmake.symm.trans herror) (by simp)
  · obtain ⟨rfl, -⟩ : a = b ∧ s' = t := by simpa using hmake.symm.trans hok
    exact hsound

/-- A new arena has handed out nothing. -/
lemma of_make (hmake : (make config).run s = .ok a s') :
    a.counter.position = 0 ∧ a.HasChunks := by
  rw [make] at hmake
  obtain ⟨_, _, hvalid, hmake⟩ := StorageM.bind_eq_ok_iff.1 hmake
  obtain ⟨hvalid, -⟩ := Storage.requireConfig_eq_ok_iff.1 hvalid
  obtain ⟨r, _, -, hmake⟩ := StorageM.bind_eq_ok_iff.1 hmake
  obtain ⟨rfl, -⟩ := StorageM.pure_eq_ok_iff.1 hmake
  obtain ⟨-, hbounds⟩ := ArenaConfig.validate_eq_ok_iff.1 hvalid
  exact ⟨rfl, hbounds.pos, hbounds.le⟩

lemma Serves.hasChunks {c d : LocalChunk} {request : Request} {h : Handle} {a' : ChunkedArena}
    (hserves : a.Serves c request h d a') (hchunks : a.HasChunks) : a'.HasChunks := by
  cases hserves <;> exact ⟨hchunks.pos, hchunks.le⟩

lemma Reached.sound (h : Reached a) : a.Sound := by
  induction h with
  | made hmake => exact sound_of_make hmake
  | served _ hok ih => exact (serves_of_allocate ih hok).sound ih
  | reset _ hreset ih => exact ih.reset hreset

lemma Reached.hasChunks (h : Reached a) : a.HasChunks := by
  induction h with
  | made hmake => exact (of_make hmake).2
  | served hreached hok ih => exact (serves_of_allocate hreached.sound hok).hasChunks ih
  | reset _ hreset ih => exact eq_of_reset hreset ▸ ⟨ih.pos, ih.le⟩

lemma Starting.sound (h : Starting a) : a.Sound := by
  cases h with
  | made hmake => exact sound_of_make hmake
  | reset hreached hreset => exact (hreached.reset hreset).sound

lemma Starting.position_eq (h : Starting a) : a.counter.position = 0 := by
  cases h with
  | made hmake => exact (of_make hmake).1
  | reset _ hreset =>
    rw [eq_of_reset hreset]
    rfl

lemma Starting.hasChunks (h : Starting a) : a.HasChunks := by
  cases h with
  | made hmake => exact (of_make hmake).2
  | reset hreached hreset => exact (hreached.reset hreset).hasChunks

end Starting

end ChunkedArena

end BumpArena
