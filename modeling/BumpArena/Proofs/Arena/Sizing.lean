import BumpArena.Proofs.Arena.Batches

/-!
# The size of chunks

A chunk is to have room for twice the request that it is claimed for, but to stay within the bounds
of the arena, and to be made of whole cache lines.  The three meet in one formula that holds a
doubled size to a word, then between the bounds, and rounds last, so that it might seem to leave the
bounds again or to overflow.

It does neither, because the bounds are whole cache lines themselves.  Rounding leaves them where
they are, and so it may as well be done before the size is held between them
(`ChunkedArena.chunkSize_eq`).  All that is promised of the size (`ChunkedArena.SizesChunks`) is read
off that form.
-/

namespace BumpArena

namespace ChunkedArena

variable {a : ChunkedArena}

section Bounds

variable (hbounds : ArenaConfig.ChunkBounds a.minChunk a.maxChunk)

include hbounds

/-- A chunk that is wanted stays within the bounds, and so does what it is rounded to. -/
lemma ceil_wantedChunk_le (size : Nat) : cacheLine.ceil (a.wantedChunk size) ≤ a.maxChunk := by
  have hwanted : a.wantedChunk size ≤ a.maxChunk := max_le (min_le_right _ _) hbounds.le
  exact Alignment.ceil_le hbounds.maxChunk_dvd hwanted

/-- **Rounding does not overflow,** since the largest chunk is a word that needs no rounding. -/
lemma roundUp_wantedChunk (hword : a.maxChunk < Word.limit) (size : Nat) :
    roundUp (a.wantedChunk size) cacheLine = some (a.chunkSize size) := by
  have hline : cacheLine.bytes ∣ Word.limit := by decide
  have hround : roundUp (a.wantedChunk size) cacheLine =
      some (cacheLine.ceil (a.wantedChunk size)) :=
    (roundUp_eq_some_iff_of_dvd hline).2
      ⟨rfl, Nat.lt_of_le_of_lt (ceil_wantedChunk_le hbounds size) hword⟩
  rw [chunkSize, hround, Option.getD_some]

/-- **The size of a chunk** is twice the request in whole cache lines, held between the bounds.
That the doubled request is held to a word as well does not show. -/
lemma chunkSize_eq (hword : a.maxChunk < Word.limit) (size : Nat) :
    a.chunkSize size = max (min (cacheLine.ceil (2 * size)) a.maxChunk) a.minChunk := by
  -- What is held to the largest chunk is held to a word already.
  have hmax : a.maxChunk ≤ Word.max := Nat.le_sub_one_of_lt hword
  have hsize : cacheLine.ceil (a.wantedChunk size) = a.chunkSize size := by
    have hround := roundUp_wantedChunk hbounds hword size
    exact ((roundUp_eq_some_iff.1 hround).1).symm
  calc a.chunkSize size
      = cacheLine.ceil (max (min (2 * size) a.maxChunk) a.minChunk) := by
        rw [← hsize, wantedChunk, min_assoc, min_eq_right hmax]
    _ = max (min (cacheLine.ceil (2 * size)) a.maxChunk) a.minChunk := by
        rw [Alignment.ceil_max, Alignment.ceil_min, Alignment.ceil_of_dvd hbounds.maxChunk_dvd,
          Alignment.ceil_of_dvd hbounds.minChunk_dvd]

end Bounds

/-- **What the size of chunks promises.** -/
structure SizesChunks (a : ChunkedArena) : Prop where
  /-- It is twice the request in whole cache lines, held between the bounds. -/
  eq : ∀ size, a.chunkSize size = max (min (cacheLine.ceil (2 * size)) a.maxChunk) a.minChunk
  /-- It is a number of whole cache lines. -/
  dvd : ∀ size, 64 ∣ a.chunkSize size
  /-- It is no smaller than the smallest chunk. -/
  minChunk_le : ∀ size, a.minChunk ≤ a.chunkSize size
  /-- It is no larger than the largest chunk. -/
  le_maxChunk : ∀ size, a.chunkSize size ≤ a.maxChunk
  /-- A larger request gets no smaller chunk. -/
  monotone : Monotone a.chunkSize
  /-- A request that is no larger than the largest chunk fits its chunk. -/
  le_of_le : ∀ size, size ≤ a.maxChunk → size ≤ a.chunkSize size
  /-- Where two of it are no larger than the largest chunk, two of it fit. -/
  two_mul_le_of_le : ∀ size, 2 * size ≤ a.maxChunk → 2 * size ≤ a.chunkSize size
  /-- It is what is wanted, rounded up, which does not overflow. -/
  roundUp_eq : ∀ size, roundUp (a.wantedChunk size) cacheLine = some (a.chunkSize size)

lemma sizesChunks_of_bounds (hbounds : ArenaConfig.ChunkBounds a.minChunk a.maxChunk)
    (hword : a.maxChunk < Word.limit) : a.SizesChunks := by
  have hsize := chunkSize_eq hbounds hword
  constructor
  case eq => exact hsize
  case dvd =>
    intro size
    have hround := roundUp_wantedChunk hbounds hword size
    exact dvd_of_roundUp hround
  case minChunk_le =>
    intro size
    rw [hsize]
    exact le_max_right _ _
  case le_maxChunk =>
    intro size
    rw [hsize]
    exact max_le (min_le_right _ _) hbounds.le
  case monotone =>
    intro size size' hle
    have hceil : cacheLine.ceil (2 * size) ≤ cacheLine.ceil (2 * size') :=
      Alignment.ceil_mono (Nat.mul_le_mul_left 2 hle)
    rw [hsize, hsize]
    exact max_le_max_right _ (min_le_min_right _ hceil)
  case le_of_le =>
    intro size hle
    have hceil := cacheLine.le_ceil (2 * size)
    rw [hsize]
    exact le_max_of_le_left (le_min (by omega) hle)
  case two_mul_le_of_le =>
    intro size hle
    rw [hsize]
    exact le_max_of_le_left (le_min (cacheLine.le_ceil _) hle)
  case roundUp_eq => exact roundUp_wantedChunk hbounds hword

/-- **The size of chunks keeps its promises** in every arena whose bounds, two words, are those of a
valid configuration. -/
theorem sizesChunks_of_validate {config : ArenaConfig} (hvalid : config.validate = .ok ())
    (hword : config.maxChunk < Word.limit) (hmin : a.minChunk = config.minChunk)
    (hmax : a.maxChunk = config.maxChunk) : a.SizesChunks := by
  obtain ⟨-, hbounds⟩ := ArenaConfig.validate_eq_ok_iff.1 hvalid
  rw [← hmin, ← hmax] at hbounds
  exact sizesChunks_of_bounds hbounds (hmax ▸ hword)

/-- The widest bounds that a configuration can have: one cache line, and the last multiple of it that
is a word. -/
def widestBounds : ArenaConfig := { capacity := 4096, minChunk := 64, maxChunk := 2 ^ 64 - 64 }

/-- Under the widest bounds, the double of half the words is no word any more, and gets the largest
chunk.  A little over half a cache line gets two. -/
theorem sizesChunks_of_validate_widestBounds : ∃ a t,
    (make widestBounds).run default = .ok a t ∧ widestBounds.validate = .ok () ∧
    widestBounds.maxChunk < Word.limit ∧ a.SizesChunks ∧
    a.wantedChunk (2 ^ 63) = 2 ^ 64 - 64 ∧ a.chunkSize (2 ^ 63) = 2 ^ 64 - 64 ∧
    a.chunkSize (2 ^ 64 - 1) = 2 ^ 64 - 64 ∧ a.chunkSize 33 = 128 ∧ a.chunkSize 0 = 64 := by
  have hvalid : widestBounds.validate = .ok () := by decide
  have hword : widestBounds.maxChunk < Word.limit := by decide
  obtain ⟨a, t, hmake⟩ : ∃ a t, (make widestBounds).run default = .ok a t :=
    exists_run_of_validate _ hvalid rfl
  have hconfigured := configured_of_make hmake
  have hmin : a.minChunk = 64 := hconfigured.minChunk_eq
  have hmax : a.maxChunk = 2 ^ 64 - 64 := hconfigured.maxChunk_eq
  have hsizes := sizesChunks_of_validate hvalid hword hconfigured.minChunk_eq
    hconfigured.maxChunk_eq
  refine ⟨a, t, hmake, hvalid, hword, hsizes, ?_, ?_, ?_, ?_, ?_⟩
  · rw [wantedChunk, hmin, hmax]
    decide
  all_goals
    rw [hsizes.eq, hmin, hmax]
    decide

end ChunkedArena

end BumpArena
