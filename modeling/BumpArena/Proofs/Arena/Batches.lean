import BumpArena.Fixture.Benchmark
import BumpArena.Proofs.Arena.Outcome
import BumpArena.Proofs.Arena.Replay
import BumpArena.Proofs.Capacity
import BumpArena.Proofs.Handoff.Allocator

/-!
# Batches of equal requests

How much room a batch of equal requests needs at most, so that none of them is refused, for both
kinds of arenas (`Allocator.room`).

A flat arena pads each request by less than its grain.  A chunked arena also wastes the rest of a
chunk whenever it claims another one, and that can be almost half of it.  But what is wasted is
smaller than the request that it was too small for, and that request is served next: so what was
claimed is at most twice what was served, and what the chunk still has to give (`Allocator.Spent`).
A request that goes past the chunk is padded to whole cache lines, which is less than twice its
size, as it is larger than a chunk.

A reset takes all of this back, and the chunk from before it is let go of by itself.  The benchmark
profile leaves room for four times what its batches ask for (`Benchmark.room_le`), so that they
never exhaust an arena, in the first batch or after any number of resets
(`Benchmark.batches_granted`).
-/

namespace BumpArena

variable {size count : Nat}

/-! ## Requests for bytes -/

/-- Asking for a positive number of single bytes is a request for so many bytes. -/
lemma Request.ofCount_byte (hpos : 0 < size) :
    Request.ofCount .byte size = .ok (.ofBytes size) := by
  have hmax : max size 1 = size := by omega
  simp only [ofCount, dif_pos hpos, ofBytes, hmax]

lemma Request.rounded_ofBytes (hpos : 0 < size) (align : Alignment) :
    (ofBytes size).rounded align = align.ceil size := by
  have hbytes : 1 * max size 1 = size := by omega
  exact congrArg align.ceil hbytes

/-- Every position is aligned for single bytes. -/
lemma Alignment.ceil_byte (n : Nat) : byte.ceil n = n := ceil_of_dvd (Nat.one_dvd n)

lemma Request.extent_ofBytes (hpos : 0 < size) : (ofBytes size).extent = size :=
  (rounded_ofBytes hpos .byte).trans (Alignment.ceil_byte size)

namespace LocalChunk

variable {c : LocalChunk}

lemma fits_ofBytes_iff (hpos : 0 < size) : c.Fits (.ofBytes size) ↔ c.cursor + size ≤ c.stop := by
  rw [Fits, Request.extent_ofBytes hpos]
  exact Eq.to_iff (congrArg (· + size ≤ c.stop) (Alignment.ceil_byte c.cursor))

lemma serve_ofBytes (hpos : 0 < size) :
    c.serve (.ofBytes size) = { c with cursor := c.cursor + size } := by
  rw [serve, Request.extent_ofBytes hpos]
  exact congrArg (fun n => { c with cursor := n + size }) (Alignment.ceil_byte c.cursor)

end LocalChunk

/-! ## What requests of one size use up -/

namespace ChunkedArena

variable {a a' : ChunkedArena} {c d : LocalChunk} {request : Request} {h : Handle}

/-- The bytes that a chunk still has to give on behalf of an arena. -/
def spare (a : ChunkedArena) (c : LocalChunk) : Nat := (a.keep c).stop - (a.keep c).cursor

lemma spare_of_owns (howns : a.owns c = true) : a.spare c = c.stop - c.cursor := by
  rw [spare, keep_of_owns howns]

lemma spare_le (hmeets : Meets False a c) : a.spare c ≤ a.maxChunk := by
  cases howns : a.owns c with
  | true =>
    have hleaves := hmeets.leaves id (owns_eq_true_iff.1 howns).1
    rw [spare_of_owns howns]
    omega
  | false =>
    rw [spare, keep_of_not_owns howns]
    exact Nat.zero_le _

/-- Less is left of a chunk than a request that has no room in it. -/
lemma spare_lt (hpos : 0 < size) (hfull : ¬ (a.keep c).Fits (.ofBytes size)) :
    a.spare c < size := by
  rw [LocalChunk.fits_ofBytes_iff hpos] at hfull
  rw [spare]
  omega

/-- A request that is served from the arena's own chunk takes its size. -/
lemma spare_serve (hpos : 0 < size) (howns : a.owns c = true) (hfits : c.Fits (.ofBytes size)) :
    a.spare (c.serve (.ofBytes size)) + size = a.spare c := by
  have hserved : a.owns (c.serve (.ofBytes size)) = true := howns
  rw [LocalChunk.fits_ofBytes_iff hpos] at hfits
  rw [spare_of_owns howns, spare_of_owns hserved, LocalChunk.serve_ofBytes hpos]
  show c.stop - (c.cursor + size) + size = c.stop - c.cursor
  omega

/-- So does the request that a fresh chunk is claimed for. -/
lemma spare_freshChunk {length : Nat} (claims : Nat) (hpos : 0 < size) (hle : size ≤ length) :
    (a.advance length).spare ((a.freshChunk length claims).serve (.ofBytes size)) + size =
      length := by
  have hserved : (a.advance length).owns ((a.freshChunk length claims).serve (.ofBytes size)) =
      true := a.owns_freshChunk length claims
  rw [spare_of_owns hserved, LocalChunk.serve_ofBytes hpos]
  show a.counter.position + length - (a.counter.position + size) + size = length
  omega

/-- What goes past the chunk takes nothing from it. -/
lemma spare_direct (length claims : Nat) :
    (a.advance length).spare { c with claims } = a.spare c := by
  have hkeep : (a.advance length).keep { c with claims } = { a.keep c with claims } :=
    keep_withClaims a c claims
  rw [spare, hkeep]
  rfl

/-- **One request more.**  With room for twice what was asked for and for one more chunk, it is
granted, and what was claimed stays below twice what was asked for and what is to spare. -/
lemma granted_of_ends (hmeets : Meets False a c) (hpos : 0 < size)
    (hspent : a.counter.position ≤ 2 * (count * size) + a.spare c)
    (hroom : 2 * ((count + 1) * size) + a.maxChunk ≤ a.counter.capacity)
    (hends : a.Ends c (.ofBytes size) h d a') :
    h.isNull = false ∧ a'.counter.position ≤ 2 * ((count + 1) * size) + a'.spare d := by
  have hsound := hmeets.reached.sound
  have hchunks := hmeets.reached.hasChunks
  have hnext : (count + 1) * size = count * size + size := Nat.succ_mul ..
  have hextent := Request.extent_ofBytes hpos
  have hspare := spare_le hmeets
  have hword : a.counter.capacity < Word.limit :=
    lt_limit_of_le_maxCapacity (hsound.capacity_eq ▸ hsound.capacity_le)
  -- The padding to whole cache lines is smaller than what is larger than a chunk.
  have hceil : cacheLine.ceil size < size + cacheLine.bytes := cacheLine.ceil_lt size
  have hline : cacheLine.bytes ≤ a.maxChunk :=
    Nat.le_of_dvd (Nat.lt_of_lt_of_le hchunks.pos hchunks.le) hsound.maxChunk_dvd
  rw [hnext] at hroom ⊢
  cases hends with
  | overflow hsize => omega
  | kept _ _ hfits =>
    obtain ⟨howns, hfits⟩ := (fits_keep_iff (hextent.symm ▸ hpos)).1 hfits
    have hserve := spare_serve hpos howns hfits
    rw [keep_of_owns howns]
    exact ⟨isNull_handleAt_of_fits hmeets.stop_le hfits, by omega⟩
  | refilled hsize hlocal hfull hfresh =>
    -- What is given up of the old chunk is less than what is taken from the new one.
    have hlt := spare_lt hpos hfull
    have hle := le_chunkSize hsize hlocal
    rw [hextent] at hle hfresh ⊢
    have hserve := spare_freshChunk (a := a) (c.claims + 1) hpos hle
    refine ⟨hfresh.isNull_eq hsound, ?_⟩
    show a.counter.position + a.chunkSize size ≤ _
    omega
  | starved _ _ hfull hnone =>
    have hlt := spare_lt hpos hfull
    have hless := lt_of_not_hasRoom (dvd_chunkSize hsound _) hnone
    have hle := chunkSize_le hsound hchunks (Request.ofBytes size).extent
    omega
  | direct _ hlarge _ hfresh =>
    rw [hextent] at hlarge hfresh ⊢
    refine ⟨hfresh.isNull_eq hsound, ?_⟩
    rw [spare_direct]
    show a.counter.position + cacheLine.ceil size ≤ _
    omega
  | unpadded _ hlarge hlength =>
    rw [hextent] at hlarge hlength
    omega
  | tooLarge _ hlarge _ hnone =>
    rw [hextent] at hlarge hnone
    have hless := lt_of_not_hasRoom (cacheLine.dvd_ceil size) hnone
    omega

/-- A request is counted as a claim at most once. -/
lemma Ends.claims_le (hends : a.Ends c request h d a') (hsound : a.Sound) :
    d.claims ≤ c.claims + 1 := by
  rcases hends.claimsOnce hsound with ⟨-, hclaims⟩ | ⟨length, claimed, -, -, hclaims, -⟩
  · omega
  · split at hclaims <;> omega

end ChunkedArena

namespace FlatArena

variable {a : FlatArena}

/-- **One request more**, with room for what was asked for and for the padding. -/
lemma granted_of_room (hsound : a.Sound) (hpos : 0 < size)
    (hspent : a.counter.position ≤ count * (size + grain.bytes))
    (hroom : (count + 1) * (size + grain.bytes) ≤ a.counter.capacity) :
    ∃ h position, a.allocate (.ofBytes size) = .ok (h, { a with counter.position := position }) ∧
      h.isNull = false ∧ position ≤ (count + 1) * (size + grain.bytes) := by
  have hnext : (count + 1) * (size + grain.bytes) =
      count * (size + grain.bytes) + (size + grain.bytes) := Nat.succ_mul ..
  have hceil := grain.ceil_lt size
  have hcapacity : a.counter.capacity ≤ maxCapacity := hsound.capacity_eq ▸ hsound.capacity_le
  have hlimit := lt_limit_of_le_maxCapacity hcapacity
  have hsize : (Request.ofBytes size).roundedSize? grain = some (grain.ceil size) := by
    rw [Request.roundedSize?_eq (by decide), Request.rounded_ofBytes hpos, if_pos (by omega)]
  rcases outcomes hsound (.ofBytes size) with ⟨hnone, -⟩ | ⟨rounded, hrounded, hcases⟩
  · rw [hsize] at hnone
    cases hnone
  obtain rfl : grain.ceil size = rounded := Option.some.inj (hsize.symm.trans hrounded)
  rcases hcases with ⟨hle, hok⟩ | ⟨hless, -⟩
  · exact ⟨_, _, hok, (Region.toNat_handleAt (by omega)).1, by omega⟩
  · omega

end FlatArena

/-! ## Batches -/

namespace Allocator

/-- Asks for a number of bytes again and again. -/
def batch (alloc : Allocator) (size : Nat) : Nat → Checked (List Handle × Allocator)
  | 0 => .ok ([], alloc)
  | count + 1 => do
    let (h, alloc) ← alloc.allocateBytes size
    let (handles, alloc) ← alloc.batch size count
    return (h :: handles, alloc)

/-- Starts over.  The thread's chunk is left as it is. -/
def reset : Allocator → Checked Allocator
  | .flat a => .ok (.flat a.reset)
  | .chunked a c => do return .chunked (← a.reset) c

/-- Runs a number of batches, each after a reset. -/
def laterBatches (alloc : Allocator) (size count : Nat) :
    Nat → Checked (List (List Handle) × Allocator)
  | 0 => .ok ([], alloc)
  | later + 1 => do
    let (handles, alloc) ← (← alloc.reset).batch size count
    let (rows, alloc) ← alloc.laterBatches size count later
    return (handles :: rows, alloc)

/-- Runs a batch, and then as many later ones as are asked for, each after a reset. -/
def batches (alloc : Allocator) (size count later : Nat) :
    Checked (List (List Handle) × Allocator) := do
  let (handles, alloc) ← alloc.batch size count
  let (rows, alloc) ← alloc.laterBatches size count later
  return (handles :: rows, alloc)

/-- **All requests of a number of batches were granted**: there are so many of them, and no handle
is null. -/
structure AllGranted (count batches : Nat) (rows : List (List Handle)) : Prop where
  length_eq : rows.length = batches
  batch_length_eq : ∀ handles ∈ rows, handles.length = count
  isNull_eq : ∀ handles ∈ rows, ∀ h ∈ handles, h.isNull = false

lemma AllGranted.cons {batches : Nat} {rows : List (List Handle)} {handles : List Handle}
    (hlength : handles.length = count) (hnull : ∀ h ∈ handles, h.isNull = false)
    (hrows : AllGranted count batches rows) : AllGranted count (batches + 1) (handles :: rows) where
  length_eq := congrArg (· + 1) hrows.length_eq
  batch_length_eq := List.forall_mem_cons.2 ⟨hlength, hrows.batch_length_eq⟩
  isNull_eq := List.forall_mem_cons.2 ⟨hnull, hrows.isNull_eq⟩

/-! ## What batches use up -/

/-- The most room that a batch needs. -/
def room (size count : Nat) : Allocator → Nat
  | .flat _ => count * (size + FlatArena.grain.bytes)
  | .chunked a _ => 2 * (count * size) + a.maxChunk

/-- Whether so many more claims and resets may be too many to be counted.  A flat arena counts
neither. -/
def Exceeds (claims resets : Nat) : Allocator → Prop
  | .flat _ => False
  | .chunked a c => Word.limit ≤ c.claims + claims ∨ Word.limit ≤ a.generation + resets

/-- **What requests of a size have used up**, when so many of them were granted since the arena
started over. -/
inductive Spent (size count : Nat) : Allocator → Prop
  | flat {a : FlatArena} (hsound : a.Sound)
      (hposition : a.counter.position ≤ count * (size + FlatArena.grain.bytes)) :
      Spent size count (.flat a)
  | chunked {a : ChunkedArena} {c : LocalChunk} (hmeets : ChunkedArena.Meets False a c)
      (hposition : a.counter.position ≤ 2 * (count * size) + a.spare c) :
      Spent size count (.chunked a c)

/-- **What requests and resets keep of an allocator**: its capacity and the room that batches need.
At most so many claims and resets were counted. -/
structure Onward (claims resets : Nat) (alloc alloc' : Allocator) : Prop where
  capacity_eq : alloc'.counter.capacity = alloc.counter.capacity
  room_eq : ∀ size count, alloc'.room size count = alloc.room size count
  exceeds : ∀ m n, alloc'.Exceeds m n → alloc.Exceeds (claims + m) (resets + n)

variable {alloc alloc' alloc'' : Allocator} {count' m m' n n' : Nat}

lemma Onward.refl (alloc : Allocator) : alloc.Onward 0 0 alloc :=
  ⟨rfl, fun _ _ => rfl, fun m n h => by rwa [Nat.zero_add, Nat.zero_add]⟩

lemma Onward.trans (h : alloc.Onward m n alloc') (h' : alloc'.Onward m' n' alloc'') :
    alloc.Onward (m + m') (n + n') alloc'' where
  capacity_eq := h'.capacity_eq.trans h.capacity_eq
  room_eq size count := (h'.room_eq size count).trans (h.room_eq size count)
  exceeds k l hexceeds := by
    rw [Nat.add_assoc, Nat.add_assoc]
    exact h.exceeds _ _ (h'.exceeds k l hexceeds)

/-- There is as much room as before. -/
lemma Onward.room_le (h : alloc.Onward m n alloc')
    (hroom : alloc.room size count ≤ alloc.counter.capacity) :
    alloc'.room size count ≤ alloc'.counter.capacity := by
  rwa [h.room_eq, h.capacity_eq]

/-- What may exceed the words does so with more claims and resets, too. -/
lemma Exceeds.mono (hm : m ≤ m') (hn : n ≤ n') (h : alloc.Exceeds m n) : alloc.Exceeds m' n' := by
  cases alloc with
  | flat => exact h
  | chunked a c => exact h.imp (by omega) (by omega)

lemma room_mono (h : count ≤ count') : alloc.room size count ≤ alloc.room size count' := by
  cases alloc with
  | flat => exact Nat.mul_le_mul_right _ h
  | chunked => exact Nat.add_le_add_right (Nat.mul_le_mul_left 2 (Nat.mul_le_mul_right _ h)) _

/-- A batch that there is room for leaves the arena short of its end. -/
lemma Spent.isExhausted_eq (hspent : Spent size count alloc)
    (hroom : alloc.room size count ≤ alloc.counter.capacity) :
    alloc.counter.isExhausted = false := by
  refine decide_eq_false (Nat.not_lt.2 (Nat.le_trans ?_ hroom))
  cases hspent with
  | flat _ hposition => exact hposition
  | chunked hmeets hposition =>
    have hspare := ChunkedArena.spare_le hmeets
    exact Nat.le_trans hposition (Nat.add_le_add_left hspare _)

/-- **One request more** is granted, if there is room for it, unless its claim is too many to be
counted. -/
lemma Spent.step (hspent : Spent size count alloc) (hpos : 0 < size)
    (hroom : alloc.room size (count + 1) ≤ alloc.counter.capacity) :
    (∃ h alloc', alloc.allocateBytes size = .ok (h, alloc') ∧ h.isNull = false ∧
      Spent size (count + 1) alloc' ∧ alloc.Onward 1 0 alloc') ∨
    (alloc.Exceeds 1 0 ∧ alloc.allocateBytes size = .error .addOverflow) := by
  cases hspent with
  | @flat a hsound hposition =>
    obtain ⟨h, position, hok, hnull, hle⟩ := FlatArena.granted_of_room hsound hpos hposition hroom
    refine .inl ⟨h, .flat { a with counter.position := position }, ?_, hnull,
      .flat ⟨hsound.capacity_eq, hsound.capacity_le⟩ hle, rfl, fun _ _ => rfl, fun _ _ => id⟩
    simp only [allocateBytes, hok, bind, Except.bind, pure, Except.pure]
  | @chunked a c hmeets hposition =>
    have hsound := hmeets.reached.sound
    have halign : (Request.ofBytes size).layout.align.bytes ≤ cacheLine.bytes :=
      show 1 ≤ 64 by decide
    obtain ⟨h, d, a', hends, hok | ⟨hfull, hfault⟩⟩ :=
      ChunkedArena.exists_ends hsound hmeets.stop_le halign
    · have hserves := ChunkedArena.serves_of_allocate hsound hok
      obtain ⟨hnull, hle⟩ := ChunkedArena.granted_of_ends hmeets hpos hposition hroom hends
      refine .inl ⟨h, .chunked a' d, ?_, hnull, .chunked (hmeets.served halign hok) hle,
        hserves.capacity_eq hsound, fun size count => ?_, fun m n hexceeds => ?_⟩
      · simp only [allocateBytes, hok, bind, Except.bind, pure, Except.pure]
      · show 2 * (count * size) + a'.maxChunk = 2 * (count * size) + a.maxChunk
        rw [hserves.maxChunk_eq]
      · have hclaims := hends.claims_le hsound
        have hgeneration := hserves.generation_eq
        exact hexceeds.imp (by omega) (by omega)
    · refine .inr ⟨.inl hfull, ?_⟩
      simp only [allocateBytes, hfault, bind, Except.bind]

/-- **A batch is granted**, if there is room for it. -/
lemma Spent.exists_batch {done : Nat} (hspent : Spent size done alloc) (hpos : 0 < size)
    (hroom : alloc.room size (done + count) ≤ alloc.counter.capacity) :
    (∃ handles alloc', alloc.batch size count = .ok (handles, alloc') ∧ handles.length = count ∧
      (∀ h ∈ handles, h.isNull = false) ∧ Spent size (done + count) alloc' ∧
      alloc.Onward count 0 alloc') ∨
    (alloc.Exceeds count 0 ∧ alloc.batch size count = .error .addOverflow) := by
  induction count generalizing alloc done with
  | zero => exact .inl ⟨[], alloc, rfl, rfl, by simp, hspent, .refl alloc⟩
  | succ count ih =>
    have hfirst : alloc.room size (done + 1) ≤ alloc.counter.capacity :=
      Nat.le_trans (room_mono (by omega)) hroom
    rcases hspent.step hpos hfirst with
      ⟨h, alloc', hok, hnull, hspent', honward⟩ | ⟨hexceeds, hfault⟩
    · have hdone : done + 1 + count = done + (count + 1) := Nat.add_right_comm ..
      rcases ih hspent' (honward.room_le (hdone ▸ hroom)) with
        ⟨handles, alloc'', hrest, hlength, hnulls, hspent'', honward'⟩ | ⟨hexceeds, hfault⟩
      · refine .inl ⟨h :: handles, alloc'', ?_, congrArg (· + 1) hlength,
          List.forall_mem_cons.2 ⟨hnull, hnulls⟩, hdone ▸ hspent'', ?_⟩
        · simp only [batch, hok, hrest, bind, Except.bind, pure, Except.pure]
        · rw [Nat.add_comm count]
          exact honward.trans honward'
      · refine .inr ⟨(honward.exceeds _ _ hexceeds).mono (by omega) (Nat.le_refl _), ?_⟩
        simp only [batch, hok, hfault, bind, Except.bind]
    · refine .inr ⟨hexceeds.mono (by omega) (Nat.le_refl _), ?_⟩
      simp only [batch, hfault, bind, Except.bind]

/-- A reset takes back all that was used up. -/
lemma Spent.exists_reset (hspent : Spent size count alloc) :
    (∃ alloc', alloc.reset = .ok alloc' ∧ Spent size 0 alloc' ∧ alloc.Onward 0 1 alloc') ∨
    (alloc.Exceeds 0 1 ∧ alloc.reset = .error .addOverflow) := by
  cases hspent with
  | @flat a hsound hposition =>
    exact .inl ⟨_, rfl, .flat ⟨hsound.capacity_eq, hsound.capacity_le⟩ (Nat.zero_le _), rfl,
      fun _ _ => rfl, fun _ _ => id⟩
  | @chunked a c hmeets hposition =>
    by_cases hgeneration : a.generation + 1 < Word.limit
    · obtain ⟨a', hreset⟩ := ChunkedArena.exists_reset hgeneration
      have heq := ChunkedArena.eq_of_reset hreset
      refine .inl ⟨.chunked a' c, ?_, .chunked (hmeets.reset hreset) ?_, ?_⟩
      · simp only [reset, hreset, bind, Except.bind, pure, Except.pure]
      · rw [heq]
        exact Nat.zero_le _
      · subst heq
        refine ⟨rfl, fun _ _ => rfl, fun m n => ?_⟩
        rintro (hclaims | hresets)
        · exact .inl ((Nat.zero_add m).symm ▸ hclaims)
        · exact .inr (Nat.add_assoc a.generation 1 n ▸ hresets)
    · refine .inr ⟨.inr (Nat.not_lt.1 hgeneration), ?_⟩
      have hfull : Word.add a.generation 1 = .error .addOverflow := if_neg hgeneration
      simp only [reset, ChunkedArena.reset, hfull, bind, Except.bind]

/-- What `Spent.exists_batch` says of the first batch of an arena. -/
lemma Spent.exists_firstBatch (hspent : Spent size 0 alloc) (hpos : 0 < size)
    (hroom : alloc.room size count ≤ alloc.counter.capacity) :
    (∃ handles alloc', alloc.batch size count = .ok (handles, alloc') ∧ handles.length = count ∧
      (∀ h ∈ handles, h.isNull = false) ∧ Spent size count alloc' ∧ alloc.Onward count 0 alloc') ∨
    (alloc.Exceeds count 0 ∧ alloc.batch size count = .error .addOverflow) := by
  have hroom₀ : alloc.room size (0 + count) ≤ alloc.counter.capacity := by rwa [Nat.zero_add]
  have hbatch := hspent.exists_batch hpos hroom₀
  rwa [Nat.zero_add] at hbatch

/-- **Every later batch is granted**, however many resets there were before it. -/
lemma Spent.exists_laterBatches {later : Nat} (hspent : Spent size count alloc) (hpos : 0 < size)
    (hroom : alloc.room size count ≤ alloc.counter.capacity) :
    (∃ rows alloc', alloc.laterBatches size count later = .ok (rows, alloc') ∧
      AllGranted count later rows ∧ alloc'.counter.isExhausted = false) ∨
    (alloc.Exceeds (later * count) later ∧
      alloc.laterBatches size count later = .error .addOverflow) := by
  induction later generalizing alloc with
  | zero => exact .inl ⟨[], alloc, rfl, ⟨rfl, by simp, by simp⟩, hspent.isExhausted_eq hroom⟩
  | succ later ih =>
    have hcount : (later + 1) * count = later * count + count := Nat.succ_mul ..
    rcases hspent.exists_reset with ⟨alloc₁, hreset, hspent₁, honward₁⟩ | ⟨hexceeds, hfault⟩
    · rcases hspent₁.exists_firstBatch hpos (honward₁.room_le hroom) with
        ⟨handles, alloc₂, hbatch, hlength, hnull, hspent₂, honward₂⟩ | ⟨hexceeds, hfault⟩
      · have honward := honward₁.trans honward₂
        rcases ih hspent₂ (honward.room_le hroom) with
          ⟨rows, alloc', hrest, hgranted, hexhausted⟩ | ⟨hexceeds, hfault⟩
        · refine .inl ⟨handles :: rows, alloc', ?_, .cons hlength hnull hgranted, hexhausted⟩
          simp only [laterBatches, hreset, hbatch, hrest, bind, Except.bind, pure, Except.pure]
        · refine .inr ⟨(honward.exceeds _ _ hexceeds).mono (by omega) (by omega), ?_⟩
          simp only [laterBatches, hreset, hbatch, hfault, bind, Except.bind]
      · refine .inr ⟨(honward₁.exceeds _ _ hexceeds).mono (by omega) (by omega), ?_⟩
        simp only [laterBatches, hreset, hfault, bind, Except.bind]
    · refine .inr ⟨hexceeds.mono (Nat.zero_le _) (by omega), ?_⟩
      simp only [laterBatches, hfault, bind, Except.bind]

/-- **Every batch is granted**, the first one and those after resets, if there is room for one. -/
theorem Spent.exists_batches {later : Nat} (hspent : Spent size 0 alloc) (hpos : 0 < size)
    (hroom : alloc.room size count ≤ alloc.counter.capacity) :
    (∃ rows alloc', alloc.batches size count later = .ok (rows, alloc') ∧
      AllGranted count (later + 1) rows ∧ alloc'.counter.isExhausted = false) ∨
    (alloc.Exceeds ((later + 1) * count) later ∧
      alloc.batches size count later = .error .addOverflow) := by
  have hcount : (later + 1) * count = later * count + count := Nat.succ_mul ..
  rcases hspent.exists_firstBatch hpos hroom with
    ⟨handles, alloc₁, hbatch, hlength, hnull, hspent₁, honward⟩ | ⟨hexceeds, hfault⟩
  · rcases hspent₁.exists_laterBatches hpos (honward.room_le hroom) with
      ⟨rows, alloc', hrest, hgranted, hexhausted⟩ | ⟨hexceeds, hfault⟩
    · refine .inl ⟨handles :: rows, alloc', ?_, .cons hlength hnull hgranted, hexhausted⟩
      simp only [batches, hbatch, hrest, bind, Except.bind, pure, Except.pure]
    · refine .inr ⟨(honward.exceeds _ _ hexceeds).mono (by omega) (by omega), ?_⟩
      simp only [batches, hbatch, hfault, bind, Except.bind]
  · refine .inr ⟨hexceeds.mono (by omega) (Nat.zero_le _), ?_⟩
    simp only [batches, hfault, bind, Except.bind]

end Allocator

/-! ## Arenas of one configuration -/

section Making

variable {config : ArenaConfig} {s t : Storage}

/-- What is made of a configuration and a region of its own is made, if the configuration is valid
and there is memory. -/
lemma exists_run_of_validate {α : Type} (make : Region → α) (hvalid : config.validate = .ok ())
    (hmemory : s.hasMemory (page.ceil config.capacity) = true) :
    ∃ a t, (do
      Storage.requireConfig config.validate
      return make (← Region.makeVolatile config.capacity) : StorageM α).run s = .ok a t := by
  have hcapacity := (ArenaConfig.validate_eq_ok_iff.1 hvalid).1
  obtain ⟨r, t, hregion⟩ := Region.exists_makeVolatile_iff.2 ⟨hcapacity, hmemory⟩
  refine ⟨make r, t, StorageM.bind_eq_ok_iff.2 ⟨(), s, ?_, ?_⟩⟩
  · exact Storage.requireConfig_eq_ok_iff.2 ⟨hvalid, rfl⟩
  · exact StorageM.bind_eq_ok_iff.2 ⟨r, t, hregion, StorageM.pure_eq_ok_iff.2 ⟨rfl, rfl⟩⟩

lemma FlatArena.capacity_of_make {a : FlatArena} (hmake : (make config).run s = .ok a t) :
    a.counter = ⟨page.ceil config.capacity, 0⟩ := by
  obtain ⟨_, _, -, hmake⟩ := StorageM.bind_eq_ok_iff.1 hmake
  obtain ⟨r, _, hregion, hmake⟩ := StorageM.bind_eq_ok_iff.1 hmake
  obtain ⟨rfl, -⟩ := StorageM.pure_eq_ok_iff.1 hmake
  exact congrArg (Counter.mk · 0) (Region.capacity_of_makeVolatile hregion)

lemma ChunkedArena.generation_of_make {a : ChunkedArena} (hmake : (make config).run s = .ok a t) :
    a.generation = 0 := by
  obtain ⟨_, _, -, hmake⟩ := StorageM.bind_eq_ok_iff.1 hmake
  obtain ⟨r, _, -, hmake⟩ := StorageM.bind_eq_ok_iff.1 hmake
  obtain ⟨rfl, -⟩ := StorageM.pure_eq_ok_iff.1 hmake
  rfl

end Making

/-! ## The benchmark profile -/

namespace Benchmark

open Allocator

lemma batchLength_mul_le (hpos : 0 < size) : batchLength size * size ≤ capacity / 4 := by
  have hmax : max size 1 = size := by omega
  calc batchLength size * size
      ≤ capacity / 4 / size * size := by
        rw [batchLength, hmax]
        exact Nat.mul_le_mul_right _ (Nat.min_le_left ..)
    _ ≤ capacity / 4 := Nat.div_mul_le_self ..

/-- **The profile leaves room for every batch**, in both kinds of arenas. -/
lemma room_le (hpos : 0 < size) :
    batchLength size * (size + FlatArena.grain.bytes) ≤ capacity ∧
      2 * (batchLength size * size) + config.maxChunk ≤ capacity := by
  have hbytes := batchLength_mul_le hpos
  have hlength : batchLength size ≤ 100000 := Nat.min_le_right ..
  have hgrain : FlatArena.grain.bytes = 16 := rfl
  have hchunk : config.maxChunk = 1024 * 1024 := rfl
  have hcapacity : capacity = 256 * 1024 * 1024 := rfl
  rw [Nat.mul_add, hgrain]
  omega

lemma spent_of_makeFlat {s t : Storage} {a : FlatArena}
    (hmake : (FlatArena.make config).run s = .ok a t) : Spent size 0 (.flat a) := by
  obtain ⟨r, hr, rfl⟩ := FlatArena.exists_ofRegion_of_make hmake
  exact .flat (FlatArena.sound_ofRegion hr) (Nat.zero_le _)

lemma spent_of_makeChunked {s t : Storage} {a : ChunkedArena} {c : LocalChunk}
    (hmake : (ChunkedArena.make config).run s = .ok a t)
    (hmeets : ChunkedArena.Meets False a c) : Spent size 0 (.chunked a c) := by
  refine .chunked hmeets ?_
  rw [(ChunkedArena.of_make hmake).1]
  exact Nat.zero_le _

/-- **No batch exhausts an arena of the benchmark profile,** whatever the size of its requests.
Both kinds of arenas are made, where there is memory.  From a flat arena all requests of the first
batch are granted, and all those of every later one after a reset.  From a chunked arena, through
one chunk that stays as it is at resets, they are granted as well, unless there come to be more
claims or more resets than words can count. -/
theorem batches_granted (hpos : 0 < size) :
    Request.ofCount .byte size = .ok (.ofBytes size) ∧
    (∀ s : Storage, s.hasMemory capacity = true →
      (∃ a t, (FlatArena.make config).run s = .ok a t) ∧
        ∃ a t, (ChunkedArena.make config).run s = .ok a t) ∧
    (∀ s t a, (FlatArena.make config).run s = .ok a t → ∀ later, ∃ rows alloc,
      (Allocator.flat a).batches size (batchLength size) later = .ok (rows, alloc) ∧
        AllGranted (batchLength size) (later + 1) rows ∧ alloc.counter.isExhausted = false) ∧
    ∀ s t a c, (ChunkedArena.make config).run s = .ok a t → ChunkedArena.Meets False a c →
      ∀ later, (∃ rows alloc,
        (Allocator.chunked a c).batches size (batchLength size) later = .ok (rows, alloc) ∧
          AllGranted (batchLength size) (later + 1) rows ∧ alloc.counter.isExhausted = false) ∨
        ((Word.limit ≤ c.claims + (later + 1) * batchLength size ∨ Word.limit ≤ later) ∧
          (Allocator.chunked a c).batches size (batchLength size) later = .error .addOverflow) := by
  obtain ⟨hflat, hchunked⟩ := room_le hpos
  have hvalid : config.validate = .ok () := by decide
  have hceil : page.ceil config.capacity = capacity := by decide
  refine ⟨Request.ofCount_byte hpos, fun s hmemory => ⟨?_, ?_⟩, fun s t a hmake later => ?_,
    fun s t a c hmake hmeets later => ?_⟩
  · exact exists_run_of_validate _ hvalid (hceil.symm ▸ hmemory)
  · exact exists_run_of_validate _ hvalid (hceil.symm ▸ hmemory)
  · have hroom : (Allocator.flat a).room size (batchLength size) ≤
        (Allocator.flat a).counter.capacity := by
      show _ ≤ a.counter.capacity
      rw [FlatArena.capacity_of_make hmake, hceil]
      exact hflat
    rcases (spent_of_makeFlat hmake).exists_batches hpos hroom with hgranted | ⟨hexceeds, -⟩
    · exact hgranted
    · exact hexceeds.elim
  · have hconfigured := ChunkedArena.configured_of_make hmake
    have hregion : config.regionCapacity = capacity := by decide
    have hroom : (Allocator.chunked a c).room size (batchLength size) ≤
        (Allocator.chunked a c).counter.capacity := by
      show 2 * (batchLength size * size) + a.maxChunk ≤ a.counter.capacity
      rw [hconfigured.maxChunk_eq, hconfigured.capacity_eq, hregion]
      exact hchunked
    rcases (spent_of_makeChunked hmake hmeets).exists_batches hpos hroom with
      hgranted | ⟨hexceeds, hfault⟩
    · exact .inl hgranted
    · refine .inr ⟨hexceeds.imp_right fun hresets => ?_, hfault⟩
      have hnew : a.generation = 0 := ChunkedArena.generation_of_make hmake
      rwa [hnew, Nat.zero_add] at hresets

/-- A request of just over half of the largest chunk wastes almost as much of each chunk as it
takes.  Of three batches through a new chunk, all requests are granted nevertheless. -/
theorem batches_granted_overHalf : ∃ a t b u rows rows' alloc alloc',
    (FlatArena.make config).run default = .ok a t ∧
    (ChunkedArena.make config).run default = .ok b u ∧
    batchLength 524289 = 127 ∧ b.chunkSize 524289 < 2 * 524289 ∧
    (Allocator.flat a).batches 524289 127 2 = .ok (rows, alloc) ∧ AllGranted 127 3 rows ∧
    (Allocator.chunked b {}).batches 524289 127 2 = .ok (rows', alloc') ∧
    AllGranted 127 3 rows' := by
  obtain ⟨-, hmade, hflat, hchunked⟩ := batches_granted (show 0 < 524289 by decide)
  obtain ⟨⟨a, t, hmake⟩, b, u, hmake'⟩ := hmade default rfl
  have hlength : batchLength 524289 = 127 := by decide
  have hsize : b.chunkSize 524289 < 2 * 524289 := by
    have hmax := (ChunkedArena.configured_of_make hmake').maxChunk_eq
    have hlarge : config.maxChunk < 2 * 524289 := by decide
    have hle := ChunkedArena.chunkSize_le (ChunkedArena.sound_of_make hmake')
      (ChunkedArena.of_make hmake').2 524289
    omega
  obtain ⟨rows, alloc, hok, hgranted, -⟩ := hflat default t a hmake 2
  rw [hlength] at hok hgranted
  rcases hchunked default u b {} hmake' (.empty (.made hmake')) 2 with
    ⟨rows', alloc', hok', hgranted', -⟩ | ⟨hcounts, -⟩
  · rw [hlength] at hok' hgranted'
    exact ⟨a, t, b, u, rows, rows', alloc, alloc', hmake, hmake', hlength, hsize, hok, hgranted,
      hok', hgranted'⟩
  · rw [hlength] at hcounts
    exact absurd hcounts (by decide)

end Benchmark

end BumpArena
