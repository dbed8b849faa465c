import BumpArena.Proofs.Arena.Answers

/-!
# How a request to a chunked arena ends

`ChunkedArena.Serves` lists what a request can change, and is silent on when.  `ChunkedArena.Ends`
has for each way in which a request ends all that leads to it: whether its size is a word and fits a
chunk, whether the chunk that is there has room, and whether the counter has room for what is
claimed.  The conditions exclude each other and leave nothing out, so that one of them decides what
a request ends in (`ChunkedArena.exists_ends`).

That a fresh chunk always has room for the request that it was claimed for rests on the size of
chunks (`ChunkedArena.le_chunkSize`) and on where they start.  That a request which fits the chunk
is never sent past it rests on the size as well (`ChunkedArena.chunkSize_le`), and on that the chunk
was filled by the arena itself, which is what `ChunkedArena.Meets` keeps track of.  Where another
arena with the same identity filled it, the request can be sent past it
(`ChunkedArena.exists_claim_of_fits`).
-/

namespace BumpArena

/-- The bytes that a request takes up where grants have the alignment of its elements. -/
def Request.extent (request : Request) : Nat := request.rounded request.layout.align

namespace LocalChunk

variable {c : LocalChunk} {request : Request}

/-- The chunk has room for a request, behind the padding in front of it. -/
def Fits (c : LocalChunk) (request : Request) : Prop :=
  request.layout.align.ceil c.cursor + request.extent ≤ c.stop

/-- The chunk after a request was granted from it. -/
def serve (c : LocalChunk) (request : Request) : LocalChunk :=
  { c with cursor := request.layout.align.ceil c.cursor + request.extent }

instance (c : LocalChunk) (request : Request) : Decidable (c.Fits request) :=
  inferInstanceAs (Decidable (_ ≤ _))

/-- In a chunk that lies in a region no rounding leaves the range of words. -/
lemma bump_eq (hstop : c.stop ≤ maxCapacity)
    (halign : request.layout.align.bytes ≤ cacheLine.bytes) :
    c.bump request.extent request.layout.align =
      if c.Fits request then some (request.layout.align.ceil c.cursor, c.serve request)
      else none := by
  have hlimit := lt_limit_of_le_maxCapacity hstop
  split
  · next hfits =>
    have hfits : request.layout.align.ceil c.cursor + request.extent ≤ c.stop := hfits
    refine bump_eq_some_iff.2 ⟨?_, hfits, rfl⟩
    exact (roundUp_eq_some_iff_of_dvd (dvd_limit halign)).2 ⟨rfl, by omega⟩
  · next hfull =>
    refine Option.eq_none_iff_forall_ne_some.2 fun ⟨start, d⟩ hbump => hfull ?_
    obtain ⟨hround, hle, -⟩ := bump_eq_some_iff.1 hbump
    rwa [(roundUp_eq_some_iff.1 hround).1] at hle

end LocalChunk

namespace ChunkedArena

variable {a a' : ChunkedArena} {c d : LocalChunk} {request : Request} {h : Handle}

/-! ## The size of chunks -/

/-- A chunk is no smaller than the request that it is claimed for. -/
lemma le_chunkSize {size : Nat} (hword : size < Word.limit) (hlocal : size ≤ a.maxChunk) :
    size ≤ a.chunkSize size := by
  rw [chunkSize]
  cases hround : roundUp (a.wantedChunk size) cacheLine with
  | none => exact hlocal
  | some length =>
    have hwanted : size ≤ a.wantedChunk size := by
      simp only [wantedChunk, Word.max]
      omega
    exact Nat.le_trans hwanted (le_of_roundUp hround)

/-- A chunk is no larger than the largest one. -/
lemma chunkSize_le (hsound : a.Sound) (hchunks : a.HasChunks) (size : Nat) :
    a.chunkSize size ≤ a.maxChunk := by
  rw [chunkSize]
  cases hround : roundUp (a.wantedChunk size) cacheLine with
  | none => exact Nat.le_refl _
  | some length =>
    obtain ⟨rfl, -⟩ := roundUp_eq_some_iff.1 hround
    have hwanted : a.wantedChunk size ≤ a.maxChunk :=
      Nat.max_le.2 ⟨Nat.min_le_right .., hchunks.le⟩
    calc cacheLine.ceil (a.wantedChunk size)
        ≤ cacheLine.ceil a.maxChunk := Nat.mul_le_mul_right _ (Nat.div_le_div_right (by omega))
      _ = a.maxChunk := Alignment.ceil_of_dvd hsound.maxChunk_dvd

/-- A fresh chunk starts aligned for every request, and has room for the one that it was claimed
for. -/
lemma fits_freshChunk (hsound : a.Sound) {length : Nat} (hroom : a.HasRoom length)
    (halign : request.layout.align.bytes ≤ cacheLine.bytes) (hlength : request.extent ≤ length)
    (claims : Nat) :
    request.layout.align.ceil (a.freshChunk length claims).cursor = a.counter.position ∧
      (a.freshChunk length claims).Fits request := by
  have hle := hroom.le
  have hdvd := Nat.dvd_trans (Alignment.dvd_of_le halign) (hsound.position_dvd (by omega))
  have hceil := Alignment.ceil_of_dvd hdvd
  refine ⟨hceil, ?_⟩
  show request.layout.align.ceil a.counter.position + request.extent ≤ a.counter.position + length
  omega

/-! ## The ways in which a request ends -/

/-- **The ways in which a request ends**, with all that leads to each. -/
inductive Ends (a : ChunkedArena) (c : LocalChunk) (request : Request) :
    Handle → LocalChunk → ChunkedArena → Prop
  /-- The size is no word. -/
  | overflow (hsize : Word.limit ≤ request.extent) : Ends a c request .null c a
  /-- The chunk has room. -/
  | kept (hword : request.extent < Word.limit) (hlocal : request.extent ≤ a.maxChunk)
      (hfits : (a.keep c).Fits request) :
      Ends a c request (a.region.handleAt (request.layout.align.ceil (a.keep c).cursor))
        ((a.keep c).serve request) a
  /-- A fresh chunk takes the place of one that has none. -/
  | refilled (hword : request.extent < Word.limit) (hlocal : request.extent ≤ a.maxChunk)
      (hfull : ¬ (a.keep c).Fits request) (hroom : a.HasRoom (a.chunkSize request.extent)) :
      Ends a c request (a.region.handleAt a.counter.position)
        ((a.freshChunk (a.chunkSize request.extent) (c.claims + 1)).serve request)
        (a.advance (a.chunkSize request.extent))
  /-- There is no room for a fresh chunk. -/
  | starved {counter : Counter} (hword : request.extent < Word.limit)
      (hlocal : request.extent ≤ a.maxChunk) (hfull : ¬ (a.keep c).Fits request)
      (hroom : ¬ a.HasRoom (a.chunkSize request.extent))
      (hclaim : a.counter.claim (a.chunkSize request.extent) = .ok (none, counter)) :
      Ends a c request .null (a.keep c) { a with counter }
  /-- The request goes past the chunk. -/
  | direct (hword : request.extent < Word.limit) (hlarge : a.maxChunk < request.extent)
      (hlength : cacheLine.ceil request.extent < Word.limit)
      (hroom : a.HasRoom (cacheLine.ceil request.extent)) :
      Ends a c request (a.region.handleAt a.counter.position) { c with claims := c.claims + 1 }
        (a.advance (cacheLine.ceil request.extent))
  /-- In whole cache lines the size is no word. -/
  | unpadded (hword : request.extent < Word.limit) (hlarge : a.maxChunk < request.extent)
      (hlength : Word.limit ≤ cacheLine.ceil request.extent) : Ends a c request .null c a
  /-- There is no room for so large a request. -/
  | tooLarge {counter : Counter} (hword : request.extent < Word.limit)
      (hlarge : a.maxChunk < request.extent)
      (hlength : cacheLine.ceil request.extent < Word.limit)
      (hroom : ¬ a.HasRoom (cacheLine.ceil request.extent))
      (hclaim : a.counter.claim (cacheLine.ceil request.extent) = .ok (none, counter)) :
      Ends a c request .null c { a with counter }

lemma stop_keep_le (hstop : c.stop ≤ maxCapacity) : (a.keep c).stop ≤ maxCapacity := by
  rw [keep]
  split
  · exact hstop
  · exact Nat.zero_le _

/-- A claim is counted, unless the count is full. -/
lemma add_claims (c : LocalChunk) :
    Word.add c.claims 1 = .ok (c.claims + 1) ∨
      Word.limit ≤ c.claims + 1 ∧ Word.add c.claims 1 = .error .addOverflow := by
  by_cases hclaims : c.claims + 1 < Word.limit
  · exact .inl (Word.add_eq_ok hclaims)
  · exact .inr ⟨Nat.not_lt.1 hclaims, if_neg hclaims⟩

lemma exists_ends_claimDirect (hsound : a.Sound) (c : LocalChunk)
    (hword : request.extent < Word.limit) (hlarge : a.maxChunk < request.extent) :
    ∃ h d a', a.Ends c request h d a' ∧
      (a.claimDirect c request.extent = .ok (h, d, a') ∨
        Word.limit ≤ c.claims + 1 ∧ a.claimDirect c request.extent = .error .addOverflow) := by
  have hround (length : Nat) : roundUp request.extent cacheLine = some length ↔
      length = cacheLine.ceil request.extent ∧ length < Word.limit :=
    roundUp_eq_some_iff_of_dvd (dvd_limit (Nat.le_refl cacheLine.bytes))
  rw [claimDirect]
  by_cases hlength : cacheLine.ceil request.extent < Word.limit
  · rw [(hround _).2 ⟨rfl, hlength⟩]
    by_cases hroom : a.HasRoom (cacheLine.ceil request.extent)
    · refine ⟨_, _, _, .direct hword hlarge hlength hroom, ?_⟩
      simp only [claim_of_hasRoom hsound hroom, bind, Except.bind]
      rcases add_claims c with hadd | ⟨hfull, hadd⟩
      · exact .inl (by rw [hadd]; rfl)
      · exact .inr ⟨hfull, by rw [hadd]⟩
    · obtain ⟨counter, hclaim⟩ :=
        exists_claim_of_not_hasRoom hsound (cacheLine.dvd_ceil _) hroom
      refine ⟨_, _, _, .tooLarge hword hlarge hlength hroom hclaim, .inl ?_⟩
      simp only [hclaim, bind, Except.bind, pure, Except.pure]
  · have hnone : roundUp request.extent cacheLine = none := by
      refine Option.eq_none_iff_forall_ne_some.2 fun n hn => hlength ?_
      obtain ⟨rfl, hlt⟩ := (hround n).1 hn
      exact hlt
    rw [hnone]
    exact ⟨_, _, _, .unpadded hword hlarge (Nat.not_lt.1 hlength), .inl rfl⟩

lemma exists_ends_allocateLocal (hsound : a.Sound) (hstop : c.stop ≤ maxCapacity)
    (halign : request.layout.align.bytes ≤ cacheLine.bytes)
    (hword : request.extent < Word.limit) (hlocal : request.extent ≤ a.maxChunk) :
    ∃ h d a', a.Ends c request h d a' ∧
      (a.allocateLocal c request.extent request.layout.align = .ok (h, d, a') ∨
        Word.limit ≤ c.claims + 1 ∧
          a.allocateLocal c request.extent request.layout.align = .error .addOverflow) := by
  rw [allocateLocal, ← keep, LocalChunk.bump_eq (stop_keep_le hstop) halign]
  by_cases hfits : (a.keep c).Fits request
  · rw [if_pos hfits]
    exact ⟨_, _, _, .kept hword hlocal hfits, .inl rfl⟩
  rw [if_neg hfits]
  simp only [refill]
  by_cases hroom : a.HasRoom (a.chunkSize request.extent)
  · refine ⟨_, _, _, .refilled hword hlocal hfits hroom, ?_⟩
    have hadd' : Word.add a.counter.position (a.chunkSize request.extent) =
        .ok (a.counter.position + a.chunkSize request.extent) :=
      Word.add_eq_ok (lt_limit_of_le_maxCapacity (hroom.stop_le hsound))
    simp only [claim_of_hasRoom hsound hroom, claims_keep, hadd', bind, Except.bind]
    rcases add_claims c with hadd | ⟨hfull, hadd⟩
    · -- The second attempt is made on the fresh chunk, and starts where the counter was.
      obtain ⟨hceil, hfresh⟩ := fits_freshChunk hsound hroom halign (le_chunkSize hword hlocal)
        (c.claims + 1)
      have hbump := LocalChunk.bump_eq (c := a.freshChunk (a.chunkSize request.extent) (c.claims + 1))
        (hroom.stop_le hsound) halign
      rw [if_pos hfresh, hceil] at hbump
      rw [freshChunk] at hbump
      refine .inl ?_
      simp only [hadd, pure, Except.pure, hbump]
      rfl
    · exact .inr ⟨hfull, by rw [hadd]⟩
  · obtain ⟨counter, hclaim⟩ := exists_claim_of_not_hasRoom hsound (dvd_chunkSize hsound _) hroom
    refine ⟨_, _, _, .starved hword hlocal hfits hroom hclaim, .inl ?_⟩
    simp only [hclaim, bind, Except.bind, pure, Except.pure]

/-- **A request ends in one of these ways**, unless the count of claims is full. -/
theorem exists_ends (hsound : a.Sound) (hstop : c.stop ≤ maxCapacity)
    (halign : request.layout.align.bytes ≤ cacheLine.bytes) :
    ∃ h d a', a.Ends c request h d a' ∧ (a.allocate c request = .ok (h, d, a') ∨
      Word.limit ≤ c.claims + 1 ∧ a.allocate c request = .error .addOverflow) := by
  have hextent : request.rounded request.layout.align = request.extent := rfl
  rw [allocate, Request.roundedSize?_eq halign, hextent]
  by_cases hword : request.extent < Word.limit
  · rw [if_pos hword]
    by_cases hlarge : a.maxChunk < request.extent
    · simp only [if_pos hlarge]
      exact exists_ends_claimDirect hsound c hword hlarge
    · simp only [if_neg hlarge]
      exact exists_ends_allocateLocal hsound hstop halign hword (Nat.not_lt.1 hlarge)
  · rw [if_neg hword]
    exact ⟨_, _, _, .overflow (Nat.not_lt.1 hword), .inl rfl⟩

lemma ends_of_allocate (hsound : a.Sound) (hstop : c.stop ≤ maxCapacity)
    (halign : request.layout.align.bytes ≤ cacheLine.bytes)
    (hok : a.allocate c request = .ok (h, d, a')) : a.Ends c request h d a' := by
  obtain ⟨h', d', b, hends, hok' | ⟨-, hfault⟩⟩ := exists_ends hsound hstop halign
  · rw [hok, Except.ok.injEq, Prod.mk.injEq, Prod.mk.injEq] at hok'
    obtain ⟨rfl, rfl, rfl⟩ := hok'
    exact hends
  · rw [hok] at hfault
    cases hfault

/-! ## Chunks that an arena comes across -/

/-- **An arena and a chunk that a program can bring together.**  The chunk was used with this arena
and with others any number of times, and was let go of; whoever used this arena as well did so with
any chunks, copies of this one among them.  `shared` says whether another arena may have the
identity of this one. -/
inductive Meets (shared : Prop) : ChunkedArena → LocalChunk → Prop
  | empty {a : ChunkedArena} (ha : a.Reached) : Meets shared a {}
  | served {a a' : ChunkedArena} {c d : LocalChunk} {request : Request} {h : Handle}
      (hmeets : Meets shared a c) (halign : request.layout.align.bytes ≤ cacheLine.bytes)
      (hok : a.allocate c request = .ok (h, d, a')) : Meets shared a' d
  | othersServed {a a' : ChunkedArena} {c e e' : LocalChunk} {request : Request} {h : Handle}
      (hmeets : Meets shared a c) (hok : a.allocate e request = .ok (h, e', a')) : Meets shared a' c
  | reset {a a' : ChunkedArena} {c : LocalChunk} (hmeets : Meets shared a c)
      (hreset : a.reset = .ok a') : Meets shared a' c
  | servedElsewhere {a b b' : ChunkedArena} {c d : LocalChunk} {request : Request} {h : Handle}
      (hmeets : Meets shared a c) (hb : b.Reached) (hid : b.region.id = a.region.id → shared)
      (halign : request.layout.align.bytes ≤ cacheLine.bytes)
      (hok : b.allocate c request = .ok (h, d, b')) : Meets shared a d
  | released {a : ChunkedArena} {c : LocalChunk} (hmeets : Meets shared a c) :
      Meets shared a c.release

/-- If the chunk is of the region, no more is left of it than a size. -/
def Leaves (c : LocalChunk) (id : RegionId) (size : Nat) : Prop :=
  c.region = id → c.stop ≤ c.cursor + size

lemma leaves_release {id : RegionId} {size : Nat} : Leaves c.release id size :=
  fun _ => Nat.zero_le _

lemma leaves_serve {id : RegionId} {size : Nat} (hleaves : Leaves c id size) :
    Leaves (c.serve request) id size := by
  intro hid
  have hle := hleaves hid
  have hceil := request.layout.align.le_ceil c.cursor
  show c.stop ≤ request.layout.align.ceil c.cursor + request.extent + size
  omega

lemma leaves_keep {id : RegionId} {size : Nat} (hleaves : Leaves c id size) :
    Leaves (a.keep c) id size := by
  rw [keep]
  split
  · exact hleaves
  · exact leaves_release

namespace Ends

/-- A chunk stays in its region. -/
lemma stop_le (hends : a.Ends c request h d a') (hsound : a.Sound) (hstop : c.stop ≤ maxCapacity) :
    d.stop ≤ maxCapacity := by
  cases hends with
  | overflow => exact hstop
  | kept => exact stop_keep_le hstop
  | refilled _ _ _ hroom => exact hroom.stop_le hsound
  | starved => exact stop_keep_le hstop
  | direct => exact hstop
  | unpadded => exact hstop
  | tooLarge => exact hstop

/-- No more is left of a chunk than the largest chunk of the arena that filled it. -/
lemma leaves {id : RegionId} {size : Nat} (hends : a.Ends c request h d a') (hsound : a.Sound)
    (hchunks : a.HasChunks) (hown : a.region.id = id → a.maxChunk ≤ size)
    (hleaves : Leaves c id size) : Leaves d id size := by
  cases hends with
  | overflow => exact hleaves
  | kept => exact leaves_serve (leaves_keep hleaves)
  | refilled =>
    refine leaves_serve fun hid => Nat.add_le_add_left ?_ _
    exact Nat.le_trans (chunkSize_le hsound hchunks _) (hown hid)
  | starved => exact leaves_keep hleaves
  | direct => exact hleaves
  | unpadded => exact hleaves
  | tooLarge => exact hleaves

end Ends

lemma Serves.maxChunk_eq (hserves : a.Serves c request h d a') : a'.maxChunk = a.maxChunk := by
  cases hserves <;> rfl

namespace Meets

variable {shared : Prop}

lemma reached (hmeets : Meets shared a c) : a.Reached := by
  induction hmeets with
  | empty ha => exact ha
  | served _ _ hok ih => exact ih.served hok
  | othersServed _ hok ih => exact ih.served hok
  | reset _ hreset ih => exact ih.reset hreset
  | servedElsewhere _ _ _ _ _ ih => exact ih
  | released _ ih => exact ih

lemma stop_le (hmeets : Meets shared a c) : c.stop ≤ maxCapacity := by
  induction hmeets with
  | empty => exact Nat.zero_le _
  | served hmeets halign hok ih =>
    exact (ends_of_allocate hmeets.reached.sound ih halign hok).stop_le hmeets.reached.sound ih
  | othersServed _ _ ih => exact ih
  | reset _ _ ih => exact ih
  | servedElsewhere _ hb _ halign hok ih =>
    exact (ends_of_allocate hb.sound ih halign hok).stop_le hb.sound ih
  | released => exact Nat.zero_le _

/-- A chunk that the arena takes for its own is one of its own, unless its identity is shared. -/
lemma leaves (hmeets : Meets shared a c) (hunshared : ¬ shared) :
    Leaves c a.region.id a.maxChunk := by
  induction hmeets with
  | empty => exact fun _ => Nat.zero_le _
  | served hmeets halign hok ih =>
    have hsound := hmeets.reached.sound
    have hserves := serves_of_allocate hsound hok
    rw [hserves.region_eq, hserves.maxChunk_eq]
    exact (ends_of_allocate hsound hmeets.stop_le halign hok).leaves hsound
      hmeets.reached.hasChunks (fun _ => Nat.le_refl _) ih
  | othersServed hmeets hok ih =>
    have hserves := serves_of_allocate hmeets.reached.sound hok
    rw [hserves.region_eq, hserves.maxChunk_eq]
    exact ih
  | reset _ hreset ih =>
    rw [eq_of_reset hreset]
    exact ih
  | servedElsewhere hmeets hb hid halign hok ih =>
    exact (ends_of_allocate hb.sound hmeets.stop_le halign hok).leaves hb.sound hb.hasChunks
      (fun hsame => absurd (hid hsame) hunshared) ih
  | released => exact leaves_release

end Meets

/-! ## What can be told of a request -/

/-- What a chunk that is kept has room for, when something is asked for. -/
lemma fits_keep_iff (hpos : 0 < request.extent) :
    (a.keep c).Fits request ↔ a.owns c = true ∧ c.Fits request := by
  rw [keep]
  split
  · next howns => simp only [howns, true_and]
  · next howns =>
    refine iff_of_false (fun hfits => ?_) fun hown => howns hown.1
    have hle : request.layout.align.ceil 0 + request.extent ≤ 0 := hfits
    omega

/-- **When a request is refused**: its size is no word; or it fits a chunk but not the one that is
there, and the counter has no room for a fresh one; or it is too large for a chunk, and in whole
cache lines it is no word or the counter has no room for it. -/
def Refuses (a : ChunkedArena) (c : LocalChunk) (request : Request) : Prop :=
  Word.limit ≤ request.extent ∨
    (request.extent ≤ a.maxChunk ∧ ¬ (a.owns c = true ∧ c.Fits request) ∧
      a.counter.capacity < a.counter.position + a.chunkSize request.extent) ∨
    (a.maxChunk < request.extent ∧
      (Word.limit ≤ cacheLine.ceil request.extent ∨
        a.counter.capacity < a.counter.position + cacheLine.ceil request.extent))

/-- **At most one claim.**  Nothing was claimed, or all that changed in the arena is what one claim
did to its counter.  The claim is counted if it succeeded, and then the request was granted. -/
def ClaimsOnce (a : ChunkedArena) (c : LocalChunk) (h : Handle) (d : LocalChunk)
    (a' : ChunkedArena) : Prop :=
  (a' = a ∧ d.claims = c.claims) ∨
    ∃ length claimed, a.counter.claim length = .ok (claimed, a'.counter) ∧
      a' = { a with counter := a'.counter } ∧
      d.claims = c.claims + (if claimed.isSome then 1 else 0) ∧
      (claimed.isSome = true ↔ h.isNull = false)

/-- **What can be told of a request**, by its handle, the chunk and the arena after it. -/
structure Outcome (shared : Prop) (a : ChunkedArena) (c : LocalChunk) (request : Request)
    (h : Handle) (d : LocalChunk) (a' : ChunkedArena) : Prop where
  isNull_iff : h.isNull = true ↔ a.Refuses c request
  /-- The arena's own chunk serves what it has room for, and nothing else changes.  A request above
  the largest chunk goes past the chunk before it is asked whose the chunk is.  No chunk that the
  arena filled has room for such a request, so that the condition says something only where another
  arena may have the same identity, and may have filled a larger one. -/
  of_fits : a.owns c = true → c.Fits request → (shared → request.extent ≤ a.maxChunk) →
    h = a.region.handleAt (request.layout.align.ceil c.cursor) ∧ h.isNull = false ∧
      d = c.serve request ∧ a' = a
  claimsOnce : a.ClaimsOnce c h d a'
  /-- A request that is too large for a chunk leaves the chunk alone. -/
  of_large : a.maxChunk < request.extent → d = { c with claims := d.claims }
  /-- So does a request that is refused, if the chunk is the arena's own. -/
  of_isNull : h.isNull = true → a.owns c = true → d = c

lemma keep_of_owns (howns : a.owns c = true) : a.keep c = c := if_pos howns

lemma keep_of_not_owns (howns : a.owns c = false) : a.keep c = c.release := by
  rw [keep, howns]
  rfl

/-- There is no room in an empty chunk. -/
lemma keep_empty (a : ChunkedArena) : (a.keep {}).cursor = 0 ∧ (a.keep {}).stop = 0 := by
  rw [keep]
  split <;> exact ⟨rfl, rfl⟩

lemma lt_of_not_hasRoom {length : Nat} (hdvd : cacheLine.bytes ∣ length)
    (hroom : ¬ a.HasRoom length) : a.counter.capacity < a.counter.position + length :=
  Nat.not_le.1 fun hle => hroom ⟨hdvd, hle⟩

lemma HasRoom.isNull_eq {length : Nat} (hroom : a.HasRoom length) (hsound : a.Sound) :
    (a.region.handleAt a.counter.position).isNull = false :=
  (Region.toNat_handleAt (Nat.le_trans (Nat.le_add_right ..) (hroom.stop_le hsound))).1

lemma isNull_handleAt_of_fits (hstop : c.stop ≤ maxCapacity) (hfits : c.Fits request) :
    (a.region.handleAt (request.layout.align.ceil c.cursor)).isNull = false :=
  (Region.toNat_handleAt (Nat.le_trans (Nat.le_trans (Nat.le_add_right ..) hfits) hstop)).1

namespace Ends

lemma isNull_iff (hends : a.Ends c request h d a') (hsound : a.Sound) (hstop : c.stop ≤ maxCapacity)
    (hpos : 0 < request.extent) : h.isNull = true ↔ a.Refuses c request := by
  rw [Refuses, ← fits_keep_iff hpos]
  cases hends with
  | overflow hsize => exact iff_of_true rfl (.inl hsize)
  | kept hword hlocal hfits =>
    rw [isNull_handleAt_of_fits (stop_keep_le hstop) hfits]
    refine iff_of_false (by decide) ?_
    rintro (hsize | ⟨-, hfull, -⟩ | ⟨hlarge, -⟩)
    · omega
    · exact hfull hfits
    · omega
  | refilled hword hlocal hfull hroom =>
    have hle := hroom.le
    rw [hroom.isNull_eq hsound]
    refine iff_of_false (by decide) ?_
    rintro (hsize | ⟨-, -, hlt⟩ | ⟨hlarge, -⟩) <;> omega
  | starved hword hlocal hfull hroom =>
    have hlt := lt_of_not_hasRoom (dvd_chunkSize hsound _) hroom
    exact iff_of_true rfl (.inr (.inl ⟨hlocal, hfull, hlt⟩))
  | direct hword hlarge hlength hroom =>
    have hle := hroom.le
    rw [hroom.isNull_eq hsound]
    refine iff_of_false (by decide) ?_
    rintro (hsize | ⟨hlocal, -⟩ | ⟨-, hsize | hlt⟩) <;> omega
  | unpadded hword hlarge hlength => exact iff_of_true rfl (.inr (.inr ⟨hlarge, .inl hlength⟩))
  | tooLarge hword hlarge hlength hroom =>
    have hlt := lt_of_not_hasRoom (cacheLine.dvd_ceil _) hroom
    exact iff_of_true rfl (.inr (.inr ⟨hlarge, .inr hlt⟩))

lemma of_fits (hends : a.Ends c request h d a') (hstop : c.stop ≤ maxCapacity)
    (howns : a.owns c = true) (hfits : c.Fits request) (hlocal : request.extent ≤ a.maxChunk) :
    h = a.region.handleAt (request.layout.align.ceil c.cursor) ∧ h.isNull = false ∧
      d = c.serve request ∧ a' = a := by
  have hkeep := keep_of_owns howns
  cases hends with
  | overflow hsize =>
    have hlimit := lt_limit_of_le_maxCapacity hstop
    have hle : request.layout.align.ceil c.cursor + request.extent ≤ c.stop := hfits
    omega
  | kept =>
    rw [hkeep]
    exact ⟨rfl, isNull_handleAt_of_fits hstop hfits, rfl, rfl⟩
  | refilled _ _ hfull => exact absurd hfits (hkeep ▸ hfull)
  | starved _ _ hfull => exact absurd hfits (hkeep ▸ hfull)
  | direct _ hlarge => omega
  | unpadded _ hlarge => omega
  | tooLarge _ hlarge => omega

lemma claimsOnce (hends : a.Ends c request h d a') (hsound : a.Sound) :
    a.ClaimsOnce c h d a' := by
  cases hends with
  | overflow => exact .inl ⟨rfl, rfl⟩
  | kept => exact .inl ⟨rfl, claims_keep a c⟩
  | refilled _ _ _ hroom =>
    exact .inr ⟨_, _, claim_of_hasRoom hsound hroom, rfl, rfl,
      iff_of_true rfl (hroom.isNull_eq hsound)⟩
  | starved _ _ _ _ hclaim =>
    exact .inr ⟨_, _, hclaim, rfl, claims_keep a c, iff_of_false (by decide) (by decide)⟩
  | direct _ _ _ hroom =>
    exact .inr ⟨_, _, claim_of_hasRoom hsound hroom, rfl, rfl,
      iff_of_true rfl (hroom.isNull_eq hsound)⟩
  | unpadded => exact .inl ⟨rfl, rfl⟩
  | tooLarge _ _ _ _ hclaim =>
    exact .inr ⟨_, _, hclaim, rfl, rfl, iff_of_false (by decide) (by decide)⟩

lemma of_large (hends : a.Ends c request h d a') (hlarge : a.maxChunk < request.extent) :
    d = { c with claims := d.claims } := by
  cases hends with
  | overflow => rfl
  | kept _ hlocal => omega
  | refilled _ hlocal => omega
  | starved _ hlocal => omega
  | direct => rfl
  | unpadded => rfl
  | tooLarge => rfl

lemma of_isNull (hends : a.Ends c request h d a') (hsound : a.Sound) (hstop : c.stop ≤ maxCapacity)
    (hnull : h.isNull = true) (howns : a.owns c = true) : d = c := by
  cases hends with
  | overflow => rfl
  | kept _ _ hfits =>
    rw [isNull_handleAt_of_fits (stop_keep_le hstop) hfits] at hnull
    exact absurd hnull (by decide)
  | refilled _ _ _ hroom =>
    rw [hroom.isNull_eq hsound] at hnull
    exact absurd hnull (by decide)
  | starved => exact keep_of_owns howns
  | direct _ _ _ hroom =>
    rw [hroom.isNull_eq hsound] at hnull
    exact absurd hnull (by decide)
  | unpadded => rfl
  | tooLarge => rfl

end Ends

/-- A fresh chunk serves the request that it was claimed for. -/
lemma isSome_bump_of_refill (hsound : a.Sound)
    (halign : request.layout.align.bytes ≤ cacheLine.bytes)
    (hword : request.extent < Word.limit) (hlocal : request.extent ≤ a.maxChunk)
    (hrefill : a.refill c request.extent = .ok (some d, a')) :
    (d.bump request.extent request.layout.align).isSome = true := by
  obtain ⟨-, hroom, rfl, -⟩ := (refill_eq_ok_some_iff hsound).1 hrefill
  have hfits := (fits_freshChunk hsound hroom halign (le_chunkSize hword hlocal)
    (c.claims + 1)).2
  rw [LocalChunk.bump_eq (hroom.stop_le hsound) halign, if_pos hfits]
  rfl

/-- **How a request for something ends**, in every arena and with every chunk that it can come
across.  It always ends, unless the count of claims is full, and then as `Outcome` says.  A chunk
that was just claimed for it never fails to serve it. -/
theorem outcome_of_allocate {shared : Prop} (hmeets : Meets shared a c)
    (halign : request.layout.align.bytes ≤ cacheLine.bytes) (hsize : 0 < request.layout.size) :
    (c.claims + 1 < Word.limit → ∃ h d a', a.allocate c request = .ok (h, d, a')) ∧
    (∀ h d a', a.allocate c request = .ok (h, d, a') → Outcome shared a c request h d a') ∧
    (request.extent < Word.limit → request.extent ≤ a.maxChunk → ∀ fresh a',
      a.refill (a.keep c) request.extent = .ok (some fresh, a') →
        (fresh.bump request.extent request.layout.align).isSome = true) := by
  have hsound := hmeets.reached.sound
  have hstop := hmeets.stop_le
  have hpos : 0 < request.extent :=
    Nat.lt_of_lt_of_le (Nat.mul_pos hsize request.count_pos) (request.le_rounded _)
  refine ⟨fun hclaims => ?_, fun h d a' hok => ?_, fun hword hlocal fresh a' =>
    isSome_bump_of_refill hsound halign hword hlocal⟩
  · obtain ⟨h, d, a', -, hok | ⟨hfull, -⟩⟩ := exists_ends (c := c) hsound hstop halign
    · exact ⟨h, d, a', hok⟩
    · omega
  · have hends := ends_of_allocate hsound hstop halign hok
    refine ⟨hends.isNull_iff hsound hstop hpos, fun howns hfits hlocal => ?_, hends.claimsOnce hsound,
      hends.of_large, hends.of_isNull hsound hstop⟩
    refine hends.of_fits hstop howns hfits ?_
    by_cases hshared : shared
    · exact hlocal hshared
    · -- The arena filled the chunk itself, so that what fits it is no larger than the largest chunk.
      have hleaves := hmeets.leaves hshared (owns_eq_true_iff.1 howns).1
      have hle : request.layout.align.ceil c.cursor + request.extent ≤ c.stop := hfits
      have hceil := request.layout.align.le_ceil c.cursor
      omega

/-- After another thread asked for more than there is, what is left of a chunk is still granted, and
a request that does not fit leaves the chunk as it was. -/
theorem outcome_of_allocate_exhausted : ∃ a s' c b,
    (make ⟨4096, 64, 128⟩).run default = .ok a s' ∧
    a.allocate {} (.ofBytes 40) = .ok (a.region.handleAt 0, c, a.advance 128) ∧
    (a.advance 128).allocate {} (.ofBytes 5000) = .ok (.null, {}, b) ∧ b.isExhausted = true ∧
    Meets False b c ∧ 0 < (Request.ofBytes 24).layout.size ∧
    b.allocate c (.ofBytes 24) = .ok (b.region.handleAt 40, { c with cursor := 64 }, b) ∧
    Outcome False b c (.ofBytes 24) (b.region.handleAt 40) { c with cursor := 64 } b ∧
    b.allocate c (.ofBytes 100) = .ok (.null, c, b) ∧ b.Refuses c (.ofBytes 100) := by
  have hbyte (length : Nat) : (Request.ofBytes length).layout.align.bytes ≤ cacheLine.bytes :=
    show 1 ≤ 64 by decide
  obtain ⟨a, s', hmake, hfirst, hlarge, hexhausted, hsecond, hthird⟩ :
      ∃ a s', (make ⟨4096, 64, 128⟩).run default = .ok a s' ∧
        a.allocate {} (.ofBytes 40) =
          .ok (a.region.handleAt 0, { a.freshChunk 128 1 with cursor := 40 }, a.advance 128) ∧
        (a.advance 128).allocate {} (.ofBytes 5000) = .ok (.null, {}, a.advance 4225) ∧
        (a.advance 4225).isExhausted = true ∧
        (a.advance 4225).allocate { a.freshChunk 128 1 with cursor := 40 } (.ofBytes 24) =
          .ok (a.region.handleAt 40, { a.freshChunk 128 1 with cursor := 64 }, a.advance 4225) ∧
        (a.advance 4225).allocate { a.freshChunk 128 1 with cursor := 40 } (.ofBytes 100) =
          .ok (.null, { a.freshChunk 128 1 with cursor := 40 }, a.advance 4225) :=
    ⟨_, _, rfl, by decide +kernel, by decide +kernel, by decide +kernel, by decide +kernel,
      by decide +kernel⟩
  have hmeets : Meets False (a.advance 4225) { a.freshChunk 128 1 with cursor := 40 } :=
    .othersServed (.served (.empty (.made hmake)) (hbyte 40) hfirst) hlarge
  have houtcome (length : Nat) := (outcome_of_allocate hmeets (hbyte length) Nat.one_pos).2.1
  exact ⟨a, s', _, _, hmake, hfirst, hlarge, hexhausted, hmeets, by decide, hsecond,
    houtcome 24 _ _ _ hsecond, hthird, (houtcome 100 _ _ _ hthird).isNull_iff.1 rfl⟩

/-- The younger of two namesakes can come across any chunk that another arena filled. -/
lemma meets_younger {elder elder' : ChunkedArena} {length : Nat} (helder : elder.Reached)
    (hok : elder.allocate {} (.ofBytes length) = .ok (h, c, elder')) :
    Meets True World.younger c := by
  obtain ⟨s, hyounger⟩ := World.exists_run_make_younger
  exact .servedElsewhere (.empty (.made hyounger)) helder (fun _ => trivial)
    (show 1 ≤ 64 by decide) hok

/-- The elder of two namesakes fills a chunk of its largest size. -/
def elderChunk : List (Call Unit) := [.makeChunk, .allocateBytes 0 (.loose 0) 100]

/-- **A request that fits the chunk can go past it** in an arena with a namesake.  The younger takes
the chunk of the elder for its own, and the chunk has room for more than the largest chunk of the
younger.  Such a request moves the counter and is counted as a claim, and where the counter has run
out it is refused. -/
theorem exists_claim_of_fits : ∃ a c b,
    (World.run default (World.wholeRound ++ elderChunk)).arenas[1]? = some a ∧
    (World.run default (World.wholeRound ++ elderChunk)).pool.chunk? (.loose 0) = some c ∧
    Meets True a c ∧ a.owns c = true ∧ c.Fits (.ofBytes 140) ∧
    a.allocate c (.ofBytes 140) =
      .ok (a.region.handleAt 0, { c with claims := c.claims + 1 }, a.advance 192) ∧
    a.allocate {} (.ofBytes 5000) = .ok (.null, {}, b) ∧
    b.allocate c (.ofBytes 140) = .ok (.null, c, b) := by
  obtain ⟨harenas, hpool, -⟩ := World.run_wholeRound_append elderChunk (by decide)
  have helder : World.elder.allocate {} (.ofBytes 100) =
      .ok (World.elder.region.handleAt 0, { World.elder.freshChunk 256 1 with cursor := 100 },
        World.elder.advance 256) := by decide +kernel
  have hmeets := meets_younger (.made World.run_make_elder) helder
  refine ⟨World.younger, _, World.younger.advance 4097, ?_, ?_, hmeets, ?_⟩
  · rw [harenas]
    decide +kernel
  · rw [hpool]
    decide +kernel
  · decide +kernel

end ChunkedArena

end BumpArena
