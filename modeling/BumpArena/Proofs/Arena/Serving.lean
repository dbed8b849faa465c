import BumpArena.Arena.Chunked
import BumpArena.Proofs.Arena.Span

/-!
# How a chunked arena serves a request

`ChunkedArena.Serves` lists the ways in which a request can end, with all that changes in each:
the request is refused, it is granted from the chunk, it is granted bytes of its own, or the chunk
is replaced by a fresh one, which then has room or has not.  `serves_of_allocate` says that there
are no others.  All that follows about a request is read off this list, one case per way:

* the arena stays the same region in the same generation, and never takes bytes back
  (`Serves.sound`, `Serves.used_le`);
* the chunk afterwards is the arena's own, or it holds nothing, or it is held as before
  (`Serves.fate`);
* what was granted and what is left of the chunk are parts of the chunk before and of the bytes
  that the arena handed out meanwhile (`Serves.parts`).
-/

namespace BumpArena

/-! ## Claims -/

namespace Counter

variable {c c' : Counter} {size offset : Nat}

/-- A refused claim leaves the counter past its capacity. -/
lemma of_claim_none (hlimit : 2 * c.capacity + 1 < Word.limit)
    (h : c.claim size = .ok (none, c')) :
    c'.capacity = c.capacity ∧ c'.capacity < c'.position := by
  rw [claim_eq c size hlimit] at h
  simp only [Except.ok.injEq] at h
  split at h
  · next hpast =>
    obtain ⟨-, rfl⟩ := Prod.mk.inj h
    exact ⟨rfl, hpast⟩
  split at h
  · simp at h
  · next hroom =>
    obtain ⟨-, rfl⟩ := Prod.mk.inj h
    refine ⟨rfl, ?_⟩
    show c.capacity < c.position + min size (c.capacity + 1)
    omega

/-- A granted claim begins where the counter was, and the counter moves to its end. -/
lemma of_claim_some (hlimit : 2 * c.capacity + 1 < Word.limit)
    (h : c.claim size = .ok (some offset, c')) :
    offset = c.position ∧ c' = { c with position := c.position + size } ∧
      c.position + size ≤ c.capacity := by
  rw [claim_eq c size hlimit] at h
  simp only [Except.ok.injEq] at h
  split at h
  · simp at h
  split at h
  · next hroom =>
    obtain ⟨hoffset, rfl⟩ := Prod.mk.inj h
    exact ⟨(Option.some.inj hoffset).symm, rfl, hroom⟩
  · simp at h

end Counter

/-! ## Requests and handles -/

/-- The bytes that a request takes from an offset on. -/
def Request.spanAt (request : Request) (offset : Nat) : Span :=
  ⟨offset, offset + request.layout.size * request.count⟩

/-- The bytes that a request was granted: none, when the handle is null. -/
def Request.granted (request : Request) (h : Handle) : List Span :=
  if h.isNull then [] else [request.spanAt h.offset.toNat]

lemma Request.of_roundedSize? {request : Request} {align : Alignment} {size : Nat}
    (h : request.roundedSize? align = some size) :
    Word.mul? request.layout.size request.count =
        some (request.layout.size * request.count) ∧
      request.layout.size * request.count ≤ size := by
  obtain ⟨length, hlength, hround⟩ := Option.bind_eq_some_iff.1 h
  obtain ⟨rfl, hlimit⟩ := Word.mul?_eq_some_iff.1 hlength
  exact ⟨hlength, le_of_roundUp hround⟩

lemma dvd_limit {align : Alignment} (h : align.bytes ≤ cacheLine.bytes) :
    align.bytes ∣ Word.limit :=
  Nat.dvd_trans (Alignment.dvd_of_le h) (by decide)

/-- The bytes that a request takes up where every grant has an alignment. -/
def Request.rounded (request : Request) (align : Alignment) : Nat :=
  align.ceil (request.layout.size * request.count)

lemma Request.le_rounded (request : Request) (align : Alignment) :
    request.layout.size * request.count ≤ request.rounded align := align.le_ceil _

/-- **The rounded size of a request**, which is there exactly when it is a word. -/
lemma Request.roundedSize?_eq {request : Request} {align : Alignment}
    (h : align.bytes ≤ cacheLine.bytes) :
    request.roundedSize? align =
      if request.rounded align < Word.limit then some (request.rounded align) else none := by
  refine Option.ext fun size => ?_
  simp only [roundedSize?, Option.bind_eq_bind, Option.bind_eq_some_iff, Word.mul?_eq_some_iff,
    roundUp_eq_some_iff_of_dvd (dvd_limit h), Option.ite_none_right_eq_some, Option.some.injEq]
  constructor
  · rintro ⟨length, ⟨rfl, -⟩, rfl, hword⟩
    exact ⟨hword, rfl⟩
  · rintro ⟨hword, rfl⟩
    exact ⟨_, ⟨rfl, Nat.lt_of_le_of_lt (request.le_rounded align) hword⟩, rfl, hword⟩

namespace Region

variable {r : Region} {request : Request} {offset : Nat}

/-- An offset in the largest region fits a handle, and is not the one that marks a null handle. -/
lemma toNat_handleAt (h : offset ≤ maxCapacity) :
    (r.handleAt offset).isNull = false ∧ (r.handleAt offset).offset.toNat = offset := by
  have hmax : maxCapacity < 2 ^ 32 - 1 := by decide
  have hoffset : (UInt32.ofNat offset).toNat = offset :=
    UInt32.toNat_ofNat_of_lt' (show offset < 2 ^ 32 by omega)
  refine ⟨?_, hoffset⟩
  have hnull : Handle.nullOffset.toNat = 2 ^ 32 - 1 := by decide
  have hne : UInt32.ofNat offset ≠ Handle.nullOffset := by
    intro heq
    rw [heq, hnull] at hoffset
    omega
  simpa [handleAt, Handle.isNull] using hne

lemma granted_handleAt (h : offset ≤ maxCapacity) :
    request.granted (r.handleAt offset) = [request.spanAt offset] := by
  obtain ⟨hnull, hoffset⟩ := toNat_handleAt (r := r) h
  rw [Request.granted, hnull, hoffset]
  rfl

lemma resolveSlice_eq_some_iff {h : Handle} {layout : Layout} {count : Nat} :
    r.resolveSlice h layout count = some offset ↔
      ∃ length, Word.mul? layout.size count = some length ∧
        r.byteRange h length = some offset ∧ layout.align.Divides (r.base + offset) := by
  simp only [resolveSlice, Option.bind_eq_bind, Option.bind_eq_some_iff]
  grind

/-- A handle resolves to the offset that it was made from, if the elements lie in the region and are
aligned there.  This is for alignments that the base of every region has. -/
lemma resolveSlice_handleAt {layout : Layout} {count : Nat} (h : offset ≤ maxCapacity)
    (hword : layout.size * count < Word.limit) (hle : offset + layout.size * count ≤ r.capacity)
    (halign : layout.align.bytes ≤ page.bytes) (hdvd : layout.align.bytes ∣ offset) :
    r.resolveSlice (r.handleAt offset) layout count = some offset := by
  obtain ⟨hnull, hoffset⟩ := toNat_handleAt (r := r) h
  refine resolveSlice_eq_some_iff.2 ⟨_, Word.mul?_eq_some_iff.2 ⟨rfl, hword⟩, ?_, ?_⟩
  · exact byteRange_eq_some_iff.2 ⟨hnull, rfl, hle, hoffset.symm⟩
  · exact (divides_base_add_iff halign).2 (Nat.mod_eq_zero_of_dvd hdvd)

end Region

/-! ## Arenas and what they hold -/

namespace ChunkedArena

/-- What every arena has from the start and keeps. -/
structure Sound (a : ChunkedArena) : Prop where
  id_ne : a.region.id ≠ .unassigned
  capacity_eq : a.counter.capacity = a.region.capacity
  capacity_le : a.region.capacity ≤ maxCapacity
  position_dvd : a.counter.position ≤ a.counter.capacity → cacheLine.bytes ∣ a.counter.position
  maxChunk_dvd : cacheLine.bytes ∣ a.maxChunk

/-- What a chunk may still give out on behalf of an arena: nothing, unless the arena owns it. -/
def held (a : ChunkedArena) (c : LocalChunk) : List Span :=
  if a.owns c then [⟨c.cursor, c.stop⟩] else []

/-- The arena after it handed out bytes. -/
def advance (a : ChunkedArena) (length : Nat) : ChunkedArena :=
  { a with counter := { a.counter with position := a.counter.position + length } }

/-- A chunk of the bytes that are handed out next. -/
def freshChunk (a : ChunkedArena) (length claims : Nat) : LocalChunk :=
  ⟨a.region.id, a.generation, a.counter.position, a.counter.position + length, claims⟩

/-- The bytes that are handed out next. -/
def freshSpan (a : ChunkedArena) (length : Nat) : Span :=
  ⟨a.counter.used, (a.advance length).counter.used⟩

/-- Whether the counter hands out so many bytes. -/
structure HasRoom (a : ChunkedArena) (length : Nat) : Prop where
  dvd : cacheLine.bytes ∣ length
  le : a.counter.position + length ≤ a.counter.capacity

/-- **The ways in which a request ends**: the handle, the chunk and the arena after it. -/
inductive Serves (a : ChunkedArena) (c : LocalChunk) (request : Request) :
    Handle → LocalChunk → ChunkedArena → Prop
  /-- Nothing is granted.  A chunk that the arena does not own may have been let go of, and the
  counter may have run out. -/
  | refused {d : LocalChunk} {counter : Counter}
      (hchunk : d = c ∨ a.owns c = false ∧ d = c.release)
      (hcounter : counter = a.counter ∨
        counter.capacity = a.counter.capacity ∧ counter.capacity < counter.position) :
      Serves a c request .null d { a with counter }
  /-- The chunk has room. -/
  | bumped {size start : Nat} {d : LocalChunk}
      (hsize : request.roundedSize? request.layout.align = some size) (howns : a.owns c = true)
      (hbump : c.bump size request.layout.align = some (start, d)) :
      Serves a c request (a.region.handleAt start) d a
  /-- No bytes are asked for, and are found in a chunk that was just let go of, which ends at the
  base of the region. -/
  | empty (hsize : request.roundedSize? request.layout.align = some 0)
      (howns : a.owns c = false) :
      Serves a c request (a.region.handleAt 0) c.release a
  /-- The request goes past the chunk, to the counter. -/
  | direct {size length claims : Nat}
      (hsize : request.roundedSize? request.layout.align = some size) (hle : size ≤ length)
      (hroom : a.HasRoom length) :
      Serves a c request (a.region.handleAt a.counter.position) { c with claims } (a.advance length)
  /-- A fresh chunk has room. -/
  | refilled {size length claims start : Nat} {d : LocalChunk}
      (hsize : request.roundedSize? request.layout.align = some size) (hroom : a.HasRoom length)
      (hbump : (a.freshChunk length claims).bump size request.layout.align = some (start, d)) :
      Serves a c request (a.region.handleAt start) d (a.advance length)
  /-- A fresh chunk has no room either. -/
  | stranded {length claims : Nat} (hroom : a.HasRoom length) :
      Serves a c request .null (a.freshChunk length claims) (a.advance length)

variable {a a' : ChunkedArena} {c c' : LocalChunk} {request : Request} {h : Handle}

lemma owns_eq_true_iff :
    a.owns c = true ↔ c.region = a.region.id ∧ c.generation = a.generation := by
  simp [owns]

lemma Sound.limit (hsound : a.Sound) : 2 * a.counter.capacity + 1 < Word.limit := by
  rw [hsound.capacity_eq]
  exact two_mul_lt_of_le_maxCapacity hsound.capacity_le

lemma dvd_chunkSize (hsound : a.Sound) (size : Nat) : cacheLine.bytes ∣ a.chunkSize size := by
  rw [chunkSize]
  cases hround : roundUp (a.wantedChunk size) cacheLine with
  | none => exact hsound.maxChunk_dvd
  | some length => exact dvd_of_roundUp hround

lemma owns_freshChunk (a : ChunkedArena) (length claims : Nat) :
    a.owns (a.freshChunk length claims) = true :=
  owns_eq_true_iff.2 ⟨rfl, rfl⟩

/-- Nothing is all that a chunk that was let go of has room for. -/
lemma bump_release_eq_some {d : LocalChunk} {size start : Nat} {align : Alignment}
    (hbump : c.release.bump size align = some (start, d)) :
    size = 0 ∧ start = 0 ∧ d = c.release := by
  obtain ⟨-, hle, rfl⟩ := LocalChunk.bump_eq_some_iff.1 hbump
  have hstop : start + size ≤ 0 := hle
  obtain ⟨rfl, rfl⟩ : start = 0 ∧ size = 0 := by omega
  exact ⟨rfl, rfl, rfl⟩

/-! ## No other way -/

/-- What a claim on the counter of an arena ends in. -/
lemma claim_cases (hsound : a.Sound) {length : Nat} {claimed : Option Nat} {counter : Counter}
    (hdvd : cacheLine.bytes ∣ length) (hclaim : a.counter.claim length = .ok (claimed, counter)) :
    (claimed = none ∧ counter.capacity = a.counter.capacity ∧
        counter.capacity < counter.position) ∨
      (claimed = some a.counter.position ∧ { a with counter } = a.advance length ∧
        a.HasRoom length) := by
  cases claimed with
  | none => exact .inl ⟨rfl, Counter.of_claim_none hsound.limit hclaim⟩
  | some offset =>
    obtain ⟨rfl, rfl, hle⟩ := Counter.of_claim_some hsound.limit hclaim
    exact .inr ⟨rfl, rfl, hdvd, hle⟩

lemma serves_of_claimDirect (hsound : a.Sound) {size : Nat}
    (hsize : request.roundedSize? request.layout.align = some size)
    (hok : a.claimDirect c size = .ok (h, c', a')) : a.Serves c request h c' a' := by
  rw [claimDirect] at hok
  cases hround : roundUp size cacheLine with
  | none =>
    simp only [hround, Except.ok.injEq, Prod.mk.injEq] at hok
    obtain ⟨rfl, rfl, rfl⟩ := hok
    exact .refused (.inl rfl) (.inl rfl)
  | some length =>
    simp only [hround, bind_eq_ok_iff] at hok
    obtain ⟨⟨claimed, counter⟩, hclaim, hok⟩ := hok
    rcases claim_cases hsound (dvd_of_roundUp hround) hclaim with
      ⟨rfl, hcounter⟩ | ⟨rfl, hadvance, hroom⟩
    · simp only [pure, Except.pure, Except.ok.injEq, Prod.mk.injEq] at hok
      obtain ⟨rfl, rfl, rfl⟩ := hok
      exact .refused (.inl rfl) (.inr hcounter)
    · simp only [bind_eq_ok_iff] at hok
      obtain ⟨claims, -, hok⟩ := hok
      simp only [pure, Except.pure, Except.ok.injEq, Prod.mk.injEq] at hok
      obtain ⟨rfl, rfl, rfl⟩ := hok
      rw [hadvance]
      exact .direct hsize (le_of_roundUp hround) hroom

lemma refill_cases (hsound : a.Sound) {size : Nat} {fresh : Option LocalChunk}
    (hok : a.refill c size = .ok (fresh, a')) :
    (∃ counter : Counter, fresh = none ∧ a' = { a with counter } ∧
        counter.capacity = a.counter.capacity ∧ counter.capacity < counter.position) ∨
      ∃ length claims, fresh = some (a.freshChunk length claims) ∧ a' = a.advance length ∧
        a.HasRoom length := by
  simp only [refill, bind_eq_ok_iff] at hok
  obtain ⟨⟨claimed, counter⟩, hclaim, hok⟩ := hok
  rcases claim_cases hsound (dvd_chunkSize hsound size) hclaim with
    ⟨rfl, hcounter⟩ | ⟨rfl, hadvance, hroom⟩
  · simp only [pure, Except.pure, Except.ok.injEq, Prod.mk.injEq] at hok
    obtain ⟨rfl, rfl⟩ := hok
    exact .inl ⟨counter, rfl, rfl, hcounter⟩
  · simp only [bind_eq_ok_iff] at hok
    obtain ⟨claims, -, stop, hstop, hok⟩ := hok
    have hlimit := hsound.limit
    have hle := hroom.le
    rw [Word.add_eq_ok (by omega), Except.ok.injEq] at hstop
    simp only [pure, Except.pure, Except.ok.injEq, Prod.mk.injEq] at hok
    obtain ⟨rfl, rfl⟩ := hok
    subst hstop
    exact .inr ⟨_, claims, rfl, hadvance, hroom⟩

lemma serves_of_allocateLocal (hsound : a.Sound) {size : Nat}
    (hsize : request.roundedSize? request.layout.align = some size)
    (hok : a.allocateLocal c size request.layout.align = .ok (h, c', a')) :
    a.Serves c request h c' a' := by
  rw [allocateLocal] at hok
  generalize hkept : (if a.owns c then c else c.release) = kept at hok
  have hchunk : kept = c ∨ a.owns c = false ∧ kept = c.release := by
    cases howns : a.owns c with
    | false => exact .inr ⟨rfl, by rw [← hkept, howns]; rfl⟩
    | true => exact .inl (by rw [← hkept, howns]; rfl)
  split at hok
  · next start d hbump =>
    simp only [pure, Except.pure, Except.ok.injEq, Prod.mk.injEq] at hok
    obtain ⟨rfl, rfl, rfl⟩ := hok
    cases howns : a.owns c with
    | true =>
      rw [howns, if_pos rfl] at hkept
      exact .bumped hsize howns (hkept ▸ hbump)
    | false =>
      rw [howns] at hkept
      obtain rfl : c.release = kept := hkept
      obtain ⟨rfl, rfl, rfl⟩ := bump_release_eq_some hbump
      exact .empty hsize howns
  · simp only [bind_eq_ok_iff] at hok
    obtain ⟨⟨fresh, served⟩, hrefill, hok⟩ := hok
    rcases refill_cases hsound hrefill with
      ⟨counter, rfl, rfl, hcounter⟩ | ⟨length, claims, rfl, rfl, hroom⟩
    · simp only [pure, Except.pure, Except.ok.injEq, Prod.mk.injEq] at hok
      obtain ⟨rfl, rfl, rfl⟩ := hok
      exact .refused hchunk (.inr hcounter)
    · dsimp only at hok
      split at hok
      · next start d hbump =>
        simp only [pure, Except.pure, Except.ok.injEq, Prod.mk.injEq] at hok
        obtain ⟨rfl, rfl, rfl⟩ := hok
        exact .refilled hsize hroom hbump
      · simp only [pure, Except.pure, Except.ok.injEq, Prod.mk.injEq] at hok
        obtain ⟨rfl, rfl, rfl⟩ := hok
        exact .stranded hroom

/-- **A request ends in one of these ways.** -/
theorem serves_of_allocate (hsound : a.Sound) (hok : a.allocate c request = .ok (h, c', a')) :
    a.Serves c request h c' a' := by
  rw [allocate] at hok
  split at hok
  · simp only [Except.ok.injEq, Prod.mk.injEq] at hok
    obtain ⟨rfl, rfl, rfl⟩ := hok
    exact .refused (.inl rfl) (.inl rfl)
  · next size hsize =>
    split at hok
    · exact serves_of_claimDirect hsound hsize hok
    · exact serves_of_allocateLocal hsound hsize hok

/-! ## What follows for the arena -/

lemma HasRoom.stop_le {length : Nat} (hroom : a.HasRoom length) (hsound : a.Sound) :
    a.counter.position + length ≤ maxCapacity := by
  have hle := hroom.le
  rw [hsound.capacity_eq] at hle
  exact Nat.le_trans hle hsound.capacity_le

lemma HasRoom.freshSpan_eq {length : Nat} (hroom : a.HasRoom length) :
    a.freshSpan length = ⟨a.counter.position, a.counter.position + length⟩ := by
  have hle := hroom.le
  simp only [freshSpan, advance, Counter.used, Span.mk.injEq]
  omega

lemma HasRoom.sound {length : Nat} (hroom : a.HasRoom length) (hsound : a.Sound) :
    (a.advance length).Sound where
  id_ne := hsound.id_ne
  capacity_eq := hsound.capacity_eq
  capacity_le := hsound.capacity_le
  position_dvd _ := by
    have hle := hroom.le
    exact Nat.dvd_add (hsound.position_dvd (by omega)) hroom.dvd
  maxChunk_dvd := hsound.maxChunk_dvd

lemma Serves.region_eq (hserves : a.Serves c request h c' a') : a'.region = a.region := by
  cases hserves <;> rfl

lemma Serves.generation_eq (hserves : a.Serves c request h c' a') :
    a'.generation = a.generation := by
  cases hserves <;> rfl

lemma Serves.sound (hserves : a.Serves c request h c' a') (hsound : a.Sound) : a'.Sound := by
  cases hserves with
  | refused _ hcounter =>
    rcases hcounter with rfl | ⟨hcapacity, hpast⟩
    · exact hsound
    · exact ⟨hsound.id_ne, hcapacity.trans hsound.capacity_eq, hsound.capacity_le,
        fun hle => absurd hpast (Nat.not_lt.2 hle), hsound.maxChunk_dvd⟩
  | bumped => exact hsound
  | empty => exact hsound
  | direct _ _ hroom => exact hroom.sound hsound
  | refilled _ hroom => exact hroom.sound hsound
  | stranded hroom => exact hroom.sound hsound

lemma used_le_advance (a : ChunkedArena) (length : Nat) :
    a.counter.used ≤ (a.advance length).counter.used := by
  simp only [advance, Counter.used]
  omega

/-- Bytes are handed out, and not taken back. -/
lemma Serves.used_le (hserves : a.Serves c request h c' a') :
    a.counter.used ≤ a'.counter.used := by
  cases hserves with
  | refused _ hcounter =>
    rcases hcounter with rfl | ⟨hcapacity, hpast⟩
    · exact Nat.le_refl _
    · simp only [Counter.used]
      omega
  | bumped => exact Nat.le_refl _
  | empty => exact Nat.le_refl _
  | direct => exact a.used_le_advance _
  | refilled => exact a.used_le_advance _
  | stranded => exact a.used_le_advance _

/-! ## What follows for the chunk -/

/-- **What becomes of the chunk.**  It is held as before, or let go of, or the arena's own. -/
lemma Serves.fate (hserves : a.Serves c request h c' a') :
    (∃ claims, c' = { c with claims }) ∨ c'.region = .unassigned ∨
      a.owns c' = true := by
  cases hserves with
  | refused hchunk =>
    rcases hchunk with rfl | ⟨-, rfl⟩
    · exact .inl ⟨c'.claims, rfl⟩
    · exact .inr (.inl rfl)
  | bumped _ howns hbump =>
    obtain ⟨-, -, rfl⟩ := LocalChunk.bump_eq_some_iff.1 hbump
    exact .inr (.inr howns)
  | empty => exact .inr (.inl rfl)
  | direct => exact .inl ⟨_, rfl⟩
  | @refilled _ length claims _ _ _ _ hbump =>
    obtain ⟨-, -, rfl⟩ := LocalChunk.bump_eq_some_iff.1 hbump
    exact .inr (.inr (a.owns_freshChunk length claims))
  | stranded => exact .inr (.inr (a.owns_freshChunk ..))

lemma isHeld_of_owns (hsound : a.Sound) (howns : a.owns c = true) : c.isHeld = true := by
  have hne := hsound.id_ne
  rw [← (owns_eq_true_iff.1 howns).1] at hne
  simpa [LocalChunk.isHeld, RegionId.isUnassigned] using hne

/-- A chunk ends where a region may end, whoever filled it. -/
lemma Serves.stop_le (hserves : a.Serves c request h c' a') (hsound : a.Sound)
    (hstop : c.isHeld = true → c.stop ≤ maxCapacity) :
    c'.isHeld = true → c'.stop ≤ maxCapacity := by
  cases hserves with
  | refused hchunk =>
    rcases hchunk with rfl | ⟨-, rfl⟩
    · exact hstop
    · exact fun _ => Nat.zero_le _
  | bumped _ _ hbump =>
    obtain ⟨-, -, rfl⟩ := LocalChunk.bump_eq_some_iff.1 hbump
    exact hstop
  | empty => exact fun _ => Nat.zero_le _
  | direct => exact hstop
  | refilled _ hroom hbump =>
    obtain ⟨-, -, rfl⟩ := LocalChunk.bump_eq_some_iff.1 hbump
    exact fun _ => hroom.stop_le hsound
  | stranded hroom => exact fun _ => hroom.stop_le hsound

/-! ## What follows for the bytes -/

/-- What is taken from a chunk and what is left of it are parts of the chunk. -/
lemma parts_of_bump {d : LocalChunk} {size start : Nat} {align : Alignment} {wholes : List Span}
    (hlength : request.layout.size * request.count ≤ size)
    (hbump : c.bump size align = some (start, d)) (hmem : ⟨c.cursor, c.stop⟩ ∈ wholes) :
    Span.Parts [request.spanAt start, ⟨d.cursor, d.stop⟩] wholes := by
  obtain ⟨hround, hle, rfl⟩ := LocalChunk.bump_eq_some_iff.1 hbump
  have hcursor := le_of_roundUp hround
  refine (Span.Parts.single hmem ?_).cons hmem ?_ ?_
  · exact ⟨show c.cursor ≤ start + size by omega, Nat.le_refl _⟩
  · exact ⟨hcursor, show start + request.layout.size * request.count ≤ c.stop by omega⟩
  · intro x hx
    obtain rfl := List.mem_singleton.1 hx
    exact .inl (show start + request.layout.size * request.count ≤ start + size by omega)

lemma held_of_owns (howns : a.owns c = true) : a.held c = [⟨c.cursor, c.stop⟩] := if_pos howns

lemma held_of_not_owns (howns : a.owns c = false) : a.held c = [] := by
  rw [held, howns]
  rfl

/-- No arena is without an identity, and what has none is nobody's. -/
lemma held_of_unassigned (hsound : a.Sound) (hregion : c.region = .unassigned) :
    a.held c = [] := by
  refine held_of_not_owns ?_
  have hne : RegionId.unassigned ≠ a.region.id := Ne.symm hsound.id_ne
  simp [owns, hregion, hne]

lemma Serves.held_eq (hserves : a.Serves c request h c' a') : a'.held = a.held := by
  funext d
  have howns : a'.owns d = a.owns d := by
    rw [owns, owns, hserves.region_eq, hserves.generation_eq]
  rw [held, held, howns]

lemma parts_held {wholes : List Span} (hmem : a.held c ⊆ wholes) :
    Span.Parts (a.held c) wholes := by
  cases howns : a.owns c with
  | false =>
    rw [held_of_not_owns howns]
    exact .nil
  | true =>
    rw [held_of_owns howns] at hmem ⊢
    exact .single (hmem (List.mem_singleton_self _)) (.refl _)

lemma Sound.used_le (hsound : a.Sound) : a.counter.used ≤ maxCapacity := by
  have hused : a.counter.used ≤ a.counter.capacity := Nat.min_le_right ..
  rw [hsound.capacity_eq] at hused
  exact Nat.le_trans hused hsound.capacity_le

/-- What a chunk gives out fits a handle, when the chunk lies among the bytes handed out. -/
lemma granted_of_bump {d : LocalChunk} {size start : Nat} {align : Alignment}
    (hstop : c.stop ≤ maxCapacity) (hbump : c.bump size align = some (start, d)) :
    request.granted (a.region.handleAt start) = [request.spanAt start] := by
  obtain ⟨-, hle, -⟩ := LocalChunk.bump_eq_some_iff.1 hbump
  exact Region.granted_handleAt (show start ≤ maxCapacity by omega)

/-- **Where the bytes come from.**  What is granted, and what is left of the chunk, are parts of
what the chunk held and of what the arena handed out meanwhile. -/
theorem Serves.parts (hserves : a.Serves c request h c' a') (hsound : a.Sound)
    (hheld : ∀ x ∈ a.held c, x.stop ≤ a.counter.used) :
    Span.Parts (request.granted h ++ a'.held c')
      (a.held c ++ [⟨a.counter.used, a'.counter.used⟩]) := by
  have hused := hsound.used_le
  cases hserves with
  | refused hchunk =>
    show Span.Parts (a.held c') _
    rcases hchunk with rfl | ⟨howns, rfl⟩
    · exact parts_held (List.subset_append_left _ _)
    · rw [held_of_unassigned hsound rfl]
      exact .nil
  | bumped hsize howns hbump =>
    rw [held_of_owns howns] at hheld ⊢
    have hstop := hheld _ (List.mem_singleton_self _)
    have howns' : a.owns c' = true := by
      obtain ⟨-, -, rfl⟩ := LocalChunk.bump_eq_some_iff.1 hbump
      exact howns
    rw [granted_of_bump (Nat.le_trans hstop hused) hbump, held_of_owns howns']
    exact parts_of_bump (Request.of_roundedSize? hsize).2 hbump (by simp)
  | empty hsize howns =>
    have hlength := (Request.of_roundedSize? hsize).2
    rw [Region.granted_handleAt (Nat.zero_le _), held_of_unassigned hsound rfl]
    exact .base (show 0 + request.layout.size * request.count = 0 by omega)
  | @direct size length claims hsize hle hroom =>
    have hlength := (Request.of_roundedSize? hsize).2
    have hposition : a.counter.used = a.counter.position := congrArg Span.start hroom.freshSpan_eq
    show Span.Parts (request.granted (a.region.handleAt a.counter.position) ++ a.held c)
      (a.held c ++ [a.freshSpan length])
    rw [Region.granted_handleAt (hposition ▸ hused), hroom.freshSpan_eq]
    refine (parts_held (List.subset_append_left _ _)).cons
      (List.mem_append_right _ (List.mem_singleton_self _)) ⟨Nat.le_refl _, ?_⟩ ?_
    · show a.counter.position + request.layout.size * request.count ≤ a.counter.position + length
      omega
    · intro x hx
      exact .inr (hposition ▸ hheld x hx)
  | @refilled size length claims start _ hsize hroom hbump =>
    have hmem : (⟨a.counter.position, a.counter.position + length⟩ : Span) ∈
        a.held c ++ [a.freshSpan length] := by
      rw [hroom.freshSpan_eq]
      exact List.mem_append_right _ (List.mem_singleton_self _)
    have howns : (a.advance length).owns c' = true := by
      obtain ⟨-, -, rfl⟩ := LocalChunk.bump_eq_some_iff.1 hbump
      exact a.owns_freshChunk length claims
    have hstop : (a.freshChunk length claims).stop ≤ maxCapacity := hroom.stop_le hsound
    rw [granted_of_bump hstop hbump, held_of_owns howns]
    exact parts_of_bump (Request.of_roundedSize? hsize).2 hbump hmem
  | @stranded length claims hroom =>
    show Span.Parts (a.held (a.freshChunk length claims)) (a.held c ++ [a.freshSpan length])
    rw [held_of_owns (a.owns_freshChunk length claims), hroom.freshSpan_eq]
    exact .single (List.mem_append_right _ (List.mem_singleton_self _)) (.refl _)

/-! ## What follows for the handle -/

/-- What a chunk gives out is aligned and lies in a region. -/
lemma offset_of_bump {d : LocalChunk} {size start : Nat} {align : Alignment}
    (hstop : c.stop ≤ maxCapacity) (hbump : c.bump size align = some (start, d)) :
    start ≤ maxCapacity ∧ align.bytes ∣ start := by
  obtain ⟨hround, hle, -⟩ := LocalChunk.bump_eq_some_iff.1 hbump
  exact ⟨by omega, dvd_of_roundUp hround⟩

/-- A handle that is not null names an aligned offset of the arena's region. -/
lemma Serves.handle_eq (hserves : a.Serves c request h c' a') (hsound : a.Sound)
    (hstop : a.owns c = true → c.stop ≤ maxCapacity)
    (halign : request.layout.align.bytes ≤ cacheLine.bytes) (hnull : h.isNull = false) :
    ∃ offset size, h = a.region.handleAt offset ∧ offset ≤ maxCapacity ∧
      request.layout.align.bytes ∣ offset ∧
      request.roundedSize? request.layout.align = some size := by
  cases hserves with
  | refused => exact absurd hnull (by decide)
  | @bumped size start _ hsize howns hbump =>
    obtain ⟨hle, hdvd⟩ := offset_of_bump (hstop howns) hbump
    exact ⟨start, size, rfl, hle, hdvd, hsize⟩
  | empty hsize => exact ⟨0, 0, rfl, Nat.zero_le _, Nat.dvd_zero _, hsize⟩
  | @direct size length _ hsize _ hroom =>
    have hle := hroom.stop_le hsound
    have hposition := hroom.le
    exact ⟨a.counter.position, size, rfl, by omega,
      Nat.dvd_trans (Alignment.dvd_of_le halign) (hsound.position_dvd (by omega)), hsize⟩
  | @refilled size length claims start _ hsize hroom hbump =>
    obtain ⟨hle, hdvd⟩ := offset_of_bump (hroom.stop_le hsound) hbump
    exact ⟨start, size, rfl, hle, hdvd, hsize⟩
  | stranded => exact absurd hnull (by decide)

/-- **What is granted is aligned**, whoever filled the chunk that it comes from. -/
lemma Serves.divides (hserves : a.Serves c request h c' a') (hsound : a.Sound)
    (hstop : a.owns c = true → c.stop ≤ maxCapacity)
    (halign : request.layout.align.bytes ≤ cacheLine.bytes) (hnull : h.isNull = false) :
    request.layout.align.Divides h.offset.toNat := by
  obtain ⟨offset, -, rfl, hle, hdvd, -⟩ := hserves.handle_eq hsound hstop halign hnull
  rw [(Region.toNat_handleAt hle).2]
  exact Nat.mod_eq_zero_of_dvd hdvd

/-- **What is granted resolves.**  The bytes lie in the region and are aligned, and the handle says
where they are. -/
theorem Serves.resolves (hserves : a.Serves c request h c' a') (hsound : a.Sound)
    (hheld : ∀ x ∈ a.held c, x.stop ≤ a.counter.used)
    (halign : request.layout.align.bytes ≤ cacheLine.bytes) (hnull : h.isNull = false) :
    a.region.resolveSlice h request.layout request.count = some h.offset.toNat := by
  have howned (howns : a.owns c = true) : c.stop ≤ maxCapacity := by
    rw [held_of_owns howns] at hheld
    exact Nat.le_trans (hheld _ (List.mem_singleton_self _)) hsound.used_le
  obtain ⟨offset, size, rfl, hle, hdvd, hsize⟩ :=
    hserves.handle_eq hsound howned halign hnull
  have hstop : offset + request.layout.size * request.count ≤ a'.counter.used := by
    have hpacked : Span.Packed (a.held c ++ []) a.counter.used := by
      rw [List.append_nil]
      exact ⟨(parts_held (List.Subset.refl _)).disjoint, hheld⟩
    have hafter := hpacked.advance hserves.used_le (hserves.parts hsound hheld)
    rw [Region.granted_handleAt hle] at hafter
    exact hafter.stop_le (request.spanAt offset) (by simp)
  have hcapacity : a'.counter.used ≤ a.region.capacity := by
    have hused : a'.counter.used ≤ a'.counter.capacity := Nat.min_le_right ..
    rwa [(hserves.sound hsound).capacity_eq, hserves.region_eq] at hused
  obtain ⟨-, hword⟩ := Word.mul?_eq_some_iff.1 (Request.of_roundedSize? hsize).1
  rw [(Region.toNat_handleAt hle).2]
  have hpage : request.layout.align.bytes ≤ page.bytes := Nat.le_trans halign (by decide)
  exact Region.resolveSlice_handleAt hle hword (Nat.le_trans hstop hcapacity) hpage hdvd

/-! ## Resets -/

lemma eq_of_reset (hreset : a.reset = .ok a') :
    a' = { a with counter := a.counter.reset, generation := a.generation + 1 } := by
  obtain ⟨generation, hadd, hok⟩ := bind_eq_ok_iff.1 hreset
  obtain rfl : a.generation + 1 = generation := by
    rw [Word.add] at hadd
    split at hadd
    · exact Except.ok.inj hadd
    · cases hadd
  simp only [pure, Except.pure, Except.ok.injEq] at hok
  exact hok.symm

lemma Sound.reset (hsound : a.Sound) (hreset : a.reset = .ok a') : a'.Sound := by
  rw [eq_of_reset hreset]
  exact ⟨hsound.id_ne, hsound.capacity_eq, hsound.capacity_le, fun _ => Nat.dvd_zero _,
    hsound.maxChunk_dvd⟩

end ChunkedArena

end BumpArena
