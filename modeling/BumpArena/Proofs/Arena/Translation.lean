import BumpArena.Proofs.Arena.Serving

/-!
# Grants do not depend on where a chunk lies

Where an arena stands when a chunk is filled decides where the chunk lies, and nothing else.  Every
claim is a multiple of a cache line, so two places that a chunk can have are a multiple of one
apart, and no alignment is larger than that: the padding in front of a request, and with it what is
left of the chunk, is the same at both (`LocalChunk.Alike.bump`).

`ChunkedArena.Grants` lists the ways in which a request is granted, with the bytes that the counter
hands out in each.  Other than `ChunkedArena.Serves` it is exact (`allocate_eq_ok_iff`), so that a
grant at one position of the counter can be repeated at another one (`Grants.alike`).
-/

namespace BumpArena

/-! ## Rounding behind a multiple -/

/-- A multiple of the alignment in front takes no part in rounding. -/
lemma Alignment.ceil_add {align : Alignment} {p : Nat} (hp : align.bytes ∣ p) (n : Nat) :
    align.ceil (n + p) = align.ceil n + p := by
  obtain ⟨k, rfl⟩ := hp
  have hsum : n + align.bytes * k + (align.bytes - 1) =
      n + (align.bytes - 1) + align.bytes * k := by omega
  rw [ceil, ceil, hsum, Nat.add_mul_div_left _ _ align.bytes_pos, Nat.add_mul,
    Nat.mul_comm k align.bytes]

namespace LocalChunk

/-! ## One chunk at two places -/

/-- The chunk, further up in its region. -/
def shift (c : LocalChunk) (p : Nat) : LocalChunk :=
  { c with cursor := c.cursor + p, stop := c.stop + p }

/-- **Chunks that serve alike.**  They come to the same when both are shifted by whole cache lines.
Unless they are the same anyway, both lie in a region. -/
structure Alike (c d : LocalChunk) : Prop where
  shifted : ∃ p q, cacheLine.bytes ∣ p ∧ cacheLine.bytes ∣ q ∧ c.shift p = d.shift q
  bounded : c = d ∨ c.stop ≤ maxCapacity ∧ d.stop ≤ maxCapacity

variable {c d e : LocalChunk}

lemma shift_shift (c : LocalChunk) (p q : Nat) : (c.shift p).shift q = c.shift (p + q) := by
  simp only [shift, Nat.add_assoc]

lemma Alike.refl (c : LocalChunk) : c.Alike c where
  shifted := ⟨0, 0, Nat.dvd_zero _, Nat.dvd_zero _, rfl⟩
  bounded := .inl rfl

lemma Alike.symm (h : c.Alike d) : d.Alike c where
  shifted := by
    obtain ⟨p, q, hp, hq, heq⟩ := h.shifted
    exact ⟨q, p, hq, hp, heq.symm⟩
  bounded := h.bounded.imp Eq.symm And.symm

lemma Alike.trans (h : c.Alike d) (h' : d.Alike e) : c.Alike e where
  shifted := by
    obtain ⟨p, q, hp, hq, heq⟩ := h.shifted
    obtain ⟨r, s, hr, hs, heq'⟩ := h'.shifted
    refine ⟨p + r, s + q, Nat.dvd_add hp hr, Nat.dvd_add hs hq, ?_⟩
    calc c.shift (p + r) = (d.shift q).shift r := by rw [← shift_shift, heq]
      _ = (d.shift r).shift q := by rw [shift_shift, shift_shift, Nat.add_comm]
      _ = e.shift (s + q) := by rw [heq', shift_shift]
  bounded := by
    rcases h.bounded with rfl | ⟨hc, -⟩
    · exact h'.bounded
    · rcases h'.bounded with rfl | ⟨-, he⟩
      · exact h.bounded
      · exact .inr ⟨hc, he⟩

lemma Alike.region_eq (h : c.Alike d) : c.region = d.region := by
  obtain ⟨p, q, -, -, heq⟩ := h.shifted
  show (c.shift p).region = (d.shift q).region
  rw [heq]

lemma Alike.generation_eq (h : c.Alike d) : c.generation = d.generation := by
  obtain ⟨p, q, -, -, heq⟩ := h.shifted
  show (c.shift p).generation = (d.shift q).generation
  rw [heq]

lemma Alike.claims_eq (h : c.Alike d) : c.claims = d.claims := by
  obtain ⟨p, q, -, -, heq⟩ := h.shifted
  show (c.shift p).claims = (d.shift q).claims
  rw [heq]

/-- The same is left of both. -/
lemma Alike.remaining_eq (h : c.Alike d) : c.remaining = d.remaining := by
  obtain ⟨p, q, -, -, heq⟩ := h.shifted
  have hcursor : c.cursor + p = d.cursor + q := congrArg cursor heq
  have hstop : c.stop + p = d.stop + q := congrArg stop heq
  have hle : c.cursor ≤ c.stop ↔ d.cursor ≤ d.stop := by omega
  have hsub : c.stop - c.cursor = d.stop - d.cursor := by omega
  simp only [remaining, Word.sub, hle, hsub]

lemma exists_remaining_iff : (∃ left, c.remaining = .ok left) ↔ c.cursor ≤ c.stop := by
  by_cases hle : c.cursor ≤ c.stop <;> simp [remaining, Word.sub, hle]

lemma Alike.release_eq (h : c.Alike d) : c.release = d.release := by
  simp only [release, h.generation_eq, h.claims_eq]

lemma Alike.withClaims (h : c.Alike d) (claims : Nat) :
    Alike { c with claims } { d with claims } where
  shifted := by
    obtain ⟨p, q, hp, hq, heq⟩ := h.shifted
    refine ⟨p, q, hp, hq, ?_⟩
    exact congrArg (fun x : LocalChunk => { x with claims }) heq
  bounded := by
    rcases h.bounded with rfl | hbounded
    · exact .inl rfl
    · exact .inr hbounded

/-- **The padding is the same at both places**, and so both have room or neither has. -/
lemma Alike.bump {size start : Nat} {align : Alignment} {c' : LocalChunk} (h : c.Alike d)
    (halign : align.bytes ∣ cacheLine.bytes) (hbump : c.bump size align = some (start, c')) :
    ∃ start' d', d.bump size align = some (start', d') ∧ c'.Alike d' ∧
      (start' = start ∨ start' ≤ maxCapacity) := by
  rcases h.bounded with rfl | ⟨hc, hd⟩
  · exact ⟨start, c', hbump, .refl c', .inl rfl⟩
  obtain ⟨p, q, hp, hq, heq⟩ := h.shifted
  have hcursor : c.cursor + p = d.cursor + q := congrArg cursor heq
  have hstop : c.stop + p = d.stop + q := congrArg stop heq
  obtain ⟨hround, hle, rfl⟩ := bump_eq_some_iff.1 hbump
  obtain ⟨rfl, -⟩ := roundUp_eq_some_iff.1 hround
  have hstart : align.ceil c.cursor + p = align.ceil d.cursor + q := by
    rw [← Alignment.ceil_add (Nat.dvd_trans halign hp), hcursor,
      Alignment.ceil_add (Nat.dvd_trans halign hq)]
  have hfits : align.ceil d.cursor + size ≤ d.stop := by omega
  have hmax : maxCapacity + cacheLine.bytes < Word.limit := by decide
  have hsmall : align.bytes ≤ cacheLine.bytes := Nat.le_of_dvd (by decide) halign
  have hceil := align.le_ceil d.cursor
  refine ⟨align.ceil d.cursor, { d with cursor := align.ceil d.cursor + size }, ?_, ?_,
    .inr (by omega)⟩
  · exact bump_eq_some_iff.2 ⟨roundUp_eq_some_iff.2 ⟨rfl, by omega⟩, hfits, rfl⟩
  · refine ⟨⟨p, q, hp, hq, ?_⟩, .inr ⟨hc, hd⟩⟩
    have hmoved : align.ceil c.cursor + size + p = align.ceil d.cursor + size + q := by omega
    simp only [shift, hmoved, hstop, h.region_eq, h.generation_eq, h.claims_eq]

lemma Alike.bump_eq_none {size : Nat} {align : Alignment} (h : c.Alike d)
    (halign : align.bytes ∣ cacheLine.bytes) (hnone : c.bump size align = none) :
    d.bump size align = none := by
  cases hbump : d.bump size align with
  | none => rfl
  | some taken =>
    obtain ⟨start', c', hsome, -⟩ := h.symm.bump halign hbump
    exact absurd (hnone.symm.trans hsome) (by simp)

end LocalChunk

/-! ## The grants, one by one -/

lemma Handle.null_ne {h : Handle} (hnull : h.isNull = false) : Handle.null ≠ h := by
  rintro rfl
  exact absurd hnull (by decide)

namespace ChunkedArena

/-- The arena with its counter elsewhere. -/
def atPosition (a : ChunkedArena) (p : Nat) : ChunkedArena := { a with counter.position := p }

/-- The chunk that a request finds: what is not the arena's own is let go of. -/
def keep (a : ChunkedArena) (c : LocalChunk) : LocalChunk := if a.owns c then c else c.release

/-- **The ways in which a request is granted**: the handle, the chunk after it, and the number of
bytes that the counter hands out. -/
inductive Grants (a : ChunkedArena) (c : LocalChunk) (request : Request) :
    Handle → LocalChunk → Nat → Prop
  /-- The chunk has room. -/
  | kept {size start : Nat} {d : LocalChunk}
      (hsize : request.roundedSize? request.layout.align = some size)
      (hlocal : ¬ a.maxChunk < size)
      (hbump : (a.keep c).bump size request.layout.align = some (start, d)) :
      Grants a c request (a.region.handleAt start) d 0
  /-- The request goes past the chunk. -/
  | direct {size length : Nat}
      (hsize : request.roundedSize? request.layout.align = some size)
      (hlarge : a.maxChunk < size) (hround : roundUp size cacheLine = some length)
      (hclaims : c.claims + 1 < Word.limit) (hroom : a.HasRoom length) :
      Grants a c request (a.region.handleAt a.counter.position)
        { c with claims := c.claims + 1 } length
  /-- A fresh chunk takes the place of one that has no room. -/
  | refilled {size start : Nat} {d : LocalChunk}
      (hsize : request.roundedSize? request.layout.align = some size)
      (hlocal : ¬ a.maxChunk < size)
      (hnone : (a.keep c).bump size request.layout.align = none)
      (hclaims : (a.keep c).claims + 1 < Word.limit) (hroom : a.HasRoom (a.chunkSize size))
      (hbump : (a.freshChunk (a.chunkSize size) ((a.keep c).claims + 1)).bump size
        request.layout.align = some (start, d)) :
      Grants a c request (a.region.handleAt start) d (a.chunkSize size)

variable {a a' : ChunkedArena} {c c' d : LocalChunk} {request : Request} {h : Handle} {n : Nat}

/-! ### No other way -/

lemma claim_of_hasRoom (hsound : a.Sound) (hroom : a.HasRoom n) :
    a.counter.claim n = .ok (some a.counter.position, (a.advance n).counter) := by
  have hle := hroom.le
  rw [Counter.claim_eq _ _ hsound.limit, if_neg (by omega), if_pos hle]
  rfl

lemma exists_claim_of_not_hasRoom (hsound : a.Sound) (hdvd : cacheLine.bytes ∣ n)
    (hroom : ¬ a.HasRoom n) : ∃ counter, a.counter.claim n = .ok (none, counter) := by
  have hlt : ¬ a.counter.position + n ≤ a.counter.capacity := fun hle => hroom ⟨hdvd, hle⟩
  rw [Counter.claim_eq _ _ hsound.limit, if_neg hlt]
  split <;> exact ⟨_, rfl⟩

/-- What a claim past the chunk is granted. -/
lemma claimDirect_eq_ok_iff (hsound : a.Sound) {size : Nat} (hnull : h.isNull = false) :
    a.claimDirect c size = .ok (h, d, a') ↔
      ∃ length, roundUp size cacheLine = some length ∧ c.claims + 1 < Word.limit ∧
        a.HasRoom length ∧ h = a.region.handleAt a.counter.position ∧
        d = { c with claims := c.claims + 1 } ∧ a' = a.advance length := by
  have hne := Handle.null_ne hnull
  rw [claimDirect]
  cases hround : roundUp size cacheLine with
  | none => simp [hne]
  | some length =>
    by_cases hroom : a.HasRoom length
    · by_cases hclaims : c.claims + 1 < Word.limit
      · simp only [claim_of_hasRoom hsound hroom, Word.add_eq_ok hclaims, bind, Except.bind, pure,
          Except.pure, Except.ok.injEq, Prod.mk.injEq, Option.some.injEq, exists_eq_left', hclaims,
          hroom, true_and]
        exact and_congr eq_comm (and_congr eq_comm eq_comm)
      · simp [claim_of_hasRoom hsound hroom, Word.add, hclaims, bind, Except.bind]
    · obtain ⟨counter, hclaim⟩ := exists_claim_of_not_hasRoom hsound (dvd_of_roundUp hround) hroom
      simp [hclaim, hne, hroom, bind, Except.bind, pure, Except.pure]

/-- When a fresh chunk is claimed. -/
lemma refill_eq_ok_some_iff (hsound : a.Sound) {size : Nat} {fresh : LocalChunk} :
    a.refill c size = .ok (some fresh, a') ↔
      c.claims + 1 < Word.limit ∧ a.HasRoom (a.chunkSize size) ∧
        fresh = a.freshChunk (a.chunkSize size) (c.claims + 1) ∧
        a' = a.advance (a.chunkSize size) := by
  rw [refill]
  by_cases hroom : a.HasRoom (a.chunkSize size)
  · have hstop := lt_limit_of_le_maxCapacity (hroom.stop_le hsound)
    by_cases hclaims : c.claims + 1 < Word.limit
    · simp only [claim_of_hasRoom hsound hroom, Word.add_eq_ok hclaims, Word.add_eq_ok hstop, bind,
        Except.bind, pure, Except.pure, Except.ok.injEq, Prod.mk.injEq, Option.some.injEq, hclaims,
        hroom, true_and]
      exact and_congr eq_comm eq_comm
    · simp [claim_of_hasRoom hsound hroom, Word.add, hclaims, bind, Except.bind]
  · obtain ⟨counter, hclaim⟩ :=
      exists_claim_of_not_hasRoom hsound (dvd_chunkSize hsound size) hroom
    simp [hclaim, hroom, bind, Except.bind, pure, Except.pure]

/-- What a request whose size fits a chunk is granted: from the chunk, or from a fresh one. -/
lemma allocateLocal_eq_ok_iff {size : Nat} {align : Alignment} (hnull : h.isNull = false) :
    a.allocateLocal c size align = .ok (h, d, a') ↔
      (∃ start, (a.keep c).bump size align = some (start, d) ∧ h = a.region.handleAt start ∧
        a' = a) ∨
      ((a.keep c).bump size align = none ∧ ∃ fresh start,
        a.refill (a.keep c) size = .ok (some fresh, a') ∧
          fresh.bump size align = some (start, d) ∧ h = a'.region.handleAt start) := by
  have hne := Handle.null_ne hnull
  have hkeep : a.keep c = if a.owns c then c else c.release := rfl
  rw [allocateLocal, ← hkeep]
  cases hbump : (a.keep c).bump size align with
  | some taken =>
    obtain ⟨start, e⟩ := taken
    simp only [pure, Except.pure, Except.ok.injEq, Prod.mk.injEq, Option.some.injEq]
    grind
  | none =>
    cases hrefill : a.refill (a.keep c) size with
    | error fault => simp [bind, Except.bind]
    | ok refilled =>
      obtain ⟨fresh, b⟩ := refilled
      cases fresh with
      | none => simp [hne, bind, Except.bind, pure, Except.pure]
      | some fresh =>
        cases hfresh : fresh.bump size align with
        | none => simp [hne, hfresh, bind, Except.bind, pure, Except.pure]
        | some taken =>
          simp only [bind, Except.bind, pure, Except.pure, Except.ok.injEq, Prod.mk.injEq, hfresh]
          grind

/-- **A request is granted in one of these ways**, and each of them is one. -/
theorem allocate_eq_ok_iff (hsound : a.Sound) (hnull : h.isNull = false) :
    a.allocate c request = .ok (h, d, a') ↔ ∃ n, a.Grants c request h d n ∧ a' = a.advance n := by
  constructor
  · intro hok
    rw [allocate] at hok
    cases hsize : request.roundedSize? request.layout.align with
    | none =>
      simp only [hsize, Except.ok.injEq, Prod.mk.injEq] at hok
      exact absurd hok.1 (Handle.null_ne hnull)
    | some size =>
      simp only [hsize] at hok
      split at hok
      · next hlarge =>
        obtain ⟨length, hround, hclaims, hroom, rfl, rfl, rfl⟩ :=
          (claimDirect_eq_ok_iff hsound hnull).1 hok
        exact ⟨length, .direct hsize hlarge hround hclaims hroom, rfl⟩
      · next hlocal =>
        rcases (allocateLocal_eq_ok_iff hnull).1 hok with
          ⟨start, hbump, rfl, rfl⟩ | ⟨hnone, fresh, start, hrefill, hbump, rfl⟩
        · exact ⟨0, .kept hsize hlocal hbump, rfl⟩
        · obtain ⟨hclaims, hroom, rfl, rfl⟩ := (refill_eq_ok_some_iff hsound).1 hrefill
          exact ⟨_, .refilled hsize hlocal hnone hclaims hroom hbump, rfl⟩
  · rintro ⟨n, hgrants, rfl⟩
    rw [allocate]
    cases hgrants with
    | kept hsize hlocal hbump =>
      simp only [hsize, if_neg hlocal]
      exact (allocateLocal_eq_ok_iff hnull).2 (.inl ⟨_, hbump, rfl, rfl⟩)
    | direct hsize hlarge hround hclaims hroom =>
      simp only [hsize, if_pos hlarge]
      exact (claimDirect_eq_ok_iff hsound hnull).2
        ⟨_, hround, hclaims, hroom, rfl, rfl, rfl⟩
    | refilled hsize hlocal hnone hclaims hroom hbump =>
      simp only [hsize, if_neg hlocal]
      exact (allocateLocal_eq_ok_iff hnull).2 (.inr ⟨hnone, _, _,
        (refill_eq_ok_some_iff hsound).2 ⟨hclaims, hroom, rfl, rfl⟩, hbump, rfl⟩)

/-! ## Grants elsewhere -/

lemma owns_eq_of_alike (h : c.Alike c') : a.owns c = a.owns c' := by
  simp only [owns, h.region_eq, h.generation_eq]

lemma alike_keep (h : c.Alike c') : (a.keep c).Alike (a.keep c') := by
  simp only [keep, ← owns_eq_of_alike h, h.release_eq]
  split
  · exact h
  · exact .refl _

/-- Fresh chunks of the same length serve alike, wherever the counter stood. -/
lemma alike_freshChunk (hsound : a.Sound) {p : Nat} (hmoved : (a.atPosition p).Sound)
    (hroom : a.HasRoom n) (hroom' : (a.atPosition p).HasRoom n) (claims : Nat) :
    (a.freshChunk n claims).Alike ((a.atPosition p).freshChunk n claims) where
  shifted := by
    have hle := hroom.le
    have hle' : p + n ≤ a.counter.capacity := hroom'.le
    have hposition := hsound.position_dvd (by omega)
    have hp : cacheLine.bytes ∣ p := hmoved.position_dvd (show p ≤ a.counter.capacity by omega)
    refine ⟨p, a.counter.position, hp, hposition, ?_⟩
    simp only [LocalChunk.shift, freshChunk, atPosition]
    grind
  bounded := .inr ⟨hroom.stop_le hsound, hroom'.stop_le hmoved⟩

/-- What is granted from a chunk at one place is granted from the chunk at another one, and is not
null there either. -/
lemma bump_of_alike {size start : Nat} {align : Alignment} (h : c.Alike c')
    (halign : align.bytes ≤ cacheLine.bytes) (hbump : c.bump size align = some (start, d))
    (hnull : (a.region.handleAt start).isNull = false) :
    ∃ start' d', c'.bump size align = some (start', d') ∧ d.Alike d' ∧
      (a.region.handleAt start').isNull = false := by
  obtain ⟨start', d', hbump', halike, hstart⟩ := h.bump (Alignment.dvd_of_le halign) hbump
  refine ⟨start', d', hbump', halike, ?_⟩
  rcases hstart with rfl | hstart
  · exact hnull
  · exact (Region.toNat_handleAt hstart).1

/-- **A grant can be repeated at another position of the counter**, from a chunk that serves alike,
if there the bytes are left that it takes from the counter. -/
theorem Grants.alike (hgrants : a.Grants c request h d n) (hnull : h.isNull = false)
    (hsound : a.Sound) (halign : request.layout.align.bytes ≤ cacheLine.bytes) (p : Nat)
    (hmoved : (a.atPosition p).Sound) (hroom : p + n ≤ a.counter.capacity) (halike : c.Alike c') :
    ∃ h' d', (a.atPosition p).Grants c' request h' d' n ∧ h'.isNull = false ∧ d.Alike d' := by
  have hkeep : (a.keep c).Alike ((a.atPosition p).keep c') := alike_keep halike
  cases hgrants with
  | kept hsize hlocal hbump =>
    obtain ⟨start', d', hbump', hd, hnull'⟩ := bump_of_alike hkeep halign hbump hnull
    exact ⟨_, d', .kept hsize hlocal hbump', hnull', hd⟩
  | direct hsize hlarge hround hclaims hfits =>
    have hfits' : (a.atPosition p).HasRoom _ := ⟨hfits.dvd, hroom⟩
    have hp : p ≤ maxCapacity := Nat.le_trans (Nat.le_add_right ..) (hfits'.stop_le hmoved)
    rw [halike.claims_eq] at hclaims ⊢
    exact ⟨_, _, .direct hsize hlarge hround hclaims hfits', (Region.toNat_handleAt hp).1,
      halike.withClaims _⟩
  | refilled hsize hlocal hnone hclaims hfits hbump =>
    have hfits' : (a.atPosition p).HasRoom _ := ⟨hfits.dvd, hroom⟩
    have hfresh := alike_freshChunk hsound hmoved hfits hfits' ((a.keep c).claims + 1)
    obtain ⟨start', d', hbump', hd, hnull'⟩ := bump_of_alike hfresh halign hbump hnull
    rw [hkeep.claims_eq] at hclaims hbump'
    exact ⟨_, d', .refilled hsize hlocal (hkeep.bump_eq_none (Alignment.dvd_of_le halign) hnone) hclaims
      hfits' hbump', hnull', hd⟩

/-! ## What a grant leaves -/

lemma Grants.hasRoom (hgrants : a.Grants c request h d n)
    (hopen : a.counter.position ≤ a.counter.capacity) : a.HasRoom n := by
  cases hgrants with
  | kept => exact ⟨Nat.dvd_zero _, hopen⟩
  | direct _ _ _ _ hroom => exact hroom
  | refilled _ _ _ _ hroom => exact hroom

lemma claims_keep (a : ChunkedArena) (c : LocalChunk) : (a.keep c).claims = c.claims := by
  rw [keep]
  split <;> rfl

/-- How often was claimed does not decide what is kept. -/
lemma keep_withClaims (a : ChunkedArena) (c : LocalChunk) (claims : Nat) :
    a.keep { c with claims } = { a.keep c with claims } := by
  have howns : a.owns { c with claims } = a.owns c := rfl
  rw [keep, keep, howns]
  split <;> rfl

/-- The count of claims does not go down. -/
lemma Grants.claims_le (hgrants : a.Grants c request h d n) : c.claims ≤ d.claims := by
  rw [← a.claims_keep c]
  cases hgrants with
  | kept _ _ hbump =>
    obtain ⟨-, -, rfl⟩ := LocalChunk.bump_eq_some_iff.1 hbump
    exact Nat.le_refl _
  | direct =>
    rw [claims_keep]
    exact Nat.le_succ _
  | refilled _ _ _ _ _ hbump =>
    obtain ⟨-, -, rfl⟩ := LocalChunk.bump_eq_some_iff.1 hbump
    exact Nat.le_succ _

/-- The cursor of a chunk does not go past its end. -/
lemma Grants.cursor_le_stop (hgrants : a.Grants c request h d n) (hle : c.cursor ≤ c.stop) :
    d.cursor ≤ d.stop := by
  cases hgrants with
  | kept _ _ hbump =>
    obtain ⟨-, hfits, rfl⟩ := LocalChunk.bump_eq_some_iff.1 hbump
    exact hfits
  | direct => exact hle
  | refilled _ _ _ _ _ hbump =>
    obtain ⟨-, hfits, rfl⟩ := LocalChunk.bump_eq_some_iff.1 hbump
    exact hfits

end ChunkedArena

end BumpArena
