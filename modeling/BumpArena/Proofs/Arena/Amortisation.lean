import BumpArena.Proofs.Arena.Interleaving
import BumpArena.Proofs.Arena.Outcome
import Mathlib.Algebra.Order.Floor.Div

/-!
# How often a thread claims

A chunk is claimed with room for several requests, so that a thread goes to the counter only once in
a while.  `claims_of_allocateAll` says how often, for a thread that starts without a chunk and asks
for the same again and again, whatever the others ask for meanwhile.

A chunk starts on a cache line, and a rounded size is a multiple of the alignment that it is rounded
to.  So no padding comes between requests of one size, and a chunk has room for as many of them as
its length holds (`ChunkedArena.copiesPerChunk`).  The account in `ChunkedArena.Tally` is exact at
every moment: the requests served so far and those that the chunk still has room for are together
what the claimed chunks had room for.  A new chunk comes only when there is no room for another one,
so that less than a chunk is left, and this makes the number of chunks the quotient, rounded up.
-/

namespace BumpArena

/-! ## Room for copies of a size -/

namespace LocalChunk

variable {c : LocalChunk} {request : Request}

/-- How often a size fits what is left of a chunk. -/
def copies (c : LocalChunk) (size : Nat) : Nat := (c.stop - c.cursor) / size

/-- The cursor is a number of cache lines and copies of a size behind the base of the region. -/
def InStep (c : LocalChunk) (size : Nat) : Prop :=
  ∃ lines times, c.cursor = cacheLine.bytes * lines + size * times

/-- In front of a request of the size there is no padding. -/
lemma InStep.ceil_cursor (hstep : c.InStep request.extent)
    (halign : request.layout.align.bytes ≤ cacheLine.bytes) :
    request.layout.align.ceil c.cursor = c.cursor := by
  obtain ⟨lines, times, hcursor⟩ := hstep
  refine Alignment.ceil_of_dvd (hcursor ▸ Nat.dvd_add ?_ ?_)
  · exact Nat.dvd_mul_right_of_dvd (Alignment.dvd_of_le halign) lines
  · exact Nat.dvd_mul_right_of_dvd (request.layout.align.dvd_ceil _) times

lemma InStep.serve (hstep : c.InStep request.extent)
    (halign : request.layout.align.bytes ≤ cacheLine.bytes) :
    (c.serve request).InStep request.extent := by
  have hceil := hstep.ceil_cursor halign
  obtain ⟨lines, times, hcursor⟩ := hstep
  refine ⟨lines, times + 1, ?_⟩
  rw [LocalChunk.serve, hceil, hcursor, Nat.mul_add, Nat.mul_one, Nat.add_assoc]

/-- A request of the size takes the place of one copy. -/
lemma copies_serve (hfits : c.Fits request) (hpos : 0 < request.extent)
    (hceil : request.layout.align.ceil c.cursor = c.cursor) :
    c.copies request.extent = (c.serve request).copies request.extent + 1 := by
  rw [Fits, hceil] at hfits
  rw [copies, copies, serve, hceil, Nat.div_eq_sub_div hpos (Nat.le_sub_of_add_le' hfits),
    Nat.sub_sub]

/-- A chunk without room for a request has room for no copy. -/
lemma copies_of_not_fits (hfull : ¬ c.Fits request) (hpos : 0 < request.extent)
    (hceil : request.layout.align.ceil c.cursor = c.cursor) : c.copies request.extent = 0 := by
  rw [Fits, hceil] at hfull
  exact Nat.div_eq_of_lt (by omega)

end LocalChunk

namespace ChunkedArena

variable {a a' : ChunkedArena} {c d : LocalChunk} {request : Request} {h : Handle}
  {size count : Nat}

/-- How often a size fits a chunk that is claimed for it. -/
def copiesPerChunk (a : ChunkedArena) (size : Nat) : Nat := a.chunkSize size / size

/-- If the size fits the largest chunk twice, it fits every chunk claimed for it twice. -/
lemma two_le_copiesPerChunk (hpos : 0 < size) (htwice : 2 * size ≤ a.maxChunk) :
    2 ≤ a.copiesPerChunk size := by
  refine (Nat.le_div_iff_mul_le hpos).2 ?_
  rw [chunkSize]
  cases hround : roundUp (a.wantedChunk size) cacheLine with
  | none => exact htwice
  | some length =>
    have hlength := le_of_roundUp hround
    have hword := (roundUp_eq_some_iff.1 hround).2
    have hwanted : min (min (2 * size) Word.max) a.maxChunk ≤ a.wantedChunk size :=
      Nat.le_max_left ..
    have hmax : Word.max + (cacheLine.bytes - 1) ≥ Word.limit := by decide
    show 2 * size ≤ length
    omega

/-! ## The account of one chunk -/

/-- **The account of a chunk** from which so many requests of a size were served.  While the size
fits a chunk, those served and those that there is room for are together what the claimed chunks had
room for.  Otherwise each one was claimed by itself. -/
structure Tally (a : ChunkedArena) (c : LocalChunk) (size count : Nat) : Prop where
  stop_le : c.stop ≤ maxCapacity
  inStep : (a.keep c).InStep size
  balance : size ≤ a.maxChunk →
    count + (a.keep c).copies size = c.claims * a.copiesPerChunk size
  copies_lt : size ≤ a.maxChunk → (a.keep c).copies size < a.copiesPerChunk size
  claims_eq : a.maxChunk < size → c.claims = count

/-- The account does not depend on where the counter stands. -/
lemma tally_iff (counter : Counter) :
    { a with counter }.Tally c size count ↔ a.Tally c size count :=
  ⟨fun ⟨h₁, h₂, h₃, h₄, h₅⟩ => ⟨h₁, h₂, h₃, h₄, h₅⟩,
    fun ⟨h₁, h₂, h₃, h₄, h₅⟩ => ⟨h₁, h₂, h₃, h₄, h₅⟩⟩

lemma tally_empty (hpos : 0 < size) (hword : size < Word.limit) : a.Tally {} size 0 := by
  obtain ⟨hcursor, hstop⟩ := a.keep_empty
  have hcopies : (a.keep {}).copies size = 0 := by
    rw [LocalChunk.copies, hstop, Nat.zero_sub, Nat.zero_div]
  refine ⟨Nat.zero_le _, ⟨0, 0, hcursor⟩, fun _ => ?_, fun hlocal => ?_, fun _ => rfl⟩
  · rw [hcopies]
    exact (Nat.zero_mul _).symm
  · rw [hcopies]
    exact Nat.div_pos (le_chunkSize hword hlocal) hpos

/-- A request that is served from the arena's own chunk takes one of the copies that are left. -/
lemma tally_serve (howns : a.owns c = true) (hlocal : request.extent ≤ a.maxChunk)
    (hfits : c.Fits request) (hstop : c.stop ≤ maxCapacity) (hstep : c.InStep request.extent)
    (halign : request.layout.align.bytes ≤ cacheLine.bytes) (hpos : 0 < request.extent)
    (hbalance : count + c.copies request.extent = c.claims * a.copiesPerChunk request.extent)
    (hle : c.copies request.extent ≤ a.copiesPerChunk request.extent) :
    a.Tally (c.serve request) request.extent (count + 1) := by
  have hkeep : a.keep (c.serve request) = c.serve request := keep_of_owns howns
  have hcopies := LocalChunk.copies_serve hfits hpos (hstep.ceil_cursor halign)
  refine ⟨hstop, hkeep.symm ▸ hstep.serve halign, fun _ => ?_, fun _ => ?_, by omega⟩
  · rw [hkeep, Nat.add_assoc, Nat.add_comm 1, ← hcopies]
    exact hbalance
  · rw [hkeep]
    omega

/-- **A request that is granted** is entered in the account. -/
lemma Tally.served (htally : a.Tally c request.extent count) (hsound : a.Sound)
    (halign : request.layout.align.bytes ≤ cacheLine.bytes) (hpos : 0 < request.extent)
    (hends : a.Ends c request h d a') (hnull : h.isNull = false) :
    a.Tally d request.extent (count + 1) := by
  cases hends with
  | overflow => exact absurd hnull (by decide)
  | kept _ hlocal hfits =>
    obtain ⟨howns, hroom⟩ := (fits_keep_iff hpos).1 hfits
    have hkeep := keep_of_owns howns
    have hbalance := htally.balance hlocal
    have hlt := htally.copies_lt hlocal
    have hstep := htally.inStep
    rw [hkeep] at hbalance hlt hstep ⊢
    exact tally_serve howns hlocal hroom htally.stop_le hstep halign hpos hbalance hlt.le
  | refilled hword hlocal hfull hroom =>
    let fresh := a.freshChunk (a.chunkSize request.extent) (c.claims + 1)
    have hfits : fresh.Fits request :=
      (fits_freshChunk hsound hroom halign (le_chunkSize hword hlocal) _).2
    have hstep : fresh.InStep request.extent := by
      obtain ⟨lines, hlines⟩ := hsound.position_dvd (Nat.le_of_add_right_le hroom.le)
      exact ⟨lines, 0, hlines⟩
    have hcopies : fresh.copies request.extent = a.copiesPerChunk request.extent :=
      congrArg (· / request.extent) (Nat.add_sub_cancel_left ..)
    -- There was no room left, so that the chunks before were used up exactly.
    have hbalance := htally.balance hlocal
    rw [LocalChunk.copies_of_not_fits hfull hpos (htally.inStep.ceil_cursor halign)] at hbalance
    refine tally_serve (a.owns_freshChunk ..) hlocal hfits (hroom.stop_le hsound) hstep halign hpos
      ?_ hcopies.le
    calc count + fresh.copies request.extent
        = c.claims * a.copiesPerChunk request.extent + a.copiesPerChunk request.extent := by
          rw [hcopies, ← hbalance, Nat.add_zero]
      _ = (c.claims + 1) * a.copiesPerChunk request.extent := (Nat.succ_mul ..).symm
  | starved => exact absurd hnull (by decide)
  | direct _ hlarge =>
    refine ⟨htally.stop_le, ?_, by omega, by omega, fun _ =>
      congrArg (· + 1) (htally.claims_eq hlarge)⟩
    rw [keep_withClaims]
    exact htally.inStep
  | unpadded => exact absurd hnull (by decide)
  | tooLarge => exact absurd hnull (by decide)

/-- At the end the account says how often room was claimed. -/
lemma Tally.claims_eq_ceilDiv (htally : a.Tally c size count) (hlocal : size ≤ a.maxChunk) :
    c.claims = count ⌈/⌉ a.copiesPerChunk size := by
  have hbalance := htally.balance hlocal
  have hlt := htally.copies_lt hlocal
  have hpos : 0 < a.copiesPerChunk size := Nat.zero_lt_of_lt hlt
  refine Nat.le_antisymm ?_ ((ceilDiv_le_iff_le_mul hpos).2 ?_)
  · -- One chunk less would not have room for all that was served.
    have hle := (ceilDiv_le_iff_le_mul hpos).1 (Nat.le_refl (count ⌈/⌉ a.copiesPerChunk size))
    refine Nat.le_of_lt_succ (Nat.lt_of_mul_lt_mul_left (a := a.copiesPerChunk size) ?_)
    rw [Nat.mul_comm, ← hbalance, Nat.mul_succ]
    omega
  · rw [Nat.mul_comm, ← hbalance]
    exact Nat.le_add_right ..

/-! ## Rows of requests -/

variable {κ : Type} [DecidableEq κ] {chunks ends : κ → LocalChunk} {k : κ}
  {calls : List (κ × Request)} {handles : List Handle} {m : Nat}

/-- A request changes nothing in an arena but the counter. -/
lemma Serves.exists_counter (hserves : a.Serves c request h d a') :
    ∃ counter, a' = { a with counter } := by
  cases hserves <;> exact ⟨_, rfl⟩

/-- **The account of a thread** among others: its own requests are entered one by one, and those of
the others leave it as it is. -/
lemma Tally.of_allocateAll (hsound : a.Sound)
    (halign : request.layout.align.bytes ≤ cacheLine.bytes) (hpos : 0 < request.extent)
    (htally : a.Tally (chunks k) request.extent count)
    (hrequests : ∀ own ∈ requestsOf k calls, own = request)
    (hok : a.allocateAll chunks calls = .ok (handles, ends, a'))
    (hnull : List.Forall₂ (fun call h => call.1 = k → h.isNull = false) calls handles) :
    a.Tally (ends k) request.extent (count + (requestsOf k calls).length) := by
  induction calls generalizing a chunks count handles with
  | nil =>
    simp only [allocateAll, Except.ok.injEq, Prod.mk.injEq] at hok
    obtain ⟨-, rfl, -⟩ := hok
    exact htally
  | cons call calls ih =>
    obtain ⟨i, other⟩ := call
    obtain ⟨h, d, b, later, hallocate, hrest, rfl⟩ := allocateAll_cons_eq_ok_iff.1 hok
    obtain ⟨hfirst, hlater⟩ := List.forall₂_cons.1 hnull
    have hserves := serves_of_allocate hsound hallocate
    have hsound' := hserves.sound hsound
    obtain ⟨counter, rfl⟩ := hserves.exists_counter
    by_cases hi : i = k
    · subst hi
      rw [requestsOf_cons, if_pos rfl] at hrequests ⊢
      obtain ⟨rfl, hrequests⟩ := List.forall_mem_cons.1 hrequests
      have hends := ends_of_allocate hsound htally.stop_le halign hallocate
      have hserved := htally.served hsound halign hpos hends (hfirst rfl)
      rw [List.length_cons, Nat.add_comm _ 1, ← Nat.add_assoc]
      refine (tally_iff counter).1 (ih hsound' ?_ hrequests hrest hlater)
      rw [Function.update_self]
      exact (tally_iff counter).2 hserved
    · rw [requestsOf_cons, if_neg hi] at hrequests ⊢
      refine (tally_iff counter).1 (ih hsound' ?_ hrequests hrest hlater)
      rw [Function.update_of_ne (Ne.symm hi)]
      exact (tally_iff counter).2 htally

/-- **How often a thread claims.**  It begins without a chunk and makes a number of equal requests,
all of which are granted, while others ask for anything from chunks of their own.  If the rounded
size fits a chunk, it claims one for every so many requests as a chunk has room for.  That is at
most every second time, if the size fits the largest chunk twice.  If it does not fit a chunk, every
request is a claim. -/
theorem claims_of_allocateAll (hreached : a.Reached)
    (halign : request.layout.align.bytes ≤ cacheLine.bytes)
    (hsize : request.roundedSize? request.layout.align = some size) (hpos : 0 < size)
    (hempty : chunks k = {}) (hrequests : requestsOf k calls = List.replicate m request)
    (hok : a.allocateAll chunks calls = .ok (handles, ends, a'))
    (hnull : List.Forall₂ (fun call h => call.1 = k → h.isNull = false) calls handles) :
    (size ≤ a.maxChunk → (ends k).claims = m ⌈/⌉ (a.chunkSize size / size)) ∧
      (2 * size ≤ a.maxChunk → (ends k).claims ≤ m ⌈/⌉ 2) ∧
      (a.maxChunk < size → (ends k).claims = m) := by
  rw [Request.roundedSize?_eq halign, Option.ite_none_right_eq_some] at hsize
  obtain ⟨hword, hextent⟩ := hsize
  obtain rfl : request.extent = size := Option.some.inj hextent
  have htally := Tally.of_allocateAll hreached.sound halign hpos
    (hempty ▸ tally_empty hpos hword) (fun own hown => List.eq_of_mem_replicate (hrequests ▸ hown))
    hok hnull
  rw [hrequests, List.length_replicate, Nat.zero_add] at htally
  refine ⟨htally.claims_eq_ceilDiv, fun htwice => ?_, htally.claims_eq⟩
  have htwo := two_le_copiesPerChunk hpos htwice
  rw [htally.claims_eq_ceilDiv (by omega), ceilDiv_le_iff_le_mul (by omega)]
  calc m ≤ 2 * (m ⌈/⌉ 2) := (ceilDiv_le_iff_le_mul (by decide)).1 (Nat.le_refl _)
    _ ≤ a.copiesPerChunk request.extent * (m ⌈/⌉ 2) := Nat.mul_le_mul_right _ htwo

/-- Calls of two threads.  One of them asks for 24 bytes three times, and the other one at last for
more than there is. -/
def sharedCalls : List (Bool × Request) :=
  [(true, .ofBytes 24), (false, .ofBytes 40), (true, .ofBytes 24), (false, .ofBytes 100),
    (true, .ofBytes 24), (false, .ofBytes 5000)]

/-- A chunk of 64 bytes has room for 24 bytes twice, so that the third request takes another one. -/
theorem claims_of_allocateAll_sharedCalls : ∃ a s' handles ends a',
    (make ⟨4096, 64, 128⟩).run default = .ok a s' ∧
    (Request.ofBytes 24).roundedSize? .byte = some 24 ∧
    requestsOf true sharedCalls = List.replicate 3 (.ofBytes 24) ∧
    a.allocateAll (fun _ => {}) sharedCalls = .ok (handles, ends, a') ∧
    handles = [a.region.handleAt 0, a.region.handleAt 64, a.region.handleAt 24,
      a.region.handleAt 192, a.region.handleAt 320, .null] ∧
    24 ≤ a.maxChunk ∧ a.chunkSize 24 / 24 = 2 ∧ (ends true).claims = 2 := by
  obtain ⟨a, s', hmake, hrequests, hlocal, hcopies, hhandles⟩ :
      ∃ a s', (make ⟨4096, 64, 128⟩).run default = .ok a s' ∧
        requestsOf true sharedCalls = List.replicate 3 (.ofBytes 24) ∧ 24 ≤ a.maxChunk ∧
        a.chunkSize 24 / 24 = 2 ∧
        (a.allocateAll (fun _ => {}) sharedCalls).toOption.map (·.1) =
          some [a.region.handleAt 0, a.region.handleAt 64, a.region.handleAt 24,
            a.region.handleAt 192, a.region.handleAt 320, .null] :=
    ⟨_, _, rfl, by decide +kernel, by decide +kernel, by decide +kernel, by decide +kernel⟩
  have hsize : (Request.ofBytes 24).roundedSize? .byte = some 24 := by decide +kernel
  cases hok : a.allocateAll (fun _ => {}) sharedCalls with
  | error fault => simp [hok, Except.toOption] at hhandles
  | ok result =>
    obtain ⟨handles, ends, a'⟩ := result
    rw [hok] at hhandles
    obtain rfl : handles = _ := Option.some.inj hhandles
    have hnull (offset : Nat) (hoffset : offset ≤ maxCapacity) :
        (a.region.handleAt offset).isNull = false := (Region.toNat_handleAt hoffset).1
    have hclaims := claims_of_allocateAll (k := true) (.made hmake) (show 1 ≤ 64 by decide) hsize
      (by decide) rfl hrequests hok (by
        simpa [sharedCalls] using
          ⟨hnull 0 (by decide), hnull 24 (by decide), hnull 320 (by decide)⟩)
    refine ⟨a, s', _, ends, a', hmake, hsize, hrequests, hok, rfl, hlocal, hcopies, ?_⟩
    rw [hclaims.1 hlocal, hcopies]
    rfl

end ChunkedArena

end BumpArena
