import BumpArena.Proofs.Arena.Answers
import BumpArena.Proofs.Arena.Exhaustion

/-!
# After a reset everything begins again

A reset does not touch the chunks that were filled before it.  They stay in their table until they
are next used, and `allocateFrom_of_reset` says that they make no difference: from an arena that was
reset, with whatever its table holds, a row of requests gets the offsets that it would get from a
new arena and an empty table.  Letting go of all chunks of the table at once comes to the same.

**Two runs side by side.**  An arena reads of a chunk only what is left of it, after it has let go
of what is not its own (`ChunkedArena.keep`), and of itself only the counter and the bounds for
chunks.
Arenas that agree on these, `Twin`s, and chunks with the same room, `Level` ones, get answers at the
same places and agree again afterwards (`Twin.alongside_allocate`).  That needs nothing else of the
requests or of the chunks: those that go past the chunk and those for nothing take part in it.

**Where the runs begin.**  A chunk that was filled before the reset bears an earlier generation than
the arena has now, and one that another arena filled bears another identity (`Meets.generation_le`).
So there is room in none of them, as in those of an empty table.  Identities go round, though, and a
chunk that an arena of the same identity filled in the generation that begins is taken over with the
room that is left in it (`exists_leftover_of_reset`).
-/

namespace BumpArena

/-- The answer of an arena over a region: a handle to a place there, or the null handle. -/
def Region.answer (r : Region) (place : Option Nat) : Handle := place.elim .null r.handleAt

/-- Answers of different regions have the same offset, where the null handle has one of its own. -/
lemma Region.offset_answer (r r' : Region) (place : Option Nat) :
    (r.answer place).offset = (r'.answer place).offset := by
  cases place <;> rfl

namespace LocalChunk

/-- Two chunks that have the same room. -/
structure Level (c e : LocalChunk) : Prop where
  cursor_eq : c.cursor = e.cursor
  stop_eq : c.stop = e.stop

variable {c e : LocalChunk}

/-- The same room serves the same requests. -/
lemma Level.bump (h : c.Level e) (size : Nat) (align : Alignment) :
    (c.bump size align = none ∧ e.bump size align = none) ∨
      ∃ start d f, c.bump size align = some (start, d) ∧ e.bump size align = some (start, f) ∧
        d.Level f := by
  rw [LocalChunk.bump, LocalChunk.bump, h.cursor_eq, h.stop_eq]
  cases roundUp e.cursor align with
  | none => exact .inl ⟨rfl, rfl⟩
  | some start =>
    by_cases hroom : start + size ≤ e.stop
    · exact .inr ⟨start, _, _, if_pos hroom, if_pos hroom, rfl, rfl⟩
    · exact .inl ⟨if_neg hroom, if_neg hroom⟩

end LocalChunk

namespace ChunkTable

variable {κ : Type} [DecidableEq κ]

lemma chunk_insert (t : ChunkTable κ) (key other : κ) (c : LocalChunk) :
    (t.insert key c).chunk other = if other = key then c else t.chunk other := by
  rw [chunk, get?_insert]
  split <;> rfl

lemma chunk_releaseAll (t : ChunkTable κ) (key : κ) :
    t.releaseAll.chunk key = (t.chunk key).release := by
  rw [chunk, chunk, get?_releaseAll]
  cases t.get? key <;> rfl

end ChunkTable

namespace ChunkedArena

open LocalChunk

variable {a a' b b' : ChunkedArena} {c d e f : LocalChunk} {request : Request} {h h' : Handle}
  {size : Nat}

/-! ## What an arena keeps of a chunk -/

lemma keep_release (a : ChunkedArena) (c : LocalChunk) : a.keep c.release = c.release := by
  rw [keep]
  split <;> rfl

lemma keep_keep (a : ChunkedArena) (c : LocalChunk) : a.keep (a.keep c) = a.keep c := by
  cases howns : a.owns c with
  | true => rw [keep_of_owns howns, keep_of_owns howns]
  | false => rw [keep_of_not_owns howns, keep_release]

/-- What is left of a chunk that is kept is kept. -/
lemma keep_of_bump {start : Nat} {align : Alignment} (hkeep : a.keep c = c)
    (hbump : c.bump size align = some (start, d)) : a.keep d = d := by
  cases howns : a.owns c with
  | true =>
    obtain ⟨-, -, rfl⟩ := bump_eq_some_iff.1 hbump
    exact keep_of_owns howns
  | false =>
    rw [keep_of_not_owns howns] at hkeep
    rw [← hkeep] at hbump
    obtain ⟨-, -, rfl⟩ := bump_release_eq_some hbump
    exact keep_release a c

lemma level_withClaims (hlevel : (a.keep c).Level (b.keep e)) (claims claims' : Nat) :
    (a.keep { c with claims }).Level (b.keep { e with claims := claims' }) := by
  rw [keep_withClaims a c claims, keep_withClaims b e claims']
  exact ⟨hlevel.cursor_eq, hlevel.stop_eq⟩

/-! ## Two arenas side by side -/

/-- Arenas that hand out the same: at most the regions and the generations are different. -/
structure Twin (a b : ChunkedArena) : Prop where
  counter_eq : a.counter = b.counter
  minChunk_eq : a.minChunk = b.minChunk
  maxChunk_eq : a.maxChunk = b.maxChunk

lemma Twin.chunkSize_eq (htwin : a.Twin b) (size : Nat) : a.chunkSize size = b.chunkSize size := by
  simp only [chunkSize, wantedChunk, htwin.minChunk_eq, htwin.maxChunk_eq]

/-- **What two twins make of one request**: answers at the same place, the same counter, and chunks
with the same room. -/
structure Alongside (a b : ChunkedArena) (x y : Handle × LocalChunk × ChunkedArena) : Prop where
  answer : ∃ place, x.1 = a.region.answer place ∧ y.1 = b.region.answer place
  counter : ∃ counter, x.2.2 = { a with counter } ∧ y.2.2 = { b with counter }
  level : (a.keep x.2.1).Level (b.keep y.2.1)

lemma Twin.exists_counter (htwin : a.Twin b) :
    ∃ counter, a = { a with counter } ∧ b = { b with counter } :=
  ⟨a.counter, rfl, by rw [htwin.counter_eq]⟩

variable {x y : Handle × LocalChunk × ChunkedArena}

lemma Twin.alongside_claimDirect (htwin : a.Twin b) (hlevel : (a.keep c).Level (b.keep e))
    (hx : a.claimDirect c size = .ok x) (hy : b.claimDirect e size = .ok y) :
    Alongside a b x y := by
  rw [claimDirect] at hx hy
  cases hround : roundUp size cacheLine with
  | none =>
    simp only [hround, Except.ok.injEq] at hx hy
    subst hx hy
    exact ⟨⟨none, rfl, rfl⟩, htwin.exists_counter, hlevel⟩
  | some length =>
    simp only [hround, bind_eq_ok_iff] at hx hy
    obtain ⟨⟨claimed, counter⟩, hclaim, hx⟩ := hx
    obtain ⟨⟨claimed', counter'⟩, hclaim', hy⟩ := hy
    rw [← htwin.counter_eq, hclaim, Except.ok.injEq, Prod.mk.injEq] at hclaim'
    obtain ⟨rfl, rfl⟩ := hclaim'
    cases claimed with
    | none =>
      simp only [pure, Except.pure, Except.ok.injEq] at hx hy
      subst hx hy
      exact ⟨⟨none, rfl, rfl⟩, ⟨counter, rfl, rfl⟩, hlevel⟩
    | some offset =>
      simp only [bind_eq_ok_iff, pure, Except.pure, Except.ok.injEq] at hx hy
      obtain ⟨claims, -, rfl⟩ := hx
      obtain ⟨claims', -, rfl⟩ := hy
      exact ⟨⟨some offset, rfl, rfl⟩, ⟨counter, rfl, rfl⟩, level_withClaims hlevel claims claims'⟩

/-- Twins claim chunks of the same room, or are both refused. -/
lemma Twin.refill (htwin : a.Twin b) {fresh fresh' : Option LocalChunk}
    (hfresh : a.refill c size = .ok (fresh, a')) (hfresh' : b.refill e size = .ok (fresh', b')) :
    (∃ counter, a' = { a with counter } ∧ b' = { b with counter }) ∧
      ((fresh = none ∧ fresh' = none) ∨ ∃ d f, fresh = some d ∧ fresh' = some f ∧ d.Level f ∧
        a.keep d = d ∧ b.keep f = f) := by
  simp only [ChunkedArena.refill, bind_eq_ok_iff] at hfresh hfresh'
  obtain ⟨⟨claimed, counter⟩, hclaim, hfresh⟩ := hfresh
  obtain ⟨⟨claimed', counter'⟩, hclaim', hfresh'⟩ := hfresh'
  rw [← htwin.counter_eq, ← htwin.chunkSize_eq, hclaim, Except.ok.injEq, Prod.mk.injEq] at hclaim'
  obtain ⟨rfl, rfl⟩ := hclaim'
  cases claimed with
  | none =>
    simp only [pure, Except.pure, Except.ok.injEq, Prod.mk.injEq] at hfresh hfresh'
    obtain ⟨rfl, rfl⟩ := hfresh
    obtain ⟨rfl, rfl⟩ := hfresh'
    exact ⟨⟨counter, rfl, rfl⟩, .inl ⟨rfl, rfl⟩⟩
  | some offset =>
    simp only [bind_eq_ok_iff, pure, Except.pure, Except.ok.injEq, Prod.mk.injEq] at hfresh hfresh'
    obtain ⟨claims, -, stop, hstop, rfl, rfl⟩ := hfresh
    obtain ⟨claims', -, stop', hstop', rfl, rfl⟩ := hfresh'
    rw [← htwin.chunkSize_eq, hstop, Except.ok.injEq] at hstop'
    exact ⟨⟨counter, rfl, rfl⟩, .inr ⟨_, _, rfl, rfl, ⟨rfl, hstop'⟩,
      keep_of_owns (owns_eq_true_iff.2 ⟨rfl, rfl⟩), keep_of_owns (owns_eq_true_iff.2 ⟨rfl, rfl⟩)⟩⟩

lemma Twin.alongside_allocateLocal {align : Alignment} (htwin : a.Twin b)
    (hlevel : (a.keep c).Level (b.keep e)) (hx : a.allocateLocal c size align = .ok x)
    (hy : b.allocateLocal e size align = .ok y) : Alongside a b x y := by
  rw [allocateLocal, ← keep] at hx hy
  rcases hlevel.bump size align with ⟨hnone, hnone'⟩ | ⟨start, d, f, hsome, hsome', hleft⟩
  · simp only [hnone, hnone', bind_eq_ok_iff] at hx hy
    obtain ⟨⟨fresh, a'⟩, hfresh, hx⟩ := hx
    obtain ⟨⟨fresh', b'⟩, hfresh', hy⟩ := hy
    obtain ⟨⟨counter, rfl, rfl⟩, ⟨rfl, rfl⟩ | ⟨d, f, rfl, rfl, hroom, hd, hf⟩⟩ :=
      htwin.refill hfresh hfresh'
    · simp only [pure, Except.pure, Except.ok.injEq] at hx hy
      subst hx hy
      refine ⟨⟨none, rfl, rfl⟩, ⟨counter, rfl, rfl⟩, ?_⟩
      rwa [keep_keep, keep_keep]
    · rcases hroom.bump size align with ⟨hnone, hnone'⟩ | ⟨start, d', f', hsome, hsome', hleft⟩
      · simp only [hnone, hnone', pure, Except.pure, Except.ok.injEq] at hx hy
        subst hx hy
        refine ⟨⟨none, rfl, rfl⟩, ⟨counter, rfl, rfl⟩, ?_⟩
        rwa [hd, hf]
      · simp only [hsome, hsome', pure, Except.pure, Except.ok.injEq] at hx hy
        subst hx hy
        refine ⟨⟨some start, rfl, rfl⟩, ⟨counter, rfl, rfl⟩, ?_⟩
        rwa [keep_of_bump hd hsome, keep_of_bump hf hsome']
  · simp only [hsome, hsome', pure, Except.pure, Except.ok.injEq] at hx hy
    subst hx hy
    refine ⟨⟨some start, rfl, rfl⟩, htwin.exists_counter, ?_⟩
    rwa [keep_of_bump (keep_keep a c) hsome, keep_of_bump (keep_keep b e) hsome']

/-- **Twins serve a request alike** from chunks that have the same room for them. -/
lemma Twin.alongside_allocate (htwin : a.Twin b) (hlevel : (a.keep c).Level (b.keep e))
    (hx : a.allocate c request = .ok x) (hy : b.allocate e request = .ok y) :
    Alongside a b x y := by
  rw [allocate] at hx hy
  cases hsize : request.roundedSize? request.layout.align with
  | none =>
    simp only [hsize, Except.ok.injEq] at hx hy
    subst hx hy
    exact ⟨⟨none, rfl, rfl⟩, htwin.exists_counter, hlevel⟩
  | some size =>
    simp only [hsize, ← htwin.maxChunk_eq] at hx hy
    by_cases hlarge : a.maxChunk < size
    · rw [if_pos hlarge] at hx hy
      exact htwin.alongside_claimDirect hlevel hx hy
    · rw [if_neg hlarge] at hx hy
      exact htwin.alongside_allocateLocal hlevel hx hy

/-! ## Rows of requests -/

section Table

variable {κ : Type} [DecidableEq κ] {t u : ChunkTable κ} {calls : List (κ × Request)}

/-- Serves a row of requests, each from the chunk of a key in a table.  A key that is new to the
table has an empty chunk. -/
def allocateFrom (a : ChunkedArena) (table : ChunkTable κ) :
    List (κ × Request) → Checked (List Handle × ChunkTable κ × ChunkedArena)
  | [] => .ok ([], table, a)
  | (key, request) :: calls => do
    let (h, c, a) ← a.allocate (table.chunk key) request
    let (handles, table, a) ← a.allocateFrom (table.insert key c) calls
    return (h :: handles, table, a)

/-- A row of requests yields a result when the first one and the others do. -/
lemma allocateFrom_cons_eq_ok_iff {key : κ} {z : List Handle × ChunkTable κ × ChunkedArena} :
    a.allocateFrom t ((key, request) :: calls) = .ok z ↔
      ∃ h d a' later, a.allocate (t.chunk key) request = .ok (h, d, a') ∧
        a'.allocateFrom (t.insert key d) calls = .ok later ∧ z = (h :: later.1, later.2) := by
  simp only [allocateFrom, bind_eq_ok_iff, pure, Except.pure, Except.ok.injEq]
  constructor
  · rintro ⟨⟨h, d, a'⟩, hfirst, later, hrest, rfl⟩
    exact ⟨h, d, a', later, hfirst, hrest, rfl⟩
  · rintro ⟨h, d, a', later, hfirst, hrest, rfl⟩
    exact ⟨(h, d, a'), hfirst, later, hrest, rfl⟩

/-- **Twins serve a row of requests alike** from tables whose chunks have the same room for them. -/
lemma Twin.exists_places {z w : List Handle × ChunkTable κ × ChunkedArena} (htwin : a.Twin b)
    (hlevel : ∀ key, (a.keep (t.chunk key)).Level (b.keep (u.chunk key)))
    (hz : a.allocateFrom t calls = .ok z) (hw : b.allocateFrom u calls = .ok w) :
    ∃ places : List (Option Nat),
      z.1 = places.map a.region.answer ∧ w.1 = places.map b.region.answer := by
  induction calls generalizing a b t u z w with
  | nil =>
    simp only [allocateFrom, Except.ok.injEq] at hz hw
    subst hz hw
    exact ⟨[], rfl, rfl⟩
  | cons call calls ih =>
    obtain ⟨key, request⟩ := call
    obtain ⟨h, d, a', later, hx, hrest, rfl⟩ := allocateFrom_cons_eq_ok_iff.1 hz
    obtain ⟨h', f, b', later', hy, hrest', rfl⟩ := allocateFrom_cons_eq_ok_iff.1 hw
    obtain ⟨⟨place, rfl, rfl⟩, ⟨counter, rfl, rfl⟩, hroom⟩ :=
      htwin.alongside_allocate (hlevel key) hx hy
    have htwin' : Twin { a with counter } { b with counter } :=
      ⟨rfl, htwin.minChunk_eq, htwin.maxChunk_eq⟩
    have hlevel' (other : κ) : (a.keep ((t.insert key d).chunk other)).Level
        (b.keep ((u.insert key f).chunk other)) := by
      rw [ChunkTable.chunk_insert, ChunkTable.chunk_insert]
      by_cases hother : other = key
      · rw [if_pos hother, if_pos hother]
        exact hroom
      · rw [if_neg hother, if_neg hother]
        exact hlevel other
    obtain ⟨places, hplaces, hplaces'⟩ := ih htwin' hlevel' hrest hrest'
    exact ⟨place :: places, congrArg (_ :: ·) hplaces, congrArg (_ :: ·) hplaces'⟩

lemma Serves.capacity_eq (hserves : a.Serves c request h d a') (hsound : a.Sound) :
    a'.counter.capacity = a.counter.capacity := by
  rw [(hserves.sound hsound).capacity_eq, hserves.region_eq, hsound.capacity_eq]

lemma Serves.left_le (hserves : a.Serves c request h d a') (hsound : a.Sound) :
    a'.counter.left ≤ a.counter.left := by
  have hused := hserves.used_le
  rw [Counter.left, Counter.left, hserves.capacity_eq hsound]
  omega

/-- **A row of requests is always answered**, as long as words can count the claims of each key. -/
lemma exists_allocateFrom (hsound : a.Sound) (hchunks : a.HasChunks)
    (hbudget : ∀ key, a.budget (t.chunk key) < Word.limit) (calls : List (κ × Request)) :
    ∃ z, a.allocateFrom t calls = .ok z := by
  induction calls generalizing a t with
  | nil => exact ⟨_, rfl⟩
  | cons call calls ih =>
    obtain ⟨key, request⟩ := call
    obtain ⟨h, d, a', hok, hle⟩ := exists_allocate hsound hchunks (hbudget key) request
    have hserves := serves_of_allocate hsound hok
    obtain ⟨z, hrest⟩ := ih (t := t.insert key d) (hserves.sound hsound)
      (hserves.hasChunks hchunks) fun other => by
        rw [ChunkTable.chunk_insert]
        by_cases hother : other = key
        · rw [if_pos hother]
          exact Nat.lt_of_le_of_lt hle (hbudget key)
        · rw [if_neg hother]
          have hleft := hserves.left_le hsound
          have hlimit := hbudget other
          rw [budget] at hlimit ⊢
          omega
    exact ⟨_, allocateFrom_cons_eq_ok_iff.2 ⟨h, d, a', z, hok, hrest, rfl⟩⟩

end Table

/-! ## Arenas of one configuration -/

variable {config : ArenaConfig} {s s' : Storage}

/-- The arenas that a program can have made from a configuration. -/
inductive MadeFrom (config : ArenaConfig) : ChunkedArena → Prop
  | made {s s' : Storage} {a : ChunkedArena} (hmake : (make config).run s = .ok a s') :
      MadeFrom config a
  | served {a a' : ChunkedArena} {c d : LocalChunk} {request : Request} {h : Handle}
      (hmade : MadeFrom config a) (hok : a.allocate c request = .ok (h, d, a')) :
      MadeFrom config a'
  | reset {a a' : ChunkedArena} (hmade : MadeFrom config a) (hreset : a.reset = .ok a') :
      MadeFrom config a'

lemma MadeFrom.reached (hmade : a.MadeFrom config) : a.Reached := by
  induction hmade with
  | made hmake => exact .made hmake
  | served _ hok ih => exact ih.served hok
  | reset _ hreset ih => exact ih.reset hreset

/-- What an arena has from its configuration. -/
structure Configured (a : ChunkedArena) (config : ArenaConfig) : Prop where
  capacity_eq : a.counter.capacity = config.regionCapacity
  minChunk_eq : a.minChunk = config.minChunk
  maxChunk_eq : a.maxChunk = config.maxChunk

lemma configured_of_make (hmake : (make config).run s = .ok a s') : a.Configured config := by
  rw [make] at hmake
  obtain ⟨_, _, -, hmake⟩ := StorageM.bind_eq_ok_iff.1 hmake
  obtain ⟨r, _, hregion, hmake⟩ := StorageM.bind_eq_ok_iff.1 hmake
  obtain ⟨rfl, -⟩ := StorageM.pure_eq_ok_iff.1 hmake
  obtain ⟨-, -, hcapacity, -⟩ := Region.of_makeVolatile hregion
  exact ⟨hcapacity, rfl, rfl⟩

lemma Serves.configured (hserves : a.Serves c request h d a') (hsound : a.Sound)
    (hconfigured : a.Configured config) : a'.Configured config := by
  refine ⟨(hserves.capacity_eq hsound).trans hconfigured.capacity_eq, ?_,
    hserves.maxChunk_eq.trans hconfigured.maxChunk_eq⟩
  rw [← hconfigured.minChunk_eq]
  cases hserves <;> rfl

lemma MadeFrom.configured (hmade : a.MadeFrom config) : a.Configured config := by
  induction hmade with
  | made hmake => exact configured_of_make hmake
  | served hmade hok ih =>
    exact (serves_of_allocate hmade.reached.sound hok).configured hmade.reached.sound ih
  | reset _ hreset ih =>
    rw [eq_of_reset hreset]
    exact ⟨ih.capacity_eq, ih.minChunk_eq, ih.maxChunk_eq⟩

/-- An arena that was reset and a new one of the same configuration are twins. -/
lemma MadeFrom.twin_of_reset (hmade : a.MadeFrom config) (hreset : a.reset = .ok a')
    (hnew : (make config).run s = .ok b s') : a'.Twin b := by
  have hconfigured := hmade.configured
  have hconfigured' := configured_of_make hnew
  have hposition := (of_make hnew).1
  rw [eq_of_reset hreset]
  refine ⟨?_, hconfigured.minChunk_eq.trans hconfigured'.minChunk_eq.symm,
    hconfigured.maxChunk_eq.trans hconfigured'.maxChunk_eq.symm⟩
  show (⟨a.counter.capacity, 0⟩ : Counter) = b.counter
  rw [← hposition, hconfigured.capacity_eq.trans hconfigured'.capacity_eq.symm]

/-! ## Chunks from before the reset -/

/-- **A chunk that bears the identity of an arena** bears no generation that is yet to come. -/
lemma Meets.generation_le {shared : Prop} (hmeets : Meets shared a c) (hunshared : ¬ shared) :
    c.region = a.region.id → c.generation ≤ a.generation := by
  have hid_ne := hmeets.reached.sound.id_ne
  induction hmeets with
  | empty => exact fun _ => Nat.zero_le _
  | served hmeets _ hok ih =>
    have hserves := serves_of_allocate hmeets.reached.sound hok
    rw [hserves.region_eq, hserves.generation_eq]
    rw [hserves.region_eq] at hid_ne
    rcases hserves.fate with ⟨claims, rfl⟩ | hnone | howns
    · exact ih hid_ne
    · exact fun hid => absurd (hid.symm.trans hnone) hid_ne
    · exact fun _ => Nat.le_of_eq (owns_eq_true_iff.1 howns).2
  | othersServed hmeets hok ih =>
    have hserves := serves_of_allocate hmeets.reached.sound hok
    rw [hserves.region_eq] at hid_ne
    rw [hserves.region_eq, hserves.generation_eq]
    exact ih hid_ne
  | reset _ hreset ih =>
    rw [eq_of_reset hreset] at hid_ne ⊢
    exact fun hid => Nat.le_succ_of_le (ih hid_ne hid)
  | servedElsewhere hmeets hb hid _ hok ih =>
    have hserves := serves_of_allocate hb.sound hok
    rcases hserves.fate with ⟨claims, rfl⟩ | hnone | howns
    · exact ih hid_ne
    · exact fun hid => absurd (hid.symm.trans hnone) hid_ne
    · exact fun hsame =>
        absurd (hid ((owns_eq_true_iff.1 howns).1.symm.trans hsame)) hunshared
  | released => exact fun hid => absurd hid.symm hid_ne

/-- **After a reset there is no room in what was there before.** -/
lemma Meets.keep_of_reset {shared : Prop} (hmeets : Meets shared a c) (hreset : a.reset = .ok a')
    (hshared : shared → c.region = a.region.id → c.generation ≠ a.generation + 1) :
    a'.keep c = c.release := by
  refine keep_of_not_owns (Bool.eq_false_iff.2 fun howns => ?_)
  rw [eq_of_reset hreset, owns_eq_true_iff] at howns
  obtain ⟨hid, hgeneration⟩ := howns
  by_cases hs : shared
  · exact hshared hs hid hgeneration
  · have hle := hmeets.generation_le hs hid
    have hgeneration : c.generation = a.generation + 1 := hgeneration
    omega

lemma exists_reset (hgeneration : a.generation + 1 < Word.limit) : ∃ a₀, a.reset = .ok a₀ := by
  rw [reset, Word.add_eq_ok hgeneration]
  exact ⟨_, rfl⟩

/-- An empty chunk has as much room as one that was let go of. -/
lemma level_keep_empty (b : ChunkedArena) (c : LocalChunk) : c.release.Level (b.keep {}) :=
  ⟨b.keep_empty.1.symm, b.keep_empty.2.symm⟩

variable {κ : Type} [DecidableEq κ] {a₀ : ChunkedArena} {shared : Prop} {table : ChunkTable κ}

/-- The table as it is and the one whose chunks were let go of come to the same after a reset. -/
lemma keep_chunk_of_reset (htable : ∀ key, Meets shared a (table.chunk key))
    (hshared : shared → ∀ key, (table.chunk key).region = a.region.id →
      (table.chunk key).generation ≠ a.generation + 1)
    (hreset : a.reset = .ok a₀) : ∀ left ∈ [table, table.releaseAll], ∀ key,
      a₀.keep (left.chunk key) = (table.chunk key).release ∧
        (left.chunk key).claims = (table.chunk key).claims := by
  refine List.forall_mem_cons.2 ⟨fun key => ⟨?_, rfl⟩, List.forall_mem_singleton.2 fun key => ?_⟩
  · exact (htable key).keep_of_reset hreset fun hs => hshared hs key
  · rw [ChunkTable.chunk_releaseAll]
    exact ⟨keep_release a₀ _, rfl⟩

/-- A new arena answers every row of requests, when no chunk was filled yet. -/
lemma exists_allocateFrom_empty (hnew : (make config).run s = .ok b s')
    (calls : List (κ × Request)) : ∃ z, b.allocateFrom ({} : ChunkTable κ) calls = .ok z := by
  have hsound := sound_of_make hnew
  refine exists_allocateFrom hsound (of_make hnew).2 (fun key => ?_) calls
  have hcapacity : b.counter.capacity < Word.limit :=
    lt_limit_of_le_maxCapacity (hsound.capacity_eq ▸ hsound.capacity_le)
  have hle : b.counter.left ≤ b.counter.capacity := Nat.sub_le ..
  show 0 + b.counter.left < Word.limit
  omega

/-- **After a reset everything begins again.**  An arena was made, used and reset, with a table that
holds chunks of this generation, of earlier ones, and of other arenas.  Where another arena can have
the same identity, none of its chunks may bear the generation that begins.  Then, from the table as
it is and from one whose chunks were all let go of, a row of requests gets the same handles, and
their offsets are those that it gets from a new arena of the same configuration and an empty table.
One of these offsets is that of the null handle.  The requests are answered, unless the claims of a
key come to more than a word. -/
theorem allocateFrom_of_reset (hmade : a.MadeFrom config)
    (htable : ∀ key, Meets shared a (table.chunk key))
    (hshared : shared → ∀ key, (table.chunk key).region = a.region.id →
      (table.chunk key).generation ≠ a.generation + 1)
    (hgeneration : a.generation + 1 < Word.limit) (hnew : (make config).run s = .ok b s')
    (calls : List (κ × Request)) :
    ∃ a₀, a.reset = .ok a₀ ∧ a.resetAll table = .ok (a₀, table.releaseAll) ∧
      ∃ fresh, b.allocateFrom {} calls = .ok fresh ∧
        (∀ left ∈ [table, table.releaseAll], ∀ z, a₀.allocateFrom left calls = .ok z →
          z.1.map (·.offset) = fresh.1.map (·.offset)) ∧
        (∀ z w, a₀.allocateFrom table calls = .ok z →
          a₀.allocateFrom table.releaseAll calls = .ok w → z.1 = w.1) ∧
        ((∀ key, (table.chunk key).claims + a.counter.capacity < Word.limit) →
          ∀ left ∈ [table, table.releaseAll], ∃ z, a₀.allocateFrom left calls = .ok z) := by
  obtain ⟨a₀, hreset⟩ := exists_reset hgeneration
  obtain ⟨fresh, hfresh⟩ := exists_allocateFrom_empty hnew calls
  have hkeep := keep_chunk_of_reset htable hshared hreset
  refine ⟨a₀, hreset, by rw [resetAll, hreset]; rfl, fresh, hfresh, fun left hleft z hz => ?_,
    fun z w hz hw => ?_, fun hclaims left hleft => ?_⟩
  · have hlevel (key : κ) : (a₀.keep (left.chunk key)).Level
        (b.keep (({} : ChunkTable κ).chunk key)) :=
      (hkeep left hleft key).1 ▸ level_keep_empty b _
    obtain ⟨places, hplaces, hplaces'⟩ :=
      (hmade.twin_of_reset hreset hnew).exists_places hlevel hz hfresh
    rw [hplaces, hplaces', List.map_map, List.map_map]
    exact List.map_congr_left fun place _ => Region.offset_answer _ _ place
  · have hlevel (key : κ) : (a₀.keep (table.chunk key)).Level
        (a₀.keep (table.releaseAll.chunk key)) := by
      rw [(hkeep table (by simp) key).1, (hkeep table.releaseAll (by simp) key).1]
      exact ⟨rfl, rfl⟩
    obtain ⟨places, hplaces, hplaces'⟩ :=
      Twin.exists_places (a := a₀) (b := a₀) ⟨rfl, rfl, rfl⟩ hlevel hz hw
    rw [hplaces, hplaces']
  · have hreached := hmade.reached.reset hreset
    refine exists_allocateFrom hreached.sound hreached.hasChunks (fun key => ?_) calls
    have hlimit := hclaims key
    have hle : a₀.counter.left ≤ a.counter.capacity := by
      rw [eq_of_reset hreset]
      exact Nat.sub_le ..
    rw [budget, (hkeep left hleft key).2]
    omega

/-- Calls of four keys: for bytes, for elements without bytes, and for more than there is. -/
def fourKeys : List (Fin 4 × Request) :=
  [(0, .ofBytes 24), (1, emptyElements), (2, .ofBytes 40),
    (3, .ofBytes 100), (0, .ofBytes 24), (1, .ofBytes 5000), (2, .ofBytes 40), (3, .ofBytes 8)]

/-- A table with a chunk of the generation that ends, one of the generation before, one of another
arena, and none for the last key. -/
theorem allocateFrom_of_reset_fourKeys : ∃ (a b : ChunkedArena) (table : ChunkTable (Fin 4)),
    a.MadeFrom ⟨4096, 64, 128⟩ ∧ (∃ s s', (make ⟨4096, 64, 128⟩).run s = .ok b s') ∧
    (∀ key, Meets False a (table.chunk key)) ∧ a.owns (table.chunk 0) = true ∧
    ((table.chunk 1).region = a.region.id ∧ (table.chunk 1).generation < a.generation) ∧
    (table.chunk 2).region ≠ a.region.id ∧ table.get? 3 = none ∧
    ∃ a₀ fresh z w, a.reset = .ok a₀ ∧ a.resetAll table = .ok (a₀, table.releaseAll) ∧
      b.allocateFrom {} fourKeys = .ok fresh ∧ a₀.allocateFrom table fourKeys = .ok z ∧
      a₀.allocateFrom table.releaseAll fourKeys = .ok w ∧ z.1 = w.1 ∧
      z.1.map (·.offset) = fresh.1.map (·.offset) := by
  -- The arena is used and reset once, and used again.
  obtain ⟨a, s₁, other, s₂, b, s₃, hmake, hother, hnew, hzero, hdraw, hfirst, hreset, hsecond,
      hthird⟩ :
      ∃ a s₁ other s₂ b s₃, (make ⟨4096, 64, 128⟩).run default = .ok a s₁ ∧
        (make ⟨8192, 64, 128⟩).run s₁ = .ok other s₂ ∧
        (make ⟨4096, 64, 128⟩).run s₂ = .ok b s₃ ∧ a.generation = 0 ∧
        other.region.id ≠ a.region.id ∧
        a.allocate {} (.ofBytes 40) =
          .ok (a.region.handleAt 0, { a.freshChunk 128 1 with cursor := 40 }, a.advance 128) ∧
        (a.advance 128).reset = .ok { a with generation := 1 } ∧
        { a with generation := 1 }.allocate {} (.ofBytes 40) =
          .ok (a.region.handleAt 0,
            { a.freshChunk 128 1 with cursor := 40, generation := 1 },
            { a.advance 128 with generation := 1 }) ∧
        other.allocate {} (.ofBytes 8) =
          .ok (other.region.handleAt 0, { other.freshChunk 64 1 with cursor := 8 },
            other.advance 64) :=
    ⟨_, _, _, _, _, _, rfl, rfl, rfl, rfl, by decide +kernel, by decide +kernel, by decide +kernel,
      by decide +kernel, by decide +kernel⟩
  have hbyte (length : Nat) : (Request.ofBytes length).layout.align.bytes ≤ cacheLine.bytes :=
    show 1 ≤ 64 by decide
  have hmade := ((MadeFrom.made hmake).served hfirst).reset hreset
  have hused := hmade.served hsecond
  let table : ChunkTable (Fin 4) :=
    ⟨[(0, { a.freshChunk 128 1 with cursor := 40, generation := 1 }),
      (1, { a.freshChunk 128 1 with cursor := 40 }),
      (2, { other.freshChunk 64 1 with cursor := 8 })]⟩
  have htable : ∀ key, Meets False { a.advance 128 with generation := 1 } (table.chunk key)
    | 0 => .served (.empty hmade.reached) (hbyte 40) hsecond
    | 1 => .othersServed (.reset (.served (.empty (.made hmake)) (hbyte 40) hfirst) hreset) hsecond
    | 2 => .servedElsewhere (.empty hused.reached) (.made hother) hdraw (hbyte 8) hthird
    | 3 => .empty hused.reached
  have hearlier : a.generation < 1 := hzero ▸ Nat.one_pos
  have hgeneration : 1 + 1 < Word.limit := by decide
  have hcapacity : a.counter.capacity = 4096 := (configured_of_make hmake).capacity_eq
  have hclaims (key : Fin 4) : (table.chunk key).claims + a.counter.capacity < Word.limit := by
    have hle : ∀ key, (table.chunk key).claims ≤ 1
      | 0 | 1 | 2 => Nat.le_refl 1
      | 3 => Nat.zero_le 1
    have hlimit : 1 + 4096 < Word.limit := by decide
    have hkey := hle key
    omega
  obtain ⟨a₀, hreset₀, hresetAll, fresh, hfresh, hoffsets, hsame, hanswered⟩ :=
    allocateFrom_of_reset hused htable (fun h => h.elim) hgeneration hnew fourKeys
  obtain ⟨z, hz⟩ := hanswered hclaims table (by simp)
  obtain ⟨w, hw⟩ := hanswered hclaims table.releaseAll (by simp)
  exact ⟨_, b, table, hused, ⟨s₂, s₃, hnew⟩, htable, owns_eq_true_iff.2 ⟨rfl, rfl⟩,
    ⟨rfl, hearlier⟩, hdraw, rfl, a₀, fresh, z, w, hreset₀, hresetAll, hfresh, hz, hw,
    hsame z w hz hw, hoffsets table (by simp) z hz⟩

/-- The elder of two namesakes is reset, and then fills a chunk of a table. -/
def elderTable : List (Call Unit) := [.makeTable, .reset 0, .allocateBytes 0 (.keyed 0 ()) 40]

/-- The offsets of the handles that a row of requests gets. -/
def offsetsFrom {κ : Type} [DecidableEq κ] (a : ChunkedArena) (table : ChunkTable κ)
    (calls : List (κ × Request)) : Checked (List UInt32) :=
  (fun z => z.1.map (·.offset)) <$> a.allocateFrom table calls

/-- **A reset can leave something behind** in an arena with a namesake.  The younger is reset for
the first time, which takes it to the generation of the elder's chunk, and goes on where the elder
left off.  Letting go of the chunks of the table makes it begin at its base, as a new arena does. -/
theorem exists_leftover_of_reset : ∃ a table a₀ b s s',
    (World.run default (World.wholeRound ++ elderTable)).arenas[1]? = some a ∧
    (World.run default (World.wholeRound ++ elderTable)).pool.tables[0]? = some table ∧
    a.MadeFrom World.youngerConfig ∧ (∀ key, Meets True a (table.chunk key)) ∧
    (make World.youngerConfig).run s = .ok b s' ∧
    a.reset = .ok a₀ ∧ a.resetAll table = .ok (a₀, table.releaseAll) ∧
    a₀.offsetsFrom table [((), .ofBytes 8)] = .ok [40] ∧
    a₀.offsetsFrom table.releaseAll [((), .ofBytes 8)] = .ok [0] ∧
    b.offsetsFrom ({} : ChunkTable Unit) [((), .ofBytes 8)] = .ok [0] := by
  obtain ⟨harenas, hpool, -⟩ := World.run_wholeRound_append elderTable (by decide)
  obtain ⟨s, hyounger⟩ := World.exists_run_make_younger
  let elder : ChunkedArena := { World.elder with generation := 1 }
  let chunk : LocalChunk := { elder.freshChunk 128 1 with cursor := 40 }
  have hreset : World.elder.reset = .ok elder := by decide +kernel
  have hserved : elder.allocate {} (.ofBytes 40) =
      .ok (elder.region.handleAt 0, chunk, elder.advance 128) := by decide +kernel
  have hmeets := meets_younger (.reset (.made World.run_make_elder) hreset) hserved
  refine ⟨World.younger, ⟨[((), chunk)]⟩, { World.younger with generation := 1 },
    World.younger, _, s, ?_, ?_, .made hyounger, fun _ => hmeets, hyounger, ?_⟩
  · rw [harenas]
    decide +kernel
  · rw [hpool]
    decide +kernel
  · decide +kernel

end ChunkedArena

end BumpArena
