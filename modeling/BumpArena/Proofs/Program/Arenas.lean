import BumpArena.Proofs.Arena.Replay
import BumpArena.Proofs.Handoff.Allocator

/-!
# Arenas in use

What a program can do with a flat arena, with chunks, and with a chunked arena, one use at a time.
A use ends in a fault when one of the checks on its way fails, those of what it does besides
included: a reset tells the use of the arena before it starts over.

No use faults, because of what arenas and chunks have from the start and keep.  The counter of an
arena hands out no more than its region has, which is less than half of the words
(`FlatArena.Sound`, `ChunkedArena.Sound`).  A chunk ends in a region, and its cursor is not past
its end.  Only two counts grow with every use: the resets of a chunked arena
(`ChunkedArena.SoundAt`) and the claims for a chunk (`LocalChunk.Sound`).  They stay words for as
long as the number of operations is one.

Nothing is said of where chunks were used before.  Any chunk can be given to any arena, and a copy
of it to another one.
-/

namespace BumpArena

/-! ## One element of a list -/

section Lists

variable {α : Type} {P : α → Prop} {l : List α} {x : α} {i : Nat}

lemma forall_mem_set (h : ∀ y ∈ l, P y) (hx : P x) : ∀ y ∈ l.set i x, P y := by
  intro y hy
  rcases List.mem_or_eq_of_mem_set hy with hmem | rfl
  · exact h y hmem
  · exact hx

lemma forall_mem_concat (h : ∀ y ∈ l, P y) (hx : P x) : ∀ y ∈ l ++ [x], P y := by
  intro y hy
  rcases List.mem_append.1 hy with hmem | hmem
  · exact h y hmem
  · exact List.mem_singleton.1 hmem ▸ hx

lemma forall_mem_modify {f : α → α} (h : ∀ y ∈ l, P y) (hf : ∀ y, P y → P (f y)) :
    ∀ y ∈ l.modify i f, P y := by
  intro y hy
  obtain ⟨k, hk⟩ := List.getElem?_of_mem hy
  rw [List.getElem?_modify] at hk
  obtain ⟨z, hz, rfl⟩ := Option.map_eq_some_iff.1 hk
  have hmem := h z (List.mem_of_getElem? hz)
  split
  · exact hf z hmem
  · exact hmem

end Lists

/-! ## Flat arenas -/

namespace FlatArena

/-- What can be asked of a flat arena. -/
inductive Use where
  | allocate (request : Request)
  | allocateBytes (length : Nat)
  | reset
  | stats

/-- The arena after a use. -/
def use (a : FlatArena) : Use → Checked FlatArena
  | .allocate request => do
    let (_, a) ← a.allocate request
    return a
  | .allocateBytes length => do
    let (_, a) ← a.allocate (.ofBytes length)
    return a
  | .reset => do
    let _ ← a.stats
    return a.reset
  | .stats => do
    let _ ← a.stats
    return a

variable {a : FlatArena}

lemma Sound.exists_allocate (h : a.Sound) (request : Request) :
    ∃ granted a', a.allocate request = .ok (granted, a') ∧ a'.Sound := by
  rcases allocate_cases h request with ⟨counter, hok, hcapacity, -⟩ | ⟨size, -, -, hok⟩
  · exact ⟨_, _, hok, hcapacity.trans h.capacity_eq, h.capacity_le⟩
  · exact ⟨_, _, hok, h.capacity_eq, h.capacity_le⟩

/-- **No use of a flat arena faults.** -/
lemma Sound.exists_use (h : a.Sound) (use : Use) : ∃ a', a.use use = .ok a' ∧ a'.Sound := by
  cases use with
  | allocate request =>
    obtain ⟨granted, a', hok, hsound⟩ := h.exists_allocate request
    refine ⟨a', ?_, hsound⟩
    simp only [FlatArena.use, hok]
    rfl
  | allocateBytes length =>
    obtain ⟨granted, a', hok, hsound⟩ := h.exists_allocate (.ofBytes length)
    refine ⟨a', ?_, hsound⟩
    simp only [FlatArena.use, hok]
    rfl
  | reset =>
    refine ⟨a.reset, ?_, h.capacity_eq, h.capacity_le⟩
    simp only [FlatArena.use, FlatArena.stats, Counter.stats_eq]
    rfl
  | stats =>
    refine ⟨a, ?_, h⟩
    simp only [FlatArena.use, FlatArena.stats, Counter.stats_eq]
    rfl

end FlatArena

/-! ## Chunks -/

/-- What a chunk has from the start and keeps, when so many operations were performed. -/
structure LocalChunk.Sound (n : Nat) (c : LocalChunk) : Prop where
  cursor_le : c.cursor ≤ c.stop
  stop_le : c.stop ≤ maxCapacity
  claims_le : c.claims ≤ n

namespace LocalChunk

variable {n : Nat} {c : LocalChunk}

lemma sound_empty (n : Nat) : Sound n {} := ⟨Nat.le_refl _, Nat.zero_le _, Nat.zero_le _⟩

lemma Sound.release (h : c.Sound n) : c.release.Sound n :=
  ⟨Nat.le_refl _, Nat.zero_le _, h.claims_le⟩

lemma Sound.mono (h : c.Sound n) : c.Sound (n + 1) :=
  ⟨h.cursor_le, h.stop_le, Nat.le_succ_of_le h.claims_le⟩

end LocalChunk

namespace ChunkedArena

variable {a a' : ChunkedArena} {c d : LocalChunk} {request : Request} {h : Handle} {n : Nat}

lemma sound_keep (hc : c.Sound n) : (a.keep c).Sound n := by
  rw [keep]
  split
  · exact hc
  · exact hc.release

/-- However a request ends, it leaves a sound chunk, with one more claim at most. -/
lemma Ends.sound_chunk (hends : a.Ends c request h d a') (hsound : a.Sound)
    (halign : request.layout.align.bytes ≤ cacheLine.bytes) (hc : c.Sound n) :
    d.Sound (n + 1) := by
  have hkeep : (a.keep c).Sound (n + 1) := (sound_keep hc).mono
  have hclaims : c.claims + 1 ≤ n + 1 := Nat.succ_le_succ hc.claims_le
  cases hends with
  | overflow => exact hc.mono
  | kept hword hlocal hfits => exact ⟨hfits, hkeep.stop_le, hkeep.claims_le⟩
  | refilled hword hlocal hfull hroom =>
    obtain ⟨-, hfits⟩ := fits_freshChunk hsound hroom halign (le_chunkSize hword hlocal)
      (c.claims + 1)
    exact ⟨hfits, hroom.stop_le hsound, hclaims⟩
  | starved => exact hkeep
  | direct => exact ⟨hc.cursor_le, hc.stop_le, hclaims⟩
  | unpadded => exact hc.mono
  | tooLarge => exact hc.mono

end ChunkedArena

/-! ## Pools of chunks -/

lemma ChunkTable.mem_put {κ : Type} [DecidableEq κ] {key : κ} {c : LocalChunk}
    {entries : List (κ × LocalChunk)} {entry : κ × LocalChunk} (h : entry ∈ put key c entries) :
    entry = (key, c) ∨ entry ∈ entries := by
  induction entries with
  | nil => exact .inl (List.mem_singleton.1 h)
  | cons first rest ih =>
    rw [put] at h
    split at h
    · rcases List.mem_cons.1 h with rfl | h
      · exact .inl rfl
      · exact .inr (List.mem_cons_of_mem _ h)
    · rcases List.mem_cons.1 h with rfl | h
      · exact .inr List.mem_cons_self
      · exact (ih h).imp_right (List.mem_cons_of_mem _)

namespace ChunkPool

variable {κ : Type} {P Q : LocalChunk → Prop} {p : ChunkPool κ} {n : Nat}

/-- What can be done with the chunks alone. -/
inductive Use (κ : Type) where
  | addChunk
  | addTable
  | copy (place : Place κ)
  | remaining (place : Place κ)
  | release (place : Place κ)
  | releaseAll (table : Nat)
  | remove (table : Nat) (key : κ)

/-- All chunks of a pool have something, those that were let go of as well. -/
structure Forall (P : LocalChunk → Prop) (p : ChunkPool κ) : Prop where
  loose : ∀ c ∈ p.loose, P c
  keyed : ∀ table ∈ p.tables, ∀ entry ∈ table.entries, P entry.2

lemma Forall.mono (h : p.Forall P) (hPQ : ∀ c, P c → Q c) : p.Forall Q where
  loose c hc := hPQ c (h.loose c hc)
  keyed table htable entry hentry := hPQ _ (h.keyed table htable entry hentry)

lemma Forall.setTable {index : Nat} {table : ChunkTable κ} (h : p.Forall P)
    (htable : ∀ entry ∈ table.entries, P entry.2) : (p.setTable index table).Forall P where
  loose := h.loose
  keyed := forall_mem_set h.keyed htable

lemma forall_releaseAll {table : ChunkTable κ} (hrelease : ∀ c, P c → P c.release)
    (h : ∀ entry ∈ table.entries, P entry.2) : ∀ entry ∈ table.releaseAll.entries, P entry.2 := by
  intro entry hentry
  obtain ⟨before, hbefore, rfl⟩ := List.mem_map.1 hentry
  exact hrelease _ (h before hbefore)

lemma Forall.releaseAll (h : p.Forall P) (hrelease : ∀ c, P c → P c.release) (index : Nat) :
    (p.releaseAll index).Forall P := by
  rw [ChunkPool.releaseAll]
  split
  · next table htable =>
    exact h.setTable (forall_releaseAll hrelease (h.keyed table (List.mem_of_getElem? htable)))
  · exact h

variable [DecidableEq κ]

lemma forall_get? {table : ChunkTable κ} {key : κ} {c : LocalChunk}
    (h : ∀ entry ∈ table.entries, P entry.2) (hc : table.get? key = some c) : P c := by
  obtain ⟨entry, hfind, rfl⟩ := Option.map_eq_some_iff.1 hc
  exact h entry (List.mem_of_find?_eq_some hfind)

lemma Forall.of_chunk? {place : Place κ} {c : LocalChunk} (h : p.Forall P) (hempty : P {})
    (hc : p.chunk? place = some c) : P c := by
  cases place with
  | loose index => exact h.loose c (List.mem_of_getElem? hc)
  | keyed index key =>
    obtain ⟨table, htable, rfl⟩ := Option.map_eq_some_iff.1 hc
    rw [ChunkTable.chunk]
    cases hget : table.get? key with
    | none => exact hempty
    | some c => exact forall_get? (h.keyed table (List.mem_of_getElem? htable)) hget

lemma Forall.store {place : Place κ} {d : LocalChunk} (h : p.Forall P) (hd : P d) :
    (p.store place d).Forall P := by
  cases place with
  | loose index => exact ⟨forall_mem_set h.loose hd, h.keyed⟩
  | keyed index key =>
    rw [ChunkPool.store]
    split
    · next table htable =>
      refine h.setTable ?_
      intro entry hentry
      rcases ChunkTable.mem_put hentry with rfl | hmem
      · exact hd
      · exact h.keyed table (List.mem_of_getElem? htable) entry hmem
    · exact h

lemma Forall.remove (h : p.Forall P) (index : Nat) (key : κ) : (p.remove index key).Forall P := by
  rw [ChunkPool.remove]
  split
  · next table htable =>
    have hkeyed := h.keyed table (List.mem_of_getElem? htable)
    split
    · next c hc =>
      have hloose : Forall P { p with loose := p.loose ++ [c] } :=
        ⟨forall_mem_concat h.loose (forall_get? hkeyed hc), h.keyed⟩
      refine hloose.setTable ?_
      intro entry hentry
      exact hkeyed entry (List.mem_filter.1 hentry).1
    · exact h
  · exact h

/-- The chunks after a use. -/
def use (p : ChunkPool κ) : Use κ → Checked (ChunkPool κ)
  | .addChunk => .ok p.addChunk
  | .addTable => .ok p.addTable
  | .copy place => .ok { p with loose := p.loose ++ (p.chunk? place).toList }
  | .remaining place => do
    if let some c := p.chunk? place then
      let _ ← c.remaining
    return p
  | .release place => .ok (p.release place)
  | .releaseAll table => .ok (p.releaseAll table)
  | .remove table key => .ok (p.remove table key)

/-- **Nothing that is done with the chunks alone faults.** -/
lemma Forall.exists_use (h : p.Forall (LocalChunk.Sound n)) (use : Use κ) :
    ∃ p', p.use use = .ok p' ∧ p'.Forall (LocalChunk.Sound n) := by
  have hempty := LocalChunk.sound_empty n
  have hrelease (c : LocalChunk) (hc : c.Sound n) : c.release.Sound n := hc.release
  cases use with
  | addChunk => exact ⟨_, rfl, forall_mem_concat h.loose hempty, h.keyed⟩
  | addTable =>
    refine ⟨_, rfl, h.loose, forall_mem_concat h.keyed ?_⟩
    intro entry hentry
    cases hentry
  | copy place =>
    refine ⟨_, rfl, ?_, h.keyed⟩
    cases hc : p.chunk? place with
    | none => simpa using h.loose
    | some c => exact forall_mem_concat h.loose (h.of_chunk? hempty hc)
  | remaining place =>
    refine ⟨p, ?_, h⟩
    rw [ChunkPool.use]
    cases hc : p.chunk? place with
    | none => rfl
    | some c =>
      have hleft := Word.sub_eq_ok (h.of_chunk? hempty hc).cursor_le
      simp only [LocalChunk.remaining, hleft]
      rfl
  | release place =>
    refine ⟨_, rfl, ?_⟩
    rw [ChunkPool.release]
    split
    · next c hc => exact h.store (h.of_chunk? hempty hc).release
    · exact h
  | releaseAll table => exact ⟨_, rfl, h.releaseAll hrelease table⟩
  | remove table key => exact ⟨_, rfl, h.remove table key⟩

end ChunkPool

/-! ## Chunked arenas -/

namespace ChunkedArena

variable {κ : Type} {a : ChunkedArena} {p : ChunkPool κ} {n : Nat}

/-- What can be asked of a chunked arena.  No alignment above a cache line can be asked for. -/
inductive Use (κ : Type) where
  | allocate (place : Place κ) (request : Request)
      (align_le : request.layout.align.bytes ≤ cacheLine.bytes)
  | allocateBytes (place : Place κ) (length : Nat)
  | reset
  | resetAll (table : Nat)
  | stats

/-- The arena after claims of other threads.  Whole cache lines are claimed as long as the capacity
lasts. -/
def overtaken (a : ChunkedArena) (position : Nat) : ChunkedArena :=
  if position ≤ a.counter.capacity ∧ ¬ cacheLine.bytes ∣ position then a else a.atPosition position

/-- What a chunked arena has from the start and keeps, when so many operations were performed. -/
structure SoundAt (n : Nat) (a : ChunkedArena) : Prop where
  sound : a.Sound
  generation_le : a.generation ≤ n

lemma SoundAt.mono (h : a.SoundAt n) : a.SoundAt (n + 1) :=
  ⟨h.sound, Nat.le_succ_of_le h.generation_le⟩

lemma soundAt_of_make {config : ArenaConfig} {s s' : Storage} (n : Nat)
    (hmake : (make config).run s = .ok a s') : a.SoundAt n := by
  refine ⟨sound_of_make hmake, ?_⟩
  obtain ⟨_, _, -, hregion⟩ := StorageM.bind_eq_ok_iff.1 hmake
  obtain ⟨r, _, -, hpure⟩ := StorageM.bind_eq_ok_iff.1 hregion
  obtain ⟨rfl, -⟩ := StorageM.pure_eq_ok_iff.1 hpure
  exact Nat.zero_le n

lemma SoundAt.overtaken (h : a.SoundAt n) (position : Nat) : (a.overtaken position).SoundAt n := by
  rw [ChunkedArena.overtaken]
  split
  · exact h
  · next hposition =>
    refine ⟨⟨h.sound.id_ne, h.sound.capacity_eq, h.sound.capacity_le, ?_, h.sound.maxChunk_dvd⟩,
      h.generation_le⟩
    intro hle
    by_contra hdvd
    exact hposition ⟨hle, hdvd⟩

/-- A reset is counted, and the count does not run over. -/
lemma SoundAt.exists_reset (h : a.SoundAt n) (hn : n + 1 < Word.limit) :
    ∃ a', a.reset = .ok a' ∧ a'.SoundAt (n + 1) := by
  have hgeneration := h.generation_le
  obtain ⟨a', hreset⟩ := ChunkedArena.exists_reset (a := a) (by omega)
  refine ⟨a', hreset, h.sound.reset hreset, ?_⟩
  rw [eq_of_reset hreset]
  show a.generation + 1 ≤ n + 1
  omega

variable [DecidableEq κ]

/-- The arena and the chunks after a request from a place. -/
def allocateAt (a : ChunkedArena) (p : ChunkPool κ) (place : Place κ) (request : Request) :
    Checked (ChunkedArena × ChunkPool κ) :=
  match p.chunk? place with
  | some c => do
    let (_, c, a) ← a.allocate c request
    return (a, p.store place c)
  | none => .ok (a, p)

/-- The arena and the chunks after a use. -/
def use (a : ChunkedArena) (p : ChunkPool κ) : Use κ → Checked (ChunkedArena × ChunkPool κ)
  | .allocate place request _ => a.allocateAt p place request
  | .allocateBytes place length => a.allocateAt p place (.ofBytes length)
  | .reset => do
    let _ ← a.stats
    return (← a.reset, p)
  | .resetAll index =>
    match p.tables[index]? with
    | some table => do
      let _ ← a.stats
      let (a, table) ← a.resetAll table
      return (a, p.setTable index table)
    | none => .ok (a, p)
  | .stats => do
    let _ ← a.stats
    return (a, p)

lemma SoundAt.exists_allocateAt (h : a.SoundAt n) (hp : p.Forall (LocalChunk.Sound n))
    (hn : n + 1 < Word.limit) (place : Place κ) {request : Request}
    (halign : request.layout.align.bytes ≤ cacheLine.bytes) :
    ∃ a' p', a.allocateAt p place request = .ok (a', p') ∧ a'.SoundAt (n + 1) ∧
      p'.Forall (LocalChunk.Sound (n + 1)) := by
  have hp' : p.Forall (LocalChunk.Sound (n + 1)) := hp.mono fun c hc => hc.mono
  rw [allocateAt]
  cases hplace : p.chunk? place with
  | none => exact ⟨a, p, rfl, h.mono, hp'⟩
  | some c =>
    have hc := hp.of_chunk? (LocalChunk.sound_empty n) hplace
    obtain ⟨granted, d, a', hends, hok⟩ := exists_ends h.sound hc.stop_le halign
    have hclaims := hc.claims_le
    rcases hok with hok | ⟨hfull, -⟩
    · have hserves := serves_of_allocate h.sound hok
      refine ⟨a', p.store place d, ?_, ⟨hserves.sound h.sound, ?_⟩,
        hp'.store (hends.sound_chunk h.sound halign hc)⟩
      · simp only [hok]
        rfl
      · rw [hserves.generation_eq]
        exact h.mono.generation_le
    · omega

/-- **No use of a chunked arena faults,** whatever the chunk was used for before. -/
lemma SoundAt.exists_use (h : a.SoundAt n) (hp : p.Forall (LocalChunk.Sound n))
    (hn : n + 1 < Word.limit) (use : Use κ) :
    ∃ a' p', a.use p use = .ok (a', p') ∧ a'.SoundAt (n + 1) ∧
      p'.Forall (LocalChunk.Sound (n + 1)) := by
  have hp' : p.Forall (LocalChunk.Sound (n + 1)) := hp.mono fun c hc => hc.mono
  cases use with
  | allocate place request halign => exact h.exists_allocateAt hp hn place halign
  | allocateBytes place length =>
    refine h.exists_allocateAt hp hn place ?_
    show 1 ≤ cacheLine.bytes
    decide
  | reset =>
    obtain ⟨a', hreset, hsound⟩ := h.exists_reset hn
    refine ⟨a', p, ?_, hsound, hp'⟩
    simp only [ChunkedArena.use, ChunkedArena.stats, Counter.stats_eq, hreset]
    rfl
  | resetAll index =>
    rw [ChunkedArena.use]
    cases htable : p.tables[index]? with
    | none => exact ⟨a, p, rfl, h.mono, hp'⟩
    | some table =>
      obtain ⟨a', hreset, hsound⟩ := h.exists_reset hn
      have hkeyed := hp'.keyed table (List.mem_of_getElem? htable)
      refine ⟨a', p.setTable index table.releaseAll, ?_, hsound,
        hp'.setTable (ChunkPool.forall_releaseAll (fun c hc => hc.release) hkeyed)⟩
      simp only [ChunkedArena.stats, Counter.stats_eq, ChunkedArena.resetAll, hreset]
      rfl
  | stats =>
    refine ⟨a, p, ?_, h.mono, hp'⟩
    simp only [ChunkedArena.use, ChunkedArena.stats, Counter.stats_eq]
    rfl

end ChunkedArena

end BumpArena
