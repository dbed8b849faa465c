import BumpArena.Proofs.Agreement
import BumpArena.Storage.Mapping

/-!
# Regions that map files

When a region comes to be, which block it maps, and what is in it then.  Each of the three ways to
make a region is described by one equivalence, `Region.makeVolatile_eq_ok_iff`,
`Region.createMapped_eq_ok_iff` and `Region.openMapped_eq_ok_iff`, so that the same lemma says what
follows from a success and what is enough for one.

A file that was created is found again under its path (`Storage.openWritable_of_createFile`), and
what is stored in its block in the meantime does not matter for that.
-/

namespace BumpArena

/-! ## Actions in a row -/

section Run

variable {α β : Type} {s s' : Storage}

/-- A row of two actions succeeds when both do. -/
lemma StorageM.bind_eq_ok_iff {x : StorageM α} {f : α → StorageM β} {b : β} :
    (x >>= f).run s = .ok b s' ↔ ∃ a t, x.run s = .ok a t ∧ (f a).run t = .ok b s' := by
  simp only [bind, EStateM.bind, EStateM.run]
  cases x s with
  | error error t => simp
  | ok a t =>
    simp only [EStateM.Result.ok.injEq]
    constructor
    · intro h
      exact ⟨a, t, ⟨rfl, rfl⟩, h⟩
    · rintro ⟨a, t, ⟨rfl, rfl⟩, h⟩
      exact h

lemma StorageM.map_eq_ok {x : StorageM α} {a : α} (h : x.run s = .ok a s') (f : α → β) :
    (f <$> x).run s = .ok (f a) s' := by
  have h' : x s = .ok a s' := h
  simp only [EStateM.run, Functor.map, EStateM.map, h']

lemma StorageM.pure_eq_ok_iff {a b : α} :
    (pure a : StorageM α).run s = .ok b s' ↔ a = b ∧ s = s' := by
  simp [pure, EStateM.pure, EStateM.run]

lemma StorageM.get_eq_ok_iff {t : Storage} :
    (get : StorageM Storage).run s = .ok t s' ↔ t = s ∧ s = s' := by
  show EStateM.Result.ok s s = .ok t s' ↔ _
  simp [eq_comm]

lemma StorageM.set_eq_ok_iff {t : Storage} {u : PUnit} :
    (set t : StorageM PUnit).run s = .ok u s' ↔ t = s' := by
  show EStateM.Result.ok PUnit.unit t = .ok u s' ↔ _
  simp

lemma Storage.requireConfig_eq_ok_iff {x : Except ConfigFlaw α} {a : α} :
    (requireConfig x).run s = .ok a s' ↔ x = .ok a ∧ s = s' := by
  cases x with
  | error flaw =>
    show EStateM.Result.error (ArenaError.invalidConfig flaw) s = .ok a s' ↔ _
    simp
  | ok value =>
    rw [Except.ok.injEq]
    exact StorageM.pure_eq_ok_iff

lemma Storage.requireFile_eq_ok_iff {action : FileAction} {path : String} {x : Except OsError α}
    {a : α} : (requireFile action path x).run s = .ok a s' ↔ x = .ok a ∧ s = s' := by
  cases x with
  | error error =>
    show EStateM.Result.error (ArenaError.file action path (.os error)) s = .ok a s' ↔ _
    simp
  | ok value =>
    rw [Except.ok.injEq]
    exact StorageM.pure_eq_ok_iff

lemma Storage.requireMemory_eq_ok_iff {size : Nat} {u : Unit} :
    (requireMemory size).run s = .ok u s' ↔ s.hasMemory size = true ∧ s = s' := by
  simp only [requireMemory, StorageM.bind_eq_ok_iff, StorageM.get_eq_ok_iff]
  constructor
  · rintro ⟨_, _, ⟨rfl, rfl⟩, h⟩
    split at h
    · next hmemory => exact ⟨hmemory, (StorageM.pure_eq_ok_iff.1 h).2⟩
    · cases h
  · rintro ⟨hmemory, rfl⟩
    refine ⟨_, _, ⟨rfl, rfl⟩, ?_⟩
    rw [if_pos hmemory]
    exact StorageM.pure_eq_ok_iff.2 ⟨rfl, rfl⟩

lemma Storage.makeRegion_eq_ok_iff {capacity : Nat} {block : BlockId} {path : Option String}
    {r : Region} : (makeRegion capacity block path).run s = .ok r s' ↔
      r = s.nextRegion capacity block path ∧ s' = s.afterRegion := by
  simp only [makeRegion, StorageM.bind_eq_ok_iff, StorageM.get_eq_ok_iff, StorageM.set_eq_ok_iff,
    StorageM.pure_eq_ok_iff]
  grind

end Run

/-! ## Blocks -/

/-- What is aligned needs no rounding. -/
lemma Alignment.ceil_of_dvd {a : Alignment} {size : Nat} (h : a.bytes ∣ size) :
    a.ceil size = size := by
  have hle := a.le_ceil size
  have hlt := a.ceil_lt size
  have hzero := Nat.eq_zero_of_dvd_of_lt (Nat.dvd_sub (a.dvd_ceil size) h) (by omega)
  omega

namespace Storage

variable {s : Storage} {id : BlockId}

lemma block_modifyBlock (h : id < s.blocks.size) (change : Block → Block) :
    (s.modifyBlock id change).block id = change (s.block id) := by
  simp [modifyBlock, block, h, Array.getElem_modify]

lemma size_blocks_modifyBlock (id : BlockId) (change : Block → Block) :
    (s.modifyBlock id change).blocks.size = s.blocks.size :=
  Array.size_modify ..

lemma size_view (s : Storage) (id : BlockId) (length : Nat) : (s.view id length).size = length := by
  simp only [view]
  split
  · assumption
  · rfl

/-- The bytes of a file that has whole pages are those in its pages. -/
lemma view_eq (h : page.bytes ∣ (s.block id).length) :
    s.view id (s.block id).length = (s.block id).pages := by
  rw [view, if_pos]
  rw [Block.size_pages, Alignment.ceil_of_dvd h]

/-! ## Names -/

/-- Files are looked up by their names alone. -/
lemma openWritable_congr {s t : Storage} (h : s.entries = t.entries) (text : String) :
    s.openWritable text = t.openWritable text := by
  have hentry (names : List String) : s.entry? names = t.entry? names := by
    cases names <;> simp only [h, entry?]
  have henter (directory names : List String) :
      s.enter directory names = t.enter directory names := by
    induction names generalizing directory with
    | nil => rfl
    | cons name names ih => simp only [enter, hentry, ih]
  have hlocate (path : Path) : s.locate path = t.locate path := by
    simp only [locate, henter, hentry]
  simp only [openWritable, find, hlocate]

/-- What is there stays where it is when a file is added. -/
lemma entry_addFile {names names' : List String} {e : Entry} (h : s.entry? names = some e) :
    Storage.entry? (s.addFile names').2 names = some e := by
  cases names with
  | nil => exact h
  | cons name names =>
    simp only [addFile, entry?, List.find?_append] at h ⊢
    obtain ⟨x, hfind, rfl⟩ := Option.map_eq_some_iff.1 h
    simp [hfind]

lemma enter_addFile {names' : List String} {directory names : List String}
    (h : s.enter directory names = .ok ()) :
    (s.addFile names').2.enter directory names = .ok () := by
  induction names generalizing directory with
  | nil => rfl
  | cons name names ih =>
    rw [enter] at h ⊢
    split at h
    · cases h
    rename_i hlength
    rw [if_neg hlength]
    cases hentry : s.entry? (directory ++ [name]) with
    | none => simp [hentry] at h
    | some e =>
      cases e with
      | file block => simp [hentry] at h
      | directory =>
        simp only [hentry] at h
        simp only [entry_addFile hentry]
        exact ih h

/-- A new file is what its names lead to. -/
lemma entry_addFile_self {names : List String} (h : s.entry? names = none) :
    Storage.entry? (s.addFile names).2 names = some (.file (s.addFile names).1) := by
  cases names with
  | nil => cases h
  | cons name names =>
    simp only [Option.map_eq_none_iff, entry?] at h
    simp [addFile, entry?, List.find?_append, h]

lemma lt_size_of_entry {names : List String} (h : s.entry? names = some (.file id)) :
    id < s.blocks.size := by
  cases names with
  | nil => cases h
  | cons name names =>
    simp only [Option.map_eq_some_iff, entry?] at h
    obtain ⟨x, hfind, hfile⟩ := h
    have hmem := List.mem_of_find?_eq_some hfind
    refine s.block_lt x.1 id ?_
    rw [← hfile]
    exact hmem

lemma locate_eq_ok {path : Path} {name : String} {e? : Option Entry}
    (henter : s.enter [] path.directories = .ok ()) (hlast : path.last = some name)
    (hlength : ¬ Path.maxNameBytes < name.utf8ByteSize) (hentry : s.entry? path.names = e?) :
    s.locate path = .ok e? := by
  simp [locate, henter, hlast, hlength, hentry, bind, Except.bind, pure, Except.pure]

lemma openWritable_eq_ok {text : String} {path : Path} (hparse : Path.parse text = .ok path)
    (hslashed : path.slashed = false) (hlocate : s.locate path = .ok (some (.file id))) :
    s.openWritable text = .ok id := by
  simp [openWritable, find, hparse, hlocate, hslashed, bind, Except.bind, pure, Except.pure]

/-- A file that can be opened has a block. -/
lemma lt_size_of_openWritable {text : String} (h : s.openWritable text = .ok id) :
    id < s.blocks.size := by
  obtain ⟨e, hfind, he⟩ := bind_eq_ok_iff.1 h
  obtain rfl : e = .file id := by
    cases e with
    | directory => cases he
    | file block => exact congrArg Entry.file (Except.ok.inj he)
  obtain ⟨path, -, hpath⟩ := bind_eq_ok_iff.1 hfind
  obtain ⟨e?, hlocate, he?⟩ := bind_eq_ok_iff.1 hpath
  obtain rfl : e? = some (.file id) := by
    rcases e? with _ | _ | block
    · cases he?
    · cases he?
    · simp only at he?
      split at he?
      · cases he?
      · rw [Except.ok.inj he?]
  obtain ⟨-, -, hlast⟩ := bind_eq_ok_iff.1 hlocate
  split at hlast
  · cases hlast
  · split at hlast
    · cases hlast
    · exact lt_size_of_entry (Except.ok.inj hlast)

/-- A file that was opened, or made, is there from then on. -/
lemma openWritable_of_openOrCreate {t : Storage} {text : String}
    (h : s.openOrCreate text = .ok (id, t)) :
    t.openWritable text = .ok id ∧ id < t.blocks.size := by
  obtain ⟨path, hparse, hpath⟩ := bind_eq_ok_iff.1 h
  obtain ⟨u, henter, hpath⟩ := bind_eq_ok_iff.1 hpath
  split at hpath
  · cases hpath
  rename_i hdirectory
  obtain ⟨e?, hlocate, he?⟩ := bind_eq_ok_iff.1 hpath
  cases hlast : path.last with
  | none => simp [Path.toDirectory, hlast] at hdirectory
  | some name =>
    have hslashed : path.slashed = false := by
      simpa [Path.toDirectory, hlast] using hdirectory
    have hlength : ¬ Path.maxNameBytes < name.utf8ByteSize := by
      intro hlength
      simp [locate, henter, hlast, hlength, bind, Except.bind, throw, throwThe,
        MonadExceptOf.throw] at hlocate
    obtain rfl : s.entry? path.names = e? :=
      Except.ok.inj ((locate_eq_ok henter hlast hlength rfl).symm.trans hlocate)
    cases hentry : s.entry? path.names with
    | none =>
      simp only [hentry] at he?
      have hadded : s.addFile path.names = (id, t) := Except.ok.inj he?
      obtain rfl : (s.addFile path.names).2 = t := congrArg Prod.snd hadded
      have hid : (s.addFile path.names).1 = id := congrArg Prod.fst hadded
      refine ⟨openWritable_eq_ok hparse hslashed ?_, ?_⟩
      · rw [locate_eq_ok (enter_addFile henter) hlast hlength (entry_addFile_self hentry), hid]
      · simp [← hid, addFile]
    | some e =>
      cases e with
      | directory => simp [hentry, throw, throwThe, MonadExceptOf.throw] at he?
      | file block =>
        simp only [hentry, pure, Except.pure, Except.ok.injEq, Prod.mk.injEq] at he?
        obtain ⟨rfl, rfl⟩ := he?
        refine ⟨openWritable_eq_ok hparse hslashed ?_, lt_size_of_entry hentry⟩
        exact locate_eq_ok henter hlast hlength hentry

/-- **An emptied file is there, and holds nothing.** -/
lemma of_createFile {t : Storage} {text : String} (h : s.createFile text = .ok (id, t)) :
    t.openWritable text = .ok id ∧ id < t.blocks.size ∧ t.block id = .zeros 0 := by
  obtain ⟨⟨block, u⟩, hopen, hempty⟩ := bind_eq_ok_iff.1 h
  simp only [pure, Except.pure, Except.ok.injEq, Prod.mk.injEq] at hempty
  obtain ⟨rfl, rfl⟩ := hempty
  obtain ⟨hfound, hlt⟩ := openWritable_of_openOrCreate hopen
  refine ⟨?_, ?_, block_modifyBlock hlt _⟩
  · have hentries : (u.modifyBlock block fun _ => .zeros 0).entries = u.entries := rfl
    rw [openWritable_congr hentries, hfound]
  · rwa [size_blocks_modifyBlock]

end Storage

/-! ## Mapping a file -/

/-- A length that a region can have. -/
structure Mappable (length : Nat) : Prop where
  ne_zero : length ≠ 0
  dvd : page.bytes ∣ length
  le : length ≤ maxCapacity

lemma validateCapacity_eq_ok_iff {capacity : Nat} :
    validateCapacity capacity = .ok () ↔ capacity ≠ 0 ∧ capacity ≤ maxCapacity := by
  grind [validateCapacity]

/-- A valid capacity can be rounded, and what comes out can be mapped. -/
lemma exists_pageRound {capacity : Nat} (h : validateCapacity capacity = .ok ()) :
    ∃ rounded, pageRound capacity = .ok rounded ∧ Mappable rounded := by
  obtain ⟨hzero, hmax⟩ := validateCapacity_eq_ok_iff.1 h
  have hle := page.le_ceil capacity
  have hlt := page.ceil_lt capacity
  have hdvd := page.dvd_ceil capacity
  have hpage : page.bytes = 4096 := rfl
  have hmaxCapacity : page.bytes ∣ maxCapacity := Nat.dvd_mul_left ..
  have hlimit : maxCapacity + 4096 < Word.limit := by decide
  have hround : roundUp capacity page = some (page.ceil capacity) :=
    roundUp_eq_some_iff.2 ⟨rfl, by omega⟩
  have hceil : page.ceil capacity ≤ maxCapacity := by
    rw [hpage] at hlt hdvd hmaxCapacity
    omega
  refine ⟨page.ceil capacity, ?_, ⟨by omega, hdvd, hceil⟩⟩
  unfold pageRound
  split
  · rename_i rounded h
    obtain rfl : page.ceil capacity = rounded := Option.some.inj (hround.symm.trans h)
    exact if_pos hceil
  · rename_i h
    exact absurd (hround.symm.trans h) (by simp)

/-- What is displayed is what a region gets. -/
lemma pageRounded_eq {capacity rounded : Nat} (h : pageRound capacity = .ok rounded) :
    pageRounded capacity = rounded := by
  unfold pageRound at h
  rw [pageRounded]
  split at h
  · rename_i hround
    split at h
    · rw [hround, Option.getD_some, Except.ok.inj h]
    · cases h
  · cases h

namespace Region

open Storage

variable {s s' : Storage} {path : String} {capacity : Nat} {r : Region}

/-- When a region has bytes of its own. -/
lemma makeVolatile_eq_ok_iff : (makeVolatile capacity).run s = .ok r s' ↔
    ∃ rounded, validateCapacity capacity = .ok () ∧ pageRound capacity = .ok rounded ∧
      s.hasMemory rounded = true ∧ r = s.nextRegion rounded s.blocks.size none ∧
      s' = (s.addBlock (.zeros rounded)).2.afterRegion := by
  simp only [makeVolatile, StorageM.bind_eq_ok_iff, requireConfig_eq_ok_iff,
    requireMemory_eq_ok_iff, StorageM.get_eq_ok_iff, StorageM.set_eq_ok_iff, makeRegion_eq_ok_iff]
  constructor
  · rintro ⟨_, _, ⟨hvalid, rfl⟩, rounded, _, ⟨hround, rfl⟩, _, _, ⟨hmemory, rfl⟩, _, _,
      ⟨rfl, rfl⟩, _, _, rfl, rfl, rfl⟩
    exact ⟨rounded, hvalid, hround, hmemory, rfl, rfl⟩
  · rintro ⟨rounded, hvalid, hround, hmemory, rfl, rfl⟩
    exact ⟨_, _, ⟨hvalid, rfl⟩, rounded, _, ⟨hround, rfl⟩, (), _, ⟨hmemory, rfl⟩, _, _,
      ⟨rfl, rfl⟩, ⟨⟩, _, rfl, rfl, rfl⟩

/-- When a file is mapped as it is. -/
lemma openMapped_eq_ok_iff : (openMapped path).run s = .ok r s' ↔
    ∃ block, s.openWritable path = .ok block ∧ Mappable (s.block block).length ∧
      r = s.nextRegion (s.block block).length block (some path) ∧ s' = s.afterRegion := by
  have hcondition (length : Nat) :
      (length = 0 ∨ ¬ page.Divides length ∨ maxCapacity < length) ↔ ¬ Mappable length := by
    constructor
    · rintro (h | h | h) ⟨hzero, hdvd, hle⟩
      · exact hzero h
      · exact h (Nat.mod_eq_zero_of_dvd hdvd)
      · omega
    · intro h
      refine Classical.byContradiction ?_
      intro hnone
      simp only [not_or, Nat.not_lt, Classical.not_not] at hnone
      exact h ⟨hnone.1, Nat.dvd_of_mod_eq_zero hnone.2.1, hnone.2.2⟩
  simp only [openMapped, StorageM.bind_eq_ok_iff, requireFile_eq_ok_iff, StorageM.get_eq_ok_iff]
  constructor
  · rintro ⟨_, _, ⟨rfl, rfl⟩, block, _, ⟨hfile, rfl⟩, _, _, ⟨rfl, rfl⟩, h⟩
    split at h
    · obtain ⟨_, _, h, -⟩ := StorageM.bind_eq_ok_iff.1 h
      cases h
    · rename_i hsound
      obtain ⟨hr, hs⟩ := makeRegion_eq_ok_iff.1 h
      have hmappable := Classical.not_not.1 fun h => hsound ((hcondition _).2 h)
      exact ⟨block, hfile, hmappable, hr, hs⟩
  · rintro ⟨block, hfile, hmappable, hr, hs⟩
    refine ⟨_, _, ⟨rfl, rfl⟩, block, _, ⟨hfile, rfl⟩, _, _, ⟨rfl, rfl⟩, ?_⟩
    rw [if_neg fun h => (hcondition _).1 h hmappable]
    exact makeRegion_eq_ok_iff.2 ⟨hr, hs⟩

/-- When a file of zeros is mapped. -/
lemma createMapped_eq_ok_iff : (createMapped path capacity).run s = .ok r s' ↔
    ∃ block t rounded, validateCapacity capacity = .ok () ∧ pageRound capacity = .ok rounded ∧
      s.createFile path = .ok (block, t) ∧ r = t.nextRegion rounded block (some path) ∧
      s' = (t.modifyBlock block (·.setLength rounded)).afterRegion := by
  simp only [createMapped, StorageM.bind_eq_ok_iff, requireConfig_eq_ok_iff,
    requireFile_eq_ok_iff, StorageM.get_eq_ok_iff, StorageM.set_eq_ok_iff, makeRegion_eq_ok_iff]
  constructor
  · rintro ⟨_, _, ⟨hvalid, rfl⟩, rounded, _, ⟨hround, rfl⟩, _, _, ⟨rfl, rfl⟩, ⟨block, t⟩, _,
      ⟨hfile, rfl⟩, _, _, rfl, rfl, rfl⟩
    exact ⟨block, t, rounded, hvalid, hround, hfile, rfl, rfl⟩
  · rintro ⟨block, t, rounded, hvalid, hround, hfile, rfl, rfl⟩
    exact ⟨_, _, ⟨hvalid, rfl⟩, rounded, _, ⟨hround, rfl⟩, _, _, ⟨rfl, rfl⟩, (block, t), _,
      ⟨hfile, rfl⟩, ⟨⟩, _, rfl, rfl, rfl⟩

/-! ## Regions and their files -/

/-- A region with bytes of its own has an identity that was drawn for it, and whole pages. -/
lemma of_makeVolatile (h : (makeVolatile capacity).run s = .ok r s') :
    r.id = s.ids.next.1 ∧ s'.ids = s.ids.next.2 ∧ r.capacity = pageRounded capacity ∧
      Mappable r.capacity := by
  obtain ⟨rounded, hvalid, hround, -, rfl, rfl⟩ := makeVolatile_eq_ok_iff.1 h
  obtain ⟨rounded', hround', hmappable⟩ := exists_pageRound hvalid
  obtain rfl : rounded = rounded' := Except.ok.inj (hround.symm.trans hround')
  exact ⟨rfl, rfl, (pageRounded_eq hround).symm, hmappable⟩

/-- The region maps the file at a path. -/
structure Maps (r : Region) (s : Storage) (path : String) : Prop where
  found : s.openWritable path = .ok r.block
  length_eq : (s.block r.block).length = r.capacity
  mappable : Mappable r.capacity

lemma Maps.contents_eq (h : r.Maps s path) : s.contents r = (s.block r.block).pages := by
  rw [contents, ← h.length_eq, view_eq (h.length_eq ▸ h.mappable.dvd)]

lemma size_contents (s : Storage) (r : Region) : (s.contents r).size = r.capacity := size_view ..

lemma maps_of_openMapped (h : (openMapped path).run s = .ok r s') : r.Maps s' path := by
  obtain ⟨block, hfound, hmappable, rfl, rfl⟩ := openMapped_eq_ok_iff.1 h
  refine ⟨(openWritable_congr ?_ path).trans hfound, rfl, hmappable⟩
  rfl

/-- A region over a new file holds zeros. -/
lemma maps_of_createMapped (h : (createMapped path capacity).run s = .ok r s') :
    r.Maps s' path ∧ ∀ i, (s'.contents r).get i = 0 := by
  obtain ⟨block, t, rounded, hvalid, hround, hfile, rfl, rfl⟩ := createMapped_eq_ok_iff.1 h
  obtain ⟨hfound, hlt, hempty⟩ := of_createFile hfile
  obtain ⟨rounded', hround', hmappable⟩ := exists_pageRound hvalid
  obtain rfl : rounded = rounded' := Except.ok.inj (hround.symm.trans hround')
  let u : Storage := (t.modifyBlock block (·.setLength rounded)).afterRegion
  let region : Region := t.nextRegion rounded block (some path)
  have hblock : u.block block = (Block.zeros 0).setLength rounded := by
    rw [← hempty]
    exact block_modifyBlock hlt _
  have hmaps : region.Maps u path := by
    refine ⟨?_, ?_, hmappable⟩
    · have hentries : u.entries = t.entries := rfl
      rw [openWritable_congr hentries, hfound]
      rfl
    · show (u.block block).length = rounded
      rw [hblock]
      rfl
  refine ⟨hmaps, ?_⟩
  intro i
  have hpos : 0 < rounded := Nat.pos_of_ne_zero hmappable.ne_zero
  show (u.contents region).get i = 0
  rw [hmaps.contents_eq]
  show (u.block block).pages.get i = 0
  rw [hblock, Block.get_pages_setLength_of_lt _ hpos, Block.get_pages_zeros]

/-- A file that a region maps can be mapped again. -/
lemma Maps.openMapped_eq (h : r.Maps s path) : (openMapped path).run s =
    .ok (s.nextRegion r.capacity r.block (some path)) s.afterRegion :=
  openMapped_eq_ok_iff.2
    ⟨r.block, h.found, h.length_eq ▸ h.mappable, by rw [h.length_eq], rfl⟩

end Region

/-! ## What a program leaves behind -/

namespace Storage

/-- The storage when the bytes of a region are others. -/
def save (s : Storage) (r : Region) (bytes : Buffer) : Storage :=
  s.modifyBlock r.block (·.setPages bytes)

variable {s : Storage} {r : Region} {path : String} {bytes : Buffer}

/-- **What is stored through a region is in the file,** for whoever maps it next. -/
lemma maps_save (h : r.Maps s path) (hsize : bytes.size = r.capacity) :
    r.Maps (s.save r bytes) path ∧ ((s.save r bytes).contents r).Same bytes := by
  have hblock : (s.save r bytes).block r.block = (s.block r.block).setPages bytes :=
    block_modifyBlock (lt_size_of_openWritable h.found) _
  have hmaps : r.Maps (s.save r bytes) path := by
    refine ⟨?_, ?_, h.mappable⟩
    · have hentries : (s.save r bytes).entries = s.entries := rfl
      rw [openWritable_congr hentries, h.found]
    · rw [hblock]
      exact h.length_eq
  have hpages : bytes.size = (s.block r.block).pages.size := by
    rw [Block.size_pages, h.length_eq, Alignment.ceil_of_dvd h.mappable.dvd, hsize]
  refine ⟨hmaps, ?_, fun i => ?_⟩
  · rw [Region.size_contents, hsize]
  · rw [hmaps.contents_eq, hblock, Block.get_pages_setPages _ hpages]

end Storage

end BumpArena
