import BumpArena.Proofs.Mapping
import BumpArena.Proofs.Rounding
import BumpArena.Storage.Files

/-!
# Capacities

A capacity is judged in four places and turned into a size in four: by the two configurations, by
the two ways to make a region, and again by whoever opens the file that was made.
`Judged` says that one condition decides everywhere, `0 < capacity ≤ maxCapacity`, apart from what
the system grants: memory for a region of its own, and the file for one that maps it.  `Sized` says
that the size is everywhere the least number of whole pages.

The condition is on the capacity as it was asked for, and the size is larger.  That they fit
together rests on `maxCapacity` being itself a whole number of pages: no capacity up to it is
rounded past it (`pageRound_eq`), so that rounding never refuses what was let pass.
-/

namespace BumpArena

open Storage

/-! ## The condition on capacities -/

section Condition

variable {capacity : Nat}

/-- Whether a flaw is one that checking the capacity finds. -/
def ConfigFlaw.isOfCapacity : ConfigFlaw → Bool
  | zeroCapacity | capacityTooLarge _ _ => true
  | _ => false

/-- A check that has nothing against the capacity, whatever it has against the rest. -/
def PassesCapacity (checked : Except ConfigFlaw Unit) : Prop :=
  ∀ flaw, checked = .error flaw → flaw.isOfCapacity = false

lemma validateCapacity_eq_ok_iff_pos :
    validateCapacity capacity = .ok () ↔ 0 < capacity ∧ capacity ≤ maxCapacity := by
  rw [validateCapacity_eq_ok_iff, Nat.pos_iff_ne_zero]

/-- The flaws that checking the capacity finds are all of this kind. -/
lemma isOfCapacity_of_validateCapacity {flaw : ConfigFlaw}
    (h : validateCapacity capacity = .error flaw) : flaw.isOfCapacity = true := by
  unfold validateCapacity at h
  split at h
  · cases h
    rfl
  · split at h
    · cases h
      rfl
    · cases h

/-- The chunk bounds are looked at after the capacity, and what is found in them is not held against
it. -/
lemma ArenaConfig.passesCapacity_iff (config : ArenaConfig) :
    PassesCapacity config.validate ↔ validateCapacity config.capacity = .ok () := by
  cases hcapacity : validateCapacity config.capacity with
  | error flaw =>
    have hvalidate : config.validate = .error flaw := by
      rw [validate, hcapacity]
      rfl
    have hflaw := isOfCapacity_of_validateCapacity hcapacity
    simp only [reduceCtorEq, iff_false]
    intro hpasses
    exact Bool.noConfusion ((hpasses flaw hvalidate).symm.trans hflaw)
  | ok u =>
    simp only [iff_true]
    intro flaw hflaw
    rw [validate, hcapacity] at hflaw
    simp only [bind, Except.bind] at hflaw
    split at hflaw
    · cases hflaw
      rfl
    split at hflaw
    · cases hflaw
      rfl
    split at hflaw
    · cases hflaw
      rfl
    · cases hflaw

/-- The path is looked at before the capacity. -/
lemma JournalConfig.validate_eq_ok_iff {config : JournalConfig} (h : config.path ≠ "") :
    config.validate = .ok () ↔ validateCapacity config.capacity = .ok () := by
  rw [validate, if_neg]
  rwa [String.isEmpty_iff]

end Condition

/-! ## The size of a capacity -/

section Size

variable {capacity : Nat}

/-- **No valid capacity is rounded past the largest one.** -/
lemma pageRound_eq (h : validateCapacity capacity = .ok ()) :
    pageRound capacity = .ok (page.ceil capacity) ∧ Mappable (page.ceil capacity) := by
  obtain ⟨rounded, hround, hmappable⟩ := exists_pageRound h
  obtain rfl : rounded = page.ceil capacity := by
    unfold pageRound at hround
    split at hround
    · next hceil =>
      split at hround
      · rw [← Except.ok.inj hround, (roundUp_eq_some_iff.1 hceil).1]
      · cases hround
    · cases hround
  exact ⟨hround, hmappable⟩

namespace Region

variable {s t : Storage} {path : String} {r : Region}

/-- A region of its own is made of every valid capacity that there is memory for. -/
lemma exists_makeVolatile_iff :
    (∃ r t, (makeVolatile capacity).run s = .ok r t) ↔
      validateCapacity capacity = .ok () ∧ s.hasMemory (page.ceil capacity) = true := by
  constructor
  · rintro ⟨r, t, hmade⟩
    obtain ⟨rounded, hvalid, hround, hmemory, -, -⟩ := makeVolatile_eq_ok_iff.1 hmade
    obtain rfl := Except.ok.inj (hround.symm.trans (pageRound_eq hvalid).1)
    exact ⟨hvalid, hmemory⟩
  · rintro ⟨hvalid, hmemory⟩
    exact ⟨_, _, makeVolatile_eq_ok_iff.2
      ⟨_, hvalid, (pageRound_eq hvalid).1, hmemory, rfl, rfl⟩⟩

/-- A file is mapped at every valid capacity, if it can be made. -/
lemma exists_createMapped_iff :
    (∃ r t, (createMapped path capacity).run s = .ok r t) ↔
      validateCapacity capacity = .ok () ∧ ∃ block t, s.createFile path = .ok (block, t) := by
  constructor
  · rintro ⟨r, t, hmade⟩
    obtain ⟨block, u, -, hvalid, -, hfile, -, -⟩ := createMapped_eq_ok_iff.1 hmade
    exact ⟨hvalid, block, u, hfile⟩
  · rintro ⟨hvalid, block, u, hfile⟩
    exact ⟨_, _, createMapped_eq_ok_iff.2
      ⟨block, u, _, hvalid, (pageRound_eq hvalid).1, hfile, rfl, rfl⟩⟩

lemma capacity_of_makeVolatile (h : (makeVolatile capacity).run s = .ok r t) :
    r.capacity = page.ceil capacity := by
  obtain ⟨rounded, hvalid, hround, -, rfl, -⟩ := makeVolatile_eq_ok_iff.1 h
  exact Except.ok.inj (hround.symm.trans (pageRound_eq hvalid).1)

lemma capacity_of_createMapped (h : (createMapped path capacity).run s = .ok r t) :
    r.capacity = page.ceil capacity := by
  obtain ⟨block, u, rounded, hvalid, hround, -, rfl, -⟩ := createMapped_eq_ok_iff.1 h
  exact Except.ok.inj (hround.symm.trans (pageRound_eq hvalid).1)

/-- The length of a file is the capacity of the region that maps it. -/
lemma Maps.lengthOf_eq (h : r.Maps s path) : s.lengthOf path = .ok r.capacity := by
  obtain ⟨entry, hfind, hfile⟩ := bind_eq_ok_iff.1 h.found
  cases entry with
  | directory => cases hfile
  | file block =>
    obtain rfl : block = r.block := Except.ok.inj hfile
    rw [lengthOf, hfind, ← h.length_eq]
    rfl

end Region

/-! ## Opening the file again -/

/-- Opening the file at a path maps all of it, and these are its bytes. -/
def Storage.OpensWith (s : Storage) (path : String) (bytes : Buffer) : Prop :=
  ∃ r t, (Region.openMapped path).run s = .ok r t ∧ r.capacity = bytes.size ∧
    (t.contents r).Same bytes

/-- A region and the file that it maps agree when the file is opened again. -/
lemma Region.Maps.opensWith {s : Storage} {path : String} {r : Region} (h : r.Maps s path) :
    s.OpensWith path (s.contents r) :=
  ⟨_, _, h.openMapped_eq, (size_contents s r).symm, rfl, fun _ => rfl⟩

end Size

/-! ## One condition and one size -/

/-- **All who judge a capacity** let it pass on one condition. -/
structure Judged (capacity : Nat) (valid : Prop) : Prop where
  validateCapacity_iff : validateCapacity capacity = .ok () ↔ valid
  /-- Whatever the chunk bounds. -/
  arenaConfig_iff : ∀ config : ArenaConfig, config.capacity = capacity →
    (PassesCapacity config.validate ↔ valid)
  /-- Whatever the path, as long as there is one. -/
  journalConfig_iff : ∀ config : JournalConfig, config.capacity = capacity → config.path ≠ "" →
    (config.validate = .ok () ↔ valid)
  /-- If there is memory. -/
  makeVolatile_iff : ∀ s, (∃ r t, (Region.makeVolatile capacity).run s = .ok r t) ↔
    valid ∧ s.hasMemory (page.ceil capacity) = true
  /-- If the file can be made. -/
  createMapped_iff : ∀ s path, (∃ r t, (Region.createMapped path capacity).run s = .ok r t) ↔
    valid ∧ ∃ block t, s.createFile path = .ok (block, t)

lemma judged (capacity : Nat) : Judged capacity (0 < capacity ∧ capacity ≤ maxCapacity) := by
  constructor
  case validateCapacity_iff => exact validateCapacity_eq_ok_iff_pos
  case arenaConfig_iff =>
    rintro config rfl
    rw [config.passesCapacity_iff, validateCapacity_eq_ok_iff_pos]
  case journalConfig_iff =>
    rintro config rfl hpath
    rw [JournalConfig.validate_eq_ok_iff hpath, validateCapacity_eq_ok_iff_pos]
  case makeVolatile_iff =>
    intro s
    rw [Region.exists_makeVolatile_iff, validateCapacity_eq_ok_iff_pos]
  case createMapped_iff =>
    intro s path
    rw [Region.exists_createMapped_iff, validateCapacity_eq_ok_iff_pos]

/-- **All who turn a capacity into a size** come to the same. -/
structure Sized (capacity size : Nat) : Prop where
  isLeast : IsLeast (page.positionsFrom capacity) size
  le : size ≤ maxCapacity
  /-- Rounding does not refuse. -/
  pageRound_eq : pageRound capacity = .ok size
  arenaConfig_eq : ∀ config : ArenaConfig, config.capacity = capacity →
    config.regionCapacity = size
  journalConfig_eq : ∀ config : JournalConfig, config.capacity = capacity →
    config.regionCapacity = size
  makeVolatile_eq : ∀ s r t, (Region.makeVolatile capacity).run s = .ok r t → r.capacity = size
  createMapped_eq : ∀ s path r t, (Region.createMapped path capacity).run s = .ok r t →
    r.capacity = size ∧ t.lengthOf path = .ok size
  /-- The file that was made can be opened, at once and with whatever was stored in it, and is
  then mapped with its bytes. -/
  opensWith : ∀ s path r t, (Region.createMapped path capacity).run s = .ok r t →
    t.OpensWith path (t.contents r) ∧
      ∀ bytes : Buffer, bytes.size = size → (t.save r bytes).OpensWith path bytes

lemma sized {capacity : Nat} (h : validateCapacity capacity = .ok ()) :
    Sized capacity (page.ceil capacity) := by
  obtain ⟨hround, hmappable⟩ := pageRound_eq h
  constructor
  case isLeast => exact page.isLeast_ceil capacity
  case le => exact hmappable.le
  case pageRound_eq => exact hround
  case arenaConfig_eq =>
    rintro config rfl
    exact pageRounded_eq hround
  case journalConfig_eq =>
    rintro config rfl
    exact pageRounded_eq hround
  case makeVolatile_eq => exact fun _ _ _ => Region.capacity_of_makeVolatile
  case createMapped_eq =>
    intro s path r t hmade
    have hcapacity := Region.capacity_of_createMapped hmade
    have hlength := (Region.maps_of_createMapped hmade).1.lengthOf_eq
    exact ⟨hcapacity, hcapacity ▸ hlength⟩
  case opensWith =>
    intro s path r t hmade
    have hmaps := (Region.maps_of_createMapped hmade).1
    refine ⟨hmaps.opensWith, fun bytes hsize => ?_⟩
    rw [← Region.capacity_of_createMapped hmade] at hsize
    obtain ⟨hsaved, hsame⟩ := Storage.maps_save hmaps hsize
    obtain ⟨r', u, hopen, hcapacity, hcontents⟩ := hsaved.opensWith
    refine ⟨r', u, hopen, hcapacity.trans hsame.1, hcontents.1.trans hsame.1, fun i => ?_⟩
    rw [hcontents.2, hsame.2]

/-- **All agree on capacities.**  Every capacity is judged everywhere by the same condition, and
where it passes, every size that is made of it is the least number of whole pages that hold it, up
to and including the largest capacity that there is. -/
theorem capacity_agreement (capacity : Nat) :
    Judged capacity (0 < capacity ∧ capacity ≤ maxCapacity) ∧
      (0 < capacity ∧ capacity ≤ maxCapacity → ∃ size, Sized capacity size) :=
  ⟨judged capacity, fun h => ⟨_, sized (validateCapacity_eq_ok_iff_pos.2 h)⟩⟩

/-- A capacity one below the largest is rounded up to it, and a file of that size can be made and
opened again. -/
theorem capacity_agreement_belowLargest :
    let capacity := maxCapacity - 1
    Judged capacity (0 < capacity ∧ capacity ≤ maxCapacity) ∧
      ∃ r t, (Region.createMapped "journal" capacity).run default = .ok r t ∧
        r.capacity = maxCapacity ∧ t.lengthOf "journal" = .ok maxCapacity ∧
        t.OpensWith "journal" (t.contents r) := by
  intro capacity
  have hvalid : 0 < capacity ∧ capacity ≤ maxCapacity := by decide
  obtain ⟨hjudged, hsized⟩ := capacity_agreement capacity
  obtain ⟨size, hsize⟩ := hsized hvalid
  obtain ⟨r, t, hmade⟩ := (hjudged.createMapped_iff default "journal").2 ⟨hvalid, _, _, rfl⟩
  obtain ⟨hcapacity, hlength⟩ := hsize.createMapped_eq default "journal" r t hmade
  obtain rfl : size = maxCapacity := by
    have hround : pageRound capacity = .ok maxCapacity := by decide
    exact Except.ok.inj (hsize.pageRound_eq.symm.trans hround)
  exact ⟨hjudged, r, t, hmade, hcapacity, hlength, (hsize.opensWith default "journal" r t hmade).1⟩

end BumpArena
