import BumpArena.Proofs.Journal.Sweep
import BumpArena.Proofs.Mapping

/-!
# Opening a journal

A journal comes to be open in two ways, by `create` and by `openExisting`, and there is no
difference afterwards: over a file of zeros the scan finds nothing, so that the arena made by
`create` is the one that `openExisting` would make of the same file.  `Opened` is what is true
either way, and `Opens.opened` is where it comes from.
-/

namespace BumpArena

open Journal

/-! ## Unwritten space -/

section Zeros

variable {b : Buffer} {offset : Nat}

/-- The verdict on unwritten space. -/
lemma committedAt_of_zeros (h : ∀ i, offset ≤ i → b.get i = 0) : committedAt b offset =
    .error (if b.size < offset + Header.size then .endOfRegion else .endOfData) := by
  have hread : b.read (offset + Header.magicOffset) 4 = [0, 0, 0, 0] := by
    rw [Buffer.read_eq]
    simp [List.range'_succ, h, Nat.add_assoc]
  have hzero : magicAt b offset = 0 := by
    rw [magicAt, hread]
    rfl
  by_cases hfits : b.size < offset + Header.size
  · rw [committedAt, if_pos hfits, if_pos hfits]
  · rw [committedAt_of_magicAt_eq_zero (Nat.not_lt.1 hfits) hzero, if_neg hfits]

/-- A walk stops where nothing was written yet. -/
lemma checkAt_of_zeros {m : Mark} (h : ∀ i, m.offset ≤ i → b.get i = 0) : checkAt b m =
    .error (if b.size < m.offset + Header.size then .endOfRegion else .endOfData) :=
  checkAt_of_committedAt_error (committedAt_of_zeros h)

/-- A sweep over zeros finds nothing. -/
lemma highestGeneration_of_zeros (h : ∀ i, b.get i = 0) : highestGeneration b = none := by
  cases hhighest : highestGeneration b with
  | none => rfl
  | some m =>
    obtain ⟨i, hi⟩ := exists_of_highestGeneration hhighest
    obtain ⟨header, hok, -⟩ := generationAt_eq_some_iff.1 hi
    rw [committedAt_of_zeros fun i _ => h i] at hok
    cases hok

end Zeros

/-! ## The arena that is opened -/

namespace JournalArena

variable {config : JournalConfig} {s s' : Storage} {a : JournalArena} {report : Report}

/-- The arena is about to work on a journal that was just opened. -/
structure Opened (a : JournalArena) (b : Buffer) : Prop where
  eq_recover : a = (recover a.region b).1
  size_eq : b.size = a.region.capacity
  mappable : Mappable a.region.capacity

/-- A journal that can be opened has room for a header. -/
lemma Opened.header_le {b : Buffer} (h : a.Opened b) : Header.size ≤ a.region.capacity := by
  have hpos := Nat.pos_of_ne_zero h.mappable.ne_zero
  have hpage := Nat.le_of_dvd hpos h.mappable.dvd
  exact Nat.le_trans (by decide) hpage

/-- The journal is created or opened, and the arena works on it. -/
inductive Opens (config : JournalConfig) (s : Storage) (a : JournalArena) (s' : Storage) : Prop
  | create : (create config).run s = .ok a s' → Opens config s a s'
  | openExisting {report : Report} :
      (openExisting config).run s = .ok (a, report) s' → Opens config s a s'

lemma create_eq_ok_iff : (create config).run s = .ok a s' ↔ config.validate = .ok () ∧
    ∃ region, (Region.createMapped config.path config.capacity).run s = .ok region s' ∧
      a = { region, counter := { capacity := region.capacity }, generation := 0 } := by
  simp only [create, StorageM.bind_eq_ok_iff, Storage.requireConfig_eq_ok_iff,
    StorageM.pure_eq_ok_iff]
  constructor
  · rintro ⟨_, _, ⟨hvalid, rfl⟩, region, _, hregion, rfl, rfl⟩
    exact ⟨hvalid, region, hregion, rfl⟩
  · rintro ⟨hvalid, region, hregion, rfl⟩
    exact ⟨_, _, ⟨hvalid, rfl⟩, region, _, hregion, rfl, rfl⟩

lemma openExisting_eq_ok_iff : (openExisting config).run s = .ok (a, report) s' ↔
    config.path.isEmpty = false ∧ ∃ region, (Region.openMapped config.path).run s = .ok region s' ∧
      (a, report) = recover region (s'.contents region) := by
  simp only [openExisting, StorageM.bind_eq_ok_iff, Storage.requireConfig_eq_ok_iff,
    StorageM.pure_eq_ok_iff, StorageM.get_eq_ok_iff]
  constructor
  · rintro ⟨_, _, ⟨hpath, rfl⟩, region, _, hregion, _, _, ⟨rfl, rfl⟩, hrecover, rfl⟩
    exact ⟨by simpa using hpath, region, hregion, hrecover.symm⟩
  · rintro ⟨hpath, region, hregion, hrecover⟩
    exact ⟨⟨⟩, _, ⟨by simp [hpath], rfl⟩, region, _, hregion, _, _, ⟨rfl, rfl⟩, hrecover.symm, rfl⟩

/-- Over zeros, continuing is starting. -/
lemma recover_of_zeros {region : Region} {b : Buffer} (h : ∀ i, b.get i = 0) :
    (recover region b).1 =
      { region, counter := { capacity := region.capacity }, generation := 0 } := by
  have hfinish := finish_eq_of_chain (.nil .start) (checkAt_of_zeros fun i _ => h i)
  simp only [recover, openingGeneration, hfinish, highestGeneration_of_zeros h]
  rfl

lemma create_opened (h : (create config).run s = .ok a s') :
    a.Opened (s'.contents a.region) ∧ ∀ i, (s'.contents a.region).get i = 0 := by
  obtain ⟨-, region, hregion, rfl⟩ := create_eq_ok_iff.1 h
  obtain ⟨hmaps, hzero⟩ := Region.maps_of_createMapped hregion
  exact ⟨⟨(recover_of_zeros hzero).symm, Region.size_contents .., hmaps.mappable⟩, hzero⟩

lemma openExisting_opened (h : (openExisting config).run s = .ok (a, report) s') :
    a.Opened (s'.contents a.region) ∧ report = (scan (s'.contents a.region)).finish := by
  obtain ⟨-, region, hregion, hrecover⟩ := openExisting_eq_ok_iff.1 h
  obtain rfl : a = (recover region (s'.contents region)).1 := congrArg Prod.fst hrecover
  obtain rfl : report = (recover region (s'.contents region)).2 := congrArg Prod.snd hrecover
  have hmaps := Region.maps_of_openMapped hregion
  exact ⟨⟨rfl, Region.size_contents .., hmaps.mappable⟩, rfl⟩

lemma Opens.opened (h : Opens config s a s') : a.Opened (s'.contents a.region) := by
  cases h with
  | create h => exact (create_opened h).1
  | openExisting h => exact (openExisting_opened h).1

/-- **A valid configuration creates a journal,** if the file can be made. -/
lemma exists_create {block : BlockId} {t : Storage} (hvalid : config.validate = .ok ())
    (hfile : s.createFile config.path = .ok (block, t)) :
    ∃ a s', (create config).run s = .ok a s' ∧ a.region.capacity = config.regionCapacity := by
  have hcapacity : validateCapacity config.capacity = .ok () := by
    rw [JournalConfig.validate] at hvalid
    split at hvalid
    · cases hvalid
    · exact hvalid
  obtain ⟨rounded, hround, -⟩ := exists_pageRound hcapacity
  have hregion := Region.createMapped_eq_ok_iff.2 ⟨block, t, rounded, hcapacity, hround, hfile, rfl, rfl⟩
  refine ⟨_, _, create_eq_ok_iff.2 ⟨hvalid, _, hregion, rfl⟩, ?_⟩
  exact (pageRounded_eq hround).symm

lemma Opens.maps (h : Opens config s a s') :
    a.region.Maps s' config.path ∧ config.path.isEmpty = false := by
  cases h with
  | create h =>
    obtain ⟨hvalid, region, hregion, rfl⟩ := create_eq_ok_iff.1 h
    refine ⟨(Region.maps_of_createMapped hregion).1, ?_⟩
    cases hpath : config.path.isEmpty with
    | false => rfl
    | true => simp [JournalConfig.validate, hpath] at hvalid
  | openExisting h =>
    obtain ⟨hpath, region, hregion, hrecover⟩ := openExisting_eq_ok_iff.1 h
    have ha := congrArg Prod.fst hrecover
    subst ha
    exact ⟨Region.maps_of_openMapped hregion, hpath⟩

/-- **A journal that is there can be opened again,** as it was left. -/
lemma exists_openExisting {r : Region} (hmaps : r.Maps s config.path)
    (hpath : config.path.isEmpty = false) : ∃ a s',
      (openExisting config).run s = .ok (a, (scan (s.contents r)).finish) s' ∧
        s'.contents a.region = s.contents r ∧ a.region.Maps s' config.path ∧
        a.region.capacity = r.capacity := by
  let region : Region := s.nextRegion r.capacity r.block (some config.path)
  let s' : Storage := s.afterRegion
  have hregion : (Region.openMapped config.path).run s = .ok region s' := hmaps.openMapped_eq
  exact ⟨_, s', openExisting_eq_ok_iff.2 ⟨hpath, region, hregion, rfl⟩, rfl,
    Region.maps_of_openMapped hregion, rfl⟩

end JournalArena

end BumpArena
