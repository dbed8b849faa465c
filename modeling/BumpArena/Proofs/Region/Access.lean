import BumpArena.Fixture.Sample
import BumpArena.Proofs.Handoff.Allocator
import BumpArena.Proofs.Region.PlainType

/-!
# Typed access to regions

A region is asked for its bytes in several ways, each with checks of its own: a value is stored or
read, a range of bytes is taken, a handle is resolved for one element or for a row of them.  All
agree on the one condition `Region.Accepts`, for every handle, value and plain-data type,
zero-sized types and rows whose size is no word included (`Region.access_laws`).  What was stored
is read back as a value and as its little-endian image (`Region.Stored`), everything apart from it
is left as it was, and a store that is refused changes nothing.

Part of the condition is that the address is aligned.  For alignments up to a page that can be told
from the handle alone.  Beyond that it cannot, as a region begins on any page
(`Region.exists_not_writeValue_of_hasPlace`).
-/

namespace BumpArena

/-- The bytes from a handle on. -/
def Handle.span (h : Handle) (length : Nat) : Span :=
  ⟨h.offset.toNat, h.offset.toNat + length⟩

/-- The handle of an element in a row that starts at a handle. -/
def Handle.element (h : Handle) (layout : Layout) (i : Nat) : Handle :=
  ⟨UInt32.ofNat (h.offset.toNat + i * layout.size), h.region⟩

namespace Region

/-- The handle names bytes of the region, as many as an element has. -/
structure Spans (r : Region) (h : Handle) (layout : Layout) : Prop where
  isNull_eq : h.isNull = false
  region_eq : h.region = r.id
  le : h.offset.toNat + layout.size ≤ r.capacity

/-- **When there is room for a value at a handle**: its bytes are there, and their address is
aligned. -/
structure Accepts (r : Region) (h : Handle) (layout : Layout) : Prop extends Spans r h layout where
  divides : layout.align.Divides (r.base + h.offset.toNat)

/-- **What can be told of it from the handle**: its bytes are there, and their offset is aligned. -/
structure HasPlace (r : Region) (h : Handle) (layout : Layout) : Prop extends Spans r h layout where
  dvd : layout.align.bytes ∣ h.offset.toNat

/-- **What a store leaves behind** in the bytes of a region. -/
structure Stored (r : Region) (b b' : Buffer) (t : PlainType) (h : Handle) (v : t.Value) :
    Prop where
  value : (r.readValue b' h t.layout).map t.ofImage = some v
  image : r.bytes b' h t.layout.size = some (t.image v).val
  size_eq : b'.size = b.size
  outside : ∀ i, i < h.offset.toNat ∨ h.offset.toNat + t.layout.size ≤ i → b'.get i = b.get i
  values : ∀ (g : Handle) (layout : Layout), (g.span layout.size).Disjoint (h.span t.layout.size) →
    r.readValue b' g layout = r.readValue b g layout
  ranges : ∀ (g : Handle) (length : Nat), (g.span length).Disjoint (h.span t.layout.size) →
    r.bytes b' g length = r.bytes b g length

/-- **What access to a value promises.** -/
structure AccessLaws (r : Region) (b : Buffer) (t : PlainType) (h : Handle) (v : t.Value) :
    Prop where
  stored_iff : (r.writeValue b h (t.image v)).1 = true ↔ r.Accepts h t.layout
  read_iff : (r.readValue b h t.layout).isSome = true ↔ r.Accepts h t.layout
  stored : (r.writeValue b h (t.image v)).1 = true →
    r.Stored b (r.writeValue b h (t.image v)).2 t h v
  refused : (r.writeValue b h (t.image v)).1 = false → (r.writeValue b h (t.image v)).2 = b
  /-- One element is a row of one. -/
  single : r.resolve h t.layout = r.resolveSlice h t.layout 1
  /-- Where a row resolves, each of its elements does. -/
  element : ∀ count offset, r.resolveSlice h t.layout count = some offset →
    ∀ i < count, r.resolve (h.element t.layout i) t.layout = some (offset + i * t.layout.size)
  /-- Up to the alignment of a page, the handle decides. -/
  accepts_iff : t.layout.align.bytes ≤ page.bytes → (r.Accepts h t.layout ↔ r.HasPlace h t.layout)

variable {r : Region} {b : Buffer} {h : Handle} {layout : Layout} {offset : Nat}

/-! ## Resolution -/

/-- A handle resolves to its own offset, where there is room. -/
lemma resolve_eq_some_iff_accepts :
    r.resolve h layout = some offset ↔ r.Accepts h layout ∧ offset = h.offset.toNat := by
  rw [resolve_eq_some_iff, byteRange_eq_some_iff]
  constructor
  · rintro ⟨⟨hnull, hregion, hle, rfl⟩, hdivides⟩
    exact ⟨⟨⟨hnull, hregion, hle⟩, hdivides⟩, rfl⟩
  · rintro ⟨haccepts, rfl⟩
    exact ⟨⟨haccepts.isNull_eq, haccepts.region_eq, haccepts.le, rfl⟩, haccepts.divides⟩

/-- The base of a region has every alignment up to a page. -/
lemma accepts_iff_hasPlace (halign : layout.align.bytes ≤ page.bytes) :
    r.Accepts h layout ↔ r.HasPlace h layout := by
  have hdivides : layout.align.Divides (r.base + h.offset.toNat) ↔
      layout.align.bytes ∣ h.offset.toNat :=
    (divides_base_add_iff halign).trans Nat.dvd_iff_mod_eq_zero.symm
  constructor
  · exact fun haccepts => ⟨haccepts.toSpans, hdivides.1 haccepts.divides⟩
  · exact fun hplace => ⟨hplace.toSpans, hdivides.2 hplace.dvd⟩

lemma resolve_of_accepts (haccepts : r.Accepts h layout) :
    r.resolve h layout = some h.offset.toNat :=
  resolve_eq_some_iff_accepts.2 ⟨haccepts, rfl⟩

lemma resolve_eq_none (hrefused : ¬ r.Accepts h layout) : r.resolve h layout = none :=
  Option.eq_none_iff_forall_ne_some.2 fun _ hsome =>
    hrefused (resolve_eq_some_iff_accepts.1 hsome).1

/-- The size of one element is a word, so that a row of one has the bounds of the element. -/
lemma resolve_eq_resolveSlice (r : Region) (h : Handle) (layout : Layout) :
    r.resolve h layout = r.resolveSlice h layout 1 := by
  have hword : Word.mul? layout.size 1 = some layout.size :=
    Word.mul?_eq_some_iff.2 ⟨(Nat.mul_one _).symm, by simpa using layout.size_lt⟩
  simp only [resolve, resolveSlice, hword, Option.bind_eq_bind, Option.bind_some]

/-- **Every element of a row that resolves does so too.**  Its offset is past no largest region, so
that the handle holds it. -/
lemma resolve_element (hmax : r.capacity ≤ maxCapacity) {count i : Nat}
    (hrow : r.resolveSlice h layout count = some offset) (hi : i < count) :
    r.resolve (h.element layout i) layout = some (offset + i * layout.size) := by
  obtain ⟨length, hlength, hrange, hdivides⟩ := resolveSlice_eq_some_iff.1 hrow
  obtain ⟨rfl, -⟩ := Word.mul?_eq_some_iff.1 hlength
  obtain ⟨-, hregion, hle, rfl⟩ := byteRange_eq_some_iff.1 hrange
  have hinside : i * layout.size + layout.size ≤ layout.size * count := by
    rw [← Nat.succ_mul, Nat.mul_comm layout.size]
    exact Nat.mul_le_mul_right _ hi
  have helement : h.element layout i = r.handleAt (h.offset.toNat + i * layout.size) := by
    rw [Handle.element, hregion]
    rfl
  obtain ⟨hnull, hoffset⟩ :=
    toNat_handleAt (r := r) (show h.offset.toNat + i * layout.size ≤ maxCapacity by omega)
  rw [helement]
  refine resolve_eq_some_iff_accepts.2 ⟨⟨⟨hnull, rfl, ?_⟩, ?_⟩, hoffset.symm⟩
  · rw [hoffset]
    omega
  · rw [hoffset, ← Nat.add_assoc]
    refine Nat.mod_eq_zero_of_dvd (Nat.dvd_add (Nat.dvd_of_mod_eq_zero hdivides) ?_)
    exact Nat.dvd_mul_left_of_dvd layout.align_dvd i

/-! ## Storing and reading -/

lemma writeValue_of_accepts (haccepts : r.Accepts h layout) (value : layout.Value) :
    r.writeValue b h value = (true, b.write h.offset.toNat value.val) := by
  rw [writeValue, resolve_of_accepts haccepts]

lemma writeValue_of_not_accepts (hrefused : ¬ r.Accepts h layout) (value : layout.Value) :
    r.writeValue b h value = (false, b) := by
  rw [writeValue, resolve_eq_none hrefused]

lemma isSome_readValue_iff : (r.readValue b h layout).isSome = true ↔ r.Accepts h layout := by
  by_cases haccepts : r.Accepts h layout
  · simp only [readValue, resolve_of_accepts haccepts, Option.map_some, Option.isSome_some,
      haccepts]
  · simp only [readValue, resolve_eq_none haccepts, Option.map_none, Option.isSome_none, haccepts,
      Bool.false_eq_true]

variable {c : Buffer}

/-- A value is read from its own bytes. -/
lemma readValue_congr (hagree : b.AgreeOn c h.offset.toNat (h.offset.toNat + layout.size)) :
    r.readValue b h layout = r.readValue c h layout := by
  by_cases haccepts : r.Accepts h layout
  · simp only [readValue, resolve_of_accepts haccepts, Option.map_some, Option.some.injEq]
    exact Subtype.ext (hagree.read_eq (Nat.le_refl _) (Nat.le_refl _))
  · simp only [readValue, resolve_eq_none haccepts, Option.map_none]

/-- A range is read from its own bytes. -/
lemma bytes_congr {length : Nat}
    (hagree : b.AgreeOn c h.offset.toNat (h.offset.toNat + length)) :
    r.bytes b h length = r.bytes c h length := by
  cases hrange : r.byteRange h length with
  | none => simp only [bytes, hrange, Option.map_none]
  | some offset =>
    obtain ⟨-, -, -, rfl⟩ := byteRange_eq_some_iff.1 hrange
    simp only [bytes, hrange, Option.map_some, hagree.read_eq (Nat.le_refl _) (Nat.le_refl _)]

/-- **A value that is stored is there, and nothing else changes.** -/
lemma stored_write (hsize : b.size = r.capacity) {t : PlainType} (haccepts : r.Accepts h t.layout)
    (v : t.Value) : r.Stored b (b.write h.offset.toNat (t.image v).val) t h v := by
  have hlength : (t.image v).val.length = t.layout.size := (t.image v).property
  have hread : (b.write h.offset.toNat (t.image v).val).read h.offset.toNat t.layout.size =
      (t.image v).val := by
    have hfits : h.offset.toNat + (t.image v).val.length ≤ b.size := by
      rw [hlength, hsize]
      exact haccepts.le
    have hself := b.read_write_self hfits
    rwa [hlength] at hself
  have hapart (g : Handle) (length : Nat) (hdisjoint : (g.span length).Disjoint
      (h.span t.layout.size)) : (b.write h.offset.toNat (t.image v).val).AgreeOn b g.offset.toNat
        (g.offset.toNat + length) := by
    refine Buffer.agreeOn_write ?_
    rw [hlength]
    exact hdisjoint
  refine ⟨?_, ?_, b.size_write .., fun i hi => ?_, fun g layout hdisjoint => ?_,
    fun g length hdisjoint => ?_⟩
  · rw [readValue, resolve_of_accepts haccepts, Option.map_some, Option.map_some]
    have himage : (⟨_, Buffer.length_read ..⟩ : t.layout.Value) = t.image v := Subtype.ext hread
    rw [himage, t.ofImage_image]
  · have hrange : r.byteRange h t.layout.size = some h.offset.toNat :=
      byteRange_eq_some_iff.2 ⟨haccepts.isNull_eq, haccepts.region_eq, haccepts.le, rfl⟩
    rw [bytes, hrange, Option.map_some, hread]
  · rw [Buffer.get_write, if_neg (by omega)]
  · exact readValue_congr (hapart g _ hdisjoint)
  · exact bytes_congr (hapart g _ hdisjoint)

/-- **All access to a region goes by one condition**, whatever is in the region: a value is stored,
and read, exactly where there is room for it at the handle.  A store that succeeds is read back,
and leaves everything apart from it alone; one that fails changes nothing.  Rows of elements
resolve by the same condition as single ones, and so does each element of a row.  For an alignment
up to a page the condition asks nothing of the region but its identity and its capacity. -/
theorem access_laws (hmade : r.Made) (hsize : b.size = r.capacity) (t : PlainType) (h : Handle)
    (v : t.Value) : r.AccessLaws b t h v := by
  have hrows := resolve_eq_resolveSlice r h t.layout
  have helements (count offset : Nat) (hrow : r.resolveSlice h t.layout count = some offset)
      (i : Nat) (hi : i < count) :
      r.resolve (h.element t.layout i) t.layout = some (offset + i * t.layout.size) :=
    resolve_element hmade.capacity_le hrow hi
  by_cases haccepts : r.Accepts h t.layout
  · have hwrite := writeValue_of_accepts (b := b) haccepts (t.image v)
    refine ⟨?_, isSome_readValue_iff, fun _ => ?_, ?_, hrows, helements, accepts_iff_hasPlace⟩
    · simp only [hwrite, haccepts]
    · rw [hwrite]
      exact stored_write hsize haccepts v
    · simp [hwrite]
  · have hwrite := writeValue_of_not_accepts (b := b) haccepts (t.image v)
    refine ⟨?_, isSome_readValue_iff, ?_, fun _ => ?_, hrows, helements, accepts_iff_hasPlace⟩
    · simp [hwrite, haccepts]
    · simp [hwrite]
    · rw [hwrite]

/-- The type of samples, as the words that they are made of. -/
def sampleWords : PlainType where
  layout := Fixture.Sample.layout
  widths := [8, 8, 4, 4]
  sum_widths := rfl

def sampleValue : sampleWords.Value :=
  ⟨[258, 3, 1, 0xFFFFFFFF],
    .cons (by decide) (.cons (by decide) (.cons (by decide) (.cons (by decide) .nil)))⟩

/-- The last bytes of a new region take a sample, and hold its words one after the other.  The bytes
before them are what they were. -/
theorem access_laws_atEnd : ∃ r s', (makeVolatile 4096).run default = .ok r s' ∧
    r.AccessLaws (.filled 4096 0xAA) sampleWords ⟨4072, ⟨1⟩⟩ sampleValue ∧
    ∃ b', r.writeValue (.filled 4096 0xAA) ⟨4072, ⟨1⟩⟩ (sampleWords.image sampleValue) =
        (true, b') ∧
      r.bytes b' ⟨4072, ⟨1⟩⟩ 24 =
        some [2, 1, 0, 0, 0, 0, 0, 0, 3, 0, 0, 0, 0, 0, 0, 0, 1, 0, 0, 0, 255, 255, 255, 255] ∧
      r.bytes b' ⟨4068, ⟨1⟩⟩ 4 = some [0xAA, 0xAA, 0xAA, 0xAA] := by
  obtain ⟨r, s', hmake, hid, hcapacity⟩ : ∃ r s', (makeVolatile 4096).run default = .ok r s' ∧
      r.id = ⟨1⟩ ∧ r.capacity = 4096 := ⟨_, _, rfl, by decide +kernel, rfl⟩
  have hlaws := access_laws (.volatile hmake) (b := .filled 4096 0xAA) hcapacity.symm sampleWords
    ⟨4072, ⟨1⟩⟩ sampleValue
  have haccepts : r.Accepts ⟨4072, ⟨1⟩⟩ sampleWords.layout :=
    (hlaws.accepts_iff (by decide)).2 ⟨⟨rfl, hid.symm, by rw [hcapacity]; decide⟩, by decide⟩
  have hstored := hlaws.stored (hlaws.stored_iff.2 haccepts)
  have hwrite := writeValue_of_accepts (b := .filled 4096 0xAA) haccepts
    (sampleWords.image sampleValue)
  rw [hwrite] at hstored
  refine ⟨r, s', hmake, hlaws, _, hwrite, hstored.image, ?_⟩
  have hrange : r.byteRange ⟨4068, ⟨1⟩⟩ 4 = some 4068 :=
    byteRange_eq_some_iff.2 ⟨rfl, hid.symm, by rw [hcapacity]; decide, rfl⟩
  rw [hstored.ranges ⟨4068, ⟨1⟩⟩ 4 (by decide), bytes, hrange]
  decide +kernel

/-- A type of two pages that is aligned to its size, as the words that it is made of. -/
def twoPages : PlainType where
  layout := { size := 8192, align := ⟨8192, by decide⟩ }
  widths := List.replicate 1024 8
  sum_widths := List.sum_replicate ..

/-- **Beyond the alignment of a page the handle does not decide.**  A region that begins on an odd
page refuses a value at its first byte, which has the offset zero, and takes it one page further on,
where the address is aligned and the offset is not. -/
theorem exists_not_writeValue_of_hasPlace : ∃ r s', (makeVolatile 16384).run default = .ok r s' ∧
    ∃ (b : Buffer) (v : twoPages.Value), b.size = r.capacity ∧
      r.HasPlace ⟨0, r.id⟩ twoPages.layout ∧
      (r.writeValue b ⟨0, r.id⟩ (twoPages.image v)).1 = false ∧
      r.readValue b ⟨0, r.id⟩ twoPages.layout = none ∧
      ¬ r.HasPlace ⟨4096, r.id⟩ twoPages.layout ∧
      (r.writeValue b ⟨4096, r.id⟩ (twoPages.image v)).1 = true := by
  obtain ⟨r, s', hmake, hcapacity, hbase⟩ : ∃ r s', (makeVolatile 16384).run default = .ok r s' ∧
      r.capacity = 16384 ∧ r.base = 4096 := ⟨_, _, rfl, rfl, rfl⟩
  have hspans (offset : UInt32) (hnull : (⟨offset, r.id⟩ : Handle).isNull = false)
      (hle : offset.toNat + 8192 ≤ 16384) : r.Spans ⟨offset, r.id⟩ twoPages.layout :=
    ⟨hnull, rfl, hcapacity.symm ▸ hle⟩
  have hrefused : ¬ r.Accepts ⟨0, r.id⟩ twoPages.layout := by
    intro haccepts
    have hdivides : twoPages.layout.align.Divides (4096 + 0) := hbase ▸ haccepts.divides
    exact absurd hdivides (by decide)
  have hdivides : twoPages.layout.align.Divides (r.base + 4096) := by
    rw [hbase]
    decide
  have haccepts : r.Accepts ⟨4096, r.id⟩ twoPages.layout :=
    ⟨hspans 4096 rfl (by decide), hdivides⟩
  have hodd : ¬ r.HasPlace ⟨4096, r.id⟩ twoPages.layout :=
    fun hplace => absurd hplace.dvd (show ¬ 8192 ∣ 4096 by decide)
  refine ⟨r, s', hmake, .zeros 16384, twoPages.ofImage ⟨List.replicate 8192 0, ?_⟩,
    hcapacity.symm, ⟨hspans 0 rfl (by decide), Nat.dvd_zero _⟩, ?_, ?_, hodd, ?_⟩
  · exact List.length_replicate
  · rw [writeValue_of_not_accepts hrefused]
  · rw [readValue, resolve_eq_none hrefused, Option.map_none]
  · rw [writeValue_of_accepts haccepts]

end Region

end BumpArena
