import BumpArena.Proofs.Arena.Answers

/-!
# Allocators

An `Allocator` is what one thread gets its bytes from: a flat arena, or a chunked arena together
with the chunk that the thread has to itself.  What the two have in common is all that the thread
relies on.  The bytes that were granted and those that the allocator holds back overlap nowhere and
lie below the counter (`Allocator.Covers`), a request keeps that, and the handle that it yields
resolves to the bytes (`Allocator.Covers.allocateBytes`).
-/

namespace BumpArena

/-! ## Regions that were made -/

namespace Region

/-- The regions that a program can have. -/
inductive Made : Region → Prop
  | volatile {capacity : Nat} {s s' : Storage} {r : Region}
      (hmake : (makeVolatile capacity).run s = .ok r s') : Made r
  | created {path : String} {capacity : Nat} {s s' : Storage} {r : Region}
      (hmake : (createMapped path capacity).run s = .ok r s') : Made r
  | opened {path : String} {s s' : Storage} {r : Region}
      (hmake : (openMapped path).run s = .ok r s') : Made r

lemma Made.capacity_le {r : Region} (h : Made r) : r.capacity ≤ maxCapacity := by
  cases h with
  | volatile hmake =>
    obtain ⟨-, -, -, hmappable⟩ := of_makeVolatile hmake
    exact hmappable.le
  | created hmake => exact (maps_of_createMapped hmake).1.mappable.le
  | opened hmake => exact (maps_of_openMapped hmake).mappable.le

end Region

/-! ## Flat arenas -/

namespace FlatArena

variable {a a' : FlatArena} {request : Request} {h : Handle}

lemma sound_ofRegion {r : Region} (hr : r.Made) : (ofRegion r).Sound := ⟨rfl, hr.capacity_le⟩

lemma exists_ofRegion_of_make {config : ArenaConfig} {s s' : Storage}
    (hmake : (make config).run s = .ok a s') : ∃ r : Region, r.Made ∧ a = ofRegion r := by
  rw [make] at hmake
  obtain ⟨_, _, -, hmake⟩ := StorageM.bind_eq_ok_iff.1 hmake
  obtain ⟨r, _, hregion, hmake⟩ := StorageM.bind_eq_ok_iff.1 hmake
  obtain ⟨rfl, -⟩ := StorageM.pure_eq_ok_iff.1 hmake
  exact ⟨r, .volatile hregion, rfl⟩

/-- What a flat arena does with the bytes that were granted before. -/
lemma packed_of_allocate {spans : List Span} (hsound : a.Sound)
    (hpacked : Span.Packed spans a.counter.used) (hok : a.allocate request = .ok (h, a')) :
    a'.region = a.region ∧ a'.Sound ∧ Span.Packed (request.granted h ++ spans) a'.counter.used ∧
      (h.isNull = false → h.region = a.region.id ∧
        h.offset.toNat + request.layout.size * request.count ≤ a.region.capacity) := by
  have hcapacity := hsound.capacity_eq
  have hmax := hsound.capacity_le
  have hpacked : Span.Packed ([] ++ spans) a.counter.used := hpacked
  rcases allocate_cases hsound request with
    ⟨counter, hrefused, hcounter, hused⟩ | ⟨size, hsize, hle, hserved⟩
  · obtain ⟨rfl, rfl⟩ := Prod.mk.inj (Except.ok.inj (hrefused.symm.trans hok))
    refine ⟨rfl, ⟨hcounter.trans hcapacity, hmax⟩, ?_, fun hnull => absurd hnull (by decide)⟩
    exact hpacked.advance hused .nil
  · obtain ⟨rfl, rfl⟩ := Prod.mk.inj (Except.ok.inj (hserved.symm.trans hok))
    have hlength := (Request.of_roundedSize? hsize).2
    have hposition : a.counter.position ≤ maxCapacity := by omega
    obtain ⟨-, hoffset⟩ := Region.toNat_handleAt (r := a.region) hposition
    refine ⟨rfl, ⟨hcapacity, hmax⟩, ?_, fun _ => ⟨rfl, ?_⟩⟩
    · rw [Region.granted_handleAt hposition]
      refine hpacked.advance ?_ (.single (List.mem_singleton_self _) ⟨?_, ?_⟩)
      · simp only [Counter.used]
        omega
      · exact Nat.min_le_left ..
      · simp only [Request.spanAt, Counter.used]
        omega
    · rw [hoffset]
      omega

end FlatArena

/-! ## One thread's allocator -/

/-- What a thread allocates from: an arena, and the chunk if there is one. -/
inductive Allocator where
  | flat (a : FlatArena)
  | chunked (a : ChunkedArena) (chunk : LocalChunk)
  deriving DecidableEq, Repr

namespace Allocator

def region : Allocator → Region
  | .flat a => a.region
  | .chunked a _ => a.region

def counter : Allocator → Counter
  | .flat a => a.counter
  | .chunked a _ => a.counter

/-- Grants a number of bytes, or yields the null handle. -/
def allocateBytes : Allocator → Nat → Checked (Handle × Allocator)
  | .flat a, length => do
    let (h, a) ← a.allocate (.ofBytes length)
    return (h, .flat a)
  | .chunked a c, length => do
    let (h, c, a) ← a.allocate c (.ofBytes length)
    return (h, .chunked a c)

/-- **Allocators that granted nothing yet.**  A flat arena was made, over a new region or over one
that was there.  A chunked arena starts over, and does not take the thread's chunk for one of its
own. -/
inductive Fresh : Allocator → Prop
  | flat {config : ArenaConfig} {s s' : Storage} {a : FlatArena}
      (hmake : (FlatArena.make config).run s = .ok a s') : Fresh (.flat a)
  | overRegion {r : Region} (hr : r.Made) : Fresh (.flat (.ofRegion r))
  | chunked {a : ChunkedArena} {c : LocalChunk} (hstart : a.Starting) (howns : a.owns c = false) :
      Fresh (.chunked a c)

/-- The bytes that the allocator holds back for later requests. -/
def held : Allocator → List Span
  | .flat _ => []
  | .chunked a c => a.held c

/-- What every allocator has from the start and keeps. -/
def Sound : Allocator → Prop
  | .flat a => a.Sound
  | .chunked a _ => a.Sound ∧ a.HasChunks

/-- How often room was claimed for the thread's chunk. -/
def claims : Allocator → Nat
  | .flat _ => 0
  | .chunked _ c => c.claims

/-- The most claims that there can come to be. -/
def budget : Allocator → Nat
  | .flat _ => 0
  | .chunked a c => a.budget c

/-- **What was granted is safe.**  The spans that were granted, with what is held back, overlap
nowhere and were all handed out by the counter. -/
structure Covers (alloc : Allocator) (spans : List Span) : Prop where
  sound : alloc.Sound
  packed : Span.Packed (alloc.held ++ spans) alloc.counter.used

variable {alloc alloc' : Allocator} {spans : List Span} {h : Handle} {length : Nat}

lemma Fresh.covers (hfresh : alloc.Fresh) : alloc.Covers [] := by
  cases hfresh with
  | flat hmake =>
    obtain ⟨r, hr, rfl⟩ := FlatArena.exists_ofRegion_of_make hmake
    exact ⟨FlatArena.sound_ofRegion hr, .nil⟩
  | overRegion hr => exact ⟨FlatArena.sound_ofRegion hr, .nil⟩
  | @chunked a c hstart howns =>
    refine ⟨⟨hstart.sound, hstart.hasChunks⟩, ?_⟩
    show Span.Packed (a.held c ++ []) a.counter.used
    rw [ChunkedArena.held_of_not_owns howns]
    exact .nil

lemma Fresh.budget_le (hfresh : alloc.Fresh) : alloc.budget ≤ alloc.claims + maxCapacity := by
  cases hfresh with
  | flat => exact Nat.zero_le _
  | overRegion => exact Nat.zero_le _
  | @chunked a c hstart howns =>
    have hcapacity := hstart.sound.capacity_eq
    have hle := hstart.sound.capacity_le
    show c.claims + (a.counter.capacity - a.counter.used) ≤ c.claims + maxCapacity
    omega

/-- Fewer spans are covered too. -/
lemma Covers.subperm {fewer : List Span} (hcovers : alloc.Covers spans)
    (hfewer : List.Subperm fewer spans) : alloc.Covers fewer where
  sound := hcovers.sound
  packed := hcovers.packed.subperm ((List.subperm_append_left _).2 hfewer)

lemma byteRange_of_resolveSlice {r : Region} {offset : Nat}
    (hresolves : r.resolveSlice h .byte (max length 1) = some offset) :
    r.byteRange h length = some offset := by
  obtain ⟨bytes, hbytes, hrange, -⟩ := Region.resolveSlice_eq_some_iff.1 hresolves
  obtain ⟨rfl, -⟩ := Word.mul?_eq_some_iff.1 hbytes
  obtain ⟨hnull, hregion, hle, hoffset⟩ := Region.byteRange_eq_some_iff.1 hrange
  have hle : offset + 1 * max length 1 ≤ r.capacity := hle
  exact Region.byteRange_eq_some_iff.2 ⟨hnull, hregion, by omega, hoffset⟩

/-- **What a request does.**  It keeps the region, and covers what it granted as well.  A handle
that is not null resolves to the bytes. -/
theorem Covers.allocateBytes (hcovers : alloc.Covers spans)
    (hok : alloc.allocateBytes length = .ok (h, alloc')) :
    alloc'.region = alloc.region ∧
      alloc'.Covers ((Request.ofBytes length).granted h ++ spans) ∧
      (h.isNull = false → alloc.region.byteRange h length = some h.offset.toNat) := by
  cases alloc with
  | flat a =>
    obtain ⟨⟨handle, a'⟩, hallocate, hok⟩ := bind_eq_ok_iff.1 hok
    simp only [pure, Except.pure, Except.ok.injEq, Prod.mk.injEq] at hok
    obtain ⟨rfl, rfl⟩ := hok
    obtain ⟨hregion, hsound, hpacked, hrange⟩ :=
      FlatArena.packed_of_allocate hcovers.sound hcovers.packed hallocate
    refine ⟨hregion, ⟨hsound, hpacked⟩, fun hnull => ?_⟩
    obtain ⟨hid, hle⟩ := hrange hnull
    have hle : handle.offset.toNat + 1 * max length 1 ≤ a.region.capacity := hle
    have hrange : handle.offset.toNat + length ≤ a.region.capacity := by omega
    exact Region.byteRange_eq_some_iff.2 ⟨hnull, hid, hrange, rfl⟩
  | chunked a c =>
    obtain ⟨⟨_, d, a'⟩, hallocate, hok⟩ := bind_eq_ok_iff.1 hok
    simp only [pure, Except.pure, Except.ok.injEq, Prod.mk.injEq] at hok
    obtain ⟨rfl, rfl⟩ := hok
    obtain ⟨hsound, hchunks⟩ : a.Sound ∧ a.HasChunks := hcovers.sound
    have hpacked : Span.Packed (a.held c ++ spans) a.counter.used := hcovers.packed
    have hserves := ChunkedArena.serves_of_allocate hsound hallocate
    have hheld : ∀ x ∈ a.held c, x.stop ≤ a.counter.used :=
      fun x hx => hpacked.stop_le x (List.mem_append_left _ hx)
    refine ⟨hserves.region_eq, ⟨⟨hserves.sound hsound, hserves.hasChunks hchunks⟩, ?_⟩, ?_⟩
    · have hafter := hpacked.advance hserves.used_le (hserves.parts hsound hheld)
      rw [List.append_assoc] at hafter
      exact hafter.subperm (List.perm_append_comm_assoc ..).subperm
    · intro hnull
      have halign : Layout.byte.align.bytes ≤ cacheLine.bytes := by decide
      exact byteRange_of_resolveSlice (hserves.resolves hsound hheld halign hnull)

/-- **A request is always answered**, as long as a word can count all claims that there can be. -/
theorem Covers.exists_allocateBytes (hcovers : alloc.Covers spans)
    (hbudget : alloc.budget < Word.limit) (length : Nat) :
    ∃ h alloc', alloc.allocateBytes length = .ok (h, alloc') ∧ alloc'.budget ≤ alloc.budget := by
  cases alloc with
  | flat a =>
    rcases FlatArena.allocate_cases hcovers.sound (.ofBytes length) with
      ⟨counter, hallocate, -⟩ | ⟨size, -, -, hallocate⟩
    · simp only [Allocator.allocateBytes, hallocate, bind, Except.bind, pure, Except.pure]
      exact ⟨_, _, rfl, Nat.le_refl _⟩
    · simp only [Allocator.allocateBytes, hallocate, bind, Except.bind, pure, Except.pure]
      exact ⟨_, _, rfl, Nat.le_refl _⟩
  | chunked a c =>
    obtain ⟨hsound, hchunks⟩ : a.Sound ∧ a.HasChunks := hcovers.sound
    obtain ⟨h, d, a', hallocate, hle⟩ :=
      ChunkedArena.exists_allocate hsound hchunks hbudget (.ofBytes length)
    simp only [Allocator.allocateBytes, hallocate, bind, Except.bind, pure, Except.pure]
    exact ⟨_, _, rfl, hle⟩

end Allocator

end BumpArena
