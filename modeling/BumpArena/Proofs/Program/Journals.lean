import BumpArena.Proofs.Journal.Commit
import BumpArena.Proofs.Journal.Opening

/-!
# Journals in use

What a program can do with a journal and with a record that it has reserved.  The operations on
bytes need no check of where a record lies, as nothing can be stored past the end of a buffer.  A
program has its records as parts of memory, and computes where they begin and end.  So each use of
a record makes these checks as well: the sums are words, the payload ends in the region
(`Reservation.requireInside`), and what is appended fills its record (`Reservation.requireFilled`).

None of them fails for a record that lies in its region (`Reservation.Inside`), and a reservation
grants no other (`JournalArena.Sound.exists_reserve`).
-/

namespace BumpArena

open Journal

/-! ## Records -/

namespace Reservation

/-- Goes on only when the magic word and the payload of a record have offsets that are words, and
the payload ends in the region. -/
def requireInside (p : Reservation) (r : Region) : Checked Unit := do
  let _ ← Word.add p.offset Header.magicOffset
  let start ← Word.add p.offset Header.size
  let stop ← Word.add start p.length
  if r.capacity < stop then throw (.sliceOutOfRange stop r.capacity)

/-- Goes on only when so many bytes fill the payload. -/
def requireFilled (p : Reservation) (count : Nat) : Checked Unit :=
  if p.length = count then .ok () else .error (.sliceOutOfRange count p.length)

/-- What can be done with a record that was reserved. -/
inductive Use where
  | write (position : Nat) (data : List UInt8)
  | commit (timestamp : UInt64)

/-- The storage after a use. -/
def use (p : Reservation) (r : Region) (s : Storage) : Use → Checked Storage
  | .write position data => do
    p.requireInside r
    match p.write? (s.contents r) position data with
    | some bytes => return s.save r bytes
    | none => return s
  | .commit timestamp => do
    p.requireInside r
    let (_, bytes) ← p.commit (s.contents r) timestamp
    return s.save r bytes

variable {p : Reservation} {r : Region}

/-- The record lies in a region. -/
structure Inside (p : Reservation) (r : Region) : Prop where
  stop_le : p.offset + Header.size + p.length ≤ r.capacity
  capacity_le : r.capacity ≤ maxCapacity

lemma Inside.lt_limit (h : p.Inside r) : p.offset + Header.size + p.length < Word.limit :=
  lt_limit_of_le_maxCapacity (Nat.le_trans h.stop_le h.capacity_le)

lemma Inside.requireInside_eq (h : p.Inside r) : p.requireInside r = .ok () := by
  have hlimit := h.lt_limit
  have hmagic : Word.add p.offset Header.magicOffset = .ok (p.offset + Header.magicOffset) := by
    refine Word.add_eq_ok ?_
    have hlt : Header.magicOffset < Header.size := by decide
    omega
  have hstart : Word.add p.offset Header.size = .ok (p.offset + Header.size) :=
    Word.add_eq_ok (by omega)
  have hstop : Word.add (p.offset + Header.size) p.length =
      .ok (p.offset + Header.size + p.length) := Word.add_eq_ok hlimit
  simp only [requireInside, hmagic, hstart, hstop, bind, Except.bind]
  rw [if_neg (Nat.not_lt.2 h.stop_le)]
  rfl

/-- **No use of a record faults.**  Storing the header does not change the checksum. -/
lemma Inside.exists_use (h : p.Inside r) (s : Storage) (use : Use) :
    ∃ s', p.use r s use = .ok s' := by
  cases use with
  | write position data =>
    rw [Reservation.use, h.requireInside_eq]
    cases p.write? (s.contents r) position data with
    | none => exact ⟨_, rfl⟩
    | some bytes => exact ⟨_, rfl⟩
  | commit timestamp =>
    have hlimit := h.lt_limit
    have hcommit := commit_eq (b := s.contents r) timestamp (p := p) (by omega)
    rw [Reservation.use, h.requireInside_eq, hcommit]
    exact ⟨_, rfl⟩

end Reservation

/-! ## Journals -/

namespace JournalArena

/-- What can be asked of a journal. -/
inductive Use where
  | reserve (length : Nat)
  | append (payload : List UInt8) (timestamp : UInt64)
  | reset
  | stats

/-- The record that was reserved for later, and the journal and the storage after a use. -/
def use (a : JournalArena) (s : Storage) :
    Use → Checked (Option Reservation × JournalArena × Storage)
  | .reserve length => do
    let (granted, a', bytes) ← a.reserve (s.contents a.region) length
    if let some p := granted then p.requireInside a.region
    return (granted, a', s.save a.region bytes)
  | .append payload timestamp => do
    let (granted, _, _) ← a.reserve (s.contents a.region) payload.length
    if let some p := granted then
      p.requireInside a.region
      p.requireFilled payload.length
    let (_, a', bytes) ← a.append (s.contents a.region) payload timestamp
    return (none, a', s.save a.region bytes)
  | .reset => do
    let _ ← a.stats
    let (a', bytes) ← a.reset (s.contents a.region)
    return (none, a', s.save a.region bytes)
  | .stats => do
    let _ ← a.stats
    return (none, a, s)

variable {a : JournalArena} {b : Buffer} {length : Nat}

/-- What a journal has from the start and keeps. -/
structure Sound (a : JournalArena) : Prop where
  capacity_eq : a.counter.capacity = a.region.capacity
  header_le : Header.size ≤ a.region.capacity
  capacity_le : a.region.capacity ≤ maxCapacity

lemma Opens.sound {config : JournalConfig} {s s' : Storage} (h : Opens config s a s') :
    a.Sound where
  capacity_eq := by
    rw [h.opened.eq_recover]
    rfl
  header_le := h.opened.header_le
  capacity_le := h.opened.mappable.le

lemma Sound.moveTo (h : a.Sound) (position : Nat) : (a.moveTo position).Sound :=
  ⟨h.capacity_eq, h.header_le, h.capacity_le⟩

/-- **A reservation is answered,** and what it grants lies in the region. -/
lemma Sound.exists_reserve (h : a.Sound) (b : Buffer) (length : Nat) :
    ∃ granted a' b', a.reserve b length = .ok (granted, a', b') ∧ a'.Sound ∧
      ∀ p, granted = some p → p.Inside a.region ∧ p.length = length := by
  have hlimit : 2 * a.counter.capacity + 1 < Word.limit := by
    rw [h.capacity_eq]
    exact two_mul_lt_of_le_maxCapacity h.capacity_le
  cases hsize : recordSize length with
  | none =>
    refine ⟨none, a, b, reserve_of_recordSize_eq_none hsize, h, ?_⟩
    intro p hp
    cases hp
  | some size =>
    have hreserve := reserve_of_recordSize_eq_some (b := b) hsize hlimit
    split at hreserve
    · refine ⟨_, _, _, hreserve, h, ?_⟩
      intro p hp
      cases hp
    split at hreserve
    · next hfits =>
      refine ⟨_, _, _, hreserve, h.moveTo _, ?_⟩
      rintro p ⟨⟩
      have hroom := le_of_recordSize hsize
      rw [h.capacity_eq] at hfits
      refine ⟨⟨?_, h.capacity_le⟩, rfl⟩
      show a.counter.position + Header.size + length ≤ a.region.capacity
      omega
    · refine ⟨_, _, _, hreserve, h.moveTo _, ?_⟩
      intro p hp
      cases hp

lemma Sound.exists_reset (h : a.Sound) (b : Buffer) :
    ∃ a' b', a.reset b = .ok (a', b') ∧ a'.Sound := by
  refine ⟨{ a with counter := a.counter.reset, generation := following a.generation },
    b.write Header.magicOffset [0, 0, 0, 0], ?_, h.capacity_eq, h.header_le, h.capacity_le⟩
  rw [reset, if_neg (Nat.not_lt.2 h.header_le)]

/-- **No use of a journal faults.** -/
lemma Sound.exists_use (h : a.Sound) (s : Storage) (use : Use) :
    ∃ granted a' s', a.use s use = .ok (granted, a', s') ∧ a'.Sound ∧
      ∀ p, granted = some p → p.Inside a.region := by
  cases use with
  | reserve length =>
    obtain ⟨granted, a', b, hreserve, hsound, hinside⟩ :=
      h.exists_reserve (s.contents a.region) length
    refine ⟨granted, a', s.save a.region b, ?_, hsound, fun p hp => (hinside p hp).1⟩
    cases granted with
    | none =>
      simp only [JournalArena.use, hreserve]
      rfl
    | some p =>
      have hp := (hinside p rfl).1
      simp only [JournalArena.use, hreserve, hp.requireInside_eq, bind, Except.bind]
      rfl
  | append payload timestamp =>
    obtain ⟨granted, a', b, hreserve, hsound, hinside⟩ :=
      h.exists_reserve (s.contents a.region) payload.length
    cases granted with
    | none =>
      have happend : a.append (s.contents a.region) payload timestamp = .ok (none, a', b) :=
        append_eq_of_refused hreserve
      refine ⟨none, a', s.save a.region b, ?_, hsound, nofun⟩
      simp only [JournalArena.use, hreserve, happend]
      rfl
    | some p =>
      obtain ⟨hp, hlength⟩ := hinside p rfl
      have hlimit := hp.lt_limit
      have hfilled : p.requireFilled payload.length = .ok () := if_pos hlength
      have happend : a.append (s.contents a.region) payload timestamp =
          .ok (some ⟨UInt32.ofNat p.payloadOffset, p.region⟩, a',
            p.committed (b.write p.payloadOffset payload) timestamp) :=
        append_eq_of_reserve hreserve (by omega)
      refine ⟨none, a', s.save a.region (p.committed (b.write p.payloadOffset payload) timestamp),
        ?_, hsound, nofun⟩
      simp only [JournalArena.use, hreserve, happend, hp.requireInside_eq, hfilled, bind,
        Except.bind]
      rfl
  | reset =>
    obtain ⟨a', b, hreset, hsound⟩ := h.exists_reset (s.contents a.region)
    refine ⟨none, a', s.save a.region b, ?_, hsound, nofun⟩
    simp only [JournalArena.use, JournalArena.stats, Counter.stats_eq, hreset]
    rfl
  | stats =>
    refine ⟨none, a, s, ?_, h, nofun⟩
    simp only [JournalArena.use, JournalArena.stats, Counter.stats_eq]
    rfl

end JournalArena

end BumpArena
