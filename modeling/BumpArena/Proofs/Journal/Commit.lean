import BumpArena.Proofs.Journal.Walk
import Mathlib.Data.List.Induction

/-!
# Reserving and committing a record

One lemma for each operation on the bytes says what it does to them, and everything later cites
these instead of unfolding the operations: `JournalArena.reserve_of_recordSize_eq_some` for a
reservation, `Reservation.commit_eq` for a commit.  A commit is a row of stores, byte by byte up to
the magic word; `get_foldl_byteStores` shows that the row amounts to one store of the header, which
is what a reader decodes (`Reservation.committedAt_committed`).
-/

namespace BumpArena

open Journal

/-! ## Rows of stores -/

lemma size_foldl_apply (stores : List Store) (b : Buffer) :
    (stores.foldl Store.apply b).size = b.size := by
  induction stores generalizing b with
  | nil => rfl
  | cons store stores ih =>
    rw [List.foldl_cons, ih, Store.apply, Buffer.size_write]

/-- Storing bytes one by one is storing them at once. -/
lemma get_foldl_byteStores (b : Buffer) (start : Nat) (bytes : List UInt8) (i : Nat) :
    ((bytes.mapIdx fun k byte => (⟨start + k, [byte]⟩ : Store)).foldl Store.apply b).get i =
      (b.write start bytes).get i := by
  induction bytes using List.reverseRecOn with
  | nil =>
    rw [List.mapIdx_nil, List.foldl_nil, Buffer.get_write, if_neg]
    simp only [List.length_nil]
    omega
  | append_singleton bytes byte ih =>
    rw [List.mapIdx_append, List.foldl_append]
    simp only [List.mapIdx_cons, List.mapIdx_nil, List.foldl_cons, List.foldl_nil, Nat.zero_add,
      Store.apply, Buffer.get_write, size_foldl_apply, List.length_append, List.length_cons,
      List.length_nil] at ih ⊢
    rw [ih]
    by_cases hlast : i = start + bytes.length
    · subst hlast
      simp [List.getD_eq_getElem?_getD]
    · by_cases hin : start ≤ i ∧ i < start + bytes.length ∧ i < b.size
      · rw [if_neg (by omega), if_pos hin, if_pos (by omega), List.getD_append _ _ _ _ (by omega)]
      · rw [if_neg (by omega), if_neg hin, if_neg (by omega)]

namespace Reservation

variable {p : Reservation} {b : Buffer}

lemma encode_eq_append (h : Header) :
    h.encode = h.encode.take Header.magicOffset ++ LittleEndian.encode 4 h.magic.toNat := by
  have htail : h.encode.drop Header.magicOffset = LittleEndian.encode 4 h.magic.toNat := by
    simp [Header.encode, Header.magicOffset, List.drop_append, List.drop_of_length_le]
  rw [← htail, List.take_append_drop]

/-- The stores of a commit amount to one store of the header. -/
lemma get_foldl_stores (h : Header) (hmagic : h.magic = magicWord) (i : Nat) :
    ((p.stores h).foldl Store.apply b).get i = (b.write p.offset h.encode).get i := by
  have hlength : (h.encode.take Header.magicOffset).length = Header.magicOffset := by
    simp [Header.magicOffset, Header.size]
  rw [stores, List.foldl_append, List.foldl_cons, List.foldl_nil, Store.apply, ← hmagic]
  conv => rhs; rw [encode_eq_append h]
  simp only [Buffer.get_write, size_foldl_apply, get_foldl_byteStores, List.length_append, hlength,
    LittleEndian.length_encode]
  by_cases hword : p.offset + Header.magicOffset ≤ i
  · by_cases hin : i < p.offset + Header.magicOffset + 4 ∧ i < b.size
    · rw [if_pos ⟨hword, hin⟩, if_pos (by omega), List.getD_append_right _ _ _ _ (by omega), hlength,
        Nat.sub_sub]
    · rw [if_neg (by omega), if_neg (by omega), if_neg (by omega)]
  · by_cases hin : p.offset ≤ i ∧ i < b.size
    · rw [if_neg (by omega), if_pos (by omega), if_pos (by omega),
        List.getD_append _ _ _ _ (by omega)]
    · rw [if_neg (by omega), if_neg (by omega), if_neg (by omega)]

/-- The journal after a commit. -/
def committed (p : Reservation) (b : Buffer) (timestamp : UInt64) : Buffer :=
  (p.stores (p.header b timestamp)).foldl Store.apply b

@[simp] lemma size_committed (timestamp : UInt64) : (p.committed b timestamp).size = b.size :=
  size_foldl_apply _ _

/-- A commit touches the header and nothing else. -/
lemma agreeOn_committed (timestamp : UInt64) {start stop : Nat}
    (h : stop ≤ p.offset ∨ p.offset + Header.size ≤ start) :
    (p.committed b timestamp).AgreeOn b start stop := by
  intro i hlow hhigh
  rw [committed, get_foldl_stores _ rfl]
  refine Buffer.agreeOn_write (h.imp_right ?_) i hlow hhigh
  intro h
  rwa [Header.length_encode]

lemma headerAt_committed (timestamp : UInt64) (h : p.offset + Header.size ≤ b.size) :
    headerAt (p.committed b timestamp) p.offset = p.header b timestamp := by
  have hread : (p.committed b timestamp).read p.offset Header.size =
      (b.write p.offset (p.header b timestamp).encode).read p.offset Header.size :=
    Buffer.read_congr fun i _ _ => get_foldl_stores _ rfl i
  have hwritten := b.read_write_self
    (show p.offset + (p.header b timestamp).encode.length ≤ b.size by rwa [Header.length_encode])
  rw [Header.length_encode] at hwritten
  rw [headerAt, hread, hwritten, Header.decode_encode]

/-- The payload is what it was. -/
lemma read_committed (timestamp : UInt64) : (p.committed b timestamp).read p.payloadOffset p.length =
    b.read p.payloadOffset p.length := by
  have hagree : (p.committed b timestamp).AgreeOn b p.payloadOffset (p.payloadOffset + p.length) :=
    agreeOn_committed timestamp (.inr (Nat.le_refl _))
  exact hagree.read_eq (Nat.le_refl _) (Nat.le_refl _)

/-- **A commit succeeds,** and its handle is that of the payload.  The checksum that is taken once
more after the stores is the same, as they end where the payload begins. -/
lemma commit_eq (timestamp : UInt64) (h : p.offset + Header.size < Word.limit) :
    p.commit b timestamp =
      .ok (⟨UInt32.ofNat p.payloadOffset, p.region⟩, p.committed b timestamp) := by
  have hsum : Checksum.ofRange (p.committed b timestamp) p.payloadOffset p.length =
      (p.header b timestamp).checksum := by
    rw [Checksum.ofRange_eq, read_committed, ← Checksum.ofRange_eq]
    rfl
  have hcommit : p.commit b timestamp =
      (if Checksum.ofRange (p.committed b timestamp) p.payloadOffset p.length ≠
          (p.header b timestamp).checksum then
        throw (.payloadChanged (Checksum.ofRange (p.committed b timestamp) p.payloadOffset p.length)
          (p.header b timestamp).checksum)
      else do
        let offset ← Word.add p.offset Header.size
        return (⟨UInt32.ofNat offset, p.region⟩, p.committed b timestamp)) := rfl
  rw [hcommit, if_neg (not_not.2 hsum), Word.add_eq_ok h]
  rfl

/-- **What was committed is read back.** -/
lemma committedAt_committed (timestamp : UInt64) {size : Nat}
    (hsize : recordSize p.length = some size) (hfits : p.offset + size ≤ b.size)
    (hlength : p.length < UInt32.size) :
    committedAt (p.committed b timestamp) p.offset = .ok (p.header b timestamp) := by
  have hroom := le_of_recordSize hsize
  have hhead := headerAt_committed (b := b) timestamp (p := p) (by omega)
  have hword : (p.header b timestamp).length.toNat = p.length := Nat.mod_eq_of_lt hlength
  refine committedAt_eq_ok_iff.2
    ⟨by rw [size_committed]; omega, ?_, hhead.symm, ⟨size, ?_, by rwa [size_committed]⟩, ?_⟩
  · rw [magicAt_eq, hhead]
    rfl
  · rw [Header.recordSize, hword, hsize]
  · rw [hword, Checksum.ofRange_eq, ← Reservation.payloadOffset, read_committed,
      ← Checksum.ofRange_eq]
    rfl

end Reservation

/-! ## Reserving -/

namespace JournalArena

variable {a : JournalArena} {b : Buffer} {length : Nat}

/-- The arena with its counter at another position. -/
def moveTo (a : JournalArena) (position : Nat) : JournalArena :=
  { a with counter := { a.counter with position } }

@[simp] lemma region_moveTo (position : Nat) : (a.moveTo position).region = a.region := rfl

@[simp] lemma generation_moveTo (position : Nat) :
    (a.moveTo position).generation = a.generation := rfl

@[simp] lemma capacity_moveTo (position : Nat) :
    (a.moveTo position).counter.capacity = a.counter.capacity := rfl

@[simp] lemma position_moveTo (position : Nat) :
    (a.moveTo position).counter.position = position := rfl

lemma reserve_of_recordSize_eq_none (h : recordSize length = none) :
    a.reserve b length = .ok (none, a, b) := by
  rw [reserve, h]

/-- **A reservation is granted at the position of the counter,** when the counter is not past its
capacity and has room; else only the counter moves. -/
lemma reserve_of_recordSize_eq_some {size : Nat} (h : recordSize length = some size)
    (hlimit : 2 * a.counter.capacity + 1 < Word.limit) :
    a.reserve b length = .ok (
      if a.counter.capacity < a.counter.position then (none, a, b)
      else if a.counter.position + size ≤ a.counter.capacity then
        (some ⟨a.region.id, a.generation, a.counter.position, length⟩,
          a.moveTo (a.counter.position + size),
          b.write (a.counter.position + Header.magicOffset) [0, 0, 0, 0])
      else (none, a.moveTo (a.counter.position + min size (a.counter.capacity + 1)), b)) := by
  simp only [reserve, h, a.counter.claim_eq size hlimit]
  split
  · rfl
  · split <;> rfl

/-- Appending is reserving, storing and committing. -/
lemma append_eq_of_reserve {payload : List UInt8} {timestamp : UInt64}
    {p : Reservation} {a' : JournalArena} {b' : Buffer}
    (h : a.reserve b payload.length = .ok (some p, a', b'))
    (hlimit : p.offset + Header.size < Word.limit) :
    a.append b payload timestamp = .ok (some ⟨UInt32.ofNat p.payloadOffset, p.region⟩, a',
      p.committed (b'.write p.payloadOffset payload) timestamp) := by
  simp only [append, h, bind, Except.bind, Reservation.commit_eq timestamp hlimit]
  rfl

lemma append_eq_of_refused {payload : List UInt8} {timestamp : UInt64}
    {a' : JournalArena} {b' : Buffer} (h : a.reserve b payload.length = .ok (none, a', b')) :
    a.append b payload timestamp = .ok (none, a', b') := by
  simp only [append, h, bind, Except.bind]
  rfl

end JournalArena

end BumpArena
