import BumpArena.Journal.Arena
import BumpArena.Proofs.Agreement

/-!
# The framing of records

The writer of a record and its reader meet in 32 bytes.  This module settles what they agree on:
a header that is encoded and decoded again is the same header, and the magic word that the reader
looks at first is the one in the header that it decodes afterwards.

`committedAt` is the reader's verdict on a slot.  `committedAt_eq_ok_iff` says when it is a
record, in one conjunction; the lemmas after it say what that verdict depends on.  A record is
judged on the bytes of its own slot, and a verdict of any kind on the bytes from the slot on.
-/

namespace BumpArena.Journal

/-! ## Headers as bytes -/

namespace Header

/-- The fields of a decoded header, each from its place in the bytes. -/
lemma decode_eq (bytes : List UInt8) : decode bytes =
    { timestamp := UInt64.ofNat (LittleEndian.decode ((bytes.drop 0).take 8))
      length := UInt32.ofNat (LittleEndian.decode ((bytes.drop 8).take 4))
      checksum := UInt32.ofNat (LittleEndian.decode ((bytes.drop 12).take 4))
      generation := UInt32.ofNat (LittleEndian.decode ((bytes.drop 16).take 4))
      reserved₀ := UInt32.ofNat (LittleEndian.decode ((bytes.drop 20).take 4))
      reserved₁ := UInt32.ofNat (LittleEndian.decode ((bytes.drop 24).take 4))
      magic := UInt32.ofNat (LittleEndian.decode ((bytes.drop 28).take 4)) } := rfl

lemma ofNat_decode_encode_four (x : UInt32) :
    UInt32.ofNat (LittleEndian.decode (LittleEndian.encode 4 x.toNat)) = x := by
  have hlt : x.toNat < LittleEndian.values 4 := x.toNat_lt
  rw [LittleEndian.decode_encode, Nat.mod_eq_of_lt hlt, UInt32.ofNat_toNat]

lemma ofNat_decode_encode_eight (x : UInt64) :
    UInt64.ofNat (LittleEndian.decode (LittleEndian.encode 8 x.toNat)) = x := by
  have hlt : x.toNat < LittleEndian.values 8 := x.toNat_lt
  rw [LittleEndian.decode_encode, Nat.mod_eq_of_lt hlt, UInt64.ofNat_toNat]

/-- **Headers survive the round trip.** -/
lemma decode_encode (h : Header) : decode h.encode = h := by
  simp only [decode_eq, encode, List.drop_append, List.take_append, LittleEndian.length_encode,
    List.length_append, List.length_drop]
  simp [List.drop_of_length_le, List.take_of_length_le, ofNat_decode_encode_four,
    ofNat_decode_encode_eight]

end Header

/-- The reader looks at the magic word first, and it is that of the header. -/
lemma magicAt_eq (b : Buffer) (offset : Nat) : magicAt b offset = (headerAt b offset).magic := by
  rw [magicAt, headerAt, Header.decode_eq,
    b.take_drop_read (by decide : 28 + 4 ≤ Header.size)]
  rfl

/-! ## The size of a slot -/

/-- The bytes that records with the payloads take up. -/
def totalSize : List (List UInt8) → Nat
  | [] => 0
  | payload :: payloads => (recordSize payload.length).getD 0 + totalSize payloads

section RecordSize

variable {length size : Nat}

lemma recordSize_eq_some_iff : recordSize length = some size ↔
    size = cacheLine.ceil (32 + length) ∧ 32 + length + 63 < Word.limit := by
  unfold recordSize
  split
  · exact roundUp_eq_some_iff
  · simp only [reduceCtorEq, false_iff, not_and]
    omega

/-- A slot has room for the header and the payload. -/
lemma le_of_recordSize (h : recordSize length = some size) : Header.size + length ≤ size := by
  obtain ⟨rfl, -⟩ := recordSize_eq_some_iff.1 h
  exact cacheLine.le_ceil _

/-- Slots are whole cache lines. -/
lemma dvd_of_recordSize (h : recordSize length = some size) : 64 ∣ size := by
  obtain ⟨rfl, -⟩ := recordSize_eq_some_iff.1 h
  exact cacheLine.dvd_ceil _

/-- No slot is smaller than a cache line. -/
lemma cacheLine_le_of_recordSize (h : recordSize length = some size) : 64 ≤ size := by
  have hle := le_of_recordSize h
  have hpos : 0 < size := by
    have : 0 < Header.size := by decide
    omega
  exact Nat.le_of_dvd hpos (dvd_of_recordSize h)

/-- The length field of a header is too short for its record to have no size. -/
lemma Header.exists_recordSize (h : Header) : ∃ size, h.recordSize = some size := by
  have hlt := h.length.toNat_lt
  refine ⟨_, recordSize_eq_some_iff.2 ⟨rfl, ?_⟩⟩
  have hlimit : 2 ^ 32 + 95 ≤ Word.limit := by decide
  omega

end RecordSize

/-! ## The verdict on a slot -/

section CommittedAt

variable {b c : Buffer} {offset size : Nat} {h : Header}

/-- When a slot holds a record. -/
lemma committedAt_eq_ok_iff : committedAt b offset = .ok h ↔
    offset + Header.size ≤ b.size ∧ magicAt b offset = magicWord ∧ h = headerAt b offset ∧
      (∃ size, h.recordSize = some size ∧ offset + size ≤ b.size) ∧
      Checksum.ofRange b (offset + Header.size) h.length.toNat = h.checksum := by
  have hmagic : magicWord ≠ 0 := by decide
  unfold committedAt
  constructor
  · intro heq
    split at heq
    · cases heq
    split at heq
    · cases heq
    split at heq
    · cases heq
    obtain ⟨size, hsize⟩ := (headerAt b offset).exists_recordSize
    simp only [hsize] at heq
    split at heq
    · cases heq
    split at heq
    · cases heq
    obtain rfl : headerAt b offset = h := by simpa using heq
    exact ⟨by omega, by simp_all, rfl, ⟨size, hsize, by omega⟩, by simp_all⟩
  · rintro ⟨hfits, hword, rfl, ⟨size, hsize, hstop⟩, hsum⟩
    simp [hword, hmagic, hsize, hsum, Nat.not_lt.2 hfits, Nat.not_lt.2 hstop]

/-- A slot without a magic word is unwritten. -/
lemma committedAt_of_magicAt_eq_zero (hfits : offset + Header.size ≤ b.size)
    (hzero : magicAt b offset = 0) : committedAt b offset = .error .endOfData := by
  rw [committedAt, if_neg (Nat.not_lt.2 hfits), if_pos hzero]

/-- **A record is judged on its own slot.**  A buffer that has the bytes of the slot and reaches
past it holds the same record there. -/
lemma committedAt_of_agreeOn (hok : committedAt b offset = .ok h) (hsize : h.recordSize = some size)
    (hagree : b.AgreeOn c offset (offset + size)) (hfits : offset + size ≤ c.size) :
    committedAt c offset = .ok h := by
  obtain ⟨-, hword, hheader, -, hsum⟩ := committedAt_eq_ok_iff.1 hok
  have hroom : Header.size + h.length.toNat ≤ size := le_of_recordSize hsize
  have hhead : b.read offset Header.size = c.read offset Header.size :=
    hagree.read_eq (Nat.le_refl _) (by omega)
  have hheader' : h = headerAt c offset := by rw [hheader, headerAt, headerAt, hhead]
  refine committedAt_eq_ok_iff.2 ⟨by omega, ?_, hheader', ⟨size, hsize, hfits⟩, ?_⟩
  · rw [magicAt_eq, ← hheader', hheader, ← magicAt_eq, hword]
  · rw [← hsum, Checksum.ofRange_eq, Checksum.ofRange_eq,
      hagree.read_eq (Nat.le_add_right ..) (by omega)]

/-- **No verdict looks back.**  Buffers of one length that agree from an offset on hold the same
there, be it a record or not. -/
lemma committedAt_congr (hsize : b.size = c.size) (hagree : b.AgreeOn c offset b.size) :
    committedAt b offset = committedAt c offset := by
  by_cases hfits : b.size < offset + Header.size
  · rw [committedAt, committedAt, if_pos hfits, if_pos (hsize ▸ hfits)]
  have hhead : headerAt b offset = headerAt c offset := by
    rw [headerAt, headerAt, hagree.read_eq (Nat.le_refl _) (by omega)]
  have hword : magicAt b offset = magicAt c offset := by rw [magicAt_eq, magicAt_eq, hhead]
  obtain ⟨size, hrecord⟩ := (headerAt b offset).exists_recordSize
  have hroom := le_of_recordSize hrecord
  have hsum (hstop : ¬ b.size < offset + size) :
      Checksum.ofRange b (offset + Header.size) (headerAt b offset).length.toNat =
        Checksum.ofRange c (offset + Header.size) (headerAt b offset).length.toNat := by
    rw [Checksum.ofRange_eq, Checksum.ofRange_eq,
      hagree.read_eq (Nat.le_add_right ..) (by omega)]
  unfold committedAt
  simp only [← hsize, ← hword, ← hhead, hrecord]
  by_cases hstop : b.size < offset + size
  · simp only [hstop, if_true]
  · simp only [hsum hstop]

end CommittedAt

end BumpArena.Journal
