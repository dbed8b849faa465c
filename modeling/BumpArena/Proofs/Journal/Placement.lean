import BumpArena.Proofs.Journal.Framing
import BumpArena.Proofs.WordRow

/-!
# Records as bytes

Headers and their 32 bytes stand for each other one to one, and a record that is stored as its
header with the payload behind it is what a reader finds there (`Journal.readSlot_storeIn`).  Slots
behind it are judged on their own bytes, so that storing a record changes no verdict from its end
on.

A header is a row of seven words, whose widths and order `Header.widths` and `Header.fields` list.
That is all that the writer and the reader of a header have to agree on.
-/

namespace BumpArena.Journal

/-! ## Headers as rows of words -/

namespace Header

/-- The widths of the fields. -/
def widths : List Nat := [8, 4, 4, 4, 4, 4, 4]

/-- The numbers in the fields. -/
def fields (h : Header) : List Nat :=
  [h.timestamp.toNat, h.length.toNat, h.checksum.toNat, h.generation.toNat, h.reserved₀.toNat,
    h.reserved₁.toNat, h.magic.toNat]

lemma encode_eq_encodeRow (h : Header) : h.encode = LittleEndian.encodeRow widths h.fields := by
  simp only [encode, LittleEndian.encodeRow, widths, fields, List.append_assoc, List.append_nil]

/-- The fields of a decoded header are those of the bytes. -/
lemma fields_decode {bytes : List UInt8} (h : bytes.length = size) :
    (decode bytes).fields = LittleEndian.decodeRow widths bytes := by
  have hfit : LittleEndian.Fit widths (LittleEndian.decodeRow widths bytes) :=
    LittleEndian.fit_decodeRow h
  simp only [LittleEndian.Fit, LittleEndian.decodeRow, widths, List.forall₂_cons, List.drop_drop,
    Nat.reduceAdd] at hfit
  obtain ⟨htimestamp, hlength, hchecksum, hgeneration, hreserved₀, hreserved₁, hmagic, -⟩ := hfit
  simp only [fields, decode_eq, LittleEndian.decodeRow, widths, List.drop_drop, Nat.reduceAdd,
    List.drop_zero]
  rw [UInt64.toNat_ofNat_of_lt' htimestamp, UInt32.toNat_ofNat_of_lt' hlength,
    UInt32.toNat_ofNat_of_lt' hchecksum, UInt32.toNat_ofNat_of_lt' hgeneration,
    UInt32.toNat_ofNat_of_lt' hreserved₀, UInt32.toNat_ofNat_of_lt' hreserved₁,
    UInt32.toNat_ofNat_of_lt' hmagic]

/-- **Every 32 bytes are those of the header that they stand for.** -/
lemma encode_decode {bytes : List UInt8} (h : bytes.length = size) :
    (decode bytes).encode = bytes := by
  rw [encode_eq_encodeRow, fields_decode h, LittleEndian.encodeRow_decodeRow h]

end Header

/-! ## Stored records -/

namespace Record

/-- The record of a payload at an offset. -/
def ofPayload (offset : Nat) (payload : List UInt8) (timestamp : UInt64) (generation : UInt32) :
    Record := ⟨offset, .ofPayload payload timestamp generation, payload⟩

/-- Stores a record: its header, and its payload behind it. -/
def storeIn (r : Record) (b : Buffer) : Buffer :=
  (b.write r.offset r.header.encode).write r.payloadOffset r.payload

variable {r : Record} {b : Buffer}

@[simp] lemma size_storeIn : (r.storeIn b).size = b.size := by
  simp only [storeIn, Buffer.size_write]

/-- The header is read back. -/
lemma headerAt_storeIn (h : r.payloadOffset ≤ b.size) :
    headerAt (r.storeIn b) r.offset = r.header := by
  have hheader := b.read_write_self
    (show r.offset + r.header.encode.length ≤ b.size by rwa [Header.length_encode])
  rw [Header.length_encode] at hheader
  have hbelow : r.offset + Header.size ≤ r.payloadOffset := Nat.le_refl _
  rw [headerAt, storeIn, Buffer.read_write_of_disjoint _ (.inl hbelow), hheader,
    Header.decode_encode]

/-- The payload is read back. -/
lemma read_storeIn (h : r.payloadOffset + r.payload.length ≤ b.size) :
    (r.storeIn b).read r.payloadOffset r.payload.length = r.payload :=
  Buffer.read_write_self _ (by rwa [Buffer.size_write])

/-- A stored record touches nothing behind its payload. -/
lemma agreeOn_storeIn {start : Nat} (h : r.payloadOffset + r.payload.length ≤ start) (stop : Nat) :
    (r.storeIn b).AgreeOn b start stop := by
  have hheader : r.offset + r.header.encode.length ≤ start := by
    rw [Header.length_encode]
    exact Nat.le_trans (Nat.le_add_right ..) h
  exact (Buffer.agreeOn_write (.inr h)).trans (Buffer.agreeOn_write (.inr hheader))

end Record

variable {b c : Buffer} {offset size : Nat}

/-- **A slot is judged on the bytes from it on.** -/
lemma readSlot_congr (hsize : b.size = c.size) (hagree : b.AgreeOn c offset b.size) :
    readSlot b offset = readSlot c offset := by
  have hbehind (i : Nat) (hi : offset ≤ i) : b.get i = c.get i := by
    by_cases hin : i < b.size
    · exact hagree i hi hin
    · rw [b.get_of_size_le (Nat.not_lt.1 hin), c.get_of_size_le (hsize ▸ Nat.not_lt.1 hin)]
  have hread (length : Nat) :
      b.read (offset + Header.size) length = c.read (offset + Header.size) length :=
    Buffer.read_congr fun i hi _ => hbehind i (Nat.le_trans (Nat.le_add_right ..) hi)
  simp only [readSlot, committedAt_congr hsize hagree, hread]

/-- A record that fits is found where it was stored. -/
lemma readSlot_storeIn_self {payload : List UInt8} {timestamp : UInt64} {generation : UInt32}
    (hlength : payload.length < UInt32.size) (hsize : recordSize payload.length = some size)
    (hfits : offset + size ≤ b.size) :
    readSlot ((Record.ofPayload offset payload timestamp generation).storeIn b) offset =
      .ok (.ofPayload offset payload timestamp generation) := by
  let r : Record := .ofPayload offset payload timestamp generation
  have hroom := le_of_recordSize hsize
  have hpayload : r.payloadOffset + r.payload.length ≤ b.size := by
    show offset + Header.size + payload.length ≤ b.size
    omega
  have hword : r.header.length.toNat = payload.length := Nat.mod_eq_of_lt hlength
  have hheader : headerAt (r.storeIn b) offset = r.header :=
    Record.headerAt_storeIn (Nat.le_trans (Nat.le_add_right ..) hpayload)
  have hread : (r.storeIn b).read (offset + Header.size) payload.length = payload :=
    Record.read_storeIn hpayload
  have hcommitted : committedAt (r.storeIn b) offset = .ok r.header := by
    refine committedAt_eq_ok_iff.2 ⟨?_, ?_, hheader.symm, ⟨size, ?_, ?_⟩, ?_⟩
    · rw [Record.size_storeIn]
      omega
    · rw [magicAt_eq, hheader]
      rfl
    · rw [Header.recordSize, hword, hsize]
    · rwa [Record.size_storeIn]
    · rw [hword, Checksum.ofRange_eq, hread]
      rfl
  show readSlot (r.storeIn b) offset = .ok r
  rw [readSlot, hcommitted]
  show Except.ok (⟨offset, r.header, _⟩ : Record) = .ok r
  rw [hword, hread]
  rfl

/-- **Records and their bytes.**  Decoding the bytes of a header gives the header, and encoding
what 32 bytes stand for gives the bytes.  A record of any payload whose length fits the length
field has a size.  Where it fits in a buffer, storing it makes just this record what is found
there, and every slot from its end on is what it was. -/
theorem readSlot_storeIn :
    (∀ h : Header, Header.decode h.encode = h) ∧
    (∀ bytes : List UInt8, bytes.length = Header.size → (Header.decode bytes).encode = bytes) ∧
    ∀ payload : List UInt8, payload.length < UInt32.size →
      ∃ size, recordSize payload.length = some size ∧
        ∀ (b : Buffer) (offset : Nat) (timestamp : UInt64) (generation : UInt32),
          offset + size ≤ b.size →
          readSlot ((Record.ofPayload offset payload timestamp generation).storeIn b) offset =
              .ok (.ofPayload offset payload timestamp generation) ∧
            ∀ next, offset + size ≤ next →
              readSlot ((Record.ofPayload offset payload timestamp generation).storeIn b) next =
                readSlot b next := by
  refine ⟨Header.decode_encode, fun _ => Header.encode_decode, fun payload hlength => ?_⟩
  have hlimit : UInt32.size + 95 ≤ Word.limit := by decide
  obtain ⟨size, hsize⟩ : ∃ size, recordSize payload.length = some size :=
    ⟨_, recordSize_eq_some_iff.2 ⟨rfl, by omega⟩⟩
  refine ⟨size, hsize, fun b offset timestamp generation hfits => ?_⟩
  refine ⟨readSlot_storeIn_self hlength hsize hfits, fun next hnext => ?_⟩
  have hroom := le_of_recordSize hsize
  have hbehind : offset + Header.size + payload.length ≤ next := by omega
  exact readSlot_congr Record.size_storeIn (Record.agreeOn_storeIn hbehind _)

/-- A payload that holds the bytes of a header, in a place where slots begin. -/
def headerInside : List UInt8 := List.replicate 32 0 ++ (Header.ofPayload [] 0 5).encode

/-- A journal with a record in its last slot. -/
def lastSlotTaken : Buffer := (Record.ofPayload 192 [7] 1 2).storeIn (.zeros 256)

theorem readSlot_storeIn_headerInside :
    headerInside.length < UInt32.size ∧ recordSize headerInside.length = some 128 ∧
    (readSlot ((Record.ofPayload 64 headerInside 9 3).storeIn lastSlotTaken) 64 =
        .ok (.ofPayload 64 headerInside 9 3) ∧
      readSlot ((Record.ofPayload 64 headerInside 9 3).storeIn lastSlotTaken) 192 =
        .ok (.ofPayload 192 [7] 1 2)) ∧
    (Header.decode (headerInside.drop 32)).encode = headerInside.drop 32 := by
  obtain ⟨-, hencode, hstore⟩ := readSlot_storeIn
  have hlength : headerInside.length < UInt32.size := by decide
  have hsize : recordSize headerInside.length = some 128 := by decide
  obtain ⟨size, hsome, hfound⟩ := hstore headerInside hlength
  obtain rfl : 128 = size := Option.some.inj (hsize.symm.trans hsome)
  obtain ⟨size', hsome', hlast⟩ := hstore [7] (by decide)
  obtain rfl : 64 = size' := Option.some.inj hsome'
  obtain ⟨hself, hbehind⟩ := hfound lastSlotTaken 64 9 3 (by decide)
  refine ⟨hlength, hsize, ⟨hself, ?_⟩, hencode _ (by decide)⟩
  rw [hbehind 192 (by decide)]
  exact (hlast (.zeros 256) 192 1 2 (by decide)).1

end BumpArena.Journal
