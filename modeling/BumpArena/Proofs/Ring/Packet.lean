import BumpArena.Proofs.WordRow
import BumpArena.Ring.Packet
import Mathlib.Data.List.GetD

/-!
# Packets as bytes

A packet is four words in a row, four bytes without a meaning, and the room for its payload.  It and
its 64 bytes stand for each other one to one, whatever is in them: bytes from elsewhere may hold any
length, and the payload is then all that there is room for.  A packet that was made for a payload
holds just this payload and zeros in the rest (`Packet.Carries`), so that two of them are equal only
if they were made of the same.
-/

namespace BumpArena.Packet

/-! ## Room with zeros behind -/

/-- Bytes that are too few have zeros after them, and those that are too many are cut off. -/
lemma toList_padded (n : Nat) (bytes : List UInt8) :
    (padded n bytes).toList = bytes.take n ++ List.replicate (n - bytes.length) 0 := by
  apply List.ext_getElem
  · simp only [Vector.length_toList, List.length_append, List.length_take, List.length_replicate]
    omega
  · intro i hi _
    simp only [Vector.length_toList] at hi
    simp only [Vector.getElem_toList, padded, Vector.getElem_ofFn, List.getElem_append,
      List.length_take, List.getElem_take, List.getElem_replicate]
    by_cases hin : i < bytes.length
    · rw [dif_pos (by omega), List.getD_eq_getElem _ _ hin]
    · rw [dif_neg (by omega), List.getD_eq_default _ _ (Nat.not_lt.1 hin)]

lemma toList_padded_of_le {n : Nat} {bytes : List UInt8} (h : n ≤ bytes.length) :
    (padded n bytes).toList = bytes.take n := by
  rw [toList_padded, Nat.sub_eq_zero_of_le h, List.replicate_zero, List.append_nil]

/-- Room takes up what it holds, whatever stands behind. -/
lemma padded_toList {n : Nat} (room : Vector UInt8 n) (rest : List UInt8) :
    padded n (room.toList ++ rest) = room := by
  apply Vector.toList_inj.1
  have hlength : room.toList.length = n := room.length_toList
  have hle : n ≤ (room.toList ++ rest).length := by
    rw [List.length_append]
    omega
  rw [toList_padded_of_le hle, List.take_left' hlength]

/-! ## The image -/

variable {p q : Packet} {bytes payload payload' : List UInt8} {id id' latency latency' : UInt32}
  {timestamp timestamp' : UInt64}

/-- The widths of the words. -/
def widths : List Nat := [8, 4, 4, 4]

/-- The numbers in the words. -/
def words (p : Packet) : List Nat :=
  [p.timestamp.toNat, p.latency.toNat, p.id.toNat, p.length.toNat]

/-- A packet is its words and its bytes. -/
lemma ext_iff_words :
    p = q ↔ p.words = q.words ∧ p.reserved = q.reserved ∧ p.storage = q.storage := by
  obtain ⟨timestamp, latency, id, length, reserved, storage⟩ := p
  obtain ⟨timestamp', latency', id', length', reserved', storage'⟩ := q
  simp only [words, mk.injEq, List.cons.injEq, UInt64.toNat_inj, UInt32.toNat_inj, and_true,
    and_assoc]

lemma fit_words (p : Packet) : LittleEndian.Fit widths p.words :=
  .cons p.timestamp.toNat_lt (.cons p.latency.toNat_lt (.cons p.id.toNat_lt
    (.cons p.length.toNat_lt .nil)))

lemma encode_eq_encodeRow (p : Packet) :
    p.encode =
      LittleEndian.encodeRow widths p.words ++ (p.reserved.toList ++ p.storage.toList) := by
  simp only [encode, LittleEndian.encodeRow, widths, words, List.append_assoc, List.nil_append]

lemma length_encode (p : Packet) : p.encode.length = layout.size := by
  rw [encode_eq_encodeRow, List.length_append, List.length_append,
    LittleEndian.length_encodeRow p.fit_words, Vector.length_toList, Vector.length_toList]
  rfl

/-- The words of a packet are the first ones of its bytes. -/
lemma words_decode (h : bytes.length = layout.size) :
    (decode bytes).words = LittleEndian.decodeRow widths (bytes.take 20) := by
  have hwords : (bytes.take 20).length = widths.sum := by
    rw [List.length_take, h]
    rfl
  have hfit := LittleEndian.fit_decodeRow hwords
  have hrow : LittleEndian.decodeRow widths (bytes.take 20) =
      [LittleEndian.decode (bytes.take 8), LittleEndian.decode ((bytes.drop 8).take 4),
        LittleEndian.decode ((bytes.drop 12).take 4),
        LittleEndian.decode ((bytes.drop 16).take 4)] := by
    rw [← LittleEndian.decodeRow_append hwords (bytes.drop 20), List.take_append_drop]
    simp only [LittleEndian.decodeRow, widths, List.drop_drop, Nat.reduceAdd]
  rw [hrow] at hfit ⊢
  simp only [LittleEndian.Fit, widths, List.forall₂_cons] at hfit
  obtain ⟨htimestamp, hlatency, hid, hlength, -⟩ := hfit
  simp only [words, decode]
  rw [UInt64.toNat_ofNat_of_lt' htimestamp, UInt32.toNat_ofNat_of_lt' hlatency,
    UInt32.toNat_ofNat_of_lt' hid, UInt32.toNat_ofNat_of_lt' hlength]

/-- **Packets survive the round trip.** -/
lemma decode_encode (p : Packet) : decode p.encode = p := by
  have hwords : (LittleEndian.encodeRow widths p.words).length = 20 :=
    LittleEndian.length_encodeRow p.fit_words
  have hreserved : p.reserved.toList.length = 4 := p.reserved.length_toList
  refine ext_iff_words.2 ⟨?_, ?_, ?_⟩
  · rw [words_decode p.length_encode, encode_eq_encodeRow, List.take_left' hwords,
      LittleEndian.decodeRow_encodeRow p.fit_words]
  · show padded 4 (p.encode.drop 20) = p.reserved
    rw [encode_eq_encodeRow, List.drop_left' hwords, padded_toList]
  · show padded 40 (p.encode.drop 24) = p.storage
    rw [encode_eq_encodeRow, ← List.append_assoc, List.drop_left' (by
      rw [List.length_append, hwords, hreserved])]
    simpa using padded_toList p.storage []

/-- The room for the payload is what the bytes end in. -/
lemma toList_storage_decode (h : bytes.length = layout.size) :
    (decode bytes).storage.toList = bytes.drop 24 := by
  have hlength : (bytes.drop 24).length = 40 := by
    rw [List.length_drop, h]
    rfl
  show (padded 40 (bytes.drop 24)).toList = _
  rw [toList_padded_of_le (Nat.le_of_eq hlength.symm), List.take_of_length_le
    (Nat.le_of_eq hlength)]

/-- **Every 64 bytes are those of the packet that they stand for.** -/
lemma encode_decode (h : bytes.length = layout.size) : (decode bytes).encode = bytes := by
  have hwords : (bytes.take 20).length = widths.sum := by
    rw [List.length_take, h]
    rfl
  have hreserved : (decode bytes).reserved.toList = (bytes.drop 20).take 4 := by
    refine toList_padded_of_le ?_
    rw [List.length_drop, h]
    decide
  calc (decode bytes).encode
      = bytes.take 20 ++ ((bytes.drop 20).take 4 ++ (bytes.drop 20).drop 4) := by
        rw [encode_eq_encodeRow, words_decode h, LittleEndian.encodeRow_decodeRow hwords,
          hreserved, toList_storage_decode h, List.drop_drop]
    _ = bytes := by rw [List.take_append_drop, List.take_append_drop]

/-! ## The payload -/

/-- The valid part of the payload, as a slice of the room for it. -/
def slicePayload (p : Packet) : Checked (List UInt8) :=
  let stop := min p.length.toNat payloadCapacity
  if stop ≤ p.storage.size then .ok (p.storage.toList.take stop)
  else .error (.sliceOutOfRange stop p.storage.size)

/-- The slice ends in the room, whatever the length says. -/
lemma slicePayload_eq (p : Packet) : p.slicePayload = .ok p.payload :=
  if_pos (Nat.min_le_right ..)

/-- The payload that 64 bytes stand for. -/
lemma payload_decode (h : bytes.length = layout.size) : (decode bytes).payload =
    (bytes.drop 24).take (min (LittleEndian.decode ((bytes.drop 16).take 4)) payloadCapacity) := by
  have hfour : ((bytes.drop 16).take 4).length = 4 := by
    rw [List.length_take, List.length_drop, h]
    rfl
  have hlt := LittleEndian.decode_lt ((bytes.drop 16).take 4)
  rw [hfour] at hlt
  have hlength : (decode bytes).length.toNat = LittleEndian.decode ((bytes.drop 16).take 4) :=
    UInt32.toNat_ofNat_of_lt' hlt
  rw [payload, hlength, toList_storage_decode h]

/-! ## Packets that were made -/

/-- **What a packet that was made for a payload holds**: its words, zeros, the payload and zeros
again, and nothing of that is lost in its bytes. -/
structure Carries (p : Packet) (id : UInt32) (timestamp : UInt64) (latency : UInt32)
    (payload : List UInt8) : Prop where
  words_eq : p.words = [timestamp.toNat, latency.toNat, id.toNat, payload.length]
  reserved_eq : p.reserved.toList = List.replicate 4 0
  storage_eq : p.storage.toList = payload ++ List.replicate (payloadCapacity - payload.length) 0
  payload_eq : p.slicePayload = .ok payload
  image_eq : p.encode = LittleEndian.encode 8 timestamp.toNat ++
    LittleEndian.encode 4 latency.toNat ++ LittleEndian.encode 4 id.toNat ++
    LittleEndian.encode 4 payload.length ++ List.replicate 4 0 ++ payload ++
    List.replicate (payloadCapacity - payload.length) 0
  length_image : p.encode.length = layout.size
  decode_image : decode p.encode = p

lemma make_eq_some_iff : make id timestamp latency payload = some p ↔
    payload.length ≤ payloadCapacity ∧
      p = { timestamp, latency, id
            length := UInt32.ofNat payload.length
            reserved := padded 4 []
            storage := padded 40 payload } := by
  rw [make]
  split
  · next hlarge => simp [Nat.not_le.2 hlarge]
  · next hfits => simp [Nat.not_lt.1 hfits, eq_comm]

lemma carries_of_make (h : make id timestamp latency payload = some p) :
    p.Carries id timestamp latency payload := by
  obtain ⟨hfits, hp⟩ := make_eq_some_iff.1 h
  have hlength : p.length.toNat = payload.length := by
    rw [hp]
    exact UInt32.toNat_ofNat_of_lt' (Nat.lt_of_le_of_lt hfits (by decide))
  have hwords : p.words = [timestamp.toNat, latency.toNat, id.toNat, payload.length] := by
    rw [words, hlength, hp]
  have hreserved : p.reserved.toList = List.replicate 4 0 := by
    rw [hp]
    rfl
  have hstorage : p.storage.toList =
      payload ++ List.replicate (payloadCapacity - payload.length) 0 := by
    rw [hp]
    show (padded payloadCapacity payload).toList = _
    rw [toList_padded, List.take_of_length_le hfits]
  have hpayload : p.payload = payload := by
    rw [Packet.payload, hlength, hstorage, Nat.min_eq_left hfits, List.take_left]
  refine ⟨hwords, hreserved, hstorage, hpayload ▸ p.slicePayload_eq, ?_, p.length_encode,
    p.decode_encode⟩
  rw [encode_eq_encodeRow, hwords, hreserved, hstorage]
  simp only [LittleEndian.encodeRow, widths, List.append_assoc, List.nil_append]

/-- Packets that were made are equal only if they were made of the same. -/
lemma make_inj (h : make id timestamp latency payload = some p)
    (h' : make id' timestamp' latency' payload' = some q) :
    p = q ↔ id = id' ∧ timestamp = timestamp' ∧ latency = latency' ∧ payload = payload' := by
  have hp := carries_of_make h
  have hq := carries_of_make h'
  constructor
  · rintro rfl
    have hwords := hp.words_eq.symm.trans hq.words_eq
    simp only [List.cons.injEq, UInt64.toNat_inj, UInt32.toNat_inj] at hwords
    obtain ⟨htimestamp, hlatency, hid, -⟩ := hwords
    exact ⟨hid, htimestamp, hlatency, Except.ok.inj (hp.payload_eq.symm.trans hq.payload_eq)⟩
  · rintro ⟨rfl, rfl, rfl, rfl⟩
    exact Option.some.inj (h.symm.trans h')

/-- **Packets and their bytes.**  A payload has a packet exactly when it fits, and the packet holds
it as `Carries` says.  All 64 bytes are those of the packet that they stand for, and its payload is
there for every length that may stand in them.  Packets that were made are equal exactly when they
were made of the same. -/
theorem packet_laws :
    (∀ id timestamp latency payload, (∃ p, make id timestamp latency payload = some p) ↔
      payload.length ≤ 40) ∧
    (∀ id timestamp latency payload p, make id timestamp latency payload = some p →
      p.Carries id timestamp latency payload) ∧
    (∀ bytes : List UInt8, bytes.length = 64 → (decode bytes).encode = bytes ∧
      (decode bytes).slicePayload = .ok ((bytes.drop 24).take
        (min (LittleEndian.decode ((bytes.drop 16).take 4)) 40))) ∧
    ∀ id timestamp latency payload p id' timestamp' latency' payload' q,
      make id timestamp latency payload = some p →
      make id' timestamp' latency' payload' = some q →
      (p = q ↔ id = id' ∧ timestamp = timestamp' ∧ latency = latency' ∧ payload = payload') := by
  refine ⟨fun id timestamp latency payload => ?_, fun _ _ _ _ _ => carries_of_make,
    fun bytes h => ⟨encode_decode h, ?_⟩, fun _ _ _ _ _ _ _ _ _ _ => make_inj⟩
  · constructor
    · rintro ⟨p, hp⟩
      exact (make_eq_some_iff.1 hp).1
    · exact fun hfits => ⟨_, make_eq_some_iff.2 ⟨hfits, rfl⟩⟩
  · rw [slicePayload_eq, payload_decode h]
    rfl

/-- Bytes whose length field says more than there is room for. -/
def overlong : List UInt8 :=
  List.replicate 16 7 ++ [0xE8, 3, 0, 0] ++ [1, 2, 3, 4] ++ (List.range 40).map UInt8.ofNat

/-- A packet of three bytes, and one of four whose last byte is zero, have the same room but are
different.  A length of 1000 stands for all 40 bytes. -/
theorem packet_laws_overlong : ∃ p q, make 7 1000 250 [1, 2, 3] = some p ∧
    make 7 1000 250 [1, 2, 3, 0] = some q ∧ p.storage = q.storage ∧ p ≠ q ∧
    p.Carries 7 1000 250 [1, 2, 3] ∧ make 7 1000 250 (List.replicate 41 0) = none ∧
    overlong.length = 64 ∧ (decode overlong).encode = overlong ∧
    (decode overlong).slicePayload = .ok ((List.range 40).map UInt8.ofNat) := by
  obtain ⟨hfits, hcarries, hdecode, hinj⟩ := packet_laws
  obtain ⟨p, hp⟩ := (hfits 7 1000 250 [1, 2, 3]).2 (by decide)
  obtain ⟨q, hq⟩ := (hfits 7 1000 250 [1, 2, 3, 0]).2 (by decide)
  have hlength : overlong.length = 64 := by decide
  obtain ⟨hencode, hpayload⟩ := hdecode overlong hlength
  refine ⟨p, q, hp, hq, ?_, ?_, hcarries _ _ _ _ _ hp, by decide, hlength, hencode, ?_⟩
  · rw [(make_eq_some_iff.1 hp).2, (make_eq_some_iff.1 hq).2]
    decide
  · exact fun hsame => absurd ((hinj _ _ _ _ _ _ _ _ _ _ hp hq).1 hsame).2.2.2 (by decide)
  · rw [hpayload]
    decide

end BumpArena.Packet
