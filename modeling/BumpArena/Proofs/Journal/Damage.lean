import BumpArena.Proofs.Checksum
import BumpArena.Proofs.Journal.Longest

/-!
# Damage

What a journal that was damaged still yields.  A scan finds its records from the start on, and takes
none for granted on account of what lies behind it.  So it finds all that lie before the damage,
whatever the damage is, be it that the journal ends there (`records_take_of_agreeOn`).

Where a payload is damaged in up to four consecutive bytes, the scan stops right there and for the
right reason: the checksum is another one (`records_of_damaged`).  What this takes from the checksum
is `Checksum.ofList_append_eq_iff`; what is left is to see that the damaged slot passes all the
checks that come before that of the checksum, since its header is as it was.
-/

namespace BumpArena

/-- One buffer is the other with some bytes of a range changed, and at least one of them is. -/
structure Buffer.Damaged (b c : Buffer) (start stop : Nat) : Prop where
  size_eq : c.size = b.size
  outside : ∀ i, i < start ∨ stop ≤ i → c.get i = b.get i
  exists_ne : ∃ i, c.get i ≠ b.get i

namespace Buffer

variable {b c : Buffer} {start stop : Nat}

lemma read_append (b : Buffer) (start first second : Nat) :
    b.read start (first + second) = b.read start first ++ b.read (start + first) second := by
  rw [read_eq, read_eq, read_eq, ← List.map_append, List.range'_append_1]

lemma Damaged.agreeOn (h : b.Damaged c start stop) {low high : Nat}
    (hclear : high ≤ start ∨ stop ≤ low) : b.AgreeOn c low high :=
  fun i hlow hhigh => (h.outside i (by omega)).symm

/-- The damage shows in the range. -/
lemma Damaged.read_ne {length : Nat} (h : b.Damaged c start (start + length)) :
    b.read start length ≠ c.read start length := by
  obtain ⟨i, hne⟩ := h.exists_ne
  have hin : start ≤ i ∧ i < start + length := by
    by_contra hout
    exact hne (h.outside i (by omega))
  intro heq
  have hget := List.getElem_of_eq heq (show i - start < (b.read start length).length by
    rw [length_read]
    omega)
  rw [getElem_read, getElem_read, Nat.add_sub_cancel' hin.1] at hget
  exact hne hget.symm

/-- Other bytes that are stored over a range damage it. -/
lemma damaged_write {bytes : List UInt8} (hfits : start + bytes.length ≤ b.size)
    (hne : b.read start bytes.length ≠ bytes) :
    b.Damaged (b.write start bytes) start (start + bytes.length) where
  size_eq := b.size_write ..
  outside i hi := by
    rw [get_write, if_neg (by omega)]
  exists_ne := by
    by_contra hsame
    have hget : ∀ i, (b.write start bytes).get i = b.get i := by simpa using hsame
    refine hne ((read_congr fun i _ _ => (hget i).symm).trans ?_)
    exact b.read_write_self hfits

end Buffer

namespace Journal

open Buffer

section Damage

variable {b c : Buffer}

/-- A journal that two records fill. -/
def twoRecords : Buffer :=
  ((Buffer.zeros 128).write 0 ((Header.ofPayload [1, 2] 7 2).encode ++ [1, 2])).write 64
    ((Header.ofPayload [3, 4, 5, 6, 7, 8] 8 2).encode ++ [3, 4, 5, 6, 7, 8])

/-! ## What lies before the damage -/

/-- Where a walk stands after the first records. -/
lemma Chain.take {m : Mark} {rs : List Record} (h : Chain b .start rs m) (count : Nat) :
    Chain b .start (rs.take count) (reached (rs.take count)) ∧
      Chain b (reached (rs.take count)) (rs.drop count) m := by
  rw [← List.take_append_drop count rs] at h
  obtain ⟨n, hfirst, hsecond⟩ := h.split
  obtain rfl : n = reached (rs.take count) := (chain_iff.1 hfirst).2.2.2
  exact ⟨hfirst, hsecond⟩

/-- **Damage does not reach back.**  Of a journal that is as it was up to the end of some record,
and ends there or goes on in any way, a scan yields the records up to that one as before. -/
theorem records_take_of_agreeOn {count : Nat} (hcount : count ≤ (records b).length)
    (hsize : (reached ((records b).take count)).offset ≤ c.size)
    (hagree : b.AgreeOn c 0 (reached ((records b).take count)).offset) :
    (records c).take count = (records b).take count ∧
      count ≤ (scan c).finish.records ∧
      (reached ((records b).take count)).offset ≤ (scan c).finish.cursor := by
  obtain ⟨rs, n, stop, hchain, hstop⟩ := exists_chain b .start
  rw [records_eq_of_chain hchain hstop] at hcount hsize hagree ⊢
  have hlength : (rs.take count).length = count := List.length_take_of_le hcount
  have hkept := (hchain.take count).1.of_agreeOn hagree hsize
  obtain ⟨qs, o, stop, hrest, hend⟩ := exists_chain c (reached (rs.take count))
  have hwhole := hkept.append hrest
  rw [records_eq_of_chain hwhole hend, finish_eq_of_chain hwhole hend, List.length_append, hlength]
  exact ⟨List.take_left' hlength, Nat.le_add_right .., hrest.le⟩

/-- The first of two records, when the journal was cut in the middle of the second. -/
theorem records_take_of_agreeOn_cut :
    (reached ((records twoRecords).take 1)).offset = 64 ∧
      (records (twoRecords.resize 100)).take 1 = [⟨0, .ofPayload [1, 2] 7 2, [1, 2]⟩] ∧
      1 ≤ (scan (twoRecords.resize 100)).finish.records := by
  have hrecords : (records twoRecords).take 1 = [⟨0, .ofPayload [1, 2] 7 2, [1, 2]⟩] := by
    decide +kernel
  have hoffset : (reached ((records twoRecords).take 1)).offset = 64 := by
    rw [hrecords]
    decide
  have hagree : twoRecords.AgreeOn (twoRecords.resize 100) 0
      (reached ((records twoRecords).take 1)).offset := by
    intro i _ hi
    rw [hoffset] at hi
    rw [get_resize, if_pos (by omega)]
  obtain ⟨htake, hcount, -⟩ :=
    records_take_of_agreeOn (by decide +kernel) (hoffset ▸ by decide) hagree
  exact ⟨hoffset, htake.trans hrecords, hcount⟩

/-! ## Damage in a payload -/

/-- A slot of which only the payload was damaged, and so that it shows, fails for its checksum. -/
lemma committedAt_of_checksum_ne {offset : Nat} {h : Header} (hok : committedAt b offset = .ok h)
    (hsize : c.size = b.size) (hagree : b.AgreeOn c offset (offset + Header.size))
    (hsum : Checksum.ofRange c (offset + Header.size) h.length.toNat ≠
      Checksum.ofRange b (offset + Header.size) h.length.toNat) :
    committedAt c offset = .error .checksumMismatch := by
  obtain ⟨hfits, hword, hheader, ⟨size, hrecord, hstop⟩, hchecksum⟩ := committedAt_eq_ok_iff.1 hok
  have hheader' : headerAt c offset = h := by
    rw [hheader, headerAt, headerAt, hagree.read_eq (Nat.le_refl _) (Nat.le_refl _)]
  have hword' : magicAt c offset = magicWord := by
    rw [magicAt_eq, hheader', hheader, ← magicAt_eq, hword]
  have hmagic : magicWord ≠ 0 := by decide
  rw [hchecksum] at hsum
  simp [committedAt, hheader', hword', hmagic, hrecord, hsize, Nat.not_lt.2 hfits,
    Nat.not_lt.2 hstop, hsum]

/-- Damage of up to four consecutive bytes shows in the checksum of every range around it. -/
lemma ofRange_ne_of_damaged {offset length start width : Nat} (hwidth : width ≤ 4)
    (hstart : offset ≤ start) (hstop : start + width ≤ offset + length)
    (h : b.Damaged c start (start + width)) :
    Checksum.ofRange c offset length ≠ Checksum.ofRange b offset length := by
  obtain ⟨before, rfl⟩ := Nat.exists_eq_add_of_le hstart
  obtain ⟨after, rfl⟩ : ∃ after, length = before + (width + after) :=
    ⟨length - before - width, by omega⟩
  have hbefore : b.read offset before = c.read offset before :=
    (h.agreeOn (.inl (Nat.le_refl _))).read_eq (Nat.le_refl _) (Nat.le_refl _)
  have hafter : b.read (offset + before + width) after = c.read (offset + before + width) after :=
    (h.agreeOn (.inr (Nat.le_refl _))).read_eq (Nat.le_refl _) (Nat.le_refl _)
  rw [Checksum.ofRange_eq, Checksum.ofRange_eq, ne_eq, read_append, read_append, read_append,
    read_append, hbefore, hafter,
    Checksum.ofList_append_eq_iff _ _ (by simp) (by simpa using hwidth)]
  exact h.read_ne.symm

/-- **Torn payloads are detected.**  When up to four consecutive bytes of the payload of a record
are changed, a scan yields the records before it as they were, and stops at it for its checksum. -/
theorem records_of_damaged {k start width : Nat} {r : Record} (hrecord : (records b)[k]? = some r)
    (hwidth : width ≤ 4) (hstart : r.payloadOffset ≤ start)
    (hstop : start + width ≤ r.payloadOffset + r.payload.length)
    (hdamaged : b.Damaged c start (start + width)) :
    records c = (records b).take k ∧
      (scan c).finish =
        ⟨k, r.offset, (reached ((records b).take k)).generation, .checksumMismatch⟩ := by
  obtain ⟨rs, n, stop, hchain, hend⟩ := exists_chain b .start
  rw [records_eq_of_chain hchain hend] at hrecord ⊢
  obtain ⟨hk, rfl⟩ := List.getElem?_eq_some_iff.1 hrecord
  obtain ⟨hbefore, hfrom⟩ := hchain.take k
  rw [List.drop_eq_getElem_cons hk] at hfrom
  cases hfrom with
  | cons hcheck _ =>
    obtain ⟨hslot, hoffset, hpayload, -⟩ := checkAt_eq_ok_iff.1 hcheck
    have hbehind : (rs[k]).offset + Header.size ≤ start := hstart
    have hlength : (rs[k]).payload.length = (rs[k]).header.length.toNat := by
      rw [hpayload, length_read]
    rw [hlength, Record.payloadOffset, hoffset] at hstop
    rw [hoffset] at hbehind
    have hkept : Chain c .start (rs.take k) (reached (rs.take k)) := by
      refine hbefore.of_agreeOn (hdamaged.agreeOn (.inl (by omega))) ?_
      rw [hdamaged.size_eq]
      exact hbefore.offset_le_size (Nat.zero_le _)
    have hverdict : checkAt c (reached (rs.take k)) = .error .checksumMismatch :=
      checkAt_of_committedAt_error (committedAt_of_checksum_ne hslot hdamaged.size_eq
        (hdamaged.agreeOn (.inl hbehind)) (ofRange_ne_of_damaged hwidth hbehind hstop hdamaged))
    refine ⟨records_eq_of_chain hkept hverdict, ?_⟩
    rw [finish_eq_of_chain hkept hverdict, List.length_take_of_le (Nat.le_of_lt hk), hoffset]

/-- The first of two records, when four bytes in the payload of the second were lost. -/
theorem records_of_damaged_second :
    (records twoRecords)[1]? =
        some ⟨64, .ofPayload [3, 4, 5, 6, 7, 8] 8 2, [3, 4, 5, 6, 7, 8]⟩ ∧
      records (twoRecords.write 97 [0, 0, 0, 0]) = [⟨0, .ofPayload [1, 2] 7 2, [1, 2]⟩] ∧
      (scan (twoRecords.write 97 [0, 0, 0, 0])).finish =
        ⟨1, 64, some 2, .checksumMismatch⟩ := by
  have hsecond : (records twoRecords)[1]? =
      some ⟨64, .ofPayload [3, 4, 5, 6, 7, 8] 8 2, [3, 4, 5, 6, 7, 8]⟩ := by
    decide +kernel
  have hfirst : (records twoRecords).take 1 = [⟨0, .ofPayload [1, 2] 7 2, [1, 2]⟩] := by
    decide +kernel
  have hdamaged : twoRecords.Damaged (twoRecords.write 97 [0, 0, 0, 0]) 97 (97 + 4) :=
    damaged_write (by decide) (by decide +kernel)
  obtain ⟨hrecords, hfinish⟩ :=
    records_of_damaged hsecond (by decide) (by decide) (by decide) hdamaged
  rw [hfirst] at hrecords hfinish
  exact ⟨hsecond, hrecords, hfinish⟩

end Damage

end Journal

end BumpArena
