import BumpArena.Proofs.Journal.Framing

/-!
# The walk through a journal

A scan keeps five things, but only two of them decide what it finds next: the offset that it
reached, and the generation that it last saw.  A `Mark` is these two, and a `Chain` is a stretch of
the walk from one mark to another.

Chains are what the rest of the development reasons about.  They compose (`Chain.append`), they
depend only on the bytes that they cross (`Chain.of_agreeOn`), and every journal has one that ends
where the scan stops (`exists_chain`).  The counter of steps that makes the scan terminate is met
once, in `records_eq_of_chain` and `finish_eq_of_chain`, and not again.
-/

namespace BumpArena.Journal

/-- Where a walk stands. -/
structure Mark where
  /-- The end of the last record found. -/
  offset : Nat
  /-- The generation of the last record found. -/
  generation : Option UInt32
  deriving DecidableEq, Repr

namespace Mark

/-- Where every walk begins. -/
def start : Mark := ⟨0, none⟩

/-- The scan that stands at a mark after so many records. -/
def scan (m : Mark) (b : Buffer) (records : Nat) : Scan :=
  { bytes := b, offset := m.offset, records, generation := m.generation }

end Mark

/-- Where a walk stands after a record. -/
def Record.mark (r : Record) : Mark := ⟨r.stop, some r.header.generation⟩

/-- What a walk finds at a mark. -/
def checkAt (b : Buffer) (m : Mark) : Except ScanStop Record := (m.scan b 0).check

/-- From one mark a walk finds the records in turn, and stands at the other mark then. -/
inductive Chain (b : Buffer) : Mark → List Record → Mark → Prop
  | nil (m : Mark) : Chain b m [] m
  | cons {m n : Mark} {r : Record} {rs : List Record} :
      checkAt b m = .ok r → Chain b r.mark rs n → Chain b m (r :: rs) n

/-! ## One step -/

section Check

variable {b c : Buffer} {m : Mark} {r : Record}

/-- When a record may follow. -/
lemma checkAt_eq_ok_iff : checkAt b m = .ok r ↔
    committedAt b m.offset = .ok r.header ∧ r.offset = m.offset ∧
      r.payload = b.read (m.offset + Header.size) r.header.length.toNat ∧
      ∀ g ∈ m.generation, g ≤ r.header.generation := by
  obtain ⟨offset, header, payload⟩ := r
  unfold checkAt Scan.check readSlot Mark.scan
  cases hslot : committedAt b m.offset with
  | error stop => simp [bind, Except.bind]
  | ok h =>
    cases hgeneration : m.generation with
    | none =>
      simp only [bind, Except.bind, pure, Except.pure, Except.ok.injEq, Record.mk.injEq]
      constructor
      · rintro ⟨rfl, rfl, rfl⟩
        simp
      · rintro ⟨rfl, rfl, rfl, -⟩
        simp
    | some g =>
      simp only [bind, Except.bind, pure, Except.pure, Except.ok.injEq]
      split <;> simp only [reduceCtorEq, Except.ok.injEq, Record.mk.injEq, Option.mem_def,
        Option.some.injEq, forall_eq', false_iff]
      · rename_i hlt
        rintro ⟨rfl, -, -, hle⟩
        exact absurd hlt (UInt32.not_lt.2 hle)
      · rename_i hlt
        constructor
        · rintro ⟨rfl, rfl, rfl⟩
          exact ⟨rfl, rfl, rfl, UInt32.not_lt.1 hlt⟩
        · rintro ⟨rfl, rfl, rfl, -⟩
          exact ⟨rfl, rfl, rfl⟩

/-- Where a slot holds no record, a walk stops. -/
lemma checkAt_of_committedAt_error {stop : ScanStop} (h : committedAt b m.offset = .error stop) :
    checkAt b m = .error stop := by
  simp [checkAt, Scan.check, readSlot, Mark.scan, h, bind, Except.bind]

/-- A walk takes no step back in generations. -/
lemma checkAt_of_lt {h : Header} {g : UInt32} (hok : committedAt b m.offset = .ok h)
    (hgeneration : m.generation = some g) (hlt : h.generation < g) :
    checkAt b m = .error .staleGeneration := by
  simp [checkAt, Scan.check, readSlot, Mark.scan, hok, hgeneration, hlt, bind, Except.bind, pure,
    Except.pure]

/-- The end of a record, which always has a size. -/
lemma Record.exists_stop (r : Record) :
    ∃ size, r.header.recordSize = some size ∧ r.stop = r.offset + size := by
  obtain ⟨size, hsize⟩ := r.header.exists_recordSize
  exact ⟨size, hsize, by rw [Record.stop, hsize, Option.getD_some]⟩

/-- A step leads at least one cache line on, and not past the end. -/
lemma checkAt_bounds (h : checkAt b m = .ok r) :
    m.offset + 64 ≤ r.stop ∧ r.stop ≤ b.size ∧ (64 ∣ m.offset → 64 ∣ r.stop) := by
  obtain ⟨hslot, hoffset, -, -⟩ := checkAt_eq_ok_iff.1 h
  obtain ⟨size, hsize, hstop⟩ := r.exists_stop
  obtain ⟨-, -, -, ⟨size', hsize', hfits⟩, -⟩ := committedAt_eq_ok_iff.1 hslot
  obtain rfl : size = size' := by simpa [hsize] using hsize'
  have hline := cacheLine_le_of_recordSize hsize
  rw [hstop, hoffset]
  exact ⟨by omega, hfits, fun hdvd => Nat.dvd_add hdvd (dvd_of_recordSize hsize)⟩

/-- A step depends on the bytes that it crosses. -/
lemma checkAt_of_agreeOn (h : checkAt b m = .ok r) (hagree : b.AgreeOn c m.offset r.stop)
    (hfits : r.stop ≤ c.size) : checkAt c m = .ok r := by
  obtain ⟨hslot, hoffset, hpayload, hgeneration⟩ := checkAt_eq_ok_iff.1 h
  obtain ⟨size, hsize, hstop⟩ := r.exists_stop
  have hroom : Header.size + r.header.length.toNat ≤ size := le_of_recordSize hsize
  rw [hstop, hoffset] at hagree hfits
  refine checkAt_eq_ok_iff.2
    ⟨committedAt_of_agreeOn hslot hsize hagree hfits, hoffset, ?_, hgeneration⟩
  rw [hpayload, hagree.read_eq (Nat.le_add_right ..) (by omega)]

/-- What stops a walk lies ahead of it. -/
lemma checkAt_error_of_agreeOn {stop : ScanStop} (h : checkAt b m = .error stop)
    (hsize : b.size = c.size) (hagree : b.AgreeOn c m.offset b.size) :
    checkAt c m = .error stop := by
  have hslot := committedAt_congr hsize hagree
  unfold checkAt Scan.check readSlot Mark.scan at h ⊢
  simp only at h ⊢
  rw [← hslot]
  cases hb : committedAt b m.offset with
  | error _ => simpa [hb, bind, Except.bind] using h
  | ok header =>
    simp only [hb, bind, Except.bind, pure, Except.pure] at h ⊢
    cases hgeneration : m.generation with
    | none => simp [hgeneration] at h
    | some g =>
      simp only [hgeneration] at h ⊢
      split at h
      · rename_i hlt
        simpa [hlt] using h
      · cases h

/-- When nothing may follow: a record that is there belongs to an earlier generation. -/
lemma exists_checkAt_error_iff : (∃ stop, checkAt b m = .error stop) ↔
    ∀ h, committedAt b m.offset = .ok h → ∃ g ∈ m.generation, h.generation < g := by
  constructor
  · rintro ⟨stop, hstop⟩ h hslot
    let r : Record := ⟨m.offset, h, b.read (m.offset + Header.size) h.length.toNat⟩
    have hlater : ¬ ∀ g ∈ m.generation, g ≤ h.generation := by
      intro hgeneration
      have hok : checkAt b m = .ok r := checkAt_eq_ok_iff.2 ⟨hslot, rfl, rfl, hgeneration⟩
      rw [hok] at hstop
      cases hstop
    simpa using hlater
  · intro h
    cases hcheck : checkAt b m with
    | error stop => exact ⟨stop, rfl⟩
    | ok r =>
      obtain ⟨hslot, -, -, hgeneration⟩ := checkAt_eq_ok_iff.1 hcheck
      obtain ⟨g, hg, hlt⟩ := h r.header hslot
      exact absurd hlt (UInt32.not_lt.2 (hgeneration g hg))

end Check

/-! ## Stretches of a walk -/

namespace Chain

variable {b c : Buffer} {m n o : Mark} {rs qs : List Record}

lemma append (h : Chain b m rs n) (h' : Chain b n qs o) : Chain b m (rs ++ qs) o := by
  induction h with
  | nil => exact h'
  | cons hcheck _ ih => exact .cons hcheck (ih h')

lemma split (h : Chain b m (rs ++ qs) o) : ∃ n, Chain b m rs n ∧ Chain b n qs o := by
  induction rs generalizing m with
  | nil => exact ⟨m, .nil m, h⟩
  | cons r rs ih =>
    cases h with
    | cons hcheck htail =>
      obtain ⟨n, hfirst, hsecond⟩ := ih htail
      exact ⟨n, .cons hcheck hfirst, hsecond⟩

/-- A chain covers its range with whole cache lines, and a chain of any records ends within the
journal. -/
lemma bounds (h : Chain b m rs n) :
    m.offset + 64 * rs.length ≤ n.offset ∧ (rs ≠ [] → n.offset ≤ b.size) ∧
      (64 ∣ m.offset → 64 ∣ n.offset) := by
  induction h with
  | nil => exact ⟨by simp, fun hne => absurd rfl hne, id⟩
  | cons hcheck htail ih =>
    rename_i r rs
    obtain ⟨hline, hstop, hdvd⟩ := checkAt_bounds hcheck
    obtain ⟨hcover, hend, hdvd'⟩ := ih
    refine ⟨?_, fun _ => ?_, fun h => hdvd' (hdvd h)⟩
    · have : r.mark.offset = r.stop := rfl
      simp only [List.length_cons]
      omega
    · rcases rs with _ | ⟨q, rs⟩
      · cases htail
        exact hstop
      · exact hend (by simp)

lemma le (h : Chain b m rs n) : m.offset ≤ n.offset := by
  have := h.bounds.1
  omega

lemma offset_le_size (h : Chain b m rs n) (hm : m.offset ≤ b.size) : n.offset ≤ b.size := by
  cases h with
  | nil => exact hm
  | cons hcheck htail => exact (Chain.cons hcheck htail).bounds.2.1 (by simp)

/-- Along a chain the sizes of the records add up. -/
lemma offset_eq (h : Chain b m rs n) : n.offset = m.offset + totalSize (rs.map (·.payload)) := by
  induction h with
  | nil => rfl
  | cons hcheck _ ih =>
    obtain ⟨-, hoffset, hpayload, -⟩ := checkAt_eq_ok_iff.1 hcheck
    rename_i m _ r rs _
    have hlength : r.payload.length = r.header.length.toNat := by
      rw [hpayload, Buffer.length_read]
    have hmark : r.mark.offset = m.offset + (recordSize r.payload.length).getD 0 := by
      rw [Record.mark, Record.stop, hoffset, hlength, Header.recordSize]
    rw [ih, hmark, List.map_cons, totalSize, Nat.add_assoc]

/-- **A chain depends on the bytes that it crosses.** -/
lemma of_agreeOn (h : Chain b m rs n) (hagree : b.AgreeOn c m.offset n.offset)
    (hfits : n.offset ≤ c.size) : Chain c m rs n := by
  induction h with
  | nil => exact .nil _
  | cons hcheck htail ih =>
    rename_i m _ r _
    have hline := (checkAt_bounds hcheck).1
    have hle : r.stop ≤ _ := htail.le
    refine .cons (checkAt_of_agreeOn hcheck (hagree.mono (Nat.le_refl _) hle) (by omega)) ?_
    have hmark : m.offset ≤ r.mark.offset := by
      have : r.mark.offset = r.stop := rfl
      omega
    exact ih (hagree.mono hmark (Nat.le_refl _)) hfits

/-- The generation at the end is that of the last record. -/
lemma generation_eq (h : Chain b m rs n) :
    n.generation = (rs.getLast?.map (·.header.generation)).or m.generation := by
  induction h with
  | nil => rfl
  | cons _ _ ih =>
    rename_i r rs
    rw [ih]
    cases rs with
    | nil => rfl
    | cons q rs => simp [List.getLast?_cons]

/-- Along a chain the records lie one behind the other. -/
lemma offsets_lt (h : Chain b m rs n) :
    rs.Pairwise (fun r q => r.offset < q.offset) ∧ ∀ r ∈ rs, m.offset ≤ r.offset := by
  induction h with
  | nil => simp
  | cons hcheck _ ih =>
    obtain ⟨-, hoffset, -, -⟩ := checkAt_eq_ok_iff.1 hcheck
    have hline := (checkAt_bounds hcheck).1
    obtain ⟨hpairwise, hlow⟩ := ih
    rename_i r rs _
    have hmark : r.mark.offset = r.stop := rfl
    refine ⟨List.pairwise_cons.2 ⟨fun q hq => ?_, hpairwise⟩, fun q hq => ?_⟩
    · have := hlow q hq
      omega
    · rcases List.mem_cons.1 hq with rfl | hq
      · omega
      · have := hlow q hq
        omega

/-- Along a chain no generation is below the one before it. -/
lemma generations_le (h : Chain b m rs n) :
    rs.Pairwise (fun r q => r.header.generation ≤ q.header.generation) ∧
      ∀ g ∈ m.generation, ∀ r ∈ rs, g ≤ r.header.generation := by
  induction h with
  | nil => simp
  | cons hcheck _ ih =>
    obtain ⟨-, -, -, hgeneration⟩ := checkAt_eq_ok_iff.1 hcheck
    obtain ⟨hpairwise, hall⟩ := ih
    have hall' := hall _ rfl
    refine ⟨List.pairwise_cons.2 ⟨hall', hpairwise⟩, ?_⟩
    intro g hg q hq
    rcases List.mem_cons.1 hq with rfl | hq
    · exact hgeneration g hg
    · exact UInt32.le_trans (hgeneration g hg) (hall' q hq)

end Chain

/-! ## The whole walk -/

section Whole

variable {b : Buffer} {m n : Mark} {rs : List Record} {stop : ScanStop}

/-- From every mark a chain leads to where the walk stops. -/
lemma exists_chain (b : Buffer) (m : Mark) :
    ∃ rs n stop, Chain b m rs n ∧ checkAt b n = .error stop := by
  -- each step leaves at least one cache line less ahead
  induction hleft : b.size - m.offset using Nat.strongRecOn generalizing m with
  | _ left ih =>
    cases hcheck : checkAt b m with
    | error stop => exact ⟨[], m, stop, .nil m, hcheck⟩
    | ok r =>
      have hbounds := checkAt_bounds hcheck
      have hmark : r.mark.offset = r.stop := rfl
      obtain ⟨rs, n, stop, hchain, hstop⟩ := ih (b.size - r.mark.offset) (by omega) r.mark rfl
      exact ⟨r :: rs, n, stop, .cons hcheck hchain, hstop⟩

/-- A chain that is followed to its end is empty when its first step fails. -/
lemma Chain.eq_nil_iff (h : Chain b m rs n) (hstop : checkAt b n = .error stop) :
    rs = [] ↔ ∃ stop, checkAt b m = .error stop := by
  cases h with
  | nil => simpa using ⟨stop, hstop⟩
  | cons hcheck _ => simp [hcheck]

lemma next_of_checkAt_ok {r : Record} (k : Nat) (h : checkAt b m = .ok r) :
    (m.scan b k).next = (some r, r.mark.scan b (k + 1)) := by
  have hcheck : (m.scan b k).check = .ok r := h
  simp only [Scan.next, hcheck]
  rfl

lemma next_of_checkAt_error (k : Nat) (h : checkAt b m = .error stop) :
    (m.scan b k).next = (none, { m.scan b k with stop := some stop }) := by
  have hcheck : (m.scan b k).check = .error stop := h
  simp only [Scan.next, hcheck]
  rfl

lemma take_of_chain (h : Chain b m rs n) (hstop : checkAt b n = .error stop) :
    ∀ {limit : Nat} (k : Nat), rs.length < limit →
      (m.scan b k).take limit = (rs, { n.scan b (k + rs.length) with stop := some stop }) := by
  induction h with
  | nil m =>
    intro limit k hlimit
    obtain ⟨limit, rfl⟩ := Nat.exists_eq_succ_of_ne_zero (Nat.ne_of_gt hlimit)
    rw [Scan.take, next_of_checkAt_error k hstop]
    rfl
  | cons hcheck htail ih =>
    intro limit k hlimit
    obtain ⟨limit, rfl⟩ := Nat.exists_eq_succ_of_ne_zero (Nat.ne_of_gt (Nat.zero_lt_of_lt hlimit))
    simp only [List.length_cons, Nat.succ_eq_add_one, Nat.add_lt_add_iff_right] at hlimit
    rw [Scan.take, next_of_checkAt_ok k hcheck]
    simp only [ih hstop (k + 1) hlimit, List.length_cons]
    rw [Nat.add_assoc, Nat.add_comm 1]

/-- Walking on without keeping the records leads to the same place. -/
lemma advance_eq_take (limit : Nat) (s : Scan) : s.advance limit = (s.take limit).2 := by
  induction limit generalizing s with
  | zero => rfl
  | succ limit ih =>
    rw [Scan.advance, Scan.take]
    rcases hnext : s.next with ⟨_ | r, s'⟩
    · rfl
    · exact ih s'

/-- The scan allows itself more steps than any chain has. -/
lemma length_lt_maxSteps (h : Chain b .start rs n) : rs.length < (Mark.start.scan b 0).maxSteps := by
  obtain ⟨hcover, hend, -⟩ := h.bounds
  have hstart : Mark.start.offset = 0 := rfl
  have hslots : b.size ≤ 64 * slotCount b := by
    have hline : cacheLine.bytes = 64 := rfl
    rw [slotCount, hline]
    omega
  have hmax : (Mark.start.scan b 0).maxSteps = slotCount b + 1 := rfl
  rcases rs with _ | ⟨r, rs⟩
  · simp [hmax]
  · have := hend (by simp)
    omega

/-- The records that a scan of the journal yields. -/
def records (b : Buffer) : List Record := (scan b).rest.1

/-- **The scan walks the chain.** -/
lemma records_eq_of_chain (h : Chain b .start rs n) (hstop : checkAt b n = .error stop) :
    records b = rs := by
  have hscan : scan b = Mark.start.scan b 0 := rfl
  rw [records, Scan.rest, hscan, take_of_chain h hstop 0 (length_lt_maxSteps h)]

/-- **The same bytes, the same scan.** -/
lemma exists_chain_of_same {c : Buffer} (h : b.Same c) :
    ∃ rs n stop, Chain b .start rs n ∧ checkAt b n = .error stop ∧
      Chain c .start rs n ∧ checkAt c n = .error stop := by
  obtain ⟨rs, n, stop, hchain, hstop⟩ := exists_chain b .start
  have hsize : n.offset ≤ c.size := h.1 ▸ hchain.offset_le_size (Nat.zero_le _)
  exact ⟨rs, n, stop, hchain, hstop, hchain.of_agreeOn (h.agreeOn _ _) hsize,
    checkAt_error_of_agreeOn hstop h.1 (h.agreeOn _ _)⟩

lemma records_eq_of_same {c : Buffer} (h : b.Same c) : records b = records c := by
  obtain ⟨rs, n, stop, hb, hbstop, hc, hcstop⟩ := exists_chain_of_same h
  rw [records_eq_of_chain hb hbstop, records_eq_of_chain hc hcstop]

/-- **The report is about the chain.** -/
lemma finish_eq_of_chain (h : Chain b .start rs n) (hstop : checkAt b n = .error stop) :
    (scan b).finish = ⟨rs.length, n.offset, n.generation, stop⟩ := by
  have hscan : scan b = Mark.start.scan b 0 := rfl
  rw [Scan.finish, hscan, advance_eq_take, take_of_chain h hstop 0 (length_lt_maxSteps h)]
  simp [Mark.scan]

end Whole

end BumpArena.Journal
