import BumpArena.Proofs.Journal.Walk
import Mathlib.Tactic.Tauto

/-!
# The longest run of records

What a scan of arbitrary bytes finds, said without the scan.  A `Run` is a list of records of which
the first lies at the start of the journal and each other one right behind the one before it, where
every record is intact and no generation is below the one before.  `records_longest` says that the
scan yields a run, and that every run is a part of it, from the start.

Why the scan ends where it does is said by a list of checks in a fixed order (`checks`): it stops
for the first one that fails at the end of the run (`checkAt_eq_error_iff`).  How it gets there is
said about its single steps: the records come one after the other (`next_after`), and a scan that
has stopped stays where it is (`after_of_isSome_stop`), so that a report may be asked for at any
time (`finish_after`).  Last, a record is read through slices only, and none of them runs past the
end of the journal (`sliceRecord_eq`).
-/

namespace BumpArena.Journal

/-! ## Runs -/

/-- The record is intact, and says what the bytes at its offset say. -/
structure Record.Intact (b : Buffer) (r : Record) : Prop where
  header_eq : r.header = .decode (b.read r.offset Header.size)
  magic_eq : r.header.magic = magicWord
  fits : ∃ size, recordSize r.header.length.toNat = some size ∧ r.offset + size ≤ b.size
  payload_eq : r.payload = b.read (r.offset + Header.size) r.header.length.toNat
  checksum_eq : Checksum.ofList r.payload = r.header.checksum

/-- One record lies right behind another, and is of no earlier generation. -/
structure Record.Precedes (r q : Record) : Prop where
  offset_eq : ∃ size, recordSize r.header.length.toNat = some size ∧ q.offset = r.offset + size
  generation_le : r.header.generation ≤ q.header.generation

/-- Intact records from the start of the journal on, each right behind the one before. -/
structure Run (b : Buffer) (rs : List Record) : Prop where
  intact : ∀ r ∈ rs, r.Intact b
  start : ∀ r ∈ rs.head?, r.offset = 0
  precedes : rs.IsChain Record.Precedes

/-- Where a walk stands after a run. -/
def reached (rs : List Record) : Mark := rs.getLast?.elim .start Record.mark

section Run

variable {b : Buffer} {m n o : Mark} {r : Record} {rs qs : List Record} {stop : ScanStop}

/-- A walk goes on with the intact record that it stands at, if its generation is high enough. -/
lemma checkAt_eq_ok_iff_intact : checkAt b m = .ok r ↔
    r.Intact b ∧ r.offset = m.offset ∧ ∀ g ∈ m.generation, g ≤ r.header.generation := by
  rw [checkAt_eq_ok_iff, committedAt_eq_ok_iff, magicAt_eq, Checksum.ofRange_eq]
  constructor
  · rintro ⟨⟨-, hmagic, hheader, hfits, hsum⟩, hoffset, hpayload, hgeneration⟩
    rw [← hoffset] at hmagic hheader hfits hpayload hsum
    rw [← hheader] at hmagic
    exact ⟨⟨hheader, hmagic, hfits, hpayload, hpayload ▸ hsum⟩, hoffset, hgeneration⟩
  · rintro ⟨⟨hheader, hmagic, ⟨size, hsize, hstop⟩, hpayload, hsum⟩, hoffset, hgeneration⟩
    have hroom := le_of_recordSize hsize
    have hheader' : r.header = headerAt b r.offset := hheader
    rw [hheader'] at hmagic
    rw [← hoffset]
    exact ⟨⟨by omega, hmagic, hheader, ⟨size, hsize, hstop⟩, hpayload ▸ hsum⟩, rfl, hpayload,
      hgeneration⟩

/-- What stands right behind a record, for a walk that comes from there. -/
lemma precedes_iff {q : Record} : r.Precedes q ↔
    q.offset = r.mark.offset ∧ ∀ g ∈ r.mark.generation, g ≤ q.header.generation := by
  obtain ⟨size, hsize, hstop⟩ := r.exists_stop
  have hmark : r.mark.offset = r.offset + size := hstop
  have hgeneration : (∀ g ∈ r.mark.generation, g ≤ q.header.generation) ↔
      r.header.generation ≤ q.header.generation := by simp [Record.mark]
  rw [hmark, hgeneration]
  constructor
  · rintro ⟨⟨size', hsize', hoffset⟩, hle⟩
    obtain rfl : size = size' := Option.some.inj (hsize.symm.trans hsize')
    exact ⟨hoffset, hle⟩
  · rintro ⟨hoffset, hle⟩
    exact ⟨⟨size, hsize, hoffset⟩, hle⟩

/-- The chains from a mark, said without marks in between. -/
lemma chain_iff : Chain b m rs n ↔
    (∀ r ∈ rs, r.Intact b) ∧
      (∀ r ∈ rs.head?, r.offset = m.offset ∧ ∀ g ∈ m.generation, g ≤ r.header.generation) ∧
      rs.IsChain Record.Precedes ∧ n = rs.getLast?.elim m Record.mark := by
  induction rs generalizing m with
  | nil =>
    constructor
    · rintro ⟨⟩
      simp
    · rintro ⟨-, -, -, rfl⟩
      exact .nil _
  | cons r rs ih =>
    have hlast : (r :: rs).getLast?.elim m Record.mark = rs.getLast?.elim r.mark Record.mark := by
      cases rs <;> simp [List.getLast?_cons]
    have hchain : (r :: rs).IsChain Record.Precedes ↔
        (∀ q ∈ rs.head?, r.Precedes q) ∧ rs.IsChain Record.Precedes := by
      cases rs <;> simp
    have hcons : Chain b m (r :: rs) n ↔ checkAt b m = .ok r ∧ Chain b r.mark rs n := by
      constructor
      · rintro (_ | ⟨hcheck, htail⟩)
        exact ⟨hcheck, htail⟩
      · rintro ⟨hcheck, htail⟩
        exact .cons hcheck htail
    rw [hlast, hchain, hcons, ih, checkAt_eq_ok_iff_intact]
    simp only [precedes_iff, List.mem_cons, forall_eq_or_imp, List.head?_cons, Option.mem_def,
      Option.some.injEq, forall_eq']
    tauto

lemma run_iff_chain : Run b rs ↔ Chain b .start rs (reached rs) := by
  rw [chain_iff]
  constructor
  · rintro ⟨hintact, hstart, hprecedes⟩
    exact ⟨hintact, fun r hr => ⟨hstart r hr, by simp [Mark.start]⟩, hprecedes, rfl⟩
  · rintro ⟨hintact, hstart, hprecedes, -⟩
    exact ⟨hintact, fun r hr => (hstart r hr).1, hprecedes⟩

/-- **No chain leads past the end of a walk,** and none leaves its way. -/
lemma Chain.isPrefix (h : Chain b m rs n) (h' : Chain b m qs o)
    (hstop : checkAt b o = .error stop) : rs <+: qs := by
  induction h generalizing qs with
  | nil => exact List.nil_prefix
  | cons hcheck _ ih =>
    cases h' with
    | nil => simp [hcheck] at hstop
    | cons hcheck' htail' =>
      obtain rfl := Except.ok.inj (hcheck.symm.trans hcheck')
      exact (List.prefix_cons_inj _).2 (ih htail')

end Run

/-! ## Checks -/

/-- What a record that is to follow has to pass, in the order in which it is checked, and the
verdict when it does not. -/
def checks (b : Buffer) (m : Mark) : List (ScanStop × Bool) :=
  let header := headerAt b m.offset
  [(.endOfRegion, m.offset + Header.size ≤ b.size),
   (.endOfData, header.magic ≠ 0),
   (.badMagic, header.magic = magicWord),
   (.truncated, header.recordSize.any fun size => m.offset + size ≤ b.size),
   (.checksumMismatch,
     Checksum.ofList (b.read (m.offset + Header.size) header.length.toNat) = header.checksum),
   (.staleGeneration, m.generation.all fun generation => generation ≤ header.generation)]

/-- The verdict of the first check that is not passed. -/
def firstFailed (b : Buffer) (m : Mark) : Option ScanStop :=
  ((checks b m).find? (!·.2)).map (·.1)

section Checks

variable {b : Buffer} {m : Mark} {stop : ScanStop}

/-- Once the slot itself has passed, only the generation is left to check. -/
lemma firstFailed_of_committedAt_ok {h : Header} (hslot : committedAt b m.offset = .ok h) :
    firstFailed b m =
      if m.generation.all (· ≤ h.generation) then none else some .staleGeneration := by
  obtain ⟨hheader, hmagic, rfl, ⟨size, hsize, hfits⟩, hsum⟩ := committedAt_eq_ok_iff.1 hslot
  have hzero : magicWord ≠ 0 := by decide
  rw [magicAt_eq] at hmagic
  rw [Checksum.ofRange_eq] at hsum
  simp only [firstFailed, checks, hsize, Option.any_some, List.find?, hheader, hmagic, hfits,
    hsum, hzero, ne_eq, not_false_eq_true, decide_true, Bool.not_true]
  split <;> simp_all

/-- **A walk stops for the first check that fails.** -/
lemma checkAt_eq_error_iff : checkAt b m = .error stop ↔ firstFailed b m = some stop := by
  cases hslot : committedAt b m.offset with
  | error verdict =>
    -- The slot itself fails, whatever came before it.
    obtain ⟨size, hsize⟩ := (headerAt b m.offset).exists_recordSize
    rw [checkAt_of_committedAt_error hslot]
    unfold committedAt at hslot
    simp only [magicAt_eq, hsize, Checksum.ofRange_eq] at hslot
    simp only [firstFailed, checks, hsize, Option.any_some, List.find?]
    grind
  | ok header =>
    rw [firstFailed_of_committedAt_ok hslot]
    cases hgeneration : m.generation with
    | none =>
      let r : Record := ⟨m.offset, header, b.read (m.offset + Header.size) header.length.toNat⟩
      have hok : checkAt b m = .ok r := checkAt_eq_ok_iff.2 ⟨hslot, rfl, rfl, by simp [hgeneration]⟩
      simp [hok]
    | some g =>
      by_cases hlt : header.generation < g
      · simp [checkAt_of_lt hslot hgeneration hlt, UInt32.not_le.2 hlt]
      · let r : Record := ⟨m.offset, header, b.read (m.offset + Header.size) header.length.toNat⟩
        have hle := UInt32.not_lt.1 hlt
        have hok : checkAt b m = .ok r :=
          checkAt_eq_ok_iff.2 ⟨hslot, rfl, rfl, by simpa [hgeneration] using hle⟩
        simp [hok, hle]

end Checks

/-! ## Single steps -/

namespace Scan

/-- The scan after so many steps. -/
def after (s : Scan) : Nat → Scan
  | 0 => s
  | steps + 1 => s.next.2.after steps

variable {s : Scan}

lemma after_add (s : Scan) (i j : Nat) : s.after (i + j) = (s.after i).after j := by
  induction i generalizing s with
  | zero => rw [Nat.zero_add, after]
  | succ i ih => rw [Nat.add_right_comm, after, after, ih]

/-- A scan that has stopped finds nothing more. -/
lemma next_of_isSome_stop (h : s.stop.isSome) : s.next = (none, s) := if_pos h

/-- A scan that finds nothing has stopped. -/
lemma isSome_stop_of_next (h : s.next.1 = none) : s.next.2.stop.isSome := by
  unfold next at h ⊢
  split
  · next hstop => exact hstop
  · next hstop =>
    rw [if_neg hstop] at h
    cases hcheck : s.check with
    | ok r => simp [hcheck] at h
    | error stop => rfl

lemma after_of_isSome_stop (h : s.stop.isSome) (steps : Nat) : s.after steps = s := by
  induction steps with
  | zero => rfl
  | succ steps ih => rw [after, next_of_isSome_stop h, ih]

lemma advance_of_isSome_stop (h : s.stop.isSome) (limit : Nat) : s.advance limit = s := by
  cases limit with
  | zero => rfl
  | succ limit => rw [advance, next_of_isSome_stop h]

end Scan

section Steps

variable {b : Buffer} {m n : Mark} {rs : List Record} {stop : ScanStop}

/-- The steps of a scan are those of its chain. -/
lemma after_of_chain (h : Chain b m rs n) (k : Nat) :
    (m.scan b k).after rs.length = n.scan b (k + rs.length) := by
  induction h generalizing k with
  | nil => rfl
  | cons hcheck _ ih =>
    rw [List.length_cons, Scan.after, next_of_checkAt_ok k hcheck, ih, Nat.add_right_comm,
      Nat.add_assoc]

/-- Where a scan is after some steps: part of the way, or stopped at its end. -/
lemma after_cases (h : Chain b .start rs n) (hstop : checkAt b n = .error stop) (steps : Nat) :
    (steps ≤ rs.length ∧ ∃ m, Chain b m (rs.drop steps) n ∧
        (scan b).after steps = m.scan b steps) ∨
      (rs.length < steps ∧
        (scan b).after steps = { n.scan b rs.length with stop := some stop }) := by
  have hscan : scan b = Mark.start.scan b 0 := rfl
  rcases Nat.lt_or_ge rs.length steps with hlt | hle
  · obtain ⟨more, rfl⟩ := Nat.exists_eq_add_of_lt hlt
    refine .inr ⟨hlt, ?_⟩
    rw [Nat.add_assoc, Scan.after_add, hscan, after_of_chain h, Nat.add_comm more 1,
      Scan.after_add, Nat.zero_add]
    have hlast : (n.scan b rs.length).after 1 = { n.scan b rs.length with stop := some stop } := by
      rw [Scan.after, next_of_checkAt_error _ hstop, Scan.after]
    rw [hlast, Scan.after_of_isSome_stop rfl]
  · rw [← List.take_append_drop steps rs] at h
    obtain ⟨m, hbefore, hafter⟩ := h.split
    have hlength : (rs.take steps).length = steps := List.length_take_of_le hle
    have hsteps := after_of_chain hbefore 0
    rw [hlength, Nat.zero_add] at hsteps
    exact .inl ⟨hle, m, hafter, hsteps⟩

/-- **The records come one after the other,** and nothing comes after the last. -/
lemma next_after (h : Chain b .start rs n) (hstop : checkAt b n = .error stop) (steps : Nat) :
    ((scan b).after steps).next.1 = rs[steps]? := by
  rcases after_cases h hstop steps with ⟨hle, m, hchain, hafter⟩ | ⟨hlt, hafter⟩
  · rw [hafter]
    rcases Nat.lt_or_eq_of_le hle with hlt | rfl
    · rw [List.drop_eq_getElem_cons hlt] at hchain
      cases hchain with
      | cons hcheck _ => rw [next_of_checkAt_ok _ hcheck, List.getElem?_eq_getElem hlt]
    · rw [List.drop_length] at hchain
      cases hchain with
      | nil => rw [next_of_checkAt_error _ hstop, List.getElem?_eq_none (Nat.le_refl _)]
  · rw [hafter, Scan.next_of_isSome_stop rfl, List.getElem?_eq_none (Nat.le_of_lt hlt)]

/-- A scan has stopped once it was asked for a record behind the last. -/
lemma stop_after (h : Chain b .start rs n) (hstop : checkAt b n = .error stop) (steps : Nat) :
    ((scan b).after steps).stop = if steps ≤ rs.length then none else some stop := by
  rcases after_cases h hstop steps with ⟨hle, m, -, hafter⟩ | ⟨hlt, hafter⟩
  · rw [hafter, if_pos hle]
    rfl
  · rw [hafter, if_neg (Nat.not_le.2 hlt)]

/-- **A report is about the whole scan,** whenever it is asked for. -/
lemma finish_after (h : Chain b .start rs n) (hstop : checkAt b n = .error stop) (steps : Nat) :
    ((scan b).after steps).finish = ⟨rs.length, n.offset, n.generation, stop⟩ := by
  rcases after_cases h hstop steps with ⟨hle, m, hchain, hafter⟩ | ⟨-, hafter⟩
  · have hsteps : (rs.drop steps).length < (m.scan b steps).maxSteps := by
      have hall : rs.length < (m.scan b steps).maxSteps := length_lt_maxSteps h
      rw [List.length_drop]
      omega
    have hrecords : steps + (rs.drop steps).length = rs.length := by
      rw [List.length_drop]
      omega
    rw [hafter, Scan.finish, advance_eq_take, take_of_chain hchain hstop steps hsteps, hrecords]
    rfl
  · rw [hafter, Scan.finish, Scan.advance_of_isSome_stop rfl]
    rfl

end Steps

/-! ## Slices -/

/-- The bytes from one offset up to another, which has to lie in the buffer. -/
def slice (b : Buffer) (start stop : Nat) : Checked (List UInt8) :=
  if stop ≤ b.size then .ok (b.read start (stop - start))
  else .error (.sliceOutOfRange stop b.size)

/-- The record at an offset, read through slices. -/
def sliceRecord (b : Buffer) (offset : Nat) : Checked (Except ScanStop Record) := do
  let headerStop := offset + Header.size
  if b.size < headerStop then return .error .endOfRegion
  let header := Header.decode (← slice b offset headerStop)
  if header.magic = 0 then return .error .endOfData
  if header.magic ≠ magicWord then return .error .badMagic
  match header.recordSize with
  | none => return .error .truncated
  | some size =>
    if b.size < offset + size then return .error .truncated
    let payload ← slice b headerStop (headerStop + header.length.toNat)
    if Checksum.ofList payload ≠ header.checksum then return .error .checksumMismatch
    return .ok ⟨offset, header, payload⟩

lemma slice_eq_ok {b : Buffer} {start length : Nat} (h : start + length ≤ b.size) :
    slice b start (start + length) = .ok (b.read start length) := by
  rw [slice, if_pos h, Nat.add_sub_cancel_left]

/-- **No slice runs past the end,** and what is read through slices is the record. -/
lemma sliceRecord_eq (b : Buffer) (offset : Nat) :
    sliceRecord b offset = .ok (readSlot b offset) := by
  unfold sliceRecord readSlot committedAt
  by_cases hheader : b.size < offset + Header.size
  · simp only [hheader, if_true]
    rfl
  have hhead : slice b offset (offset + Header.size) = .ok (b.read offset Header.size) :=
    slice_eq_ok (Nat.not_lt.1 hheader)
  have hdecode : Header.decode (b.read offset Header.size) = headerAt b offset := rfl
  obtain ⟨size, hsize⟩ := (headerAt b offset).exists_recordSize
  simp only [hheader, hhead, hdecode, magicAt_eq, hsize, Checksum.ofRange_eq, if_false, bind,
    Except.bind, pure, Except.pure]
  by_cases hfits : b.size < offset + size
  · simp only [hfits, if_true]
    grind
  · have hroom := le_of_recordSize hsize
    have hstop : offset + Header.size + (headerAt b offset).length.toNat ≤ b.size := by omega
    have hpayload := slice_eq_ok hstop
    simp only [hfits, hpayload, if_false]
    grind

/-! ## The whole scan -/

/-- **A scan finds the longest run of records.**  It yields the records one after the other and then
stops for good, for the first check that fails behind the last of them, after no more records than
there are whole cache lines.  The report is the same whenever it is asked for. -/
theorem records_longest (b : Buffer) :
    Run b (records b) ∧ (∀ rs, Run b rs → rs <+: records b) ∧
      (∀ steps, ((scan b).after steps).next.1 = (records b)[steps]?) ∧
      (records b).length ≤ b.size / 64 ∧
      (∃ stop, firstFailed b (reached (records b)) = some stop ∧
        ∀ steps, ((scan b).after steps).stop =
            (if steps ≤ (records b).length then none else some stop) ∧
          ((scan b).after steps).finish = ⟨(records b).length, (reached (records b)).offset,
            (reached (records b)).generation, stop⟩) ∧
      (∀ s : Scan, s.next.1 = none → s.next.2.next = (none, s.next.2)) ∧
      ∀ offset, sliceRecord b offset = .ok (readSlot b offset) := by
  obtain ⟨rs, n, stop, hchain, hstop⟩ := exists_chain b .start
  obtain rfl : n = reached rs := (chain_iff.1 hchain).2.2.2
  rw [records_eq_of_chain hchain hstop]
  refine ⟨run_iff_chain.2 hchain, ?_, next_after hchain hstop, ?_, ⟨stop, ?_, ?_⟩, ?_,
    sliceRecord_eq b⟩
  · intro qs hqs
    exact (run_iff_chain.1 hqs).isPrefix hchain hstop
  · have hcover := hchain.bounds.1
    have hsize := hchain.offset_le_size (Nat.zero_le _)
    have hstart : Mark.start.offset = 0 := rfl
    omega
  · exact checkAt_eq_error_iff.1 hstop
  · exact fun steps => ⟨stop_after hchain hstop steps, finish_after hchain hstop steps⟩
  · exact fun s hnone => Scan.next_of_isSome_stop (Scan.isSome_stop_of_next hnone)

end BumpArena.Journal
