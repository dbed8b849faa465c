import BumpArena.Fixture.Payload
import Mathlib.Algebra.Group.Nat.Defs
import Mathlib.Logic.Function.Iterate

/-!
# Payloads keep their seed

A test that sends payloads about can only notice that two of them were swapped if they differ, and
they do whenever their seeds differ and there is room for a whole word: the first word gives the
seed back (`seedOf_bytes`).  That rests on scrambling, each step of which can be undone
(`unmix_mix`, `mix_unmix`).  A word that was shifted and added to itself is taken apart again by
shifting twice more, as what is left over then has been shifted out at the end
(`unshift_xorShift`).  A product with an odd number is undone by the inverse of that number.

A payload is written word by word, and of the last word only as much as is missing.  `Fills` is the
loop that does so, with its rounds counted.  It comes to its end after as many rounds as there are
words begun, and leaves the bytes of the seed (`fills_iff`).
-/

namespace BumpArena.Fixture

/-! ## Undoing shifts -/

/-- A word with its own bits from some places further up added to it. -/
def xorShift (z places : UInt64) : UInt64 := z ^^^ (z >>> places)

/-- What takes such a word apart again. -/
def unshift (z places : UInt64) : UInt64 := z ^^^ (xorShift z places >>> places)

section Shift

variable {places : UInt64}

lemma testBit_xorShift (hplaces : places.toNat < 64) (z : UInt64) (i : Nat) :
    (xorShift z places).toNat.testBit i =
      (z.toNat.testBit i ^^ z.toNat.testBit (places.toNat + i)) := by
  rw [xorShift, UInt64.toNat_xor, Nat.testBit_xor, UInt64.toNat_shiftRight, Nat.testBit_shiftRight,
    Nat.mod_eq_of_lt hplaces]

lemma testBit_unshift (hplaces : places.toNat < 64) (z : UInt64) (i : Nat) :
    (unshift z places).toNat.testBit i =
      (z.toNat.testBit i ^^ (z.toNat.testBit (places.toNat + i) ^^
        z.toNat.testBit (places.toNat + (places.toNat + i)))) := by
  rw [unshift, UInt64.toNat_xor, Nat.testBit_xor, UInt64.toNat_shiftRight, Nat.testBit_shiftRight,
    Nat.mod_eq_of_lt hplaces, testBit_xorShift hplaces]

/-- Three shifts leave nothing of a word. -/
lemma testBit_of_shifted (hthree : 64 ≤ 3 * places.toNat) (z : UInt64) (i : Nat) :
    z.toNat.testBit (places.toNat + (places.toNat + (places.toNat + i))) = false := by
  have hpow : 2 ^ 64 ≤ 2 ^ (places.toNat + (places.toNat + (places.toNat + i))) :=
    Nat.pow_le_pow_right (by decide) (by omega)
  exact Nat.testBit_lt_two_pow (Nat.lt_of_lt_of_le z.toNat_lt hpow)

/-- **A shift is undone** by two more, where three leave nothing. -/
lemma unshift_xorShift (hplaces : places.toNat < 64) (hthree : 64 ≤ 3 * places.toNat)
    (z : UInt64) : unshift (xorShift z places) places = z := by
  refine UInt64.toNat_inj.1 (Nat.eq_of_testBit_eq fun i => ?_)
  simp only [testBit_unshift hplaces, testBit_xorShift hplaces, testBit_of_shifted hthree]
  -- Each bit from further up occurs twice.
  generalize z.toNat.testBit (places.toNat + i) = once
  generalize z.toNat.testBit (places.toNat + (places.toNat + i)) = twice
  cases once <;> cases twice <;> simp

/-- It does not matter which of the two is done first. -/
lemma xorShift_unshift_comm (hplaces : places.toNat < 64) (z : UInt64) :
    xorShift (unshift z places) places = unshift (xorShift z places) places := by
  refine UInt64.toNat_inj.1 (Nat.eq_of_testBit_eq fun i => ?_)
  simp only [testBit_xorShift hplaces, testBit_unshift hplaces, Bool.xor_assoc, Bool.xor_left_comm]

lemma xorShift_unshift (hplaces : places.toNat < 64) (hthree : 64 ≤ 3 * places.toNat)
    (z : UInt64) : xorShift (unshift z places) places = z := by
  rw [xorShift_unshift_comm hplaces, unshift_xorShift hplaces hthree]

end Shift

/-! ## Undoing the scrambling -/

/-- The word that was scrambled: the steps are undone from the last to the first, and the products
by the inverses of the factors. -/
def unmix (z : UInt64) : UInt64 :=
  let z := unshift z 31 * 0x319642B2D24D8EC3
  let z := unshift z 27 * 0x96DE1B173F119089
  unshift z 30

lemma mix_eq (z : UInt64) : mix z =
    xorShift (xorShift (xorShift z 30 * 0xBF58476D1CE4E5B9) 27 * 0x94D049BB133111EB) 31 := rfl

lemma mul_cancel {factor inverse : UInt64} (h : factor * inverse = 1) (z : UInt64) :
    z * factor * inverse = z := by
  rw [UInt64.mul_assoc, h, UInt64.mul_one]

/-- **Scrambling loses nothing.** -/
lemma unmix_mix (z : UInt64) : unmix (mix z) = z := by
  simp only [unmix, mix_eq]
  rw [unshift_xorShift (by decide) (by decide), mul_cancel (by decide),
    unshift_xorShift (by decide) (by decide), mul_cancel (by decide),
    unshift_xorShift (by decide) (by decide)]

/-- **Every word comes of scrambling.** -/
lemma mix_unmix (z : UInt64) : mix (unmix z) = z := by
  simp only [unmix, mix_eq]
  rw [xorShift_unshift (by decide) (by decide), mul_cancel (by decide),
    xorShift_unshift (by decide) (by decide), mul_cancel (by decide),
    xorShift_unshift (by decide) (by decide)]

lemma bijective_mix : Function.Bijective mix :=
  Function.bijective_iff_has_inverse.2 ⟨unmix, unmix_mix, mix_unmix⟩

/-! ## The bytes of a seed -/

section Bytes

variable {seed : UInt64} {length m n count : Nat}

lemma length_words (state : UInt64) (count : Nat) : (words state count).length = 8 * count := by
  induction count generalizing state with
  | zero => rfl
  | succ count ih =>
    rw [words, List.length_append, LittleEndian.length_encode, ih]
    omega

lemma words_add (state : UInt64) (m n : Nat) :
    words state (m + n) = words state m ++ words ((· + stride)^[m] state) n := by
  induction m generalizing state with
  | zero => rw [Nat.zero_add, Function.iterate_zero, id, words, List.nil_append]
  | succ m ih =>
    rw [Nat.succ_add, words, words, ih, Function.iterate_succ_apply, List.append_assoc]

/-- The bytes of a seed are the first of its words, however many more of these there are. -/
lemma bytes_eq_take_words (h : length ≤ 8 * count) :
    bytes seed length = (words seed count).take length := by
  have hbegun : (length + 7) / 8 ≤ count := by omega
  have hlength := length_words seed ((length + 7) / 8)
  obtain ⟨more, rfl⟩ := Nat.exists_eq_add_of_le hbegun
  rw [bytes, words_add, List.take_append_of_le_length (by omega)]

lemma length_bytes (seed : UInt64) (length : Nat) : (bytes seed length).length = length := by
  rw [bytes, List.length_take, length_words]
  omega

/-- **Fewer bytes are the first of more.** -/
lemma take_bytes (h : m ≤ n) : (bytes seed n).take m = bytes seed m := by
  have hbegun : n ≤ 8 * ((n + 7) / 8) := by omega
  rw [bytes_eq_take_words hbegun, List.take_take, Nat.min_eq_left h,
    bytes_eq_take_words (Nat.le_trans h hbegun)]

/-- The bytes of the words before, and as many of the next word as are missing. -/
lemma bytes_succ (h : 8 * count < length) :
    bytes seed (min (8 * (count + 1)) length) = bytes seed (8 * count) ++
      (LittleEndian.encode 8 (mix ((· + stride)^[count + 1] seed)).toNat).take
        (length - 8 * count) := by
  have hword : words ((· + stride)^[count] seed) 1 =
      LittleEndian.encode 8 (mix ((· + stride)^[count + 1] seed)).toNat := by
    rw [words, words, List.append_nil, Function.iterate_succ_apply']
  have hlength := length_words seed count
  have hwhole {n : Nat} (hn : 8 * count ≤ n) : (words seed count).take n = words seed count :=
    List.take_of_length_le (hlength ▸ hn)
  rw [bytes_eq_take_words (Nat.min_le_left ..), bytes_eq_take_words (Nat.le_refl _), words_add,
    hword, List.take_append, hlength, hwhole (Nat.le_refl _), hwhole (by omega)]
  congr 1
  rw [List.take_eq_take_iff, LittleEndian.length_encode]
  omega

/-! ## Writing a payload -/

/-- A generator at work: its state, and what it has written. -/
structure Generator where
  state : UInt64
  written : List UInt8

/-- One round: the state moves on, and of its word as many bytes are written as are missing. -/
def Generator.round (length : Nat) (g : Generator) : Generator :=
  let state := g.state + stride
  let word := LittleEndian.encode 8 (mix state).toNat
  ⟨state, g.written ++ word.take (min (length - g.written.length) word.length)⟩

/-- **How a generator goes on** as long as bytes are missing.  The rounds are counted. -/
inductive Fills (length : Nat) : Generator → Nat → Generator → Prop
  /-- Nothing is missing. -/
  | full {g : Generator} (h : length ≤ g.written.length) : Fills length g 0 g
  /-- Something is missing. -/
  | round {g g' : Generator} {rounds : Nat} (h : g.written.length < length)
      (hagain : Fills length (g.round length) rounds g') : Fills length g (rounds + 1) g'

/-- **What a generator has written** after a number of rounds: the bytes of the words so far, or all
that were asked for. -/
def Generator.after (seed : UInt64) (length rounds : Nat) : Generator :=
  ⟨(· + stride)^[rounds] seed, bytes seed (min (8 * rounds) length)⟩

lemma Generator.round_after (h : 8 * count < length) :
    (after seed length count).round length = after seed length (count + 1) := by
  have hmin : min (8 * count) length = 8 * count := by omega
  rw [after, after, round, hmin, bytes_succ h, length_bytes, Function.iterate_succ_apply']
  congr 2
  rw [LittleEndian.length_encode, List.take_eq_take_iff, LittleEndian.length_encode]
  omega

/-- The loop comes to its end, from every round on. -/
lemma fills_after (seed : UInt64) (h : count + n = (length + 7) / 8) :
    Fills length (.after seed length count) n (.after seed length (count + n)) := by
  induction n generalizing count with
  | zero =>
    refine .full ?_
    rw [Generator.after, length_bytes]
    omega
  | succ n ih =>
    have hmissing : 8 * count < length := by omega
    -- Fewer rounds than words begun leave something missing, and one more leads on as claimed.
    have hagain : Fills length (.after seed length (count + 1)) n
        (.after seed length (count + 1 + n)) := ih (by omega)
    rw [← Generator.round_after hmissing, Nat.add_right_comm] at hagain
    refine .round ?_ hagain
    rw [Generator.after, length_bytes]
    omega

lemma Fills.unique {g h h' : Generator} (hfills : Fills length g m h)
    (hfills' : Fills length g n h') : m = n ∧ h = h' := by
  induction hfills generalizing n with
  | full hfull =>
    cases hfills' with
    | full => exact ⟨rfl, rfl⟩
    | round hmissing => omega
  | round hmissing _ ih =>
    cases hfills' with
    | full hfull => omega
    | round _ hagain =>
      obtain ⟨rfl, rfl⟩ := ih hagain
      exact ⟨rfl, rfl⟩

/-- **The loop has one end**: after as many rounds as there are words begun, with the bytes of the
seed. -/
lemma fills_iff {g : Generator} {rounds : Nat} :
    Fills length ⟨seed, []⟩ rounds g ↔
      rounds = (length + 7) / 8 ∧ g = ⟨(· + stride)^[rounds] seed, bytes seed length⟩ := by
  have hfills : Fills length (.after seed length 0) ((length + 7) / 8)
      (.after seed length ((length + 7) / 8)) := by
    have hrun := fills_after seed (Nat.zero_add ((length + 7) / 8))
    rwa [Nat.zero_add] at hrun
  have hstart : Generator.after seed length 0 = ⟨seed, []⟩ := rfl
  have hend : Generator.after seed length ((length + 7) / 8) =
      ⟨(· + stride)^[(length + 7) / 8] seed, bytes seed length⟩ := by
    rw [Generator.after, Nat.min_eq_right (by omega)]
  rw [hstart, hend] at hfills
  constructor
  · intro h
    obtain ⟨rfl, rfl⟩ := h.unique hfills
    exact ⟨rfl, rfl⟩
  · rintro ⟨rfl, rfl⟩
    exact hfills

/-! ## The seed of bytes -/

/-- The seed that the first word of a row of bytes comes from. -/
def seedOf (bytes : List UInt8) : UInt64 :=
  unmix (UInt64.ofNat (LittleEndian.decode (bytes.take 8))) - stride

/-- **Eight bytes give the seed back.** -/
lemma seedOf_bytes (h : 8 ≤ length) : seedOf (bytes seed length) = seed := by
  have hfirst : bytes seed 8 = LittleEndian.encode 8 (mix (seed + stride)).toNat := by
    rw [bytes_eq_take_words (Nat.le_refl (8 * 1)), words, words, List.append_nil,
      List.take_of_length_le (Nat.le_of_eq (LittleEndian.length_encode ..))]
  have hword : (mix (seed + stride)).toNat < LittleEndian.values 8 := UInt64.toNat_lt _
  rw [seedOf, take_bytes h, hfirst, LittleEndian.decode_encode, Nat.mod_eq_of_lt hword,
    UInt64.ofNat_toNat, unmix_mix, UInt64.add_sub_cancel]

end Bytes

/-! ## What a payload promises -/

section Payload

variable {seed : UInt64} {length : Nat} {whole : List UInt8}

lemma payload_eq_ok_iff :
    payload seed length = .ok whole ↔ length ≤ Word.maxRow ∧ bytes seed length = whole := by
  rw [payload, bind_eq_ok_iff]
  constructor
  · rintro ⟨⟨⟩, hroom, hwhole⟩
    rw [Word.reserve_eq_ok_iff, Nat.mul_one] at hroom
    exact ⟨hroom, Except.ok.inj hwhole⟩
  · rintro ⟨hroom, rfl⟩
    exact ⟨(), Word.reserve_eq_ok_iff.2 (by omega), rfl⟩

/-- There is no payload that memory cannot hold in a row. -/
lemma payload_eq_error (h : Word.maxRow < length) :
    payload seed length = .error .capacityOverflow := by
  have hreserve : Word.reserve length 1 = .error .capacityOverflow := if_neg (by omega)
  rw [payload, hreserve]
  rfl

end Payload

/-- **What a payload promises.**  Up to the most bytes that memory can have in a row, it is made,
and has just the length that was asked for.  It is what the loop writes, which comes to its end
after as many rounds as there are words begun, and in no other way.  A longer one is not made.  A
shorter payload is the first part of a longer one.  From eight bytes on, different seeds have
different payloads, as scrambling takes words to words one to one. -/
theorem payload_laws :
    (∀ seed length, length ≤ Word.maxRow → ∃ whole, payload seed length = .ok whole ∧
      whole.length = length ∧
      (∃ rounds g, Fills length ⟨seed, []⟩ rounds g) ∧
      ∀ rounds g, Fills length ⟨seed, []⟩ rounds g →
        rounds = (length + 7) / 8 ∧ g.written = whole) ∧
    (∀ seed length, Word.maxRow < length → payload seed length = .error .capacityOverflow) ∧
    (∀ seed m n whole, m ≤ n → payload seed n = .ok whole →
      payload seed m = .ok (whole.take m)) ∧
    (∀ length, 8 ≤ length → length ≤ Word.maxRow → Function.Injective (payload · length)) ∧
    Function.Bijective mix := by
  refine ⟨fun seed length hroom => ?_, fun seed length => payload_eq_error,
    fun seed m n whole hle hwhole => ?_, fun length height hroom seed seed' hsame => ?_,
    bijective_mix⟩
  · refine ⟨bytes seed length, payload_eq_ok_iff.2 ⟨hroom, rfl⟩, length_bytes seed length,
      ⟨_, _, fills_iff.2 ⟨rfl, rfl⟩⟩, fun rounds g hfills => ?_⟩
    obtain ⟨hrounds, rfl⟩ := fills_iff.1 hfills
    exact ⟨hrounds, rfl⟩
  · obtain ⟨hroom, rfl⟩ := payload_eq_ok_iff.1 hwhole
    exact payload_eq_ok_iff.2 ⟨Nat.le_trans hle hroom, (take_bytes hle).symm⟩
  · have hwhole : payload seed' length = .ok (bytes seed' length) :=
      payload_eq_ok_iff.2 ⟨hroom, rfl⟩
    obtain ⟨-, hbytes⟩ := payload_eq_ok_iff.1 (hsame.trans hwhole)
    calc seed = seedOf (bytes seed length) := (seedOf_bytes height).symm
      _ = seedOf (bytes seed' length) := by rw [hbytes]
      _ = seed' := seedOf_bytes height

/-- A payload of four words and a byte takes five rounds, begins as a shorter one of its seed does,
and is no payload of the next seed. -/
theorem payload_laws_fiveWords : ∃ whole g, 33 ≤ Word.maxRow ∧ payload 7 33 = .ok whole ∧
    whole.length = 33 ∧ Fills 33 ⟨7, []⟩ 5 g ∧ g.written = whole ∧
    payload 7 9 = .ok (whole.take 9) ∧ payload 8 33 ≠ .ok whole ∧
    Word.maxRow < 2 ^ 63 ∧ payload 7 (2 ^ 63) = .error .capacityOverflow := by
  obtain ⟨hmade, hlong, htake, hinjective, -⟩ := payload_laws
  have hroom : 33 ≤ Word.maxRow := by decide
  have hpast : Word.maxRow < 2 ^ 63 := by decide
  obtain ⟨whole, hwhole, hlength, ⟨rounds, g, hfills⟩, hend⟩ := hmade 7 33 hroom
  obtain ⟨rfl, hwritten⟩ := hend rounds g hfills
  have hother : payload 8 33 ≠ .ok whole := by
    intro hsame
    have hseeds : (8 : UInt64) = 7 := hinjective 33 (by decide) hroom (hsame.trans hwhole.symm)
    exact absurd hseeds (by decide)
  exact ⟨whole, g, hroom, hwhole, hlength, hfills, hwritten,
    htake 7 9 33 whole (by decide) hwhole, hother, hpast, hlong 7 (2 ^ 63) hpast⟩

/-- Not every length has a payload.  One more byte than memory can have in a row is refused. -/
theorem payload_pastLongestRow :
    payload 1 (2 ^ 63) = .error .capacityOverflow ∧
    ¬ ∃ whole, payload 1 (2 ^ 63) = .ok whole ∧ whole.length = 2 ^ 63 := by
  have herror : payload 1 (2 ^ 63) = .error .capacityOverflow := payload_eq_error (by decide)
  refine ⟨herror, ?_⟩
  rintro ⟨whole, hwhole, -⟩
  rw [herror] at hwhole
  cases hwhole

end BumpArena.Fixture
