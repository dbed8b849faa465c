import BumpArena.Checksum
import BumpArena.LittleEndian
import Mathlib.Algebra.Group.Nat.Defs
import Mathlib.Logic.Function.Iterate

/-!
# What a checksum tells apart

The register of a checksum loses nothing: the bit that a shift drops is kept in the place that it
frees, because the generator polynomial has a one there (`shift_injective`).  So two byte strings
that have taken the register to different states are told apart, whatever comes behind them.

And as many bytes as the register has take it to as many states as there are strings of them.
They might as well be taken in at once, as one word, and shifted afterwards
(`foldl_absorb_eq_iterate_shift`).  Together this says that byte strings of one length that differ
within four consecutive bytes only have different checksums (`ofList_append_eq_iff`).
-/

namespace BumpArena.Checksum

/-! ## Shifting -/

lemma and_one_eq_one_iff (x : UInt32) : x &&& 1 = 1 ↔ x.toNat.testBit 0 = true := by
  rw [← UInt32.toNat_inj, UInt32.toNat_and, Nat.testBit_zero]
  simp [Nat.and_one_is_mod]

/-- Each bit moves down by one, and the lowest is added at the places of the polynomial. -/
lemma testBit_shift (x : UInt32) (i : Nat) : (shift x).toNat.testBit i =
    (x.toNat.testBit (i + 1) ^^ (x.toNat.testBit 0 && polynomial.toNat.testBit i)) := by
  have hnext : (x >>> 1).toNat.testBit i = x.toNat.testBit (i + 1) := by
    rw [UInt32.toNat_shiftRight, Nat.testBit_shiftRight, Nat.add_comm]
    rfl
  simp only [shift, and_one_eq_one_iff]
  split
  · next hlow => rw [UInt32.toNat_xor, Nat.testBit_xor, hnext, hlow, Bool.true_and]
  · next hlow =>
    rw [hnext, eq_false_of_ne_true hlow, Bool.false_and, Bool.xor_false]

/-- **A shift can be undone.**  Nothing comes down to the highest bit, so that it tells what the
lowest was. -/
lemma shift_injective : Function.Injective shift := by
  intro x y h
  have hbits (i : Nat) : (shift x).toNat.testBit i = (shift y).toNat.testBit i := by rw [h]
  simp only [testBit_shift] at hbits
  have hlow : x.toNat.testBit 0 = y.toNat.testBit 0 := by
    have hkept : polynomial.toNat.testBit 31 = true := by decide
    have hx : x.toNat.testBit 32 = false := Nat.testBit_lt_two_pow x.toNat_lt
    have hy : y.toNat.testBit 32 = false := Nat.testBit_lt_two_pow y.toNat_lt
    simpa only [hx, hy, hkept, Bool.false_xor, Bool.and_true] using hbits 31
  refine UInt32.toNat_inj.1 (Nat.eq_of_testBit_eq fun i => ?_)
  cases i with
  | zero => exact hlow
  | succ i =>
    have hi := hbits i
    rwa [hlow, Bool.xor_left_inj] at hi

/-- What is added above the lowest bit may as well be added after the shift. -/
lemma shift_xor (x : UInt32) {n : Nat} (h : 2 * n < 2 ^ 32) :
    shift (x ^^^ UInt32.ofNat (2 * n)) = shift x ^^^ UInt32.ofNat n := by
  refine UInt32.toNat_inj.1 (Nat.eq_of_testBit_eq fun i => ?_)
  have hlow : (2 * n).testBit 0 = false := by simp
  have hnext : (2 * n).testBit (i + 1) = n.testBit i := by
    rw [Nat.testBit_succ, Nat.mul_div_cancel_left _ (by decide)]
  simp only [testBit_shift, UInt32.toNat_xor, Nat.testBit_xor, UInt32.toNat_ofNat_of_lt' h,
    UInt32.toNat_ofNat_of_lt' (show n < 2 ^ 32 by omega), hlow, hnext, Bool.xor_false]
  rw [Bool.xor_assoc, Bool.xor_assoc, Bool.xor_comm (n.testBit i)]

lemma iterate_shift_xor (x : UInt32) (k : Nat) {n : Nat} (h : 2 ^ k * n < 2 ^ 32) :
    shift^[k] (x ^^^ UInt32.ofNat (2 ^ k * n)) = shift^[k] x ^^^ UInt32.ofNat n := by
  induction k generalizing x with
  | zero => rw [Nat.pow_zero, Nat.one_mul, Function.iterate_zero, id, id]
  | succ k ih =>
    rw [Nat.pow_succ', Nat.mul_assoc] at h ⊢
    rw [Function.iterate_succ_apply, Function.iterate_succ_apply, shift_xor x h,
      ih (shift x) (by omega)]

/-! ## Taking bytes in -/

lemma absorb_eq_iterate_shift (register : UInt32) (byte : UInt8) :
    absorb register byte = shift^[8] (register ^^^ byte.toUInt32) := rfl

/-- A byte and the ones above it. -/
lemma ofNat_toNat_add (byte : UInt8) {n : Nat} (h : 2 ^ 8 * n < 2 ^ 32) :
    UInt32.ofNat (byte.toNat + 2 ^ 8 * n) = byte.toUInt32 ^^^ UInt32.ofNat (2 ^ 8 * n) := by
  have hbyte : byte.toNat < 2 ^ 8 := byte.toNat_lt
  refine UInt32.toNat_inj.1 (Nat.eq_of_testBit_eq fun i => ?_)
  have habove := Nat.testBit_two_pow_mul_add n (show 0 < 2 ^ 8 by decide) i
  rw [Nat.add_zero, Nat.zero_testBit] at habove
  rw [UInt32.toNat_xor, Nat.testBit_xor, UInt32.toNat_ofNat_of_lt' (show _ < 2 ^ 32 by omega),
    UInt32.toNat_ofNat_of_lt' h,
    UInt8.toNat_toUInt32, Nat.add_comm, Nat.testBit_two_pow_mul_add n hbyte, habove]
  split
  · rw [Bool.xor_false]
  · have hwidth : 2 ^ 8 ≤ 2 ^ i := Nat.pow_le_pow_right (by decide) (by omega)
    rw [Nat.testBit_lt_two_pow (Nat.lt_of_lt_of_le hbyte hwidth), Bool.false_xor]

lemma decode_lt_two_pow {bytes : List UInt8} {k : Nat} (h : bytes.length ≤ k) :
    LittleEndian.decode bytes < 2 ^ (8 * k) := by
  refine Nat.lt_of_lt_of_le (LittleEndian.decode_lt bytes) ?_
  rw [LittleEndian.values, Nat.one_shiftLeft]
  exact Nat.pow_le_pow_right (by decide) (by omega)

/-- **Four bytes are taken in as one word,** and so are fewer. -/
lemma foldl_absorb_eq_iterate_shift (bytes : List UInt8) (register : UInt32)
    (h : bytes.length ≤ 4) : bytes.foldl absorb register =
      shift^[8 * bytes.length] (register ^^^ UInt32.ofNat (LittleEndian.decode bytes)) := by
  induction bytes generalizing register with
  | nil => simp [LittleEndian.decode]
  | cons byte bytes ih =>
    rw [List.length_cons] at h
    have hword : 2 ^ 8 * LittleEndian.decode bytes < 2 ^ 32 := by
      have hlt := decode_lt_two_pow (show bytes.length ≤ 3 by omega)
      omega
    -- The bytes behind the first lie above it, so that its eight shifts bring them down to the
    -- place where they would have been added without it.
    calc (byte :: bytes).foldl absorb register
        = shift^[8 * bytes.length]
            (absorb register byte ^^^ UInt32.ofNat (LittleEndian.decode bytes)) :=
          ih (absorb register byte) (by omega)
      _ = shift^[8 * bytes.length] (shift^[8] (register ^^^ byte.toUInt32 ^^^
            UInt32.ofNat (2 ^ 8 * LittleEndian.decode bytes))) := by
          rw [absorb_eq_iterate_shift, iterate_shift_xor _ 8 hword]
      _ = shift^[8 * (byte :: bytes).length]
            (register ^^^ UInt32.ofNat (LittleEndian.decode (byte :: bytes))) := by
          rw [List.length_cons, Nat.mul_succ, Function.iterate_add_apply, UInt32.xor_assoc,
            ← ofNat_toNat_add byte hword]
          rfl

/-- Registers that differ still differ after the same bytes. -/
lemma foldl_absorb_injective (bytes : List UInt8) :
    Function.Injective fun register => bytes.foldl absorb register := by
  induction bytes with
  | nil => exact fun _ _ h => h
  | cons byte bytes ih =>
    have habsorb : Function.Injective fun register => absorb register byte := fun x y h =>
      (UInt32.xor_left_inj _).1 (shift_injective.iterate 8 h)
    exact ih.comp habsorb

/-- A word of up to four bytes takes a register to a state of its own. -/
lemma foldl_absorb_eq_iff {old new : List UInt8} (register : UInt32)
    (hlength : old.length = new.length) (hshort : old.length ≤ 4) :
    old.foldl absorb register = new.foldl absorb register ↔ old = new := by
  refine ⟨fun h => ?_, fun h => h ▸ rfl⟩
  rw [foldl_absorb_eq_iterate_shift old register hshort,
    foldl_absorb_eq_iterate_shift new register (hlength ▸ hshort), ← hlength] at h
  have hword := (UInt32.xor_right_inj _).1 (shift_injective.iterate _ h)
  rw [← UInt32.toNat_inj, UInt32.toNat_ofNat_of_lt' (decode_lt_two_pow hshort),
    UInt32.toNat_ofNat_of_lt' (decode_lt_two_pow (hlength ▸ hshort))] at hword
  rw [← LittleEndian.encode_decode old, hlength, hword, LittleEndian.encode_decode]

/-- **A change of up to four consecutive bytes changes the checksum,** wherever it is. -/
lemma ofList_append_eq_iff {old new : List UInt8} (before after : List UInt8)
    (hlength : old.length = new.length) (hshort : old.length ≤ 4) :
    ofList (before ++ (old ++ after)) = ofList (before ++ (new ++ after)) ↔ old = new := by
  rw [ofList, ofList, UInt32.not_inj]
  simp only [List.foldl_append]
  rw [(foldl_absorb_injective after).eq_iff, foldl_absorb_eq_iff _ hlength hshort]

end BumpArena.Checksum
