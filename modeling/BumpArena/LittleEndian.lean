/-!
# Little-endian words

Every field of fixed width, in a record header, a ring slot or a typed value, is stored with its
least significant byte first.  `encode` and `decode` are the two directions; they are inverse to
each other on words of the width and on byte strings of the width.
-/

namespace BumpArena.LittleEndian

/-- The lowest `width` bytes of a number, least significant first. -/
def encode : (width : Nat) → Nat → List UInt8
  | 0, _ => []
  | width + 1, n => UInt8.ofNat n :: encode width (n / 256)

/-- The number of byte strings of a width. -/
def values (width : Nat) : Nat := 1 <<< (8 * width)

/-- The number that a byte string stands for. -/
def decode : List UInt8 → Nat
  | [] => 0
  | b :: bs => b.toNat + 256 * decode bs

@[simp]
theorem length_encode (width n : Nat) : (encode width n).length = width := by
  induction width generalizing n with
  | zero => rfl
  | succ width ih => simp [encode, ih]

theorem values_succ (width : Nat) : values (width + 1) = 256 * values width := by
  have hwidth : 8 * (width + 1) = 8 * width + 8 := by omega
  rw [values, values, hwidth, Nat.shiftLeft_add, Nat.shiftLeft_eq, Nat.mul_comm]

/-- A byte string of a width stands for a number of that width. -/
theorem decode_lt (bs : List UInt8) : decode bs < values bs.length := by
  induction bs with
  | nil => decide
  | cons b bs ih =>
    have hb := b.toNat_lt
    simp only [decode, List.length_cons, values_succ]
    omega

/-- Decoding gives back the number, cut to the width. -/
theorem decode_encode (width n : Nat) : decode (encode width n) = n % values width := by
  induction width generalizing n with
  | zero => simp [encode, decode, values, Nat.mod_one]
  | succ width ih =>
    have hlow : (UInt8.ofNat n).toNat = n % 256 := UInt8.toNat_ofNat'
    rw [encode, decode, ih, hlow, values_succ, Nat.mod_mul]

/-- Encoding gives back the byte string. -/
theorem encode_decode (bs : List UInt8) : encode bs.length (decode bs) = bs := by
  induction bs with
  | nil => rfl
  | cons b bs ih =>
    have hb := b.toNat_lt
    have hhigh : (b.toNat + 256 * decode bs) / 256 = decode bs := by omega
    have hlow : UInt8.ofNat (b.toNat + 256 * decode bs) = b := by
      apply UInt8.toNat_inj.1
      simp only [UInt8.toNat_ofNat']
      omega
    simp only [List.length_cons, decode, encode, hhigh, hlow, ih]

end BumpArena.LittleEndian
