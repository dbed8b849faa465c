import BumpArena.LittleEndian
import BumpArena.Word

/-!
# Reproducible payloads

`payload seed length` lists pseudo-random bytes that the seed alone determines.  They come from a
64-bit generator: its state moves on by a fixed odd step, and each state is scrambled into a word
by `mix`, which no two words share.  A payload of more bytes than memory can have in a row is not
made at all.
-/

namespace BumpArena.Fixture

/-- Scrambles a word.  Every step can be undone, so that different words stay different. -/
def mix (z : UInt64) : UInt64 :=
  let z := (z ^^^ (z >>> 30)) * 0xBF58476D1CE4E5B9
  let z := (z ^^^ (z >>> 27)) * 0x94D049BB133111EB
  z ^^^ (z >>> 31)

/-- How far the state moves from one word to the next. -/
def stride : UInt64 := 0x9E3779B97F4A7C15

/-- A number of scrambled words, as bytes. -/
def words (state : UInt64) : (count : Nat) → List UInt8
  | 0 => []
  | count + 1 =>
    let state := state + stride
    LittleEndian.encode 8 (mix state).toNat ++ words state count

/-- The first bytes of a seed, as many as asked. -/
def bytes (seed : UInt64) (length : Nat) : List UInt8 :=
  (words seed ((length + 7) / 8)).take length

/-- The payload of a seed and a length. -/
def payload (seed : UInt64) (length : Nat) : Checked (List UInt8) := do
  Word.reserve length 1
  return bytes seed length

end BumpArena.Fixture
