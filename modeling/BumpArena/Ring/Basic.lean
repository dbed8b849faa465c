import BumpArena.Error
import BumpArena.Layout

/-!
# Rings

A ring is a bounded queue between one producer and one consumer.  The values lie in a row of
slots whose number is a power of two.  The consumer takes from the slot at `head`, the producer
stores into the slot at `tail`, and both positions wrap around by a mask.  One slot stays empty:
so the ring is empty when the positions are equal, and full when `tail` is one step behind
`head`.

Each half remembers the position of the other half as it last saw it, and looks again only when
that position says that it cannot go on.  What it remembers can lag behind, never run ahead.
-/

namespace BumpArena

/-- What the two halves of a ring share. -/
structure RingBuffer (α : Type) where
  /-- The number of slots less one, which masks a position into range. -/
  mask : Nat
  /-- The slot of the oldest value. -/
  head : Nat := 0
  /-- The slot of the next value to come. -/
  tail : Nat := 0
  /-- The slots, which hold nothing until a value is stored. -/
  slots : Array (Option α)
  deriving Repr, Inhabited

/-- The half that stores values. -/
structure Producer where
  /-- Where the producer last saw `head`. -/
  seenHead : Nat := 0
  deriving DecidableEq, Repr, Inhabited

/-- The half that takes values. -/
structure Consumer where
  /-- Where the consumer last saw `tail`. -/
  seenTail : Nat := 0
  deriving DecidableEq, Repr, Inhabited

namespace RingBuffer

variable {α : Type}

/-- An empty ring with slots of a layout.  Its capacity has to be a power of two that leaves room
for a value, and the slots have to lie in a row. -/
def make (slot : Layout) (capacity : Nat) : Checked (Except RingError (RingBuffer α)) :=
  if capacity < 2 then .ok (.error (.capacityTooSmall capacity))
  else if ¬ isPowerOfTwo capacity then .ok (.error (.capacityNotPowerOfTwo capacity))
  else do
    Word.reserve capacity slot.size
    return .ok { mask := capacity - 1, slots := Array.replicate capacity none }

/-- The number of slots. -/
def capacity (s : RingBuffer α) : Nat := s.mask + 1

/-- The number of values that there is room for. -/
def usableCapacity (s : RingBuffer α) : Nat := s.mask

/-- The slot that follows another. -/
def following (s : RingBuffer α) (position : Nat) : Nat := (position + 1) &&& s.mask

/-- The number of values.  The mask makes a word of a difference that may be negative. -/
def length (s : RingBuffer α) : Nat := (s.tail + (Word.limit - s.head)) &&& s.mask

/-- The value in a slot. -/
def valueAt (s : RingBuffer α) (position : Nat) : Checked α :=
  match s.slots[position]? with
  | some (some value) => .ok value
  | some none => .error (.unwrittenSlot position)
  | none => .error (.indexOutOfRange position s.slots.size)

end RingBuffer

namespace Producer

variable {α : Type}

/-- Stores a value, if there is room. -/
def enqueue (p : Producer) (s : RingBuffer α) (value : α) :
    Checked (Bool × Producer × RingBuffer α) :=
  let next := s.following s.tail
  let p := if next = p.seenHead then ⟨s.head⟩ else p
  if next = p.seenHead then .ok (false, p, s)
  else if h : s.tail < s.slots.size then
    .ok (true, p, { s with slots := s.slots.set s.tail (some value), tail := next })
  else .error (.indexOutOfRange s.tail s.slots.size)

/-- Whether there is nothing to take. -/
def isEmpty (s : RingBuffer α) : Bool := s.length == 0

/-- Whether there is no room for another value. -/
def isFull (s : RingBuffer α) : Bool := s.following s.tail == s.head

/-- The half as text. -/
def description (s : RingBuffer α) : String :=
  s!"Producer \x7b capacity: {s.capacity}, len: {s.length} \x7d"

end Producer

namespace Consumer

variable {α : Type}

/-- Takes the oldest value, if there is one. -/
def dequeue (c : Consumer) (s : RingBuffer α) :
    Checked (Option α × Consumer × RingBuffer α) :=
  let c := if s.head = c.seenTail then ⟨s.tail⟩ else c
  if s.head = c.seenTail then .ok (none, c, s)
  else do
    let value ← s.valueAt s.head
    return (some value, c, { s with head := s.following s.head })

/-- The values in a number of slots from a position on. -/
def valuesFrom (s : RingBuffer α) (position : Nat) : (count : Nat) → Checked (List α)
  | 0 => .ok []
  | count + 1 => do
    let value ← s.valueAt position
    return value :: (← valuesFrom s (s.following position) count)

/-- Takes all values, oldest first. -/
def drain (s : RingBuffer α) : Checked (List α × Consumer × RingBuffer α) := do
  let values ← valuesFrom s s.head s.length
  return (values, ⟨s.tail⟩, { s with head := s.tail })

/-- Whether there is nothing to take. -/
def isEmpty (s : RingBuffer α) : Bool := s.head == s.tail

/-- Whether there is no room for another value. -/
def isFull (s : RingBuffer α) : Bool := s.length == s.mask

/-- The half as text. -/
def description (s : RingBuffer α) : String :=
  s!"Consumer \x7b capacity: {s.capacity}, len: {s.length} \x7d"

end Consumer

/-- A ring and those of its halves that are still held. -/
structure Ring (α : Type) where
  buffer : RingBuffer α
  producer : Option Producer := some {}
  consumer : Option Consumer := some {}
  deriving Repr, Inhabited

namespace Ring

variable {α : Type}

/-- A new ring with both halves. -/
def make (slot : Layout) (capacity : Nat) : Checked (Except RingError (Ring α)) :=
  return (← RingBuffer.make slot capacity).map fun buffer => { buffer }

/-- The ring after its producer was let go.  Values that it stored can still be taken. -/
def dropProducer (r : Ring α) : Ring α := { r with producer := none }

/-- The ring after its consumer was let go. -/
def dropConsumer (r : Ring α) : Ring α := { r with consumer := none }

/-- Whether one half is alone, because the other was let go. -/
def isAbandoned (r : Ring α) : Bool := r.producer.isNone || r.consumer.isNone

end Ring

end BumpArena
