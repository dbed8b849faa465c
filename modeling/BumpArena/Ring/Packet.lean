import BumpArena.Layout

/-!
# Packets

A `Packet` is one cache line that carries a small payload by value through a ring, with no arena
behind it.

```text
 0  timestamp  8 bytes
 8  latency    4 bytes
12  id         4 bytes
16  length     4 bytes   of the valid part of the payload
20  reserved   4 bytes   zero
24  payload   40 bytes
```
-/

namespace BumpArena

/-- A small payload in a cache line. -/
structure Packet where
  /-- When the payload was received, in nanoseconds. -/
  timestamp : UInt64
  /-- The latency that the producer measured, in nanoseconds. -/
  latency : UInt32
  /-- The number that the producer gave the packet. -/
  id : UInt32
  /-- The number of valid bytes. -/
  length : UInt32
  /-- Four bytes without a meaning. -/
  reserved : Vector UInt8 4
  /-- The room for the payload. -/
  storage : Vector UInt8 40
  deriving DecidableEq, Repr

namespace Packet

/-- The most bytes that a packet carries. -/
def payloadCapacity : Nat := 40

/-- How packets lie in memory. -/
def layout : Layout where
  size := 64
  align := cacheLine

/-- The first bytes of a list, with zeros after its end. -/
def padded (n : Nat) (bytes : List UInt8) : Vector UInt8 n := Vector.ofFn fun i => bytes.getD i 0

/-- A packet that carries a payload, if it fits. -/
def make (id : UInt32) (timestamp : UInt64) (latency : UInt32) (payload : List UInt8) :
    Option Packet :=
  if payloadCapacity < payload.length then none
  else some {
    timestamp, latency, id
    length := UInt32.ofNat payload.length
    reserved := padded 4 []
    storage := padded 40 payload }

/-- The valid part of the payload.  A length past the room counts as all of it. -/
def payload (p : Packet) : List UInt8 := p.storage.toList.take (min p.length.toNat payloadCapacity)

/-- The 64 bytes of a packet. -/
def encode (p : Packet) : List UInt8 :=
  LittleEndian.encode 8 p.timestamp.toNat ++ LittleEndian.encode 4 p.latency.toNat ++
    LittleEndian.encode 4 p.id.toNat ++ LittleEndian.encode 4 p.length.toNat ++
    p.reserved.toList ++ p.storage.toList

/-- The packet that 64 bytes stand for.  Every 64 bytes stand for one. -/
def decode (bytes : List UInt8) : Packet where
  timestamp := UInt64.ofNat (LittleEndian.decode (bytes.take 8))
  latency := UInt32.ofNat (LittleEndian.decode ((bytes.drop 8).take 4))
  id := UInt32.ofNat (LittleEndian.decode ((bytes.drop 12).take 4))
  length := UInt32.ofNat (LittleEndian.decode ((bytes.drop 16).take 4))
  reserved := padded 4 (bytes.drop 20)
  storage := padded 40 (bytes.drop 24)

end Packet

end BumpArena
