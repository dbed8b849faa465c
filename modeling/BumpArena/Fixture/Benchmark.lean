import BumpArena.Config

/-!
# The benchmark profile

Benchmarks measure batches of equal requests on one arena and reset it in between.  The profile
fixes a region and the length of a batch so that no batch exhausts it.
-/

namespace BumpArena.Benchmark

/-- The size of the region. -/
def capacity : Nat := 256 * 1024 * 1024

/-- The sizes of the requests, from a quarter of a cache line to a page. -/
def recordSizes : List Nat := [16, 64, 512, 4096]

/-- The configuration of the arena. -/
def config : ArenaConfig := { capacity }

/-- The number of requests of one size in a batch: they take up a quarter of the region, and are
at most 100000. -/
def batchLength (recordSize : Nat) : Nat := min (capacity / 4 / max recordSize 1) 100000

end BumpArena.Benchmark
