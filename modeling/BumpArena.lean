import BumpArena.Storage.Files
import BumpArena.Arena.Flat
import BumpArena.Arena.Chunked
import BumpArena.Journal.Arena
import BumpArena.Journal.Reader
import BumpArena.Ring.Basic
import BumpArena.Ring.Packet
import BumpArena.Fixture.Sample
import BumpArena.Fixture.Benchmark
import BumpArena.Proofs.Checksum
import BumpArena.Proofs.Counter
import BumpArena.Proofs.Journal.Sweep
import BumpArena.Proofs.Journal.Commit
import BumpArena.Proofs.Journal.Session
import BumpArena.Proofs.Journal.Refinement
import BumpArena.Proofs.Journal.Opening
import BumpArena.Proofs.Journal.Recovery
import BumpArena.Proofs.Journal.Reset
import BumpArena.Proofs.Journal.Visits
import BumpArena.Proofs.Journal.Longest
import BumpArena.Proofs.Journal.CommitPoint
import BumpArena.Proofs.Journal.Damage
import BumpArena.Proofs.Ring.Queue
import BumpArena.Proofs.Identity
import BumpArena.Proofs.Arena.World
import BumpArena.Proofs.Arena.Namesakes
import BumpArena.Proofs.Arena.Disjointness
import BumpArena.Proofs.Arena.Starting
import BumpArena.Proofs.Arena.Translation
import BumpArena.Proofs.Arena.Interleaving
import BumpArena.Proofs.Arena.Answers
import BumpArena.Proofs.Handoff.Allocator
import BumpArena.Proofs.Handoff.Delivery
import BumpArena.Proofs.Journal.Generation
import BumpArena.Proofs.Arena.Greedy
import BumpArena.Proofs.Arena.Outcome
import BumpArena.Proofs.Journal.Slots
import BumpArena.Proofs.Journal.Dominance
import BumpArena.Proofs.Arena.Exhaustion
import BumpArena.Proofs.Arena.Amortisation
import BumpArena.Proofs.Arena.Replay
import BumpArena.Proofs.Journal.Placement
import BumpArena.Proofs.Region.Access
import BumpArena.Proofs.Making
import BumpArena.Proofs.Program.NoFault
import BumpArena.Proofs.Ring.Packet
import BumpArena.Proofs.Rounding
import BumpArena.Proofs.Capacity
import BumpArena.Proofs.Arena.Batches
import BumpArena.Proofs.Arena.Sizing
import BumpArena.Proofs.Fixture.Payload
