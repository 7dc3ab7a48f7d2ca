import Redraw.Generator.Operation
import Redraw.Main
import Redraw.Proofs.Checkpoint.Cutting
import Redraw.Proofs.Command.Replay
import Redraw.Proofs.Command.Resuming
import Redraw.Proofs.Generator.Advance
import Redraw.Proofs.Generator.Entrances
import Redraw.Proofs.Generator.Filling
import Redraw.Proofs.Generator.Interruption
import Redraw.Proofs.Generator.Loading
import Redraw.Proofs.Generator.RoundTrip
import Redraw.Proofs.Reduction.Spread
import Redraw.Proofs.Safety
import Redraw.Proofs.Sampling.Beginning
import Redraw.Proofs.Sampling.Fairness
import Redraw.Proofs.SeedProvider.Sharing
import Redraw.Proofs.Snapshot.Identity
import Redraw.Proofs.Stream.Yielding
import Redraw.Proofs.Twister.Lockstep
import Redraw.Proofs.Twister.Refinement
