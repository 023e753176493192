import TypeRecovery.Binary.Equivalence
import TypeRecovery.Concrete.Declarations
import TypeRecovery.Log
import TypeRecovery.Recovery
import TypeRecovery.Solver.Closure
import TypeRecovery.Text.Bytes
import TypeRecovery.Proofs.Lattice.Ground
import TypeRecovery.Proofs.Lattice.Laws
import TypeRecovery.Proofs.Binary.Equivalence
import TypeRecovery.Proofs.Binary.Sizes
import TypeRecovery.Proofs.Prototype.Walks
import TypeRecovery.Proofs.Prototype.Copies
import TypeRecovery.Proofs.Graph
import TypeRecovery.Proofs.Solver.Consequences
import TypeRecovery.Proofs.Prototype.Representable
import TypeRecovery.Proofs.Prototype.Annotations
import TypeRecovery.Proofs.Lattice.Sealed
import TypeRecovery.Proofs.Solver.Annotated
import TypeRecovery.Proofs.Sketch.Shapes
import TypeRecovery.Proofs.Sketch.Signatures
import TypeRecovery.Proofs.Concrete.Arenas
import TypeRecovery.Proofs.Prototype.Completion
import TypeRecovery.Proofs.Prototype.Recovered
import TypeRecovery.Proofs.Recovery.Inference
import TypeRecovery.Proofs.Recovery.Restoring
import TypeRecovery.Proofs.Recovery.RoundTrip
import TypeRecovery.Proofs.Constraint
import TypeRecovery.Proofs.Prototype.Functions
import TypeRecovery.Proofs.Prototype.Grammar
import TypeRecovery.Proofs.Recovery.Merging
import TypeRecovery.Proofs.Prototype.Rereading
import TypeRecovery.Proofs.Recovery.Rerun
import TypeRecovery.Proofs.Recovery.Written
import TypeRecovery.Proofs.Solver.Gathering
import TypeRecovery.Proofs.Solver.Rounds
import TypeRecovery.Proofs.Solver.Solutions
import TypeRecovery.Proofs.Recovery.Refusal
import TypeRecovery.Proofs.Binary.CallGraph
import TypeRecovery.Proofs.Lattice.Extension
import TypeRecovery.Proofs.Recovery.Sealing
import TypeRecovery.Proofs.Sketch.Layouts
import TypeRecovery.Proofs.Settings
import TypeRecovery.Proofs.Prototype.Independence
import TypeRecovery.Proofs.Prototype.Assignment
import TypeRecovery.Proofs.Recovery.Vocabulary
import TypeRecovery.Proofs.Recovery.Results
import TypeRecovery.Proofs.Concrete.Composition
import TypeRecovery.Proofs.Spelling
import TypeRecovery.Proofs.Rules.Rows
import TypeRecovery.Proofs.Sketch.Drawings
import TypeRecovery.Proofs.Concrete.Unfolding
import TypeRecovery.Proofs.Sketch.Dereferences
import TypeRecovery.Proofs.Sketch.Trees
import TypeRecovery.Proofs.Binary.Edges
import TypeRecovery.Proofs.Prototype.Nesting
