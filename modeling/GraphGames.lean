import GraphGames.Interchange
import GraphGames.Main
import GraphGames.Proofs.WinningRegion
import GraphGames.Proofs.Frame
import GraphGames.Proofs.Recall
import GraphGames.Proofs.Closure
import GraphGames.Proofs.Renaming
import GraphGames.Proofs.Session
import GraphGames.Proofs.Acceptance
import GraphGames.Proofs.Bound
import GraphGames.Proofs.MarkedProperty
import GraphGames.Proofs.Monotone
import GraphGames.Proofs.Handles
import GraphGames.Proofs.Mirror
import GraphGames.Proofs.Atomicity
import GraphGames.Proofs.Checkpoints
import GraphGames.Proofs.Predecessors
import GraphGames.Proofs.Declarations
import GraphGames.Proofs.Termination
import GraphGames.Proofs.Removal
import GraphGames.Proofs.BatchRemoval
import GraphGames.Proofs.BatchInsertion
import GraphGames.Proofs.Grafting
import GraphGames.Proofs.Extraction
import GraphGames.Proofs.FreeName
import GraphGames.Proofs.Reports
import GraphGames.Proofs.Coercion
import GraphGames.Proofs.Storing
import GraphGames.Proofs.Cells
