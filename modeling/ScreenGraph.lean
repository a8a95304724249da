import ScreenGraph.Exploration
import ScreenGraph.Graph.Basic
import ScreenGraph.Output.Dot
import ScreenGraph.Output.Report
import ScreenGraph.Proofs.Checked
import ScreenGraph.Proofs.Consistency
import ScreenGraph.Proofs.Auditing
import ScreenGraph.Proofs.Operating
import ScreenGraph.Proofs.Indexing
import ScreenGraph.Proofs.Frame
import ScreenGraph.Proofs.Edges
import ScreenGraph.Proofs.Transfers
import ScreenGraph.Proofs.WellFormed
import ScreenGraph.Proofs.Pruning
import ScreenGraph.Proofs.Choosing
import ScreenGraph.Proofs.Matching
import ScreenGraph.Proofs.Similarity
import ScreenGraph.Proofs.Rearranging
import ScreenGraph.Proofs.Transposing
import ScreenGraph.Proofs.Phasing
import ScreenGraph.Proofs.Replacing
import ScreenGraph.Proofs.Comparing
import ScreenGraph.Proofs.Reflecting
import ScreenGraph.Proofs.Planning
import ScreenGraph.Proofs.Registering
import ScreenGraph.Proofs.Classifying
import ScreenGraph.Proofs.Edits
import ScreenGraph.Proofs.Checking
import ScreenGraph.Proofs.Bookkeeping
import ScreenGraph.Proofs.Migrating
import ScreenGraph.Proofs.Preserving
import ScreenGraph.Proofs.Superseding
import ScreenGraph.Proofs.Repeating
import ScreenGraph.Proofs.Disproving
import ScreenGraph.Proofs.Copying
import ScreenGraph.Proofs.Reordering
import ScreenGraph.Proofs.Recycling
import ScreenGraph.Proofs.Carrying
import ScreenGraph.Proofs.Flagging
import ScreenGraph.Proofs.Duplicating
import ScreenGraph.Proofs.Tallying
import ScreenGraph.Proofs.Deciding
import ScreenGraph.Proofs.Widening
import ScreenGraph.Proofs.Returning
import ScreenGraph.Proofs.Recording
import ScreenGraph.Proofs.Scanning
import ScreenGraph.Proofs.Absorbing
import ScreenGraph.Proofs.Refusing
import ScreenGraph.Proofs.Labelling
import ScreenGraph.Proofs.Tabulating
import ScreenGraph.Proofs.Reporting
import ScreenGraph.Proofs.Rewriting
import ScreenGraph.Proofs.Allocating
import ScreenGraph.Proofs.Persisting
import ScreenGraph.Proofs.Isolating
import ScreenGraph.Proofs.Escaping
import ScreenGraph.Proofs.Reading
import ScreenGraph.Proofs.Drawing
import ScreenGraph.Proofs.Quoting
import ScreenGraph.Proofs.Interning
import ScreenGraph.Proofs.Nesting
import ScreenGraph.Proofs.Guarding
import ScreenGraph.Proofs.Joining
