import RecordSwap.Command
import RecordSwap.FileSystem.Tree
import RecordSwap.Main
import RecordSwap.Proofs.Order
import RecordSwap.Proofs.Cycles
import RecordSwap.Proofs.Pieces
import RecordSwap.Proofs.Run
import RecordSwap.Proofs.Layouts
import RecordSwap.Proofs.Projects
import RecordSwap.Proofs.Planning
import RecordSwap.Proofs.Conversion
import RecordSwap.Proofs.RoundTrip
import RecordSwap.Proofs.Embedding
import RecordSwap.Proofs.BitOrder
import RecordSwap.Proofs.Leaves
import RecordSwap.Proofs.Locality
import RecordSwap.Proofs.Places
import RecordSwap.Proofs.Sharing
import RecordSwap.Proofs.Calls
import RecordSwap.Proofs.Drafts
import RecordSwap.Proofs.Files
import RecordSwap.Proofs.Sizes
import RecordSwap.Proofs.Reports
import RecordSwap.Proofs.Brackets
import RecordSwap.Proofs.ByteOrder
import RecordSwap.Proofs.Surplus
import RecordSwap.Proofs.Reordering
import RecordSwap.Proofs.Packing
import RecordSwap.Proofs.RowByRow
import RecordSwap.Proofs.Offsets
import RecordSwap.Proofs.Stability
import RecordSwap.Proofs.Gathering
import RecordSwap.Proofs.Validation
import RecordSwap.Proofs.Bodies
import RecordSwap.Proofs.Moving
import RecordSwap.Proofs.Headers
import RecordSwap.Proofs.SourceText
import RecordSwap.Proofs.ArraySizes
import RecordSwap.Proofs.TypeHistory
import RecordSwap.Proofs.FieldAccess
import RecordSwap.Proofs.FileTrees
import RecordSwap.Proofs.Rendering
import RecordSwap.Proofs.Writing
import RecordSwap.Proofs.Reversal
import RecordSwap.Proofs.Columns
