import ClassFormat.Attribute.New
import ClassFormat.Class.Place
import ClassFormat.Main
import ClassFormat.Proofs.Layout
import ClassFormat.Proofs.Table
import ClassFormat.Proofs.Annotation
import ClassFormat.Proofs.Pool
import ClassFormat.Proofs.Pool.Slots
import ClassFormat.Proofs.Pool.Adding
import ClassFormat.Proofs.Pool.Interning
import ClassFormat.Proofs.Pool.Members
import ClassFormat.Proofs.Text.Utf8
import ClassFormat.Proofs.Text.Modified
import ClassFormat.Proofs.Attribute.Nesting
import ClassFormat.Proofs.Attribute.Lengths
import ClassFormat.Proofs.Attribute.Reading
import ClassFormat.Proofs.Attribute.Writable
import ClassFormat.Proofs.Instruction.Operands
import ClassFormat.Proofs.Instruction.Stream
import ClassFormat.Proofs.Instruction.RoundTrip
import ClassFormat.Proofs.Instruction.Sizes
import ClassFormat.Proofs.Instruction.Prefixes
import ClassFormat.Proofs.Instruction.Fitting
import ClassFormat.Proofs.Class.RoundTrip
import ClassFormat.Proofs.Class.Delimiting
import ClassFormat.Proofs.Class.Patching
import ClassFormat.Proofs.Class.Adding
import ClassFormat.Proofs.Class.Writable
import ClassFormat.Proofs.Class.Headers
import ClassFormat.Proofs.Class.Lengths
import ClassFormat.Proofs.Class.Verdict
import ClassFormat.Proofs.Reader.Failing
import ClassFormat.Proofs.Class.Failing
import ClassFormat.Proofs.Report.Counting
import ClassFormat.Proofs.Report.Interleaving
import ClassFormat.Proofs.Report.Agreement
import ClassFormat.Proofs.Pool.Texts
import ClassFormat.Proofs.Text.Sequences
import ClassFormat.Proofs.Annotation.Depth
import ClassFormat.Proofs.Pool.Describing
import ClassFormat.Proofs.Layout.Steps
import ClassFormat.Proofs.Source.Finding
import ClassFormat.Proofs.Listing
import ClassFormat.Proofs.Report.Stopping
