import IrStream.CommandLine.Directory
import IrStream.Main
import IrStream.Proofs.Document.Comparison
import IrStream.Proofs.Document.Debug
import IrStream.Proofs.Document.Inference
import IrStream.Proofs.Document.Literal
import IrStream.Proofs.Document.Signature
import IrStream.Proofs.Document.Structs
import IrStream.Proofs.Document.TypedOperand
import IrStream.Proofs.Document.WellScoped
import IrStream.Proofs.Encode.Encodable
import IrStream.Proofs.Encode.FieldIndex
import IrStream.Proofs.Encode.InBounds
import IrStream.Proofs.Encode.Integers
import IrStream.Proofs.Encode.LocalVariable
import IrStream.Proofs.Encode.Registration
import IrStream.Proofs.Encode.Resolution
import IrStream.Proofs.Encode.Statistics
import IrStream.Proofs.Program.Recursion
import IrStream.Proofs.Program.Residues
import IrStream.Proofs.Renaming.Appended
import IrStream.Proofs.Renaming.Encode
import IrStream.Proofs.Reordering.Documents
import IrStream.Proofs.Report.PointerTable
import IrStream.Proofs.Stream.Writing
import IrStream.Proofs.Types.Geometry
import IrStream.Proofs.Types.Indexed
import IrStream.Proofs.Types.Interning
import IrStream.Proofs.Types.Marks
import IrStream.Proofs.Types.Room
import IrStream.Proofs.Types.RoundTrip
import IrStream.Proofs.Types.Storage
import IrStream.Stream.Reading
