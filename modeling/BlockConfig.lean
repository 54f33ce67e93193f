import BlockConfig.Config.Access
import BlockConfig.Export
import BlockConfig.Main
import BlockConfig.Proofs.Comment
import BlockConfig.Proofs.Config.Lookup
import BlockConfig.Proofs.Evaluation.Locality
import BlockConfig.Proofs.Evaluation.Projection
import BlockConfig.Proofs.Evaluation.Results
import BlockConfig.Proofs.Export
import BlockConfig.Proofs.Grammar
import BlockConfig.Proofs.Line
import BlockConfig.Proofs.Number.Numeral
import BlockConfig.Proofs.Number.Ratio
import BlockConfig.Proofs.Number.Rounding
import BlockConfig.Proofs.Reader.Braces
import BlockConfig.Proofs.Reader.Contents
import BlockConfig.Proofs.Reader.Failure
import BlockConfig.Proofs.Reader.Frame
import BlockConfig.Proofs.Reader.Invariant
import BlockConfig.Proofs.Reader.Layout
import BlockConfig.Proofs.Reader.LineEndings
import BlockConfig.Proofs.Reader.Nesting
import BlockConfig.Proofs.Reader.Open
import BlockConfig.Proofs.Reader.Raise
import BlockConfig.Proofs.Reader.Resume
import BlockConfig.Proofs.Reader.WellFormed
import BlockConfig.Proofs.Reread.Array
import BlockConfig.Proofs.Reread.Line
import BlockConfig.Proofs.Reread.Scalar
import BlockConfig.Proofs.Reread.Sealed
import BlockConfig.Proofs.Reread.Writable
import BlockConfig.Proofs.Table
import BlockConfig.Reader.Progress
import BlockConfig.Reread
import BlockConfig.Proofs.Evaluation.Conditional
import BlockConfig.Proofs.Reader.Spread
import BlockConfig.Proofs.Reader.SpreadArray
import BlockConfig.Proofs.Config.Spelling
import BlockConfig.Proofs.Config.ErrorLine
import BlockConfig.Proofs.Evaluation.Arithmetic
import BlockConfig.Proofs.Evaluation.Literal
import BlockConfig.Proofs.Reader.Deferred
import BlockConfig.Proofs.Evaluation.TextCall
import BlockConfig.Proofs.Reader.Signed
import BlockConfig.Proofs.Config.Typed
import BlockConfig.Proofs.Config.Keys
import BlockConfig.Proofs.Number.Nearest
import BlockConfig.Proofs.Number.WholeNumber
import BlockConfig.Proofs.Evaluation.DoublePrecision
import BlockConfig.Proofs.Evaluation.MathCall
import BlockConfig.Proofs.Export.Numbers
import BlockConfig.Proofs.Splitting
import BlockConfig.Proofs.Quoting
import BlockConfig.Proofs.Evaluation.WrittenCall
import BlockConfig.Proofs.Config.Search
