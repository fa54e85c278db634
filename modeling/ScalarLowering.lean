import ScalarLowering.Main
import ScalarLowering.Proofs.Lowering.Checked
import ScalarLowering.Proofs.Lowering.Program
import ScalarLowering.Proofs.Lowering.Signature
import ScalarLowering.Proofs.Lowering.Parameters
import ScalarLowering.Proofs.Lowering.BoundLiterals
import ScalarLowering.Proofs.Lowering.Construction
import ScalarLowering.Proofs.Lowering.Stability
import ScalarLowering.Proofs.Lowering.Printed
import ScalarLowering.Proofs.Binary.Nearest
import ScalarLowering.Proofs.Text.Blank
import ScalarLowering.Proofs.Decimal.Reading
import ScalarLowering.Proofs.OperandSpec.Leaf
import ScalarLowering.Proofs.OperandSpec.Separation
import ScalarLowering.Proofs.OperandSpec.Grammar
import ScalarLowering.Proofs.OperandSpec.Nesting
import ScalarLowering.Proofs.Lowering.ContextIndependence
import ScalarLowering.Proofs.Lowering.History
import ScalarLowering.Proofs.Lowering.Symbols
import ScalarLowering.Proofs.Lowering.Configuration
import ScalarLowering.Proofs.Lowering.Yield
import ScalarLowering.Proofs.Value.Integer
import ScalarLowering.Proofs.Lowering.Extremum
import ScalarLowering.Proofs.Lowering.IntegerExtremum
import ScalarLowering.Proofs.Lowering.Grouping
import ScalarLowering.Proofs.Binary.Order
import ScalarLowering.Proofs.Lowering.FloatExtremum
import ScalarLowering.Proofs.Kernel.Text
import ScalarLowering.Proofs.OperandSpec.Bound
import ScalarLowering.Proofs.CommandLine.Failures
import ScalarLowering.Proofs.CommandLine.Report
import ScalarLowering.Proofs.Lowering.CommonType
import ScalarLowering.Proofs.Lowering.Recursion
import ScalarLowering.Proofs.Evaluation.Asking
import ScalarLowering.Proofs.Evaluation.Circularity
import ScalarLowering.Proofs.Evaluation.Iterations
import ScalarLowering.Proofs.Binary.Whole
import ScalarLowering.Proofs.OperandSpec.IntegerBinding
import ScalarLowering.Proofs.OperandSpec.LiteralText
import ScalarLowering.Proofs.Value.Cast
import ScalarLowering.Proofs.Lowering.SuccessiveCasts
import ScalarLowering.Proofs.OperandSpec.BoundCalls
