import FlatC.CType.Basic
import FlatC.CType.Conversion
import FlatC.CType.Struct
import FlatC.CType.Typing
import FlatC.Console
import FlatC.Decimal.Digits
import FlatC.Decimal.Fixed
import FlatC.Decimal.Reader
import FlatC.Decimal.Shortest
import FlatC.Eval.Call
import FlatC.Eval.Expression
import FlatC.Eval.Loop
import FlatC.Eval.Statement
import FlatC.Fault
import FlatC.Heap.Allocate
import FlatC.Heap.Block
import FlatC.Heap.Release
import FlatC.Image.Access
import FlatC.Image.Basic
import FlatC.Image.Create
import FlatC.Image.Literal
import FlatC.Image.Pages
import FlatC.Image.Typed
import FlatC.Image.Word
import FlatC.Library.Basic
import FlatC.Library.Call
import FlatC.Library.Print
import FlatC.Library.Scan
import FlatC.Machine.Basic
import FlatC.Machine.Runner
import FlatC.Machine.Variable
import FlatC.Number.Binary64
import FlatC.Number.Checked
import FlatC.Number.Encoding
import FlatC.Number.Rounding
import FlatC.Number.Width
import FlatC.Operator
import FlatC.Program.Basic
import FlatC.Proofs.CType.Arising
import FlatC.Proofs.CType.Layout
import FlatC.Proofs.CType.Spelling
import FlatC.Proofs.Console.Reading
import FlatC.Proofs.Decimal.IntText
import FlatC.Proofs.Eval.Bound
import FlatC.Proofs.Eval.Budget
import FlatC.Proofs.Eval.Congruence
import FlatC.Proofs.Eval.Element
import FlatC.Proofs.Eval.Ending
import FlatC.Proofs.Eval.ForLoop
import FlatC.Proofs.Eval.LargerStack
import FlatC.Proofs.Eval.Located
import FlatC.Proofs.Eval.Lockstep
import FlatC.Proofs.Eval.Lvalue
import FlatC.Proofs.Eval.Parallel
import FlatC.Proofs.Eval.Parameter
import FlatC.Proofs.Eval.Primitive
import FlatC.Proofs.Eval.Reported
import FlatC.Proofs.Eval.ScopeKept
import FlatC.Proofs.Eval.Setting
import FlatC.Proofs.Eval.Shorthand
import FlatC.Proofs.Eval.Stack
import FlatC.Proofs.Eval.StaticType
import FlatC.Proofs.Eval.Steady
import FlatC.Proofs.Eval.Trace
import FlatC.Proofs.Eval.Visible
import FlatC.Proofs.Heap.Allocate
import FlatC.Proofs.Heap.Atomic
import FlatC.Proofs.Heap.Chain
import FlatC.Proofs.Heap.Confined
import FlatC.Proofs.Heap.Edit
import FlatC.Proofs.Heap.FirstFit
import FlatC.Proofs.Heap.Order
import FlatC.Proofs.Heap.Overrun
import FlatC.Proofs.Heap.Reachable
import FlatC.Proofs.Heap.Release
import FlatC.Proofs.Heap.Uncorrupted
import FlatC.Proofs.Heap.Undo
import FlatC.Proofs.Heap.UserData
import FlatC.Proofs.Heap.Walk
import FlatC.Proofs.Image.Bytes
import FlatC.Proofs.Image.Faithful
import FlatC.Proofs.Image.Fill
import FlatC.Proofs.Image.Literal
import FlatC.Proofs.Image.Operation
import FlatC.Proofs.Image.Reported
import FlatC.Proofs.Image.Shape
import FlatC.Proofs.Image.Text
import FlatC.Proofs.Image.Wider
import FlatC.Proofs.Library.Scan
import FlatC.Proofs.Library.Text
import FlatC.Proofs.Library.Zeroed
import FlatC.Proofs.Number.Exact
import FlatC.Proofs.Number.Nearest
import FlatC.Proofs.Number.Pattern
import FlatC.Proofs.Number.Single
import FlatC.Proofs.Number.Whole
import FlatC.Proofs.Refine
import FlatC.Proofs.Scope.Apart
import FlatC.Proofs.Scope.Declare
import FlatC.Proofs.Scope.FreshSlot
import FlatC.Proofs.Scope.Functions
import FlatC.Proofs.Scope.Layout
import FlatC.Proofs.Scope.Prototype
import FlatC.Proofs.Scope.Static
import FlatC.Proofs.Scope.Typed
import FlatC.Proofs.Step
import FlatC.Proofs.Value.Cast
import FlatC.Proofs.Value.Commute
import FlatC.Proofs.Value.Computed
import FlatC.Proofs.Value.Element
import FlatC.Proofs.Value.Increment
import FlatC.Proofs.Value.Modest
import FlatC.Proofs.Value.PointerArithmetic
import FlatC.Proofs.Value.PointerOverflow
import FlatC.Proofs.Value.Product
import FlatC.Proofs.Value.Range
import FlatC.Proofs.Value.ResultType
import FlatC.Proofs.Value.TwosComplement
import FlatC.Run
import FlatC.Scope.Binding
import FlatC.Scope.Frame
import FlatC.Text.Blank
import FlatC.Text.Invisible
import FlatC.Text.Latin1
import FlatC.Text.Order
import FlatC.Text.Quoted
import FlatC.Typing
import FlatC.Value.Arithmetic
import FlatC.Value.Basic
import FlatC.Value.Conversion
import FlatC.Value.Place
