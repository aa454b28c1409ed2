import Cnegative.Syntax.Ast
import Cnegative.Semantics.Expr
import Cnegative.Typing.Ir
import Cnegative.Semantics.State
import Cnegative.Semantics.Stmt
import Cnegative.Semantics.Value
import Cnegative.Semantics.Returns
import Cnegative.Optimize.Fold
import Cnegative.Optimize.Constant
import Cnegative.Optimize.Preserves
import Cnegative.Optimize.Program
import Cnegative.Syntax.Ir
import Cnegative.Syntax.Text
import Cnegative.Lex.Token
import Cnegative.Lex.Lexer
import Cnegative.Lex.Tiling
import Cnegative.Lex.Faithful
import Cnegative.Library.Blocks
import Cnegative.Library.Segment
import Cnegative.Backend.Builtins
import Cnegative.Backend.Emit
import Cnegative.Backend.Runs
import Cnegative.Backend.Symbol
import Cnegative.Backend.Sized
import Cnegative.Backend.Emits
import Cnegative.Backend.WellFormed
import Cnegative.Backend.Returns
import Cnegative.Backend.Function
import Cnegative.Backend.Llvm
import Cnegative.Library.Chain
import Cnegative.Library.Related
import Cnegative.Library.Tiling
import Cnegative.Library.Reach
import Cnegative.Library.Rank
import Cnegative.Library.Search
import Cnegative.Resolution.Checker
import Cnegative.Resolution.Lowering
import Cnegative.Check.Scope
import Cnegative.Check.Types
import Cnegative.Check.Expr
import Cnegative.Check.Stmt
import Cnegative.Check.Project
import Cnegative.Check.Accepted
import Cnegative.Resolution.Agreement
import Cnegative.Lower.Expr
import Cnegative.Lower.Stmt
import Cnegative.Lower.Project
import Cnegative.Cleanup.Hygiene
import Cnegative.Cleanup.Sites
import Cnegative.Load.Path
import Cnegative.Load.Project
import Cnegative.Load.Returns
import Cnegative.Load.Graph
import Cnegative.Load.Sound
import Cnegative.Load.Follows
import Cnegative.Load.Acyclic
import Cnegative.Load.Canonical
import Cnegative.Resolution.Locals
import Cnegative.Semantics.Assign
import Cnegative.Semantics.Region
import Cnegative.Semantics.Roots
import Cnegative.Semantics.Confined
import Cnegative.Semantics.Ends
import Cnegative.Semantics.Temporaries
import Cnegative.Semantics.Visits
import Cnegative.Encapsulation.Visible
import Cnegative.Encapsulation.Expr
import Cnegative.Encapsulation.Stmt
import Cnegative.Encapsulation.Project
import Cnegative.Parse.State
import Cnegative.Parse.Expr
import Cnegative.Parse.Terminates
import Cnegative.Parse.Stmt
import Cnegative.Parse.Blocks
import Cnegative.Parse.Stalls
import Cnegative.Runtime.Ipc
import Cnegative.Runtime.Children
import Cnegative.Library.Storage
import Cnegative.Library.Linked
import Cnegative.Library.Hashed
import Cnegative.Term.Buffer
import Cnegative.Term.Grid
import Cnegative.Term.Pairing
import Cnegative.Term.RenderDiff
import Cnegative.Term.Shown
import Cnegative.Runtime.Bytes
import Cnegative.Runtime.ByteList
import Cnegative.Runtime.Lines
import Cnegative.Runtime.LineList
import Cnegative.Runtime.StringList
import Cnegative.Backend.Equality
import Cnegative.Backend.EqualityLaws
import Cnegative.Support.Memory
import Cnegative.Support.Records
import Cnegative.Support.Ledger
import Cnegative.Support.Books
import Cnegative.Support.Steps
import Cnegative.Library.X86
import Cnegative.Library.Decimal
import Cnegative.Library.Utf8
import Cnegative.Library.Signed
import Cnegative.Lex.AsmScan
import Cnegative.Lex.Position
import Cnegative.Runtime.CString
import Cnegative.Runtime.Path
import Cnegative.Runtime.Math
import Cnegative.Runtime.Numeral
import Cnegative.Term.Utf8
import Cnegative.Check.ConstEval
import Cnegative.Optimize.Defined
import Cnegative.Parse.Literal
import Cnegative.Library.Runs
import Cnegative.Semantics.Keeps
import Cnegative.Semantics.Repeat
import Cnegative.Parse.Print
import Cnegative.Parse.Consumes
import Cnegative.Parse.Levels
import Cnegative.Parse.Climb
import Cnegative.Parse.Primary
import Cnegative.Parse.Postfix
import Cnegative.Parse.Compound
import Cnegative.Parse.RoundTrip
import Cnegative.Library.Paths
import Cnegative.Cleanup.Paths
import Cnegative.Cleanup.Mentions
import Cnegative.Cleanup.Exits
import Cnegative.Cleanup.Once
import Cnegative.Cleanup.Follows
import Cnegative.Term.Width
import Cnegative.Term.Clip
import Cnegative.Runtime.Net
import Cnegative.Runtime.CommandLine
import Cnegative.Library.Pieces
import Cnegative.Runtime.ReadLine
import Cnegative.Runtime.Delivery
import Cnegative.Library.Heap
import Cnegative.Runtime.Zone
import Cnegative.Library.Probing
import Cnegative.Check.NameMap
import Cnegative.Library.Streams
import Cnegative.Runtime.Fs
import Cnegative.Library.Reader
import Cnegative.Term.Input
import Cnegative.Term.InStep
import Cnegative.Library.PathSearch
import Cnegative.Check.MayCarry
import Cnegative.Syntax.Occurs
import Cnegative.Library.Interning
import Cnegative.Backend.Writes
import Cnegative.Backend.Strings
import Cnegative.Backend.Sections
import Cnegative.Backend.Inclusion
import Cnegative.Backend.Forecast
import Cnegative.Backend.Foretold
import Cnegative.Backend.Valid
import Cnegative.Semantics.Rules
import Cnegative.Semantics.Within
import Cnegative.Cleanup.Return
import Cnegative.Semantics.Scalar
import Cnegative.Backend.Machine
import Cnegative.Backend.Joint
import Cnegative.Backend.Yields
import Cnegative.Backend.Operators
import Cnegative.Backend.Compute
import Cnegative.Backend.Express
import Cnegative.Backend.Arrives
import Cnegative.Backend.Follow
import Cnegative.Backend.Loops
import Cnegative.Backend.Counting
import Cnegative.Backend.Refines
import Cnegative.Backend.Linked
import Cnegative.Backend.Validate
import Cnegative.Backend.Succeeds
import Cnegative.Backend.Emission
import Cnegative.Backend.Totality
import Cnegative.Optimize.Retyped
import Cnegative.Optimize.Settled
import Cnegative.Semantics.Core
import Cnegative.Backend.Housed
import Cnegative.Backend.Denotes
import Cnegative.Backend.Executes
import Cnegative.Backend.Compiled
import Cnegative.Library.Triple
import Cnegative.Typing.Sound
import Cnegative.Typing.Safe
