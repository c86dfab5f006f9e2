import Stencil.Arguments
import Stencil.Body
import Stencil.Builtin
import Stencil.Callback
import Stencil.Code
import Stencil.Dict
import Stencil.Disk
import Stencil.Double
import Stencil.Double.Decimal
import Stencil.Double.Power
import Stencil.Double.Reading
import Stencil.Engine
import Stencil.Error
import Stencil.Evaluation
import Stencil.Expr
import Stencil.Fault
import Stencil.Grammar
import Stencil.Grammar.Callee
import Stencil.Grammar.Expr
import Stencil.Grammar.Outline
import Stencil.Halt
import Stencil.Inspect
import Stencil.Json.Numeral
import Stencil.Json.Printer
import Stencil.Json.Reader
import Stencil.Keyword
import Stencil.Loader
import Stencil.Machine
import Stencil.Markup
import Stencil.Number
import Stencil.Output
import Stencil.Path
import Stencil.Renderer
import Stencil.Scope
import Stencil.Session
import Stencil.Session.Recipe
import Stencil.Tag
import Stencil.Template
import Stencil.Text.Blank
import Stencil.Text.Case
import Stencil.Text.Case.Table
import Stencil.Text.Identifier
import Stencil.Text.Identifier.Table
import Stencil.Text.Position
import Stencil.Text.Quoted
import Stencil.Text.Quoted.Table
import Stencil.Text.Ranges
import Stencil.Text.Span
import Stencil.Text.Width
import Stencil.Text.Width.Char
import Stencil.Text.Width.Sequence
import Stencil.Text.Width.Table
import Stencil.Token
import Stencil.Token.Reader
import Stencil.Token.Scan
import Stencil.Value
import Stencil.Value.Arithmetic
import Stencil.Value.Order
import Stencil.Proofs.Compiling.Expr
import Stencil.Proofs.Compiling.Blocks
import Stencil.Proofs.Compiling.Tags
import Stencil.Proofs.Text.Bytes
import Stencil.Proofs.Text.Span
import Stencil.Proofs.Placement.Tokens
import Stencil.Proofs.Placement.Tree
import Stencil.Proofs.Placement.Grammar
import Stencil.Proofs.Placement.Outline
import Stencil.Proofs.Dict
import Stencil.Proofs.Including.Gathering
import Stencil.Proofs.Including.History
import Stencil.Proofs.Rendering.Steps
import Stencil.Proofs.Simulation.Body
import Stencil.Proofs.Simulation.Engine
import Stencil.Proofs.Placement.Code
import Stencil.Proofs.Rendering.Reaches
import Stencil.Proofs.Rendering.Halts
import Stencil.Proofs.Safety.Ends
import Stencil.Proofs.Safety.Panics
import Stencil.Proofs.Safety.Expr
import Stencil.Proofs.Safety.Body
import Stencil.Proofs.Safety.Page
import Stencil.Proofs.Including.Closure
import Stencil.Proofs.Safety.Engine
import Stencil.Proofs.Placement.Cover
import Stencil.Proofs.Meaning.Expr
import Stencil.Proofs.Meaning.Body
import Stencil.Proofs.Meaning.Page
import Stencil.Proofs.Including.Gathers
import Stencil.Proofs.Including.Lists
import Stencil.Proofs.Including.Source
import Stencil.Proofs.Including.Snapshot
import Stencil.Proofs.Including.Direct
import Stencil.Proofs.Including.Beside
import Stencil.Proofs.Including.Together
import Stencil.Proofs.Writing.Output
import Stencil.Proofs.Writing.Body
import Stencil.Proofs.Writing.Engine
import Stencil.Proofs.Order.Rounding
import Stencil.Proofs.Order.Chain
import Stencil.Proofs.Order.Number
import Stencil.Proofs.Order.Value
import Stencil.Proofs.Order.Sorting
import Stencil.Proofs.Folding.Compiling
import Stencil.Proofs.Folding.Rendering
import Stencil.Proofs.Loading.Path
import Stencil.Proofs.Loading.Disk
import Stencil.Proofs.Loading.Session
import Stencil.Proofs.Locating.Origins
import Stencil.Proofs.Locating.Compiling
import Stencil.Proofs.Loading.Once
import Stencil.Proofs.Locating.Rendering
import Stencil.Proofs.Locating.Engine
import Stencil.Proofs.Compiling.Roles
import Stencil.Proofs.Placement.Remainder
import Stencil.Proofs.Compiling.Statements
import Stencil.Proofs.Printing.Term
import Stencil.Proofs.Printing.Scan
import Stencil.Proofs.Printing.Rank
import Stencil.Proofs.Printing.Read
import Stencil.Proofs.Printing.Code
import Stencil.Proofs.Printing.Compile
import Stencil.Proofs.Safety.Deeper
import Stencil.Proofs.Arithmetic.Brink
import Stencil.Proofs.Arithmetic.Integer
import Stencil.Proofs.Arithmetic.Real
import Stencil.Proofs.Arithmetic.Power
import Stencil.Proofs.Arithmetic.Whole
import Stencil.Proofs.Arithmetic.Places
import Stencil.Proofs.Arithmetic.Kept
import Stencil.Proofs.Scoping.Assignment
import Stencil.Proofs.Scanning.Pair
import Stencil.Proofs.Scanning.Stripping
import Stencil.Proofs.Arithmetic.Numeral
import Stencil.Proofs.Arithmetic.Conversion
import Stencil.Proofs.Scoping.Elsewhere
import Stencil.Proofs.Scoping.Loops
import Stencil.Proofs.Scanning.Cutting
import Stencil.Proofs.Binding.Tags
import Stencil.Proofs.Literals.Cutting
import Stencil.Proofs.Literals.Operand
import Stencil.Proofs.Literals.RoundTrip
import Stencil.Proofs.Literals.Binding
import Stencil.Proofs.Scanning.Tails
import Stencil.Proofs.Meaning.Places
import Stencil.Proofs.Binding.Chunks
import Stencil.Proofs.Binding.Carrying
import Stencil.Proofs.Binding.Moving
import Stencil.Proofs.Binding.Scalars
import Stencil.Proofs.Binding.Sources
import Stencil.Proofs.Binding.Reading
import Stencil.Proofs.Loading.Canonical
import Stencil.Proofs.Compiling.Jumps
import Stencil.Proofs.Scanning.Openers
import Stencil.Searcher
import Stencil.Proofs.Scanning.Search
import Stencil.Proofs.Calling.Reading
import Stencil.Proofs.Calling.Routine
import Stencil.Proofs.Calling.Outline
import Stencil.Proofs.Calling.Refusing
import Stencil.Proofs.Calling.Pages
import Stencil.Proofs.Calling.Engine
import Stencil.Proofs.Text.Position
import Stencil.Proofs.Text.Lines
import Stencil.Proofs.Locating.Excerpt
