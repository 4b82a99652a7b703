import EverEqual.Check.Checker
import EverEqual.Check.Finding
import EverEqual.Check.Match
import EverEqual.Check.Pool
import EverEqual.Command.Config
import EverEqual.Command.Flag
import EverEqual.Comparison.Cache
import EverEqual.Comparison.Guard
import EverEqual.Comparison.Rule
import EverEqual.Comparison.Session
import EverEqual.Comparison.Verdict
import EverEqual.Comparison.Walk
import EverEqual.Describe.Describer
import EverEqual.Describe.Shape
import EverEqual.Descriptor.Attribute
import EverEqual.Descriptor.Basic
import EverEqual.Descriptor.Blueprint
import EverEqual.Descriptor.Builder
import EverEqual.Descriptor.IdentitySet
import EverEqual.Descriptor.Kind
import EverEqual.Descriptor.Outline
import EverEqual.Descriptor.Workshop
import EverEqual.Expression.Cause
import EverEqual.Expression.Constant
import EverEqual.Expression.Grammar.Operands
import EverEqual.Expression.Grammar.Statements
import EverEqual.Expression.Grammar.Types
import EverEqual.Expression.Labels
import EverEqual.Expression.Literal
import EverEqual.Expression.Meaning
import EverEqual.Expression.Meaning.Arguments
import EverEqual.Expression.Meaning.Assign
import EverEqual.Expression.Meaning.Assignments
import EverEqual.Expression.Meaning.Basic
import EverEqual.Expression.Meaning.Calls
import EverEqual.Expression.Meaning.Convert
import EverEqual.Expression.Meaning.Declarations
import EverEqual.Expression.Meaning.Fit
import EverEqual.Expression.Meaning.Literals
import EverEqual.Expression.Meaning.Names
import EverEqual.Expression.Meaning.Operators
import EverEqual.Expression.Meaning.Parts
import EverEqual.Expression.Meaning.Predeclared
import EverEqual.Expression.Meaning.Statements
import EverEqual.Expression.Meaning.Tasks
import EverEqual.Expression.Meaning.Types
import EverEqual.Expression.Number
import EverEqual.Expression.Number.Value
import EverEqual.Expression.Position
import EverEqual.Expression.Printer
import EverEqual.Expression.Reader
import EverEqual.Expression.Scope
import EverEqual.Expression.Syntax
import EverEqual.Expression.Terminating
import EverEqual.Expression.Token
import EverEqual.Main
import EverEqual.Numeric.Binary
import EverEqual.Numeric.Decimal
import EverEqual.Numeric.Format
import EverEqual.Numeric.Quantity
import EverEqual.Package.Load
import EverEqual.Proofs.Check.Accepts
import EverEqual.Proofs.Check.Ancestry
import EverEqual.Proofs.Check.Answered
import EverEqual.Proofs.Check.Anything
import EverEqual.Proofs.Check.CalledOff
import EverEqual.Proofs.Check.Implemented
import EverEqual.Proofs.Check.InOrder
import EverEqual.Proofs.Check.Matched
import EverEqual.Proofs.Check.Mirrored
import EverEqual.Proofs.Check.Operands
import EverEqual.Proofs.Check.Pointers
import EverEqual.Proofs.Check.Pool
import EverEqual.Proofs.Check.Recognised
import EverEqual.Proofs.Check.Registered
import EverEqual.Proofs.Check.Remembered
import EverEqual.Proofs.Check.Shared
import EverEqual.Proofs.Check.Spelling
import EverEqual.Proofs.Check.Swap
import EverEqual.Proofs.Check.TypedEquality
import EverEqual.Proofs.Command.Arguments
import EverEqual.Proofs.Command.Delivered
import EverEqual.Proofs.Command.Gathered
import EverEqual.Proofs.Comparison.Anything
import EverEqual.Proofs.Comparison.Cached
import EverEqual.Proofs.Comparison.Call
import EverEqual.Proofs.Comparison.Decision
import EverEqual.Proofs.Comparison.Directions
import EverEqual.Proofs.Comparison.Judgment
import EverEqual.Proofs.Comparison.Lockstep
import EverEqual.Proofs.Comparison.Loosened
import EverEqual.Proofs.Comparison.Nested
import EverEqual.Proofs.Comparison.PairGraph
import EverEqual.Proofs.Comparison.Session
import EverEqual.Proofs.Comparison.Similar
import EverEqual.Proofs.Comparison.Termination
import EverEqual.Proofs.Comparison.Unwrapped
import EverEqual.Proofs.Describe.Ancestry
import EverEqual.Proofs.Describe.Complete
import EverEqual.Proofs.Describe.Core
import EverEqual.Proofs.Describe.Counterparts
import EverEqual.Proofs.Describe.Declared
import EverEqual.Proofs.Describe.Faithful
import EverEqual.Proofs.Describe.Layers
import EverEqual.Proofs.Describe.Literal
import EverEqual.Proofs.Describe.Owned
import EverEqual.Proofs.Describe.Plan
import EverEqual.Proofs.Describe.Portrait
import EverEqual.Proofs.Describe.Sketched
import EverEqual.Proofs.Describe.Steps
import EverEqual.Proofs.Describe.Web
import EverEqual.Proofs.Descriptor.Assembled
import EverEqual.Proofs.Descriptor.Filling
import EverEqual.Proofs.Descriptor.Inherited
import EverEqual.Proofs.Descriptor.Lifecycle
import EverEqual.Proofs.Descriptor.Reachable
import EverEqual.Proofs.Text.Integer
import EverEqual.Proofs.Text.Order
import EverEqual.Proofs.Types.Checked
import EverEqual.Proofs.Types.Expansions
import EverEqual.Proofs.Types.Explored
import EverEqual.Proofs.Types.Filled
import EverEqual.Proofs.Types.Following
import EverEqual.Proofs.Types.Legible
import EverEqual.Proofs.Types.Listed
import EverEqual.Proofs.Types.Marks
import EverEqual.Proofs.Types.Mentioned
import EverEqual.Proofs.Types.Mentions
import EverEqual.Proofs.Types.Occurrences
import EverEqual.Proofs.Types.Shape
import EverEqual.Proofs.Types.Twins
import EverEqual.Proofs.Types.Visits
import EverEqual.Report
import EverEqual.Run
import EverEqual.Text.Blank
import EverEqual.Text.CaseFolding
import EverEqual.Text.CharClass
import EverEqual.Text.Digit
import EverEqual.Text.Graphic
import EverEqual.Text.Integer
import EverEqual.Text.Letter
import EverEqual.Text.Quoted
import EverEqual.Text.UpperCase
import EverEqual.Text.Utf8
import EverEqual.Types.Basic
import EverEqual.Types.Identical
import EverEqual.Types.Implements
import EverEqual.Types.Instances
import EverEqual.Types.Mentioned
import EverEqual.Types.Printer
import EverEqual.Types.Unmet
import EverEqual.Types.World
