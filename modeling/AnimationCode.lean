import AnimationCode.Account
import AnimationCode.Analysis.Accessibility
import AnimationCode.Analysis.Finding
import AnimationCode.Analysis.Performance
import AnimationCode.Analysis.Report
import AnimationCode.Analysis.Shape
import AnimationCode.Artifact
import AnimationCode.Complexity
import AnimationCode.Component.Basic
import AnimationCode.Component.Declarations
import AnimationCode.Component.OfSource
import AnimationCode.Context
import AnimationCode.Convert.Attributes
import AnimationCode.Convert.Labels
import AnimationCode.Convert.Phases
import AnimationCode.Convert.References
import AnimationCode.Convert.Stagger
import AnimationCode.Diagnosis
import AnimationCode.Element.Basic
import AnimationCode.Element.OfCalls
import AnimationCode.Element.OfMarkup
import AnimationCode.Element.OfTemplate
import AnimationCode.Element.States
import AnimationCode.Failure
import AnimationCode.Fields
import AnimationCode.Framework
import AnimationCode.Import.Edit
import AnimationCode.Import.Line
import AnimationCode.Import.Record
import AnimationCode.InPlace
import AnimationCode.Number.Binary64
import AnimationCode.Number.Decimal
import AnimationCode.Operation.Basic
import AnimationCode.Operation.Parameter
import AnimationCode.Operation.Sequence
import AnimationCode.Optimize.Guard
import AnimationCode.Optimize.Text
import AnimationCode.Optimize.Transforms
import AnimationCode.Pattern.Basic
import AnimationCode.Pattern.Bundled
import AnimationCode.Pattern.Catalog
import AnimationCode.Pattern.Config
import AnimationCode.Pattern.Rating
import AnimationCode.Phase
import AnimationCode.Proofs.Account
import AnimationCode.Proofs.Analysis.Accessibility
import AnimationCode.Proofs.Analysis.Optimized
import AnimationCode.Proofs.Analysis.Place
import AnimationCode.Proofs.Analysis.Report
import AnimationCode.Proofs.Analysis.Score
import AnimationCode.Proofs.Analysis.Shape
import AnimationCode.Proofs.Analysis.Timed
import AnimationCode.Proofs.Artifact
import AnimationCode.Proofs.Component.Fault
import AnimationCode.Proofs.Component.Reading
import AnimationCode.Proofs.Component.Unfit
import AnimationCode.Proofs.Convert.Attributes
import AnimationCode.Proofs.Convert.Body
import AnimationCode.Proofs.Convert.Delays
import AnimationCode.Proofs.Convert.Labels
import AnimationCode.Proofs.Convert.Markup
import AnimationCode.Proofs.Convert.Pace
import AnimationCode.Proofs.Convert.Passes
import AnimationCode.Proofs.Convert.Phases
import AnimationCode.Proofs.Convert.References
import AnimationCode.Proofs.Convert.Scope
import AnimationCode.Proofs.Convert.Stagger
import AnimationCode.Proofs.Convert.Still
import AnimationCode.Proofs.Element.Calls
import AnimationCode.Proofs.Element.Forest
import AnimationCode.Proofs.Element.Grouped
import AnimationCode.Proofs.Element.Kept
import AnimationCode.Proofs.Element.Lift
import AnimationCode.Proofs.Element.Pairs
import AnimationCode.Proofs.Element.Place
import AnimationCode.Proofs.Element.Reach
import AnimationCode.Proofs.Element.States
import AnimationCode.Proofs.Element.Told
import AnimationCode.Proofs.Element.Unfit
import AnimationCode.Proofs.Fields
import AnimationCode.Proofs.Import.Document
import AnimationCode.Proofs.Import.Edit
import AnimationCode.Proofs.Import.Head
import AnimationCode.Proofs.Import.Line
import AnimationCode.Proofs.Import.Reading
import AnimationCode.Proofs.Import.Record
import AnimationCode.Proofs.Import.Spelling
import AnimationCode.Proofs.Import.Stretch
import AnimationCode.Proofs.Import.Trimmed
import AnimationCode.Proofs.Import.Unused
import AnimationCode.Proofs.InPlace
import AnimationCode.Proofs.Number.Bounds
import AnimationCode.Proofs.Number.Numeral
import AnimationCode.Proofs.Number.Order
import AnimationCode.Proofs.Number.Rounding
import AnimationCode.Proofs.Number.Shortest
import AnimationCode.Proofs.Operation.Causes
import AnimationCode.Proofs.Optimize.Exchange
import AnimationCode.Proofs.Optimize.GivesWay
import AnimationCode.Proofs.Optimize.Guard
import AnimationCode.Proofs.Optimize.Text
import AnimationCode.Proofs.Optimize.Transforms
import AnimationCode.Proofs.Optimize.Twice
import AnimationCode.Proofs.Outcome
import AnimationCode.Proofs.Pattern.Catalog
import AnimationCode.Proofs.Pattern.Merge
import AnimationCode.Proofs.Record.Reading
import AnimationCode.Proofs.ReducedMotion
import AnimationCode.Proofs.Render.Binding
import AnimationCode.Proofs.Render.Calls
import AnimationCode.Proofs.Render.Component
import AnimationCode.Proofs.Render.Directive
import AnimationCode.Proofs.Render.Function
import AnimationCode.Proofs.Render.Guarded
import AnimationCode.Proofs.Render.Lines
import AnimationCode.Proofs.Render.Markup
import AnimationCode.Proofs.Render.OpeningTag
import AnimationCode.Proofs.Render.Outline
import AnimationCode.Proofs.Render.Precedence
import AnimationCode.Proofs.Render.Quiet
import AnimationCode.Proofs.Render.Sayings
import AnimationCode.Proofs.Render.Statements
import AnimationCode.Proofs.Revision
import AnimationCode.Proofs.Script.Block
import AnimationCode.Proofs.Script.Call
import AnimationCode.Proofs.Script.Element
import AnimationCode.Proofs.Script.Enclosed
import AnimationCode.Proofs.Script.Exported
import AnimationCode.Proofs.Script.Import
import AnimationCode.Proofs.Script.Lexeme
import AnimationCode.Proofs.Script.Literal
import AnimationCode.Proofs.Script.Markup
import AnimationCode.Proofs.Script.Misread
import AnimationCode.Proofs.Script.Object
import AnimationCode.Proofs.Script.Operand
import AnimationCode.Proofs.Script.Primary
import AnimationCode.Proofs.Script.Printed
import AnimationCode.Proofs.Script.Program
import AnimationCode.Proofs.Script.Reading
import AnimationCode.Proofs.Script.Returned
import AnimationCode.Proofs.Script.Signature
import AnimationCode.Proofs.Script.Slot
import AnimationCode.Proofs.Script.Statement
import AnimationCode.Proofs.Script.Token
import AnimationCode.Proofs.Script.Tree
import AnimationCode.Proofs.Script.Valued
import AnimationCode.Proofs.Script.Wish
import AnimationCode.Proofs.Script.Yield
import AnimationCode.Proofs.Template.Blanked
import AnimationCode.Proofs.Template.Match
import AnimationCode.Proofs.Template.Nesting
import AnimationCode.Proofs.Template.Outline
import AnimationCode.Proofs.Template.Tag
import AnimationCode.Proofs.Text.Delimited
import AnimationCode.Proofs.Text.Escape
import AnimationCode.Proofs.Text.Position
import AnimationCode.Proofs.Text.Quoted
import AnimationCode.Proofs.Text.Replace
import AnimationCode.Proofs.Text.Split
import AnimationCode.Proofs.Timing
import AnimationCode.Proofs.Value.Literal
import AnimationCode.Record.Reading
import AnimationCode.ReducedMotion
import AnimationCode.Render.Calls
import AnimationCode.Render.Layout
import AnimationCode.Render.Markup
import AnimationCode.Render.Template
import AnimationCode.Revision
import AnimationCode.Rules
import AnimationCode.Script.Cursor
import AnimationCode.Script.Grammar.Binding
import AnimationCode.Script.Grammar.Class
import AnimationCode.Script.Grammar.Expression
import AnimationCode.Script.Grammar.Markup
import AnimationCode.Script.Grammar.Statement
import AnimationCode.Script.Grammar.Typing
import AnimationCode.Script.Lexeme
import AnimationCode.Script.Literal
import AnimationCode.Script.Node
import AnimationCode.Script.Token
import AnimationCode.Template.Block
import AnimationCode.Template.Node
import AnimationCode.Text.Blank
import AnimationCode.Text.LetterCase
import AnimationCode.Text.Position
import AnimationCode.Text.Quoted
import AnimationCode.Text.Reference
import AnimationCode.Text.Replace
import AnimationCode.Text.Word
import AnimationCode.Threshold
import AnimationCode.Timing
import AnimationCode.Value
import AnimationCode.Value.Printer
import AnimationCode.Value.Shown
import AnimationCode.Yaml.Read
import AnimationCode.Yaml.Scalar
