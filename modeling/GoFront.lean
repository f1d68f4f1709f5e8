import GoFront.Ast.Basic
import GoFront.Ast.Source
import GoFront.Ast.Template
import GoFront.Command.Arguments
import GoFront.Command.Basic
import GoFront.Config.Basic
import GoFront.Config.Toml
import GoFront.Diagnostic
import GoFront.Document.Basic
import GoFront.Document.Region
import GoFront.Files
import GoFront.Imports
import GoFront.Kind.Basic
import GoFront.Kind.Class
import GoFront.Kind.Spelling
import GoFront.KindSet
import GoFront.Main
import GoFront.Outline
import GoFront.Parse.Basic
import GoFront.Parse.Replay
import GoFront.Parse.Source.Basic
import GoFront.Parse.Source.Declaration
import GoFront.Parse.Source.Expression
import GoFront.Parse.Source.File
import GoFront.Parse.Source.Signature
import GoFront.Parse.Source.Statement
import GoFront.Parse.Source.Type
import GoFront.Parse.Template.Directive
import GoFront.Parse.Template.Document
import GoFront.Parse.Template.Pipeline
import GoFront.Parse.Weave
import GoFront.Parse.Word
import GoFront.Path
import GoFront.Problem
import GoFront.Proofs.Document.Division
import GoFront.Proofs.Imports
import GoFront.Proofs.Parse.Effort
import GoFront.Proofs.Parse.Reading
import GoFront.Proofs.Parse.Source.Basic
import GoFront.Proofs.Parse.Source.Expression
import GoFront.Proofs.Parse.Source.File
import GoFront.Proofs.Parse.Source.Statement
import GoFront.Proofs.Parse.Source.Substance.File
import GoFront.Proofs.Parse.Source.Substance.Rules
import GoFront.Proofs.Parse.Source.Type
import GoFront.Proofs.Parse.Template.Acceptance
import GoFront.Proofs.Parse.Template.Directive
import GoFront.Proofs.Parse.Template.Effort
import GoFront.Proofs.Parse.Template.Grammar
import GoFront.Proofs.Parse.Template.Reading
import GoFront.Proofs.Parse.Total
import GoFront.Proofs.Parse.Trivia
import GoFront.Proofs.Run
import GoFront.Proofs.Token.Length
import GoFront.Proofs.Token.Lookahead
import GoFront.Proofs.Token.Marker
import GoFront.Proofs.Token.Modes
import GoFront.Proofs.Token.Rescan
import GoFront.Proofs.Token.Terminator
import GoFront.Proofs.Token.Tiling
import GoFront.Proofs.Token.Trimming
import GoFront.Proofs.Tree.Arena
import GoFront.Proofs.Tree.Building
import GoFront.Proofs.Tree.Cover
import GoFront.Proofs.Tree.Edges
import GoFront.Proofs.Tree.Layout
import GoFront.Proofs.Tree.Replay
import GoFront.Proofs.Tree.Report
import GoFront.Text.Alphabetic
import GoFront.Text.Basic
import GoFront.Text.Extending
import GoFront.Text.Lines
import GoFront.Text.Numeric
import GoFront.Text.Printable
import GoFront.Text.Quoted
import GoFront.Text.Ranges
import GoFront.Text.Row
import GoFront.Token.Basic
import GoFront.Token.Delimiters
import GoFront.Token.Literal
import GoFront.Token.Source
import GoFront.Token.Template
import GoFront.Tree.Arena
import GoFront.Tree.Basic
import GoFront.Tree.Builder
import GoFront.Tree.Lookup
import GoFront.Tree.Print
import GoFront.Tree.Walk
import GoFront.Workspace
import GoFront.Proofs.Parse.Locality
import GoFront.Proofs.Parse.Template.Locality
import GoFront.Proofs.Tree.Sketch
import GoFront.Proofs.Document.Agreement
import GoFront.Proofs.Token.Drain
import GoFront.Proofs.Parse.Growth
import GoFront.Proofs.Parse.Source.Form
import GoFront.Proofs.Parse.Source.Growth.Basic
import GoFront.Proofs.Parse.Source.Growth.Type
import GoFront.Proofs.Parse.Source.Growth.Expression
import GoFront.Proofs.Parse.Source.Growth.Statement
import GoFront.Proofs.Parse.Source.Growth.File
import GoFront.Proofs.Tree.Anchor
import GoFront.Proofs.Parse.Fault
import GoFront.Proofs.Tree.Stem
import GoFront.Proofs.Parse.Source.Accepted
import GoFront.Proofs.Parse.Source.Binding
import GoFront.Proofs.Tree.Rendering
import GoFront.Proofs.Parse.Template.Form
import GoFront.Proofs.Parse.Template.Growth
import GoFront.Proofs.Parse.Template.Wording
import GoFront.Proofs.Parse.Template.Outcome
import GoFront.Proofs.Parse.Template.Matching
import GoFront.Proofs.Parse.Template.Nesting
import GoFront.Proofs.Parse.Template.Unclosed
import GoFront.Proofs.Parse.Template.Verdict
import GoFront.Proofs.Document.Extent
import GoFront.Proofs.Document.Origin
import GoFront.Proofs.Document.Lookup
import GoFront.Proofs.Document.Reported
import GoFront.Proofs.Token.Restart
import GoFront.Proofs.Tree.Shift
import GoFront.Proofs.Parse.Shift
import GoFront.Proofs.Parse.Template.Shift
import GoFront.Proofs.Parse.Bearing
import GoFront.Proofs.Parse.Source.Header
import GoFront.Proofs.Parse.Source.Composite
import GoFront.Proofs.Parse.Source.Restriction
import GoFront.Proofs.Parse.Source.Recovery
import GoFront.Tree.Traversal
import GoFront.Proofs.Tree.Traversal
import GoFront.Proofs.Tree.Parents
import GoFront.Proofs.Parse.Source.Arrangement
import GoFront.Proofs.Parse.Source.Operand
import GoFront.Proofs.Parse.Source.Branch
import GoFront.Proofs.Parse.Source.Depth
import GoFront.Proofs.Ast.Parts
import GoFront.Proofs.Ast.Operands
import GoFront.Proofs.Ast.Conditions
import GoFront.Proofs.Parse.Template.Loop
import GoFront.Proofs.Parse.Finding
import GoFront.Proofs.Parse.Source.Cutoff
import GoFront.Proofs.Parse.Template.Cutoff
import GoFront.Proofs.Parse.Cutoff
import GoFront.Proofs.Tree.Lookup
import GoFront.Proofs.Tree.Directed
import GoFront.Token.Search
import GoFront.Proofs.Token.Quotation
import GoFront.Proofs.Token.Alone
import GoFront.Proofs.Token.Search
import GoFront.Proofs.Parse.Placement
