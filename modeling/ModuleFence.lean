import ModuleFence.Text.Blank
import ModuleFence.Text.DecimalDigit
import ModuleFence.Text.Lines
import ModuleFence.Text.Numeral
import ModuleFence.Text.Printable
import ModuleFence.Text.Quoted
import ModuleFence.Text.Uppercase
import ModuleFence.Text.Utf8
import ModuleFence.Text.WordCharacter
import ModuleFence.Expression.Lowering
import ModuleFence.Tree.Walk
import ModuleFence.Tree.Damage
import ModuleFence.FileSystem.Basic
import ModuleFence.Json.Printer
import ModuleFence.Json.Reader
import ModuleFence.Log
import ModuleFence.Rule.Options
import ModuleFence.Settings.Basic
import ModuleFence.Settings.EnvironmentFile
import ModuleFence.Settings.Sources
import ModuleFence.Report.Render
import ModuleFence.Lint.Basic
import ModuleFence.Ignore.Matching
import ModuleFence.Source.Discovery
import ModuleFence.Source.Loading
import ModuleFence.Lint.Files
import ModuleFence.Log.Setup
import ModuleFence.Grammar
import ModuleFence.CommandLine.Reading
import ModuleFence.CommandLine.Run
import ModuleFence.Script.Cursor
import ModuleFence.Script.Lexeme
import ModuleFence.Script.Token
import ModuleFence.Script.Pattern
import ModuleFence.Script.Literal
import ModuleFence.Script.Operation
import ModuleFence.Script.Class
import ModuleFence.Script.Markup
import ModuleFence.Script.Operand
import ModuleFence.Script.Program
import ModuleFence.Main
import ModuleFence.Proofs.Firsts
import ModuleFence.Proofs.Lint.Exactness
import ModuleFence.Proofs.Lint.Snapshot
import ModuleFence.Proofs.Lint.Need
import ModuleFence.Proofs.Expression.Spelling
import ModuleFence.Proofs.Lint.Files
import ModuleFence.Proofs.Lint.Completion
import ModuleFence.Proofs.Store.Handling
import ModuleFence.Proofs.Lint.Independence
import ModuleFence.Proofs.Source.Position
import ModuleFence.Proofs.Expression.Comments
import ModuleFence.Proofs.Lint.Comments
import ModuleFence.Proofs.Expression.Cut
import ModuleFence.Proofs.Expression.Truncation
import ModuleFence.Proofs.Expression.Shown
import ModuleFence.Proofs.Source.Component
import ModuleFence.Proofs.FileSystem.Following
import ModuleFence.Proofs.FileSystem.Relisting
import ModuleFence.Proofs.Discovery.Walk
import ModuleFence.Proofs.Discovery.Route
import ModuleFence.Proofs.Discovery.Clear
import ModuleFence.Proofs.Discovery.Sources
import ModuleFence.Proofs.Discovery.Order
import ModuleFence.Proofs.Discovery.Settled
import ModuleFence.Proofs.Discovery.Containment
import ModuleFence.Proofs.Json.Numeral
import ModuleFence.Proofs.Json.Front
import ModuleFence.Proofs.Json.RoundTrip
import ModuleFence.Proofs.FileSystem.Spelling
import ModuleFence.Proofs.Json.Depth
import ModuleFence.Proofs.Report.Decoding
import ModuleFence.Proofs.Tree.Nesting
import ModuleFence.Proofs.Lint.DocumentOrder
import ModuleFence.Proofs.Settings.Fields
import ModuleFence.Proofs.Settings.Reading
import ModuleFence.Proofs.CommandLine.Stages
import ModuleFence.Proofs.CommandLine.Configuration
import ModuleFence.Proofs.CommandLine.Output
import ModuleFence.Proofs.CommandLine.Words
import ModuleFence.Proofs.Lint.Clean
import ModuleFence.Proofs.CommandLine.Presentation
import ModuleFence.Proofs.CommandLine.Acceptance
import ModuleFence.Proofs.CommandLine.Request
import ModuleFence.Proofs.CommandLine.Verdict
import ModuleFence.Proofs.Source.ElementName
import ModuleFence.Proofs.Text.CodeUnits
import ModuleFence.Proofs.Expression.Denotation
import ModuleFence.Proofs.Expression.HtmlComments
import ModuleFence.Proofs.Tree.Respelling
import ModuleFence.Proofs.Rule.Respelling
import ModuleFence.Proofs.Rule.HtmlComments
import ModuleFence.Proofs.Lint.Respelling
import ModuleFence.Proofs.Lint.Spelling
import ModuleFence.Proofs.Lint.HtmlComments
import ModuleFence.Proofs.Rule.Caches
import ModuleFence.Proofs.Rule.Requests
import ModuleFence.Proofs.CommandLine.Forbidding
import ModuleFence.Proofs.Settings.Lists
import ModuleFence.Proofs.CommandLine.Repetition
import ModuleFence.Proofs.Lint.Damage
import ModuleFence.Proofs.Rule.Validation
import ModuleFence.Proofs.Text.LineEnds
import ModuleFence.Proofs.Text.Encoding
import ModuleFence.Proofs.Text.OneLine
import ModuleFence.Proofs.Report.Lines
import ModuleFence.Proofs.Expression.Parentheses
import ModuleFence.Proofs.Tree.Wrapping
import ModuleFence.Proofs.Expression.Wrapping
import ModuleFence.Proofs.Store.Wrapping
import ModuleFence.Proofs.Lint.Wrapping
import ModuleFence.Proofs.Store.Respelling
