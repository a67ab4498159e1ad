import Untranslated.Candidate
import Untranslated.Command
import Untranslated.Command.Arguments
import Untranslated.Command.Line
import Untranslated.Config
import Untranslated.Files.Collect
import Untranslated.Files.Glob
import Untranslated.Files.Path
import Untranslated.Files.Tree
import Untranslated.Finding
import Untranslated.Html.Event
import Untranslated.Html.Reference
import Untranslated.Html.Reference.Names
import Untranslated.Html.Tree
import Untranslated.Json.Basic
import Untranslated.Json.Reader
import Untranslated.Json.Writer
import Untranslated.Lint
import Untranslated.Locate.Evidence
import Untranslated.Locate.Hidden
import Untranslated.Locate.OpenTag
import Untranslated.Locate.Resolver
import Untranslated.Locate.ValuePattern
import Untranslated.Locate.WrittenReference
import Untranslated.Log
import Untranslated.Main
import Untranslated.Moment
import Untranslated.Number.Arithmetic
import Untranslated.Number.Decimal
import Untranslated.Number.Numeral
import Untranslated.Number.Shortest
import Untranslated.Options
import Untranslated.Proofs.Command
import Untranslated.Proofs.Config
import Untranslated.Proofs.Config.Project
import Untranslated.Proofs.Files
import Untranslated.Proofs.Files.Collect
import Untranslated.Proofs.Files.LookUp
import Untranslated.Proofs.Finding
import Untranslated.Proofs.Finding.Lossless
import Untranslated.Proofs.Finding.Pattern
import Untranslated.Proofs.Json
import Untranslated.Proofs.Locate.Attributes
import Untranslated.Proofs.Locate.Encodings
import Untranslated.Proofs.Locate.Evidence
import Untranslated.Proofs.Locate.Failure
import Untranslated.Proofs.Locate.Hidden
import Untranslated.Proofs.Locate.Independence
import Untranslated.Proofs.Locate.OpenTag
import Untranslated.Proofs.Locate.OpenTag.Value
import Untranslated.Proofs.Locate.Request
import Untranslated.Proofs.Locate.Respelled
import Untranslated.Proofs.Locate.Run
import Untranslated.Proofs.Locate.Step
import Untranslated.Proofs.Locate.Trimming
import Untranslated.Proofs.Locate.Trusted
import Untranslated.Proofs.Locate.ValuePattern
import Untranslated.Proofs.Markup.Basic
import Untranslated.Proofs.Markup.Extent
import Untranslated.Proofs.Markup.Gap
import Untranslated.Proofs.Markup.Lagging
import Untranslated.Proofs.Markup.Locating
import Untranslated.Proofs.Markup.Reading
import Untranslated.Proofs.Markup.Respelled
import Untranslated.Proofs.Markup.RespelledTree
import Untranslated.Proofs.Markup.Soup
import Untranslated.Proofs.Markup.Strings
import Untranslated.Proofs.Markup.Tree
import Untranslated.Proofs.Reference
import Untranslated.Proofs.Reference.Grammar
import Untranslated.Proofs.Reference.Visible
import Untranslated.Proofs.Report
import Untranslated.Proofs.Report.Blocks
import Untranslated.Proofs.Scan.Decoded
import Untranslated.Proofs.Scan.Exact
import Untranslated.Proofs.Scan.Fidelity
import Untranslated.Proofs.Scan.Ignored
import Untranslated.Proofs.Scan.LineEndings
import Untranslated.Proofs.Scan.Masked
import Untranslated.Proofs.Scan.Narrowing
import Untranslated.Proofs.Scan.Order
import Untranslated.Proofs.Scan.Reports
import Untranslated.Proofs.Scan.Requests
import Untranslated.Proofs.Scan.Soup
import Untranslated.Proofs.Scan.Visible
import Untranslated.Proofs.Source.Coordinates
import Untranslated.Proofs.Source.Lines
import Untranslated.Proofs.Source.Queries
import Untranslated.Proofs.Source.Stripped
import Untranslated.Proofs.Text
import Untranslated.Proofs.Text.Case
import Untranslated.Proofs.Text.Styled
import Untranslated.Proofs.Walk
import Untranslated.Proofs.Walk.Preorder
import Untranslated.Report
import Untranslated.Rule
import Untranslated.Scan
import Untranslated.Source.Lines
import Untranslated.Source.Mask
import Untranslated.Text.Base64
import Untranslated.Text.Basic
import Untranslated.Text.Case
import Untranslated.Text.Digits
import Untranslated.Text.Escaped
import Untranslated.Text.Printable
import Untranslated.Text.Quoted
import Untranslated.Text.Space
import Untranslated.Text.Styled
import Untranslated.Text.Utf8
import Untranslated.Value
import Untranslated.Yaml.Document
import Untranslated.Yaml.Lexer
import Untranslated.Yaml.Node
import Untranslated.Yaml.NodeType
import Untranslated.Yaml.Scalar
import Untranslated.Yaml.Tag
import Untranslated.Yaml.Token
import Untranslated.Yaml.Typed
