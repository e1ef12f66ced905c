import Highlighter.Main
import Highlighter.Pattern.Search.First
import Highlighter.Span.WellFormed
import Highlighter.Proofs.Pattern.Onward
import Highlighter.Proofs.Pattern.Outcomes
import Highlighter.Proofs.Pattern.Taken
import Highlighter.Proofs.Scan.Fresh
import Highlighter.Proofs.Scan.Tracking
import Highlighter.Proofs.Scan.Refinement
import Highlighter.Proofs.Scan.WellFormed
import Highlighter.Proofs.Pattern.Edges
import Highlighter.Proofs.Scan.Erasure
import Highlighter.Proofs.Variant.Patterns
import Highlighter.Proofs.Variant.Rules
import Highlighter.Proofs.Scan.Token
import Highlighter.Proofs.Variant.Agreement
import Highlighter.Proofs.Pattern.Cut
import Highlighter.Proofs.Pattern.WordEdge
import Highlighter.Proofs.Scan.Alone
import Highlighter.Proofs.Variant.Reclassify
import Highlighter.Proofs.Text.Slices
import Highlighter.Proofs.Scan.Gaps
import Highlighter.Proofs.Span.Fitting
import Highlighter.Proofs.Span.Tiling
import Highlighter.Proofs.Markup.Pieces
import Highlighter.Proofs.Markup.Reading
import Highlighter.Proofs.Scan.Nesting
import Highlighter.Proofs.Pattern.Runs
import Highlighter.Proofs.Scan.Beginning
import Highlighter.Proofs.Variant.Grammar
import Highlighter.Proofs.Unicode.Ranges
import Highlighter.Proofs.Variant.Comments
import Highlighter.Proofs.Variant.Strings
import Highlighter.Proofs.Json.Reader
import Highlighter.Proofs.Json.Reading
import Highlighter.Proofs.Yaml.Quoting
import Highlighter.Proofs.Yaml.Scalars
import Highlighter.Proofs.Yaml.Records
import Highlighter.Proofs.Fallible
import Highlighter.Proofs.Text.Escapes
import Highlighter.Proofs.Text.Quoted
import Highlighter.Proofs.Span.Preorder
import Highlighter.Proofs.Tree.Lines
import Highlighter.Proofs.Settings.Overrides
import Highlighter.Proofs.Text.ByteOrder
import Highlighter.Proofs.Format.Registry
import Highlighter.Proofs.CommandLine.Highlight
import Highlighter.Proofs.Pattern.Congruence
import Highlighter.Proofs.Pattern.Reaches
import Highlighter.Proofs.Pattern.Groups
import Highlighter.Proofs.Pattern.Through
import Highlighter.Proofs.Scan.Alike
import Highlighter.Proofs.Scan.Delimited
import Highlighter.Proofs.Scan.Earliest
import Highlighter.Proofs.Scan.Choice
import Highlighter.Proofs.Pattern.Lexers
import Highlighter.Proofs.Pattern.Language
import Highlighter.Proofs.Variant.Tokens
import Highlighter.Proofs.Variant.Words
import Highlighter.Proofs.Variant.Numbers
import Highlighter.Proofs.Variant.Operators
import Highlighter.Proofs.Variant.ClassNames
import Highlighter.Proofs.Variant.Introducers
import Highlighter.Proofs.Variant.Separators
import Highlighter.Proofs.Variant.LineBreaks
import Highlighter.Proofs.Table.Compile
import Highlighter.Proofs.Table.Grouping
import Highlighter.Proofs.Settings.Documents
import Highlighter.Proofs.Settings.Layers
import Highlighter.Proofs.Scan.Memory
import Highlighter.Proofs.Scan.Progress
import Highlighter.Proofs.Span.Laminar
