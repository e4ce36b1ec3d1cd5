import TemplateBinding.Text.Letter
import TemplateBinding.Text.Blank
import TemplateBinding.Text.Case
import TemplateBinding.Text.Quoted
import TemplateBinding.Text.Search
import TemplateBinding.Number.Power
import TemplateBinding.Number.Round
import TemplateBinding.Number.Digits
import TemplateBinding.Number.Binary
import TemplateBinding.Number.Word
import TemplateBinding.Number.Shortest
import TemplateBinding.Number.Numeral
import TemplateBinding.Number.Written
import TemplateBinding.Number.Decimal
import TemplateBinding.Entries
import TemplateBinding.Operator
import TemplateBinding.Value
import TemplateBinding.Value.Conversion
import TemplateBinding.Value.Member
import TemplateBinding.Value.Equality
import TemplateBinding.Value.Operation
import TemplateBinding.Value.Method
import TemplateBinding.Json
import TemplateBinding.Json.Printer
import TemplateBinding.Json.Reader
import TemplateBinding.Value.Json
import TemplateBinding.Limits
import TemplateBinding.Token
import TemplateBinding.Fault
import TemplateBinding.Source.Cursor
import TemplateBinding.Source.Path
import TemplateBinding.Source.Literal
import TemplateBinding.Source.Lexeme
import TemplateBinding.Source.Arrangement
import TemplateBinding.Tree
import TemplateBinding.Tree.Fragment
import TemplateBinding.Tree.Evaluation
import TemplateBinding.Expression
import TemplateBinding.Cache
import TemplateBinding.Report
import TemplateBinding.CommandLine
import TemplateBinding.Main
import TemplateBinding.Proofs.Outcome
import TemplateBinding.Proofs.Text.Parts
import TemplateBinding.Proofs.Source.Path
import TemplateBinding.Proofs.Postfix.Construct
import TemplateBinding.Proofs.Postfix.Fold
import TemplateBinding.Proofs.Postfix.Lexeme
import TemplateBinding.Proofs.Postfix.Arrangement
import TemplateBinding.Proofs.Postfix.Arity
import TemplateBinding.Proofs.Postfix.Acceptance
import TemplateBinding.Proofs.Grammar.Phrase
import TemplateBinding.Proofs.Grammar.Spacing
import TemplateBinding.Proofs.Number.Reading
import TemplateBinding.Proofs.Grammar.Reading
import TemplateBinding.Proofs.Grammar.Words
import TemplateBinding.Proofs.Grammar.Climbing
import TemplateBinding.Proofs.Grammar.Steps
import TemplateBinding.Proofs.Grammar.Parsing
import TemplateBinding.Proofs.Tree.Calls
import TemplateBinding.Proofs.Watch.Uses
import TemplateBinding.Proofs.Watch.Order
import TemplateBinding.Proofs.Watch.Naming
import TemplateBinding.Proofs.Watch.Soundness
import TemplateBinding.Proofs.Merging
import TemplateBinding.Proofs.Postfix.Eager
import TemplateBinding.Proofs.Postfix.Readability
import TemplateBinding.Proofs.Postfix.Refusal
import TemplateBinding.Proofs.Grammar.Framing
import TemplateBinding.Proofs.Grammar.Nesting
import TemplateBinding.Proofs.Grammar.Composition
import TemplateBinding.Proofs.Tree.CallOrder
import TemplateBinding.Proofs.Cache.Log
import TemplateBinding.Proofs.Cache.Transparency
import TemplateBinding.Proofs.Cache.Identity
import TemplateBinding.Proofs.Cache.OneTime
import TemplateBinding.Proofs.Limits.Loosening
import TemplateBinding.Proofs.Limits.Height
import TemplateBinding.Proofs.Source.Position
import TemplateBinding.Proofs.Source.Progress
import TemplateBinding.Proofs.Grammar.Misfits
import TemplateBinding.Proofs.Grammar.Gaps
import TemplateBinding.Proofs.Grammar.Spelling
import TemplateBinding.Proofs.Value.Exactness
import TemplateBinding.Proofs.Number.Rounding
import TemplateBinding.Proofs.Value.Equality
import TemplateBinding.Proofs.Number.Decimal
import TemplateBinding.Proofs.Value.Mixed
import TemplateBinding.Proofs.Value.Powers
import TemplateBinding.Proofs.Value.Transitivity
import TemplateBinding.Proofs.Number.Line
import TemplateBinding.Proofs.Value.Comparison
import TemplateBinding.Proofs.Value.Looseness
import TemplateBinding.Proofs.Value.Conversion
import TemplateBinding.Proofs.Number.Nearest
import TemplateBinding.Proofs.Number.Shortest
import TemplateBinding.Proofs.Number.Spelling
import TemplateBinding.Proofs.Value.RoundTrip
import TemplateBinding.Proofs.Number.Sizes
import TemplateBinding.Proofs.Value.Searching
import TemplateBinding.Proofs.Value.Slicing
import TemplateBinding.Proofs.Text.Occurrences
import TemplateBinding.Proofs.Value.Splitting
import TemplateBinding.Proofs.Number.Retaining
import TemplateBinding.Proofs.Number.Places
import TemplateBinding.Proofs.Value.Fixed
import TemplateBinding.Proofs.Value.Documents
import TemplateBinding.Proofs.Value.Commutation
import TemplateBinding.Proofs.Value.Characters
import TemplateBinding.Proofs.Tree.Keys
