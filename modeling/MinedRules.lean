import MinedRules.Text.Basic
import MinedRules.Text.Blank
import MinedRules.Text.Search
import MinedRules.Text.Ranges
import MinedRules.Text.Uppercase
import MinedRules.Text.Word
import MinedRules.Text.Printable
import MinedRules.Text.Quoted
import MinedRules.Text.Decode
import MinedRules.Text.Digits
import MinedRules.Text.Container
import MinedRules.Rule.Error
import MinedRules.Rule.Connectives
import MinedRules.Rule.Parens
import MinedRules.Rule.Variables
import MinedRules.Rule.Inverse
import MinedRules.Rule.Stripping
import MinedRules.Rule.Canonical
import MinedRules.Number.Binary64
import MinedRules.Number.Shortest
import MinedRules.Value.Basic
import MinedRules.Value.Render
import MinedRules.Literal.Numeral
import MinedRules.Literal.Quotation
import MinedRules.Literal.Reader
import MinedRules.Json.Tree
import MinedRules.Attempt.Basic
import MinedRules.Attempt.Decode
import MinedRules.Text.Lines
import MinedRules.Text.Sorted
import MinedRules.RuleSet.Basic
import MinedRules.Fact
import MinedRules.Dataset.Dictionary
import MinedRules.Dataset.Basic
import MinedRules.Toml.Table
import MinedRules.Toml.Quotation
import MinedRules.Toml.Scalar
import MinedRules.Toml.Reader
import MinedRules.Settings.Basic
import MinedRules.Disk.Path
import MinedRules.Disk.Basic
import MinedRules.Disk.Tree
import MinedRules.Disk.Change
import MinedRules.Failure
import MinedRules.RuleSet.Write
import MinedRules.Dataset.Write
import MinedRules.Settings.Load
import MinedRules.Attempt.Load
import MinedRules.Conversion
import MinedRules.Command.Line
import MinedRules.Command.Outcome
import MinedRules.Command.Rules
import MinedRules.Command.Dataset
import MinedRules.Main
import MinedRules.Proofs.Text.Uppercase
import MinedRules.Proofs.Text.Trimming
import MinedRules.Proofs.Text.Layers
import MinedRules.Proofs.Text.Occurrences
import MinedRules.Proofs.Text.Replacement
import MinedRules.Proofs.Text.Readers
import MinedRules.Proofs.Rule.Operators
import MinedRules.Proofs.Rule.Balance
import MinedRules.Proofs.Rule.Opened
import MinedRules.Proofs.Rule.Matching
import MinedRules.Proofs.Rule.Unmatched
import MinedRules.Proofs.Rule.Depth
import MinedRules.Proofs.Rule.Marking
import MinedRules.Proofs.Rule.Exchange
import MinedRules.Proofs.Rule.Stages
import MinedRules.Proofs.Rule.Printed
import MinedRules.Proofs.Rule.Translation
import MinedRules.Proofs.Rule.Conservation
import MinedRules.Proofs.Rule.EmptyBody
import MinedRules.Proofs.Rule.Dangling
import MinedRules.Proofs.Value.Entries
import MinedRules.Proofs.Value.Compact
import MinedRules.Proofs.Literal.Grammar
import MinedRules.Proofs.Literal.Items
import MinedRules.Proofs.Literal.Numerals
import MinedRules.Proofs.Literal.Strings
import MinedRules.Proofs.Literal.Decoding
import MinedRules.Proofs.Attempt.Agreement
import MinedRules.Proofs.Attempt.Records
import MinedRules.Proofs.Rule.Stripping
import MinedRules.Proofs.Rule.Ending
import MinedRules.Proofs.Rule.Nesting
import MinedRules.Proofs.RuleSet.Members
import MinedRules.Proofs.RuleSet.Runs
import MinedRules.Proofs.Attempt.Lines
import MinedRules.Proofs.Conversion.Reading
import MinedRules.Proofs.Conversion.Tally
import MinedRules.Proofs.Conversion.Image
import MinedRules.Proofs.Conversion.Faults
import MinedRules.Proofs.Disk.Parents
import MinedRules.Proofs.Disk.Growth
import MinedRules.Proofs.Disk.Replacement
import MinedRules.Proofs.RuleSet.Writing
import MinedRules.Proofs.Settings.Keys
import MinedRules.Proofs.Command.Rules
import MinedRules.Proofs.Dataset.Dictionary
import MinedRules.Proofs.Dataset.Reading
import MinedRules.Proofs.Text.Encoding
import MinedRules.Proofs.Dataset.Writing
import MinedRules.Proofs.Rule.Simultaneous
import MinedRules.Proofs.Rule.Resolution
import MinedRules.Proofs.Rule.Annotation
import MinedRules.Proofs.Literal.Spelling
import MinedRules.Proofs.Literal.Refusal
import MinedRules.Proofs.Text.Lines
import MinedRules.Proofs.Fact.Layout
import MinedRules.Proofs.Fact.Lines
import MinedRules.Proofs.Dataset.Runs
import MinedRules.Proofs.Text.CodePoints
import MinedRules.Proofs.RuleSet.Rendering
import MinedRules.Proofs.Rule.Surroundings
import MinedRules.Proofs.Dataset.Numbering
import MinedRules.Proofs.Text.Behind
import MinedRules.Proofs.Attempt.Surroundings
import MinedRules.Proofs.Text.Boundaries
import MinedRules.Proofs.Rule.Spans
