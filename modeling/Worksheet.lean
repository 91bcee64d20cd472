import Worksheet.Address.Basic
import Worksheet.Address.Column
import Worksheet.Address.Error
import Worksheet.Aggregation
import Worksheet.Command.Arguments
import Worksheet.Command.Inspect
import Worksheet.Command.Output
import Worksheet.Command.Report
import Worksheet.Command.Request
import Worksheet.Command.Run
import Worksheet.Decimal.Binary
import Worksheet.Decimal.Digits
import Worksheet.Decimal.Fixed
import Worksheet.Decimal.Layout
import Worksheet.Decimal.Reading
import Worksheet.Decimal.Shortest
import Worksheet.Delimited.Decoding
import Worksheet.Delimited.Dialect
import Worksheet.Delimited.Layout
import Worksheet.Delimited.Record
import Worksheet.Display
import Worksheet.Evaluation.Basic
import Worksheet.Evaluation.Cell
import Worksheet.Formula.Aggregate
import Worksheet.Formula.Basic
import Worksheet.Formula.Error
import Worksheet.Formula.Expression
import Worksheet.Formula.Lexeme
import Worksheet.Formula.Token
import Worksheet.Json
import Worksheet.Main
import Worksheet.Proofs.Attempt
import Worksheet.Proofs.Address.RoundTrip
import Worksheet.Proofs.Formula.Grammar
import Worksheet.Proofs.Formula.Reading
import Worksheet.Proofs.Range.Order
import Worksheet.Range.Basic
import Worksheet.Range.Walk
import Worksheet.Recalculation
import Worksheet.Reference.Scan
import Worksheet.Reference.Shift
import Worksheet.Sheet.Basic
import Worksheet.Sheet.Error
import Worksheet.Sheet.File
import Worksheet.Snapshot.Basic
import Worksheet.Snapshot.Numeral
import Worksheet.Storage.Basic
import Worksheet.Storage.Folder
import Worksheet.Storage.Path
import Worksheet.Table.Basic
import Worksheet.Table.Content
import Worksheet.Table.View
import Worksheet.Text.Alphabetic
import Worksheet.Text.Blank
import Worksheet.Text.CodeRanges
import Worksheet.Text.Piece
import Worksheet.Text.Utf8
import Worksheet.Text.Word
import Worksheet.Proofs.Evaluation.Meaning
import Worksheet.Proofs.Evaluation.Dependency
import Worksheet.Proofs.Evaluation.Uncached
import Worksheet.Proofs.Evaluation.Cache
import Worksheet.Proofs.Evaluation.Agreement
import Worksheet.Proofs.Evaluation.Cycle
import Worksheet.Proofs.Snapshot.Walk
import Worksheet.Proofs.Snapshot.Extraction
import Worksheet.Proofs.Recalculation
import Worksheet.Proofs.Text.Pieces
import Worksheet.Proofs.Formula.Scanning
import Worksheet.Proofs.Formula.Spelling
import Worksheet.Proofs.Formula.Congruence
import Worksheet.Proofs.Evaluation.Simulation
import Worksheet.Proofs.Reference.Words
import Worksheet.Proofs.Reference.Lexemes
import Worksheet.Proofs.Reference.Tokens
import Worksheet.Proofs.Snapshot.Gap
import Worksheet.Proofs.Evaluation.Insertion
import Worksheet.Proofs.Recalculation.Completeness
import Worksheet.Proofs.Recalculation.Totals
import Worksheet.Proofs.Reference.Landing
import Worksheet.Proofs.Reference.Parsing
import Worksheet.Proofs.Delimited.RoundTrip
import Worksheet.Proofs.Sheet.RoundTrip
import Worksheet.Proofs.Evaluation.Locality
import Worksheet.Proofs.Evaluation.Replacement
import Worksheet.Proofs.Recalculation.Repetition
import Worksheet.Proofs.Formula.Lexicon
import Worksheet.Proofs.Reference.Mentions
import Worksheet.Proofs.Reference.Listing
import Worksheet.Proofs.Evaluation.Calls
import Worksheet.Proofs.Formula.Trees
import Worksheet.Proofs.Evaluation.OnePass
import Worksheet.Proofs.Evaluation.BottomUp
import Worksheet.Proofs.Display
import Worksheet.Proofs.Sheet.Values
import Worksheet.Proofs.Storage.Folder
import Worksheet.Proofs.Command.Values
import Worksheet.Proofs.Evaluation.Contents
import Worksheet.Proofs.Evaluation.Limits
import Worksheet.Proofs.Decimal.Rounding
import Worksheet.Proofs.Decimal.Nearness
import Worksheet.Proofs.Decimal.Written
import Worksheet.Proofs.Display.Accuracy
import Worksheet.Proofs.Display.ReadBack
import Worksheet.Proofs.Decimal.Opposite
import Worksheet.Proofs.Decimal.Digits
import Worksheet.Proofs.Display.Form
import Worksheet.Proofs.Address.Reading
import Worksheet.Proofs.Address.Codec
import Worksheet.Proofs.Machine.Word
import Worksheet.Proofs.Machine.Address
import Worksheet.Proofs.Machine.Range
import Worksheet.Proofs.Machine.Shift
import Worksheet.Proofs.Range.Parsing
import Worksheet.Proofs.Range.Walk
import Worksheet.Proofs.Range.Enumeration
import Worksheet.Proofs.Text.Pattern
import Worksheet.Proofs.Reference.Search
import Worksheet.Proofs.Text.Groups
import Worksheet.Proofs.Reference.Extraction
import Worksheet.Proofs.Reference.Composition
import Worksheet.Proofs.Snapshot.Capture
import Worksheet.Proofs.Decimal.Notation
import Worksheet.Proofs.Snapshot.Numeral
import Worksheet.Proofs.Evaluation.Absence
import Worksheet.Proofs.Formula.Parentheses
import Worksheet.Proofs.Evaluation.Parentheses
