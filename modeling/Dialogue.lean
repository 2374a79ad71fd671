import Dialogue.Cells
import Dialogue.Cells.Cursor
import Dialogue.Cells.Slot
import Dialogue.Command
import Dialogue.Command.Arguments
import Dialogue.Command.Failure
import Dialogue.Command.Run
import Dialogue.Console
import Dialogue.Conversation
import Dialogue.Datum
import Dialogue.Main
import Dialogue.Pattern
import Dialogue.Proofs.Alike
import Dialogue.Proofs.CapitalReading
import Dialogue.Proofs.CapitalTable
import Dialogue.Proofs.CapitalTurn
import Dialogue.Proofs.Capitals
import Dialogue.Proofs.CaseBlind
import Dialogue.Proofs.Clauses
import Dialogue.Proofs.Contents
import Dialogue.Proofs.Counter
import Dialogue.Proofs.Decomposition
import Dialogue.Proofs.Edits
import Dialogue.Proofs.Evaluator
import Dialogue.Proofs.Excerpts
import Dialogue.Proofs.Exchanges
import Dialogue.Proofs.Expansion
import Dialogue.Proofs.FlatRules
import Dialogue.Proofs.Grammar
import Dialogue.Proofs.Greed
import Dialogue.Proofs.Hashes
import Dialogue.Proofs.Heads
import Dialogue.Proofs.Insertions
import Dialogue.Proofs.Letters
import Dialogue.Proofs.Lexicon
import Dialogue.Proofs.LineEnds
import Dialogue.Proofs.Links
import Dialogue.Proofs.Lists
import Dialogue.Proofs.Loading
import Dialogue.Proofs.Marks
import Dialogue.Proofs.Memories
import Dialogue.Proofs.Order
import Dialogue.Proofs.Printing
import Dialogue.Proofs.Progress
import Dialogue.Proofs.Replies
import Dialogue.Proofs.Rotation
import Dialogue.Proofs.Safety
import Dialogue.Proofs.Scan
import Dialogue.Proofs.Scratch
import Dialogue.Proofs.Separators
import Dialogue.Proofs.Slices
import Dialogue.Proofs.Spans
import Dialogue.Proofs.Staleness
import Dialogue.Proofs.Step
import Dialogue.Proofs.Summaries
import Dialogue.Proofs.Table
import Dialogue.Proofs.Tapes
import Dialogue.Proofs.Terminator
import Dialogue.Proofs.Tokens
import Dialogue.Proofs.Turn
import Dialogue.Proofs.Walks
import Dialogue.Proofs.Writing
import Dialogue.Rule
import Dialogue.Rule.Reading
import Dialogue.Script
import Dialogue.Script.Catalogue
import Dialogue.Script.Doctor
import Dialogue.Script.Summary
import Dialogue.Sentence
import Dialogue.Session
import Dialogue.Session.Scan
import Dialogue.Session.Transition
import Dialogue.Session.Turn
import Dialogue.Settings
import Dialogue.Settings.Reading
import Dialogue.Source.Excerpt
import Dialogue.Source.Fault
import Dialogue.Source.Reader
import Dialogue.Source.Token
import Dialogue.Table
import Dialogue.Template
import Dialogue.Text.Blank
import Dialogue.Text.Json
import Dialogue.Text.Lines
import Dialogue.Text.Printable
import Dialogue.Text.Quoted
import Dialogue.Text.Span
import Dialogue.Text.Upper
import Dialogue.Text.UpperTable
import Dialogue.Transcript
import Dialogue.Word
import Dialogue.Word.Hash
import Dialogue.Yaml
import Dialogue.Yaml.Node
import Dialogue.Yaml.Place
import Dialogue.Yaml.Scalar
import Dialogue.Yaml.Scalar.Block
import Dialogue.Yaml.Token
import Dialogue.Yaml.Token.Lexer
