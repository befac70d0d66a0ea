import Redex.Batch
import Redex.Bench
import Redex.Code
import Redex.Command
import Redex.Command.Flag
import Redex.Config
import Redex.Config.Document
import Redex.Config.Load
import Redex.Files
import Redex.Golden
import Redex.Judgement
import Redex.Main
import Redex.Mode
import Redex.Phrase
import Redex.Pipeline
import Redex.Proofs.Nameless
import Redex.Proofs.Nameless.Form
import Redex.Proofs.Nameless.Reduction
import Redex.Proofs.Phrase.RoundTrip
import Redex.Proofs.Phrase.Spelling
import Redex.Proofs.Reducer.NameClash
import Redex.Proofs.Reducer.NormalForm
import Redex.Proofs.Reduction.Simulation
import Redex.Proofs.Reduction.Substitution
import Redex.Proofs.Reduction.Supply
import Redex.Proofs.Term.Names
import Redex.Proofs.Token.Scanning
import Redex.Reducer
import Redex.Reduction.Normalization
import Redex.Reduction.Progress
import Redex.Reduction.Substitution
import Redex.Reduction.Supply
import Redex.Session
import Redex.Settings.Cursor
import Redex.Settings.Lexeme
import Redex.Settings.Lexeme.Lexer
import Redex.Settings.Lexeme.Property
import Redex.Settings.Lexeme.Scalar
import Redex.Settings.Malformed
import Redex.Settings.Node
import Redex.Settings.Node.Parser
import Redex.Settings.Timestamp
import Redex.Settings.Value
import Redex.Term
import Redex.Term.Alpha
import Redex.Term.Parser
import Redex.Text.Base64
import Redex.Text.Binary64
import Redex.Text.Class
import Redex.Text.Duration
import Redex.Text.Lines
import Redex.Text.Numeral
import Redex.Text.Quoted
import Redex.Text.Ranges
import Redex.Text.Utf8
import Redex.Token
import Redex.Token.Extent
import Redex.Token.Lexer
import Redex.Ty
import Redex.Ty.Parser
import Redex.Proofs.Token.Cuts
import Redex.Proofs.Ty.Grammar
import Redex.Proofs.Term.Grammar
import Redex.Proofs.Phrase.Reading
import Redex.Proofs.Pipeline.Rereading
import Redex.Proofs.Batch.Pool
import Redex.Proofs.Batch.Schedules
import Redex.Proofs.Nameless.Strategy
import Redex.Proofs.Reducer.Completeness
import Redex.Proofs.Reduction.Course
import Redex.Proofs.Reduction.Ceiling
import Redex.Proofs.Reducer.Threshold
import Redex.Proofs.Reducer.FreshNames
import Redex.Proofs.Reduction.Labels
import Redex.Proofs.Phrase.Reduced
import Redex.Proofs.Pipeline.Stability
import Redex.Proofs.Reduction.Rules
import Redex.Proofs.Term.Alpha
import Redex.Proofs.Reducer.Annotations
import Redex.Proofs.Reducer.TraceBuffer
import Redex.Proofs.Reducer.Registers
import Redex.Proofs.Reducer.History
import Redex.Proofs.Term.Hats
import Redex.Proofs.Token.Steps
import Redex.Proofs.Token.Joining
import Redex.Proofs.Judgement.Grammar
import Redex.Proofs.Token.Layout
import Redex.Proofs.Judgement.Naming
import Redex.Proofs.Token.Culprits
import Redex.Proofs.Token.Markers
import Redex.Proofs.Term.FreeNames
import Redex.Proofs.Nameless.Numerals
import Redex.Proofs.Golden.Texts
import Redex.Proofs.Golden.Arithmetic
import Redex.Proofs.Text.Buffer
import Redex.Proofs.Text.Endings
import Redex.Proofs.Bench.Runs
import Redex.Proofs.Session.Console
import Redex.Proofs.Session.Transcript
import Redex.Proofs.Token.Positions
import Redex.Proofs.Phrase.Indexing
import Redex.Proofs.Reduction.Search
