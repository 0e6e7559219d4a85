import LayeredSettings.Config
import LayeredSettings.Decimal.Layout
import LayeredSettings.Decimal.Numeral
import LayeredSettings.Decimal.Shortest
import LayeredSettings.Diagnostic
import LayeredSettings.Document.Basic
import LayeredSettings.Document.Layer
import LayeredSettings.Fault
import LayeredSettings.FilePath
import LayeredSettings.FileStore
import LayeredSettings.Format
import LayeredSettings.Json.Printer
import LayeredSettings.Json.Reader
import LayeredSettings.Json.Token
import LayeredSettings.Json.Tree
import LayeredSettings.KeyMap
import LayeredSettings.Program.Basic
import LayeredSettings.Program.Command
import LayeredSettings.Program.Handles
import LayeredSettings.Program.Rounds
import LayeredSettings.Program.Watching
import LayeredSettings.Resolution
import LayeredSettings.Resolver
import LayeredSettings.Shape
import LayeredSettings.Targeting
import LayeredSettings.Text.Escape
import LayeredSettings.Text.Quoted
import LayeredSettings.Text.Shapeless
import LayeredSettings.Toml.Content
import LayeredSettings.Toml.Moment
import LayeredSettings.Toml.Statement
import LayeredSettings.Toml.Text
import LayeredSettings.Toml.Tree
import LayeredSettings.Toml.Word
import LayeredSettings.Update.Registry
import LayeredSettings.Update.Script
import LayeredSettings.Value.Basic
import LayeredSettings.Value.Json
import LayeredSettings.Watch
import LayeredSettings.Yaml.Content
import LayeredSettings.Yaml.Cursor
import LayeredSettings.Yaml.Document
import LayeredSettings.Yaml.Node
import LayeredSettings.Yaml.Scalar
import LayeredSettings.Yaml.Token
import LayeredSettings.Yaml.Token.Block
import LayeredSettings.Yaml.Token.Lexer
import LayeredSettings.Yaml.Token.Plain
import LayeredSettings.Yaml.Token.Property
import LayeredSettings.Yaml.Token.Quoted
import LayeredSettings.Proofs.Document.Fields
import LayeredSettings.Proofs.Document.Acceptance
import LayeredSettings.Proofs.Document.Faults
import LayeredSettings.Proofs.Document.Closed
import LayeredSettings.Proofs.Document.Canonical
import LayeredSettings.Proofs.Value.Conversion
import LayeredSettings.Proofs.Document.Rendering
import LayeredSettings.Proofs.Json.Lexeme
import LayeredSettings.Proofs.Json.Tokens
import LayeredSettings.Proofs.Json.Reading
import LayeredSettings.Proofs.Value.Text
import LayeredSettings.Proofs.Targeting.Paths
import LayeredSettings.Proofs.Resolution.LastWins
import LayeredSettings.Proofs.Program.Action
import LayeredSettings.Proofs.Program.Callbacks
import LayeredSettings.Proofs.Program.Counts
import LayeredSettings.Proofs.Program.Balance
import LayeredSettings.Proofs.Program.Conservation
import LayeredSettings.Proofs.Program.Sessions
import LayeredSettings.Proofs.Program.Steps
import LayeredSettings.Proofs.Program.Ledger
import LayeredSettings.Proofs.Program.Roster
import LayeredSettings.Proofs.Program.Lifecycle
import LayeredSettings.Proofs.Program.EventReload
import LayeredSettings.Proofs.Program.Frame
import LayeredSettings.Proofs.Program.Failures
import LayeredSettings.Proofs.Program.Journal
import LayeredSettings.Proofs.Program.Records
import LayeredSettings.Proofs.Program.WholeRounds
import LayeredSettings.Proofs.Program.Registries
import LayeredSettings.Proofs.Program.Offers
import LayeredSettings.Proofs.Program.Coherence
import LayeredSettings.Proofs.Decimal.Finite
import LayeredSettings.Proofs.Json.Builders
import LayeredSettings.Proofs.Json.Ordered
import LayeredSettings.Proofs.Program.TypedReads
import LayeredSettings.Proofs.Value.Canonical
import LayeredSettings.Proofs.Toml.Canonical
import LayeredSettings.Proofs.Yaml.Canonical
import LayeredSettings.Proofs.Targeting.Integers
import LayeredSettings.Proofs.Program.Interleaving
import LayeredSettings.Proofs.Program.ReloadOrder
import LayeredSettings.Proofs.Program.Process
import LayeredSettings.Proofs.Program.Operations
import LayeredSettings.Proofs.Program.Contract
import LayeredSettings.Proofs.Program.Compliance
import LayeredSettings.Proofs.Program.Pool
import LayeredSettings.Proofs.Program.RoundDocuments
import LayeredSettings.Proofs.Program.Cancellation
import LayeredSettings.Proofs.Program.Adherence
import LayeredSettings.Proofs.Program.Handles
import LayeredSettings.Proofs.Program.Sharing
import LayeredSettings.Proofs.Program.Separation
import LayeredSettings.Proofs.Program.Dropping
import LayeredSettings.Proofs.Program.Lifetime
import LayeredSettings.Proofs.Document.Offences
import LayeredSettings.Proofs.Document.Spelling
import LayeredSettings.Proofs.Targeting.Monotone
import LayeredSettings.Proofs.Targeting.Alternatives
import LayeredSettings.Proofs.Targeting.Roles
import LayeredSettings.Proofs.Resolution.Extensions
import LayeredSettings.Proofs.Resolution.Merging
import LayeredSettings.Proofs.Resolution.Relevance
import LayeredSettings.Proofs.Value.Shaped
import LayeredSettings.Proofs.Program.IntegerReads
import LayeredSettings.Proofs.Program.Matching
import LayeredSettings.Proofs.Program.Stopping
import LayeredSettings.Proofs.Program.LaterWatches
import LayeredSettings.Proofs.Program.LaterSteps
import LayeredSettings.Proofs.Program.Bootstrap
