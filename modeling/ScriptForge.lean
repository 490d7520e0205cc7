import ScriptForge.Chat.Client
import ScriptForge.Chat.Completion
import ScriptForge.Chat.Config
import ScriptForge.Chat.Http
import ScriptForge.Chat.Overflow
import ScriptForge.Chat.Request
import ScriptForge.Chat.Retry
import ScriptForge.Cli.Arguments
import ScriptForge.Cli.Check
import ScriptForge.Cli.Dotenv
import ScriptForge.Cli.Failure
import ScriptForge.Cli.Folder
import ScriptForge.Cli.Host
import ScriptForge.Cli.Program
import ScriptForge.Cli.Run
import ScriptForge.Decimal.Natural
import ScriptForge.Decimal.Shortest
import ScriptForge.Digest.Blake3
import ScriptForge.Json.Basic
import ScriptForge.Json.Fields
import ScriptForge.Json.Reader
import ScriptForge.Json.Writer
import ScriptForge.Main
import ScriptForge.Pipeline.Budget
import ScriptForge.Pipeline.Channel
import ScriptForge.Pipeline.Config
import ScriptForge.Pipeline.Context
import ScriptForge.Pipeline.Directive
import ScriptForge.Pipeline.Error
import ScriptForge.Pipeline.Event
import ScriptForge.Pipeline.Ledger
import ScriptForge.Pipeline.Live
import ScriptForge.Pipeline.Record
import ScriptForge.Pipeline.Review
import ScriptForge.Pipeline.Run
import ScriptForge.Pipeline.RunM
import ScriptForge.Pipeline.Slot
import ScriptForge.Pipeline.StageSet
import ScriptForge.Pipeline.Stats
import ScriptForge.Pipeline.Trace
import ScriptForge.Pipeline.Usage
import ScriptForge.Prompt.Builtin
import ScriptForge.Prompt.Catalog
import ScriptForge.Prompt.DefaultCatalog
import ScriptForge.Prompt.Example
import ScriptForge.Prompt.Feedback
import ScriptForge.Prompt.Renderer
import ScriptForge.Prompt.ServiceName
import ScriptForge.Prompt.Source
import ScriptForge.Prompt.Stage
import ScriptForge.Proofs.Chat.Client
import ScriptForge.Proofs.Chat.Completion
import ScriptForge.Proofs.Chat.Retry
import ScriptForge.Proofs.Json.Fields
import ScriptForge.Proofs.Pipeline.Aborted
import ScriptForge.Proofs.Pipeline.Alike
import ScriptForge.Proofs.Pipeline.Alone
import ScriptForge.Proofs.Pipeline.Appended
import ScriptForge.Proofs.Pipeline.Budget
import ScriptForge.Proofs.Pipeline.CallOrder
import ScriptForge.Proofs.Pipeline.Candidate
import ScriptForge.Proofs.Pipeline.Concludes
import ScriptForge.Proofs.Pipeline.Contexts
import ScriptForge.Proofs.Pipeline.Course
import ScriptForge.Proofs.Pipeline.Directives
import ScriptForge.Proofs.Pipeline.EachCall
import ScriptForge.Proofs.Pipeline.Ends
import ScriptForge.Proofs.Pipeline.Events
import ScriptForge.Proofs.Pipeline.Executions
import ScriptForge.Proofs.Pipeline.Failure
import ScriptForge.Proofs.Pipeline.FirstFailure
import ScriptForge.Proofs.Pipeline.Forks
import ScriptForge.Proofs.Pipeline.Ledger
import ScriptForge.Proofs.Pipeline.Opening
import ScriptForge.Proofs.Pipeline.Protocol
import ScriptForge.Proofs.Pipeline.Reaches
import ScriptForge.Proofs.Pipeline.Retries
import ScriptForge.Proofs.Pipeline.RoundTrip
import ScriptForge.Proofs.Pipeline.Sees
import ScriptForge.Proofs.Pipeline.StageSet
import ScriptForge.Proofs.Pipeline.Statistics
import ScriptForge.Proofs.Pipeline.StatsFile
import ScriptForge.Proofs.Pipeline.Trace
import ScriptForge.Proofs.Pipeline.Verdicts
import ScriptForge.Proofs.Pipeline.Writes
import ScriptForge.Proofs.Prompt.Assembly
import ScriptForge.Proofs.Prompt.DefaultCatalog
import ScriptForge.Proofs.Prompt.Generation
import ScriptForge.Proofs.Prompt.Inputs
import ScriptForge.Proofs.Prompt.ServiceName
import ScriptForge.Proofs.Quality.Agreement
import ScriptForge.Proofs.Quality.Analysis
import ScriptForge.Proofs.Quality.Citations
import ScriptForge.Proofs.Quality.CodeBehind
import ScriptForge.Proofs.Quality.CommentLines
import ScriptForge.Proofs.Quality.Comments
import ScriptForge.Proofs.Quality.DataFlow
import ScriptForge.Proofs.Quality.DeclaredNames
import ScriptForge.Proofs.Quality.Headers
import ScriptForge.Proofs.Quality.Layout
import ScriptForge.Proofs.Quality.Matches
import ScriptForge.Proofs.Quality.Naming
import ScriptForge.Proofs.Quality.Patterns
import ScriptForge.Proofs.Quality.RoundTrip
import ScriptForge.Proofs.Quality.Scans
import ScriptForge.Proofs.Quality.StrayText
import ScriptForge.Proofs.Quality.Suggestions
import ScriptForge.Proofs.Quality.Unterminated
import ScriptForge.Proofs.Script.Attempts
import ScriptForge.Proofs.Script.Bodies
import ScriptForge.Proofs.Script.Calls
import ScriptForge.Proofs.Script.Expressions
import ScriptForge.Proofs.Script.Gaps
import ScriptForge.Proofs.Script.Kinds
import ScriptForge.Proofs.Script.Mappings
import ScriptForge.Proofs.Script.Marks
import ScriptForge.Proofs.Script.NameAttempts
import ScriptForge.Proofs.Script.Occurrences
import ScriptForge.Proofs.Script.Outlines
import ScriptForge.Proofs.Script.Parses
import ScriptForge.Proofs.Script.Pieces
import ScriptForge.Proofs.Script.Positions
import ScriptForge.Proofs.Script.Releases
import ScriptForge.Proofs.Script.Renaming
import ScriptForge.Proofs.Script.Renders
import ScriptForge.Proofs.Script.RoundTrip
import ScriptForge.Proofs.Script.Shapes
import ScriptForge.Proofs.Script.Spans
import ScriptForge.Proofs.Script.StatementAttempts
import ScriptForge.Proofs.Script.Statements
import ScriptForge.Proofs.Script.Takes
import ScriptForge.Proofs.Script.Tokens
import ScriptForge.Proofs.Script.ValueAttempts
import ScriptForge.Proofs.Script.Values
import ScriptForge.Proofs.Script.Visits
import ScriptForge.Proofs.Template.Sections
import ScriptForge.Proofs.Text.Collapse
import ScriptForge.Proofs.Text.Lines
import ScriptForge.Proofs.Text.Search
import ScriptForge.Proofs.Text.Trim
import ScriptForge.Quality.Analysis
import ScriptForge.Quality.Finding
import ScriptForge.Quality.Naming
import ScriptForge.Quality.TextCheck
import ScriptForge.Quality.Validator
import ScriptForge.Script.Basic
import ScriptForge.Script.Grammar
import ScriptForge.Script.Json
import ScriptForge.Script.Parse
import ScriptForge.Script.Phrase
import ScriptForge.Script.Rule
import ScriptForge.Script.Token
import ScriptForge.Script.Walk
import ScriptForge.Template.Basic
import ScriptForge.Template.Parse
import ScriptForge.Template.Render
import ScriptForge.Template.Tag
import ScriptForge.Template.Token
import ScriptForge.Text.Blank
import ScriptForge.Text.Letter
import ScriptForge.Text.Search
import ScriptForge.Text.WordChar
import ScriptForge.Yaml.Basic
import ScriptForge.Yaml.Fields
import ScriptForge.Yaml.Reader
import ScriptForge.Yaml.Scalar
