import LanguageHost.Bridge
import LanguageHost.Config.Basic
import LanguageHost.Config.Decode
import LanguageHost.Config.Load
import LanguageHost.Config.Path
import LanguageHost.Decimal.Binary64
import LanguageHost.Decimal.Nearest
import LanguageHost.Decimal.Shortest
import LanguageHost.Dict
import LanguageHost.Duration
import LanguageHost.Engine.Basic
import LanguageHost.Engine.Child
import LanguageHost.Engine.Native
import LanguageHost.Engine.Step
import LanguageHost.Error
import LanguageHost.Host.Basic
import LanguageHost.Host.Script
import LanguageHost.Host.Session
import LanguageHost.Host.Step
import LanguageHost.Json.Reader
import LanguageHost.Json.Value
import LanguageHost.Json.Writer
import LanguageHost.Language
import LanguageHost.Lifecycle
import LanguageHost.Machine.Basic
import LanguageHost.Machine.Files
import LanguageHost.Machine.LineProgram
import LanguageHost.Main
import LanguageHost.Memory.Coordinator
import LanguageHost.Memory.Region
import LanguageHost.Metrics
import LanguageHost.Observability
import LanguageHost.Pattern.Basic
import LanguageHost.Pattern.Bracket
import LanguageHost.Pattern.Escape
import LanguageHost.Pattern.Flags
import LanguageHost.Pattern.Reader
import LanguageHost.Policy.Basic
import LanguageHost.Policy.Enforcer
import LanguageHost.Pool.Basic
import LanguageHost.Pool.Script
import LanguageHost.Pool.Session
import LanguageHost.Pool.Startup
import LanguageHost.Pool.Step
import LanguageHost.Profiler
import LanguageHost.Service
import LanguageHost.Text.Age
import LanguageHost.Text.Blank
import LanguageHost.Text.Category
import LanguageHost.Text.CodeRanges
import LanguageHost.Text.Folding
import LanguageHost.Text.Lowercase
import LanguageHost.Text.Printable
import LanguageHost.Text.Property
import LanguageHost.Text.Quoted
import LanguageHost.Text.Script
import LanguageHost.Text.Segment
import LanguageHost.Text.Utf8
import LanguageHost.Token
import LanguageHost.Toml.Reader
import LanguageHost.Toml.Scalar
import LanguageHost.Toml.Table
import LanguageHost.Word
import LanguageHost.Proofs.Runs
import LanguageHost.Proofs.Pool.Steps
import LanguageHost.Proofs.Keyed
import LanguageHost.Proofs.Pool.Start
import LanguageHost.Proofs.Pool.Tickets
import LanguageHost.Proofs.Pool.Slots
import LanguageHost.Proofs.Pool.Shutdown
import LanguageHost.Proofs.Pool.Outcome
import LanguageHost.Proofs.Pool.Jobs
import LanguageHost.Proofs.Pool.Turns
import LanguageHost.Memory.Users
import LanguageHost.Proofs.Memory.Operations
import LanguageHost.Proofs.Pattern.Search
import LanguageHost.Proofs.Pattern.Reading
import LanguageHost.Proofs.Policy.Decision
import LanguageHost.Proofs.Memory.Ledger
import LanguageHost.Proofs.Memory.Budget
import LanguageHost.Proofs.Memory.Counters
import LanguageHost.Proofs.Memory.Rules
import LanguageHost.Proofs.Lifecycle
import LanguageHost.Proofs.Engine.Pools
import LanguageHost.Proofs.Engine.Starts
import LanguageHost.Proofs.Engine.Reached
import LanguageHost.Proofs.Pool.Closed
import LanguageHost.Proofs.Pool.JobEvents
import LanguageHost.Proofs.Pool.Fates
import LanguageHost.Proofs.Pool.Replacement
import LanguageHost.Proofs.Pool.CallerSide
import LanguageHost.Proofs.Pool.Dropped
import LanguageHost.Proofs.Pool.Renumbered
import LanguageHost.Proofs.Pool.Skipped
import LanguageHost.Proofs.Pool.Unissued
import LanguageHost.Proofs.Pool.DroppedRun
import LanguageHost.Proofs.Engine.Contract
import LanguageHost.Proofs.Engine.Works
import LanguageHost.Proofs.Host.Starts
import LanguageHost.Proofs.Host.Tracked
import LanguageHost.Proofs.Host.Retry
import LanguageHost.Proofs.Host.Handing
import LanguageHost.Proofs.Host.Steps
import LanguageHost.Proofs.Host.Timing
import LanguageHost.Proofs.Host.Works
import LanguageHost.Proofs.Host.Cancelled
import LanguageHost.Proofs.Host.Summaries
import LanguageHost.Proofs.Host.Recording
import LanguageHost.Proofs.Host.Verdicts
import LanguageHost.Proofs.Host.Unguarded
import LanguageHost.Proofs.ByteOrder
import LanguageHost.Proofs.Config.Lowered
import LanguageHost.Proofs.Config.Names
import LanguageHost.Proofs.Config.Ordered
import LanguageHost.Proofs.Host.Edits
import LanguageHost.Proofs.Host.Orders
import LanguageHost.Proofs.Host.Replies
import LanguageHost.Proofs.Host.StartingInOrder
import LanguageHost.Proofs.Host.FailFast
import LanguageHost.Proofs.Host.Rounds
import LanguageHost.Proofs.Host.Stopped
import LanguageHost.Proofs.Host.BestEffort
import LanguageHost.Proofs.Host.OtherBridge
import LanguageHost.Proofs.Host.BridgeNames
import LanguageHost.Proofs.Engine.Tokens
import LanguageHost.Proofs.Host.OtherTokens
import LanguageHost.Proofs.Host.Forwarding
import LanguageHost.Proofs.Host.Beside
import LanguageHost.Proofs.Text.Printed
import LanguageHost.Proofs.Json.Scalars
import LanguageHost.Proofs.Json.RoundTrip
import LanguageHost.Proofs.Engine.Printed
import LanguageHost.Proofs.Host.Spawns
import LanguageHost.Proofs.Host.Seats
import LanguageHost.Proofs.Host.Printed
import LanguageHost.Proofs.Policy.Ranking
import LanguageHost.Proofs.Policy.Grants
import LanguageHost.Proofs.Pool.AllOrNothing
import LanguageHost.Proofs.Pool.ClosedForGood
import LanguageHost.Proofs.Memory.Refusals
import LanguageHost.Proofs.Memory.LargestLimit
import LanguageHost.Proofs.Memory.Contents
import LanguageHost.Proofs.Memory.Deeds
import LanguageHost.Proofs.Memory.Exchange
import LanguageHost.Proofs.Memory.Calls
import LanguageHost.Proofs.Memory.Independence
import LanguageHost.Proofs.Config.Enabling
import LanguageHost.Proofs.Config.Places
import LanguageHost.Proofs.Config.Fields
import LanguageHost.Proofs.Config.Layers
import LanguageHost.Proofs.CallPrograms
import LanguageHost.Proofs.Host.Books
import LanguageHost.Proofs.LifecycleHistory
import LanguageHost.Proofs.CallSummaries
import LanguageHost.Proofs.Pool.Uncancelled
import LanguageHost.Proofs.Host.PoolTurns
import LanguageHost.Proofs.Host.NativeCalls
import LanguageHost.Proofs.Host.Driven
import LanguageHost.Proofs.Service
