import SentenceEngine.Json.Loose
import SentenceEngine.Json.Reader
import SentenceEngine.Json.Printer
import SentenceEngine.Json.Decoding
import SentenceEngine.Condition.Basic
import SentenceEngine.Sentence
import SentenceEngine.Schema.Json
import SentenceEngine.Schema.Equality
import SentenceEngine.Validation.Pass
import SentenceEngine.Scripts.Payload
import SentenceEngine.Config.File
import SentenceEngine.Thread.State
import SentenceEngine.Engine.Step
import SentenceEngine.Scenario.Bench
import SentenceEngine.CommandLine.Folder
import SentenceEngine.Main
import SentenceEngine.Proofs.Remaining
import SentenceEngine.Proofs.Moves
import SentenceEngine.Proofs.Effects
import SentenceEngine.Proofs.Items
import SentenceEngine.Proofs.Steps
import SentenceEngine.Proofs.Retirement
import SentenceEngine.Proofs.Checking
import SentenceEngine.Proofs.Coverage
import SentenceEngine.Proofs.Fitting
import SentenceEngine.Proofs.Isolation
import SentenceEngine.Proofs.Points
import SentenceEngine.Proofs.Builtins
import SentenceEngine.Proofs.Deciding
import SentenceEngine.Proofs.Unfolding
import SentenceEngine.Proofs.Conditions
import SentenceEngine.Proofs.Plan
import SentenceEngine.Proofs.Scopes
import SentenceEngine.Proofs.Rearrangement
import SentenceEngine.Proofs.Succession
import SentenceEngine.Proofs.Destruction
import SentenceEngine.Proofs.Termination
import SentenceEngine.Proofs.Cursors
import SentenceEngine.Proofs.Custody
import SentenceEngine.Proofs.Tokens
import SentenceEngine.Proofs.Notifications
import SentenceEngine.Proofs.Lifecycle
import SentenceEngine.Proofs.Solitude
import SentenceEngine.Proofs.Shares
import SentenceEngine.Proofs.Schedules
import SentenceEngine.Proofs.Reentrance
import SentenceEngine.Proofs.Returns
import SentenceEngine.Proofs.Reading
import SentenceEngine.Proofs.Failures
import SentenceEngine.Proofs.Closing
import SentenceEngine.Proofs.Growth
import SentenceEngine.Proofs.Refusals
import SentenceEngine.Proofs.Variables
import SentenceEngine.Proofs.Beginnings
import SentenceEngine.Proofs.Separation
import SentenceEngine.Proofs.Bystanders
import SentenceEngine.Proofs.Audience
import SentenceEngine.Proofs.Nearest
import SentenceEngine.Proofs.Comparisons
import SentenceEngine.Proofs.Layers
import SentenceEngine.Proofs.Accounts
import SentenceEngine.Proofs.Sites
import SentenceEngine.Proofs.Faults
import SentenceEngine.Proofs.Grammar
import SentenceEngine.Proofs.Indiscernibility
import SentenceEngine.Proofs.RoundTrip
import SentenceEngine.Proofs.Calls
import SentenceEngine.Proofs.Descent
