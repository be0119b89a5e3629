import Trampoline.Association
import Trampoline.Text.Digits
import Trampoline.Value
import Trampoline.Failure
import Trampoline.Panic
import Trampoline.Connection
import Trampoline.Context
import Trampoline.CallStack
import Trampoline.Queue
import Trampoline.Effect
import Trampoline.Trace
import Trampoline.Code
import Trampoline.Machine
import Trampoline.Decimal.Shortest
import Trampoline.Decimal.Notation
import Trampoline.Text.Ranges
import Trampoline.Text.Unprintable
import Trampoline.Text.Alphanumeric
import Trampoline.Text.Quoted
import Trampoline.Describe
import Trampoline.Benchmark.Chain
import Trampoline.Scenario.Language
import Trampoline.Scenario.Session
import Trampoline.Scenario.Evaluation
import Trampoline.Scenario.Play
import Trampoline.Json.Basic
import Trampoline.Json.Token
import Trampoline.Json.Reader
import Trampoline.Value.Codec
import Trampoline.Text.Blank
import Trampoline.Text.Case
import Trampoline.Decimal.Reader
import Trampoline.Settings.Basic
import Trampoline.Toml.Basic
import Trampoline.Toml.Quoted.Writer
import Trampoline.Toml.Quoted.Reader
import Trampoline.Toml.Moment
import Trampoline.Toml.Scalar
import Trampoline.Toml.Line
import Trampoline.Toml.Tables
import Trampoline.Toml.Reader
import Trampoline.Settings.Tree
import Trampoline.Settings.Conversion
import Trampoline.Settings.Environment
import Trampoline.Settings.Load
import Trampoline.Toml.Writer
import Trampoline.Settings.Document
import Trampoline.Decimal.Fixed
import Trampoline.Benchmark.Params
import Trampoline.Benchmark.Run
import Trampoline.Benchmark.Report
import Trampoline.CommandLine.Arguments
import Trampoline.EnvironmentFile
import Trampoline.Log.Pattern.Basic
import Trampoline.Log.Pattern.Reader
import Trampoline.Log.Pattern.Fault
import Trampoline.Log.Filter
import Trampoline.CommandLine.Directory
import Trampoline.CommandLine.Plan
import Trampoline.CommandLine.Usage
import Trampoline.CommandLine.Execution
import Trampoline.Main
import Trampoline.Proofs.Machine.Activations
import Trampoline.Proofs.Machine.Bridges
import Trampoline.Proofs.Machine.Quiet
import Trampoline.Proofs.Machine.Completion
import Trampoline.Proofs.Machine.Place
import Trampoline.Proofs.Machine.Cancellation
import Trampoline.Proofs.Machine.Reachable
import Trampoline.Proofs.Machine.Locality
import Trampoline.Proofs.Machine.Unwinding
import Trampoline.Proofs.Machine.Containment
import Trampoline.Proofs.Run.Dialogue
import Trampoline.Proofs.Run.Reference
import Trampoline.Proofs.Run.Frames
import Trampoline.Proofs.Run.Story
import Trampoline.Proofs.Run.Serving
import Trampoline.Proofs.Run.Invariant
import Trampoline.Proofs.Run.Tracking
import Trampoline.Proofs.Run.Delivery
import Trampoline.Proofs.Run.Answers
import Trampoline.Proofs.Run.Agreement
import Trampoline.Proofs.Run.Hops
import Trampoline.Proofs.Run.Passing
import Trampoline.Proofs.Run.Transparency
import Trampoline.Proofs.Run.Leads
import Trampoline.Proofs.Run.Determinism
import Trampoline.Proofs.Run.Abandonment
import Trampoline.Proofs.Run.Regular
import Trampoline.Proofs.Run.Active
import Trampoline.Proofs.Run.Unwinding
import Trampoline.Proofs.Run.Containment
import Trampoline.Proofs.Run.Promptness
import Trampoline.Proofs.Run.Regions
import Trampoline.Proofs.Run.Atomicity
import Trampoline.Proofs.Run.Switches
import Trampoline.Proofs.Run.Standing
import Trampoline.Proofs.Run.Restoration
import Trampoline.Proofs.Run.Attachment
import Trampoline.Proofs.Run.Guarding
import Trampoline.Proofs.Run.Progress
import Trampoline.Proofs.Frames.Tally
import Trampoline.Proofs.Frames.Awaiting
import Trampoline.Proofs.Frames.Conservation
import Trampoline.Proofs.Frames.Names
import Trampoline.Proofs.Frames.Lifetimes
import Trampoline.Proofs.Frames.Depth
import Trampoline.Proofs.Frames.Contents
import Trampoline.Proofs.Threads.Places
import Trampoline.Proofs.Threads.Segments
import Trampoline.Proofs.Threads.Shifts
import Trampoline.Proofs.Threads.Placement
import Trampoline.Proofs.Partial.Layers
import Trampoline.Proofs.Partial.Prelude
import Trampoline.Proofs.Partial.Unhindered
import Trampoline.Proofs.Partial.Synchronous
import Trampoline.Proofs.Partial.Unfolding
import Trampoline.Proofs.Partial.Tandem
import Trampoline.Proofs.Partial.Composition
import Trampoline.Proofs.Partial.Stopping
import Trampoline.Proofs.Termination.WellFounded
import Trampoline.Proofs.Termination.Drivers
import Trampoline.Proofs.Termination.Segments
import Trampoline.Proofs.Laws.Alike
import Trampoline.Proofs.Laws.Composition
import Trampoline.Proofs.Laws.Steps
import Trampoline.Proofs.Laws.Stories
import Trampoline.Proofs.Laws.Turns
import Trampoline.Proofs.Laws.Rejoining
import Trampoline.Proofs.Laws.Equations
import Trampoline.Proofs.Tokens.Account
import Trampoline.Proofs.Tokens.Access
import Trampoline.Proofs.Tokens.Ledger
import Trampoline.Proofs.Tokens.Fates
import Trampoline.Proofs.Tokens.Losses
import Trampoline.Proofs.Contexts.Plain
import Trampoline.Proofs.Contexts.Assignments
import Trampoline.Proofs.Contexts.Steps
import Trampoline.Proofs.Contexts.Threads
import Trampoline.Proofs.Contexts.Diary
import Trampoline.Proofs.Contexts.Erasure
import Trampoline.Proofs.Contexts.Indifference
import Trampoline.Proofs.Parties.Holdings
import Trampoline.Proofs.Parties.Worlds
import Trampoline.Proofs.Parties.Others
import Trampoline.Proofs.Parties.SameStep
import Trampoline.Proofs.Parties.Borders
import Trampoline.Proofs.Parties.Alone
import Trampoline.Proofs.Parties.Stories
import Trampoline.Proofs.Parties.Independence
import Trampoline.Proofs.Recovery.Laws
import Trampoline.Proofs.Recovery.Steps
import Trampoline.Proofs.Recovery.Stories
import Trampoline.Proofs.Recovery.Rejoining
import Trampoline.Proofs.Recovery.Equations
import Trampoline.Proofs.Json.Tokens
import Trampoline.Proofs.Json.Documents
import Trampoline.Proofs.Values.Written
import Trampoline.Proofs.Values.Decoding
import Trampoline.Proofs.Settings.Layers
import Trampoline.Proofs.Settings.Precedence
import Trampoline.Proofs.Settings.Commands
import Trampoline.Proofs.Toml.Quoted
import Trampoline.Proofs.Toml.Values
import Trampoline.Proofs.Toml.Documents
import Trampoline.Proofs.Settings.Reloading
import Trampoline.Proofs.Chains.Floats
import Trampoline.Proofs.Chains.Points
import Trampoline.Proofs.Chains.Schemes
import Trampoline.Proofs.Chains.Counting
