import TaskNetwork.Baxter.Basic
import TaskNetwork.Baxter.Domain
import TaskNetwork.Baxter.Problem
import TaskNetwork.Blocks.Basic
import TaskNetwork.Blocks.Domain
import TaskNetwork.Blocks.Problem
import TaskNetwork.CommandLine.Answer
import TaskNetwork.CommandLine.Options
import TaskNetwork.ContentHash.Basic
import TaskNetwork.ContentHash.Sha256
import TaskNetwork.Domain
import TaskNetwork.Json.Basic
import TaskNetwork.Json.Document
import TaskNetwork.Json.Number
import TaskNetwork.Json.Reader
import TaskNetwork.Json.Schema
import TaskNetwork.Json.Token
import TaskNetwork.Main
import TaskNetwork.OrderedMap.Basic
import TaskNetwork.OrderedMap.Lemmas
import TaskNetwork.Planner
import TaskNetwork.Policy
import TaskNetwork.Problem
import TaskNetwork.Proofs.Baxter.Invariant
import TaskNetwork.Proofs.Baxter.Matching
import TaskNetwork.Proofs.Baxter.Solvability
import TaskNetwork.Proofs.Baxter.Strategy
import TaskNetwork.Proofs.Blocks.Acceptance
import TaskNetwork.Proofs.Blocks.Done
import TaskNetwork.Proofs.Blocks.Facts
import TaskNetwork.Proofs.Blocks.Invariant
import TaskNetwork.Proofs.Blocks.Inversion
import TaskNetwork.Proofs.Blocks.Matching
import TaskNetwork.Proofs.Blocks.MergedGoal
import TaskNetwork.Proofs.Blocks.Progress
import TaskNetwork.Proofs.Blocks.Solvability
import TaskNetwork.Proofs.Blocks.Strategy
import TaskNetwork.Proofs.Blocks.Towers
import TaskNetwork.Proofs.ContentHash
import TaskNetwork.Proofs.Domain.Batches
import TaskNetwork.Proofs.Domain.Declarations
import TaskNetwork.Proofs.Except
import TaskNetwork.Proofs.Json.Documents
import TaskNetwork.Proofs.Json.Extension
import TaskNetwork.Proofs.Json.Reading
import TaskNetwork.Proofs.Json.Records
import TaskNetwork.Proofs.Json.Scanning
import TaskNetwork.Proofs.Json.Shapes
import TaskNetwork.Proofs.Matching
import TaskNetwork.Proofs.PlanRecords
import TaskNetwork.Proofs.Renaming
import TaskNetwork.Proofs.Report.Agreement
import TaskNetwork.Proofs.Report.Exact
import TaskNetwork.Proofs.Report.Interrupted
import TaskNetwork.Proofs.Report.Read
import TaskNetwork.Proofs.Report.RoundTrip
import TaskNetwork.Proofs.Report.Sound
import TaskNetwork.Proofs.Reversal
import TaskNetwork.Proofs.Runner
import TaskNetwork.Proofs.Search.Completeness
import TaskNetwork.Proofs.Search.Counts
import TaskNetwork.Proofs.Search.Course
import TaskNetwork.Proofs.Search.Deepening
import TaskNetwork.Proofs.Search.DepthBound
import TaskNetwork.Proofs.Search.Exhaustion
import TaskNetwork.Proofs.Search.Extension
import TaskNetwork.Proofs.Search.Forests
import TaskNetwork.Proofs.Search.Isolation
import TaskNetwork.Proofs.Search.Linear
import TaskNetwork.Proofs.Search.Matching
import TaskNetwork.Proofs.Search.Replanning
import TaskNetwork.Proofs.Search.Replay
import TaskNetwork.Proofs.Search.Rounds
import TaskNetwork.Proofs.Search.Seek
import TaskNetwork.Proofs.Search.Standing
import TaskNetwork.Proofs.Storage.Flat
import TaskNetwork.Proofs.Storage.MakeDirectory
import TaskNetwork.Proofs.Storage.Outside
import TaskNetwork.Proofs.Storage.Route
import TaskNetwork.Proofs.Text
import TaskNetwork.Replay
import TaskNetwork.Report.Basic
import TaskNetwork.Report.Directory
import TaskNetwork.Report.Interrupted
import TaskNetwork.Report.Verification
import TaskNetwork.Runner
import TaskNetwork.Scripted
import TaskNetwork.Search.Basic
import TaskNetwork.Search.Course
import TaskNetwork.Search.Derivation
import TaskNetwork.Storage.Entry
import TaskNetwork.Storage.Path
import TaskNetwork.Storage.Tree
import TaskNetwork.Task
import TaskNetwork.Text.Basic
import TaskNetwork.Text.Quoted
import TaskNetwork.Trace.Basic
import TaskNetwork.Trace.Document
import TaskNetwork.Travel
