import KonohaRuntime.Effects.Prog
import KonohaRuntime.Effects.Interleave
import KonohaRuntime.Effects.Fallible
import KonohaRuntime.Effects.Schedule
import KonohaRuntime.Effects.Deliver
import KonohaRuntime.Base.Text
import KonohaRuntime.Base.Json
import KonohaRuntime.Base.Dumps
import KonohaRuntime.Runtime.Models
import KonohaRuntime.Runtime.PlanFile
import KonohaRuntime.Runtime.StateFile
import KonohaRuntime.Runtime.Transitions
import KonohaRuntime.Runtime.Invariants
import KonohaRuntime.Runtime.Approval
import KonohaRuntime.Runtime.Result
import KonohaRuntime.Runtime.Evidence
import KonohaRuntime.Runtime.Preservation
import KonohaRuntime.Runtime.Host
import KonohaRuntime.Runtime.Sources
import KonohaRuntime.Runtime.SourceGate
import KonohaRuntime.Runtime.Prompt
import KonohaRuntime.Runtime.Executor
import KonohaRuntime.Protocol.Ledger
import KonohaRuntime.Protocol.Legal
import KonohaRuntime.Protocol.Refinement
import KonohaRuntime.Protocol.Calls
import KonohaRuntime.Protocol.History
import KonohaRuntime.Protocol.AtMostOnce
import KonohaRuntime.Protocol.Unchanged
import KonohaRuntime.Protocol.Replay
import KonohaRuntime.Protocol.Authority
import KonohaRuntime.Protocol.ReadBack
import KonohaRuntime.Protocol.PlanGate
import KonohaRuntime.Study.Teachback
import KonohaRuntime.Study.Workflow
import KonohaRuntime.Study.Responses
import KonohaRuntime.Hokage.Contract
import KonohaRuntime.Hokage.Skills
import KonohaRuntime.Hokage.Checkpoint
import KonohaRuntime.Hokage.Approval
import KonohaRuntime.Hokage.Frozen
import KonohaRuntime.Hokage.Action
import KonohaRuntime.Hokage.Rewrite
import KonohaRuntime.Hokage.Queue
import KonohaRuntime.Hokage.History
import KonohaRuntime.Effects.Loops
import KonohaRuntime.Hokage.QueueCalls
import KonohaRuntime.Effects.Eval
import KonohaRuntime.Hokage.Exclusion
import KonohaRuntime.Hokage.Operations
import KonohaRuntime.Hokage.Recovery
import KonohaRuntime.Protocol.OwnEvidence
import KonohaRuntime.Effects.Lone
import KonohaRuntime.Runtime.Adapters
import KonohaRuntime.Runtime.CodexEvents
import KonohaRuntime.Release.Commands
import KonohaRuntime.Release.Guard
import KonohaRuntime.Release.Status
import KonohaRuntime.Release.World
import KonohaRuntime.Release.Workflow
import KonohaRuntime.Release.Findings
import KonohaRuntime.Release.Agreement
import KonohaRuntime.Release.Continuation
import KonohaRuntime.Release.TestReport
import KonohaRuntime.Release.Environment
import KonohaRuntime.Release.Answers
import KonohaRuntime.Release.Safety
import KonohaRuntime.Base.Quoted
import KonohaRuntime.Base.SplitLines
import KonohaRuntime.Runtime.Fence
import KonohaRuntime.Runtime.Contract
import KonohaRuntime.Runtime.EvidenceFile
import KonohaRuntime.Effects.Traces
import KonohaRuntime.Protocol.Reached
import KonohaRuntime.Protocol.Outcome
import KonohaRuntime.Protocol.Stages
import KonohaRuntime.Protocol.Settled
import KonohaRuntime.Protocol.Tampered
import KonohaRuntime.Planning.Attempts
import KonohaRuntime.Effects.Verdict
import KonohaRuntime.Planning.Values
import KonohaRuntime.Planning.Constraints
import KonohaRuntime.Planning.Manifest
import KonohaRuntime.Sources.Preview
import KonohaRuntime.Sources.Material
import KonohaRuntime.Sources.Projection
import KonohaRuntime.Base.Utf8
import KonohaRuntime.Terminal.Lines
import KonohaRuntime.Terminal.Reader
import KonohaRuntime.RepoEvidence.Acquire
import KonohaRuntime.RepoEvidence.View
import KonohaRuntime.RepoEvidence.Imports
import KonohaRuntime.Base.TomlKeys
import KonohaRuntime.RepoEvidence.Locators
import KonohaRuntime.RepoEvidence.Persistence
import KonohaRuntime.LocalAudit.Audit
import KonohaRuntime.LocalAudit.Operations
import KonohaRuntime.LocalAudit.Independent
import KonohaRuntime.Base.PyDumps
import KonohaRuntime.Base.RoundTrip
import KonohaRuntime.Base.Legible
import KonohaRuntime.Base.PyEq
import KonohaRuntime.Hokage.Reading
import KonohaRuntime.Hokage.Documents
import KonohaRuntime.Hokage.Publish
import KonohaRuntime.Base.PyOps
import KonohaRuntime.Mission.Teachback
import KonohaRuntime.Mission.Closure
import KonohaRuntime.Base.Glob
import KonohaRuntime.TaskContract.Patterns
import KonohaRuntime.TaskContract.Contract
import KonohaRuntime.GitStaging.Gates
import KonohaRuntime.Beta.Execute
import KonohaRuntime.Base.Strip
import KonohaRuntime.Base.GitNames
import KonohaRuntime.Release.Names
import KonohaRuntime.Base.Search
import KonohaRuntime.Installation.Kept
import KonohaRuntime.Installation.Alignment
import KonohaRuntime.Release.TestCounts
import KonohaRuntime.Base.FileTree
import KonohaRuntime.ApplyPlan.Plan
import KonohaRuntime.ApplyPlan.Runs
import KonohaRuntime.ApplyPlan.Atomic
import KonohaRuntime.ApplyPlan.Confined
import KonohaRuntime.ArtifactWriter.Writer
import KonohaRuntime.ArtifactWriter.Confined
import KonohaRuntime.Planning.Registry
import KonohaRuntime.LocalAudit.Suggestions
import KonohaRuntime.RepoEvidence.Fans
import KonohaRuntime.Runtime.Identity
import KonohaRuntime.Protocol.Dependencies
import KonohaRuntime.Protocol.Recovered
import KonohaRuntime.RepoEvidence.Scope
