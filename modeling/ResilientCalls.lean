import ResilientCalls.Attachment
import ResilientCalls.Connection
import ResilientCalls.Context
import ResilientCalls.Deadline
import ResilientCalls.Decimal.Binary64
import ResilientCalls.Decimal.Power
import ResilientCalls.Decimal.Shortest
import ResilientCalls.Decimal.Written
import ResilientCalls.Decoration
import ResilientCalls.Duration
import ResilientCalls.Failover.Chain
import ResilientCalls.Failover.Retry
import ResilientCalls.Failure.Basic
import ResilientCalls.Failure.Rpc
import ResilientCalls.Failure.Text
import ResilientCalls.Future.Cell
import ResilientCalls.Future.Chain
import ResilientCalls.Invocation
import ResilientCalls.Journal
import ResilientCalls.Listeners
import ResilientCalls.Pacing
import ResilientCalls.Program.Basic
import ResilientCalls.Program.Lateness
import ResilientCalls.Program.Pool
import ResilientCalls.Program.Run
import ResilientCalls.Program.Thread
import ResilientCalls.Program.World
import ResilientCalls.Proofs.Accounts
import ResilientCalls.Proofs.AttemptContext
import ResilientCalls.Proofs.Attempts
import ResilientCalls.Proofs.BoundedCalls
import ResilientCalls.Proofs.ChainEndings
import ResilientCalls.Proofs.CompletionCounts
import ResilientCalls.Proofs.ConnectedCalls
import ResilientCalls.Proofs.ContextSnapshot
import ResilientCalls.Proofs.Endings
import ResilientCalls.Proofs.ErrorHops
import ResilientCalls.Proofs.FirstWrite
import ResilientCalls.Proofs.Guards
import ResilientCalls.Proofs.HandlerOrder
import ResilientCalls.Proofs.ListenerCalls
import ResilientCalls.Proofs.NestedRequests
import ResilientCalls.Proofs.Observation
import ResilientCalls.Proofs.Passages
import ResilientCalls.Proofs.PolicyPauses
import ResilientCalls.Proofs.PoolRuns
import ResilientCalls.Proofs.RequestCourse
import ResilientCalls.Proofs.RequestOutcome
import ResilientCalls.Proofs.ResolvedAlike
import ResilientCalls.Proofs.Restoration
import ResilientCalls.Proofs.RetryEvents
import ResilientCalls.Proofs.RetryPauses
import ResilientCalls.Proofs.RunInPool
import ResilientCalls.Proofs.SharedSettings
import ResilientCalls.Proofs.SpawnedRequests
import ResilientCalls.Proofs.ThreadPaths
import ResilientCalls.Proofs.ThreadsApart
import ResilientCalls.Proofs.UnreachedBound
import ResilientCalls.Proofs.WorkersApart
import ResilientCalls.Report
import ResilientCalls.Requester.Request
import ResilientCalls.Requester.Settings
import ResilientCalls.Requester.Spawn
import ResilientCalls.Scenario.Answer
import ResilientCalls.Scenario.Calls
import ResilientCalls.Scenario.Contexts
import ResilientCalls.Scenario.Desk
import ResilientCalls.Scenario.Futures
import ResilientCalls.Scenario.Play
import ResilientCalls.Scenario.Recovery
import ResilientCalls.Scenario.Requests
import ResilientCalls.Scenario.Step
import ResilientCalls.Scenario.Values
import ResilientCalls.Strategy
import ResilientCalls.Text.Layout
import ResilientCalls.Text.Quoted
import ResilientCalls.Text.Unprintable
