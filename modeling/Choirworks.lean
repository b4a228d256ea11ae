import Choirworks.Library.Runs
import Choirworks.Library.Json
import Choirworks.Planning.Acceptance
import Choirworks.Dag.Assisted
import Choirworks.Dag.Progress
import Choirworks.Dag.RemoteNode
import Choirworks.Dag.Requests
import Choirworks.Dag.Wiring
import Choirworks.Dag.References
import Choirworks.History.Replay
import Choirworks.History.Replacement
import Choirworks.History.Compaction
import Choirworks.History.Folding
import Choirworks.Orchestration.InFlight
import Choirworks.Orchestration.Snapshot
import Choirworks.Orchestration.Handover
import Choirworks.Orchestration.Streaming
import Choirworks.Orchestration.Answering
import Choirworks.Orchestration.Budget
import Choirworks.Orchestration.Deltas
import Choirworks.Orchestration.Exit
import Choirworks.Orchestration.NewPlan
import Choirworks.Orchestration.DeadDependency
import Choirworks.Orchestration.Cancel
import Choirworks.Orchestration.Restart
import Choirworks.Orchestration.GivenAnswers
import Choirworks.Orchestration.Loading
import Choirworks.Orchestration.PatchEffect
import Choirworks.Orchestration.CancelFrame
import Choirworks.Orchestration.Durability
import Choirworks.Orchestration.Answerable
import Choirworks.Orchestration.Questions
import Choirworks.Orchestration.Routing
import Choirworks.History.Rewinds
import Choirworks.Workflow.Barrier
import Choirworks.Workflow.Triggers
import Choirworks.Workflow.Once
import Choirworks.Workflow.Validation
import Choirworks.Frontend.Questions
import Choirworks.Frontend.Reconnects
import Choirworks.Api.Placement
import Choirworks.A2a.Terminal
import Choirworks.A2a.Aggregation
import Choirworks.A2a.Snapshots
import Choirworks.A2a.Requests
import Choirworks.Flows.Message
import Choirworks.Flows.Outcome
import Choirworks.LlmFlows.Turns
import Choirworks.LlmFlows.Chunking
import Choirworks.LlmFlows.Strict
import Choirworks.Workflow.Output
import Choirworks.Dag.Graph
import Choirworks.Core.Display
import Choirworks.Workflow.Recording
import Choirworks.Flows.Settlement
import Choirworks.History.Resumption
