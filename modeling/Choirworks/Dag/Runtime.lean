import Choirworks.Dag.Plan

/-!
`DagRuntime`: the mutable state of one orchestration run. An asyncio task is
kept with what has become of it; its result stays in `runningTasks` until the
executor collects it. `nodeOutputs` only grows, and `completions` is the queue
of boundary events that wait to be judged.
-/

namespace Choirworks.Dag

def maxAssistDepth : Nat := 3

structure AgentInfo where
  name : String
  url : String
  description : String
deriving DecidableEq

inductive NodeStatus where
  | pending | running | waitingAssist | completed | failed | cancelled
deriving DecidableEq

structure CompletionRecord where
  nodeId : String
  output : String
  error : Option String
deriving DecidableEq

def CompletionRecord.ok (record : CompletionRecord) : Bool := record.error.isNone

/-- A spawned node task: at work on its message, or done with a result. -/
inductive NodeTask where
  | running (message : String)
  | finished (output : String)
  | raised (error : String)
deriving DecidableEq

def NodeTask.done : NodeTask → Bool
  | .running _ => false
  | .finished _ | .raised _ => true

structure DagRuntime where
  agents : Dict String AgentInfo
  userTask : String
  plan : DagPlan
  nodeStatus : Dict String NodeStatus
  nodeOutputs : Dict String String
  runningTasks : Dict String NodeTask
  completions : List CompletionRecord
  doneRequested : Bool
  assistSeq : Nat
  assistDepth : Dict String Nat
deriving DecidableEq

namespace DagRuntime

def start (agents : Dict String AgentInfo) (userTask : String) : DagRuntime where
  agents
  userTask
  plan := .empty
  nodeStatus := .empty
  nodeOutputs := .empty
  runningTasks := .empty
  completions := []
  doneRequested := false
  assistSeq := 0
  assistDepth := .empty

def status (runtime : DagRuntime) (nodeId : String) : Option NodeStatus :=
  runtime.nodeStatus.get? nodeId

def hasOutput (runtime : DagRuntime) (nodeId : String) : Prop :=
  nodeId ∈ runtime.nodeOutputs.keys

instance (runtime : DagRuntime) (nodeId : String) : Decidable (runtime.hasOutput nodeId) :=
  inferInstanceAs (Decidable (nodeId ∈ runtime.nodeOutputs.keys))

def inPlan (runtime : DagRuntime) (nodeId : String) : Bool :=
  runtime.plan.nodes.any fun node => node.id = nodeId

/-- Status of a node that the new plan adds: unknown, pending and cancelled
ones start over, every other status is kept. -/
def addedStatus : Option NodeStatus → NodeStatus
  | none | some .pending | some .cancelled => .pending
  | some kept => kept

/-- The union of new and old dependencies that the new plan or an output can
still answer, without repetitions. -/
def mergeDeps (reachable : String → Bool) (deps oldDeps : List String) : List String :=
  (deps ++ oldDeps).foldl
    (fun merged dep => if dep ∉ merged ∧ reachable dep then merged ++ [dep] else merged) []

/-- The last node of the plan with that id, as the dict of the old nodes has it. -/
def oldNode? (runtime : DagRuntime) (nodeId : String) : Option PlanNode :=
  runtime.plan.nodes.reverse.find? fun node => node.id = nodeId

/-- A node of the new plan that the old plan has too keeps its assist wiring. -/
def adoptNode (runtime : DagRuntime) (newIds : List String) (node : PlanNode) : PlanNode :=
  match runtime.oldNode? node.id with
  | none => node
  | some old =>
      { node with
        assistFor := if node.assistFor.isNone then old.assistFor else node.assistFor
        deps :=
          if runtime.status node.id = some .waitingAssist then
            mergeDeps (fun dep => dep ∈ newIds || decide (runtime.hasOutput dep)) node.deps old.deps
          else node.deps }

def addStatuses (runtime : DagRuntime) (nodes : List PlanNode) : Dict String NodeStatus :=
  nodes.foldl
    (fun statuses node =>
      if runtime.inPlan node.id then statuses
      else statuses.set node.id (addedStatus (runtime.status node.id)))
    runtime.nodeStatus

def applyPlan (runtime : DagRuntime) (newPlan : DagPlan) : Except String DagRuntime :=
  match validatePlan newPlan maxNodes with
  | .error text => .error text
  | .ok () =>
      .ok { runtime with
        doneRequested := newPlan.nodes.isEmpty
        completions := if newPlan.nodes.isEmpty then [] else runtime.completions
        plan := ⟨newPlan.nodes.map (runtime.adoptNode newPlan.ids)⟩
        nodeStatus := runtime.addStatuses newPlan.nodes }

def canDispatch (runtime : DagRuntime) (node : PlanNode) : Bool :=
  (runtime.status node.id = some .pending || runtime.status node.id = some .waitingAssist) &&
    node.deps.all fun dep => decide (runtime.hasOutput dep)

def dispatchable (runtime : DagRuntime) : List String :=
  (runtime.plan.nodes.filter runtime.canDispatch).map (·.id)

def hasWork (runtime : DagRuntime) : Bool :=
  !runtime.runningTasks.rows.isEmpty ||
    runtime.plan.nodes.any fun node =>
      runtime.status node.id = some .pending || runtime.status node.id = some .waitingAssist

def judgable (runtime : DagRuntime) (nodeId : String) : Bool :=
  !runtime.doneRequested && runtime.inPlan nodeId

def recordCompletion (runtime : DagRuntime) (nodeId output : String) : DagRuntime :=
  { runtime with
    nodeStatus := runtime.nodeStatus.set nodeId .completed
    nodeOutputs := runtime.nodeOutputs.set nodeId output
    completions :=
      if runtime.judgable nodeId then runtime.completions ++ [⟨nodeId, output, none⟩]
      else runtime.completions }

def recordFailure (runtime : DagRuntime) (nodeId error : String) : DagRuntime :=
  { runtime with
    nodeStatus := runtime.nodeStatus.set nodeId .failed
    completions :=
      if runtime.judgable nodeId then runtime.completions ++ [⟨nodeId, "", some error⟩]
      else runtime.completions }

/-- The first judgable record and the records behind it; those in front of it
are dropped. -/
def popJudgable (judgable : String → Bool) :
    List CompletionRecord → Option (CompletionRecord × List CompletionRecord)
  | [] => none
  | record :: rest =>
      if judgable record.nodeId then some (record, rest) else popJudgable judgable rest

def popCompletion (runtime : DagRuntime) : Option CompletionRecord × DagRuntime :=
  match popJudgable runtime.judgable runtime.completions with
  | some (record, rest) => (some record, { runtime with completions := rest })
  | none => (none, { runtime with completions := [] })

def failedCompletion (runtime : DagRuntime) : Option CompletionRecord :=
  runtime.completions.find? fun record => !record.ok && runtime.judgable record.nodeId

def hasAssistFor (runtime : DagRuntime) (parentId agentName : String) : Bool :=
  runtime.plan.nodes.any fun node =>
    node.assistFor = some parentId && node.agentName = agentName

def canAddAssists (runtime : DagRuntime) (parentId : String) (count : Nat) : Bool :=
  runtime.assistDepth.getD parentId 0 + 1 ≤ maxAssistDepth &&
    runtime.plan.nodes.length + count ≤ maxNodes

def assistId (parentId : String) (sequence : Nat) : String :=
  parentId ++ "-assist" ++ toString sequence

/-- `add_assist` rewires the first node with the parent's id, the one that
`get_node` answers. -/
def wireParent (parentId assist : String) : List PlanNode → List PlanNode
  | [] => []
  | node :: rest =>
      if node.id = parentId then
        { node with
          deps := if assist ∈ node.deps then node.deps else node.deps ++ [assist]
          instruction := node.instruction ++ "\n\n[" ++ assist ++ " output]\n" ++
            outputRef assist } :: rest
      else node :: wireParent parentId assist rest

def addAssist (runtime : DagRuntime) (parentId agentName instruction : String) : DagRuntime :=
  let sequence := runtime.assistSeq + 1
  let assist := assistId parentId sequence
  let node : PlanNode := {
    id := assist
    name := "assist:" ++ agentName
    agentName
    instruction := instruction ++ "\n\n[" ++ parentId ++ " output]\n" ++ outputRef parentId
    deps := []
    assistFor := some parentId }
  { runtime with
    assistSeq := sequence
    plan := ⟨wireParent parentId assist runtime.plan.nodes ++ [node]⟩
    nodeStatus := (runtime.nodeStatus.set assist .pending).set parentId .waitingAssist
    assistDepth := runtime.assistDepth.set assist (runtime.assistDepth.getD parentId 0 + 1) }

/-- `shutdown`: every task is cancelled and forgotten. -/
def shutdown (runtime : DagRuntime) : DagRuntime :=
  { runtime with runningTasks := .empty }

end DagRuntime

end Choirworks.Dag
