import Choirworks.Library.Runs
import Choirworks.Workflow.Graph

/-!
The orchestration loop of a workflow: triggers are buffered for each node,
scheduling starts a task for each node that has one, and a wake-up handles the
tasks that are done. What the tasks return is up to the environment: a label of
the step gives the results of one wake-up. Nodes are found by name among the
nodes of the graph; the targets of edges are always found.
-/

namespace Choirworks.Workflow

structure Trigger (Obj : Type) where
  input : Option Obj
deriving DecidableEq

inductive NodeStatus where
  | inactive | pending | running | completed | waiting | failed | cancelled
deriving DecidableEq

structure NodeState (Obj : Type) where
  status : NodeStatus
  input : Option Obj
  runId : String

/-- What a `NodeRunner` returns. -/
structure ChildContext (Obj : Type) where
  output : Option Obj
  route : Option Routes
  error : Option String
deriving DecidableEq

/-- A started `NodeRunner.run`. -/
structure NodeTask (Obj : Type) where
  runId : String
  input : Option Obj
deriving DecidableEq

inductive Happening (Obj : Type) where
  | buffered (name : String) (input : Option Obj)
  | started (name : String) (input : Option Obj)
  | finished (name : String) (input : Option Obj) (child : ChildContext Obj)
deriving DecidableEq

/-- `history` is no field of the source: it lists what has happened, in order. -/
structure LoopState (Obj : Type) where
  triggerBuffer : Dict String (List (Trigger Obj))
  pendingTasks : Dict String (NodeTask Obj)
  nodes : Dict String (NodeState Obj)
  nodeOutputs : Dict String (Option Obj)
  runCounters : Dict String Nat
  history : List (Happening Obj)

structure WorkflowError where
  name : String
  error : String
deriving DecidableEq

end Choirworks.Workflow

namespace Choirworks

open Workflow (Graph validateGraph)

/-- `asDict` makes the dictionary of outputs that a join gets; its order is the
order of the edges. -/
structure Workflow (Obj : Type) where
  graph : Graph
  maxConcurrency : Option Int
  asDict : List (String × Option Obj) → Obj
  checked : validateGraph graph.nodes graph.edges = .ok ()

end Choirworks

namespace Choirworks.Workflow

def Graph.getStaticNodeByName (graph : Graph) (name : String) : Option BaseNode :=
  graph.nodes.find? (·.name = name)

def Graph.requiresAllPredecessors (graph : Graph) (name : String) : Bool :=
  match graph.getStaticNodeByName name with
  | none => false
  | some node => node.requiresAllPredecessors

variable {Obj : Type}

namespace LoopState

def empty : LoopState Obj := ⟨.empty, .empty, .empty, .empty, .empty, []⟩

def statusOf (state : LoopState Obj) (name : String) : Option NodeStatus :=
  (state.nodes.get? name).map (·.status)

def setStatus (state : LoopState Obj) (name : String) (status : NodeStatus) : LoopState Obj :=
  match state.nodes.get? name with
  | none => state
  | some nodeState => { state with nodes := state.nodes.set name { nodeState with status } }

def bufferTrigger (state : LoopState Obj) (name : String) (trigger : Trigger Obj) :
    LoopState Obj :=
  { state with
    triggerBuffer := state.triggerBuffer.set name (state.triggerBuffer.getD name [] ++ [trigger])
    history := state.history ++ [.buffered name trigger.input] }

def setOutput (state : LoopState Obj) (name : String) (output : Option Obj) : LoopState Obj :=
  { state with nodeOutputs := state.nodeOutputs.set name output }

end LoopState

def popTrigger (triggerBuffer : Dict String (List (Trigger Obj))) (nodeName : String) :
    Option (Trigger Obj × Dict String (List (Trigger Obj))) :=
  match triggerBuffer.getD nodeName [] with
  | [] => none
  | [trigger] => some (trigger, triggerBuffer.erase nodeName)
  | trigger :: rest => some (trigger, triggerBuffer.set nodeName rest)

section Loop

variable (workflow : Workflow Obj)

def isJoin (name : String) : Bool := workflow.graph.requiresAllPredecessors name

def atConcurrencyLimit (state : LoopState Obj) : Bool :=
  match workflow.maxConcurrency with
  | none => false
  | some limit => 0 < limit && limit ≤ state.pendingTasks.keys.length

def predecessorCompleted (state : LoopState Obj) (name : String) : Bool :=
  name = startName || state.statusOf name = some .completed

def bufferBarrierTrigger (state : LoopState Obj) (targetName : String) : LoopState Obj :=
  let predecessors := workflow.graph.predecessors targetName
  if predecessors.all (predecessorCompleted state) then
    let outputs := predecessors.map fun name => (name, (state.nodeOutputs.get? name).join)
    state.bufferTrigger targetName ⟨some (workflow.asDict outputs)⟩
  else state

def seedStartTriggers (nodeInput : Option Obj) : LoopState Obj :=
  let startEdges := workflow.graph.edges.filter (·.fromNode.name = startName)
  startEdges.foldl (fun state edge =>
    if edge.toNode.requiresAllPredecessors then
      workflow.bufferBarrierTrigger (state.setOutput startName nodeInput) edge.toNode.name
    else state.bufferTrigger edge.toNode.name ⟨nodeInput⟩) .empty

def bufferDownstreamTriggers (state : LoopState Obj) (nodeName : String) (child : ChildContext Obj) :
    LoopState Obj :=
  (workflow.graph.getNextPendingNodes nodeName child.route).foldl (fun state targetName =>
    if workflow.isJoin targetName then workflow.bufferBarrierTrigger state targetName
    else state.bufferTrigger targetName ⟨child.output⟩) state

def handleCompletion (state : LoopState Obj) (nodeName : String) (child : ChildContext Obj) :
    LoopState Obj :=
  let state := state.setStatus nodeName .completed
  let state := match child.output with
    | none => state
    | some output => state.setOutput nodeName (some output)
  workflow.bufferDownstreamTriggers state nodeName child

def popCompletedTask (state : LoopState Obj) (name : String) (task : NodeTask Obj)
    (child : ChildContext Obj) : LoopState Obj :=
  { state with
    pendingTasks := state.pendingTasks.erase name
    history := state.history ++ [.finished name task.input child] }

def prepareNodeStateForStarting (state : LoopState Obj) (nodeName : String)
    (trigger : Trigger Obj) : LoopState Obj :=
  let runId := state.runCounters.getD nodeName 0 + 1
  { state with
    runCounters := state.runCounters.set nodeName runId
    nodes := state.nodes.set nodeName ⟨.running, trigger.input, toString runId⟩ }

def startNodeTask (state : LoopState Obj) (nodeName : String) (trigger : Trigger Obj) :
    LoopState Obj :=
  let runId := ((state.nodes.get? nodeName).map (·.runId)).getD "1"
  { state with
    pendingTasks := state.pendingTasks.set nodeName ⟨runId, trigger.input⟩
    history := state.history ++ [.started nodeName trigger.input] }

def scheduleNodes : List String → LoopState Obj → LoopState Obj
  | [], state => state
  | nodeName :: rest, state =>
      if nodeName ∈ state.pendingTasks.keys then scheduleNodes rest state
      else if state.statusOf nodeName = some .running then scheduleNodes rest state
      else if workflow.atConcurrencyLimit state then state
      else
        match popTrigger state.triggerBuffer nodeName with
        | none => scheduleNodes rest state
        | some (trigger, triggerBuffer) =>
            let state := prepareNodeStateForStarting { state with triggerBuffer } nodeName trigger
            scheduleNodes rest (startNodeTask state nodeName trigger)

def scheduleReadyNodes (state : LoopState Obj) : LoopState Obj :=
  workflow.scheduleNodes state.triggerBuffer.keys state

/-- The loop is at its wait, or a node has failed and the error is raised. -/
inductive Execution (Obj : Type) where
  | looping (state : LoopState Obj)
  | raised (state : LoopState Obj) (error : WorkflowError)

def Execution.state : Execution Obj → LoopState Obj
  | .looping state | .raised state _ => state

/-- The tasks that are done, with their results, in the order of the pending tasks. -/
def orderDone (state : LoopState Obj) (results : List (String × ChildContext Obj)) :
    List (String × NodeTask Obj × ChildContext Obj) :=
  state.pendingTasks.rows.filterMap fun row =>
    (results.lookup row.1).map fun child => (row.1, row.2, child)

def handleDone : List (String × NodeTask Obj × ChildContext Obj) → LoopState Obj → Execution Obj
  | [], state => .looping (workflow.scheduleReadyNodes state)
  | (name, task, child) :: rest, state =>
      let state := popCompletedTask state name task child
      match child.error with
      | some error => .raised (state.setStatus name .failed) ⟨name, error⟩
      | none => handleDone rest (workflow.handleCompletion state name child)

/-- One wake-up; `asyncio.wait` returns when at least one task is done. -/
def wake (state : LoopState Obj) (results : List (String × ChildContext Obj)) :
    Option (Execution Obj) :=
  match orderDone state results with
  | [] => none
  | done :: rest => some (workflow.handleDone (done :: rest) state)

def start (nodeInput : Option Obj) : Execution Obj :=
  .looping (workflow.scheduleReadyNodes (workflow.seedStartTriggers nodeInput))

def step : Execution Obj → List (String × ChildContext Obj) → Option (Execution Obj)
  | .looping state, results => workflow.wake state results
  | .raised _ _, _ => none

end Loop

end Choirworks.Workflow
