import Choirworks.Orchestration.Outcome

/-!
`SessionRuntime` and the scheduler loop `run_plan` over it. The loop is cut
where it gives up the session lock or waits: at its head, before the lock of the
dispatch block, at the wait for tasks, and before the lock of `plan_flow`. The
tasks of the loop are kept with the point they have reached.
-/

namespace Choirworks.Orchestration

inductive Mode where
  | dispatch | continuation | recover
deriving DecidableEq

/-- Where `execute_node` is: created, in its remote call, behind the outcome
flow, or done with the exception that ended it. -/
inductive TaskPhase where
  | created | remote | closing
  | done (exception : Option String)
deriving DecidableEq

structure NodeTask where
  id : Nat
  ref : NodeRef
  mode : Mode
  phase : TaskPhase
deriving DecidableEq

def NodeTask.done (task : NodeTask) : Bool :=
  match task.phase with
  | .done _ => true
  | _ => false

inductive SettlePhase where
  | created
  | resolving (helper : NodeState)
  | deciding
  | done
deriving DecidableEq

structure SettleTask where
  id : Nat
  ref : NodeRef
  phase : SettlePhase
deriving DecidableEq

inductive Runner where
  | idle | head | locking | waiting | flow | exited
deriving DecidableEq

structure Runtime where
  session : Session
  runner : Runner := .idle
  wake : Bool := false
  nodeTasks : List NodeTask := []
  settleTasks : List SettleTask := []
  nextTask : Nat := 0
  evicted : Bool := false
deriving DecidableEq

namespace Runtime

/-- A session loaded from the contexts store. -/
def loaded (saved : OrchestrationState) : Runtime := { session := ⟨saved.restored, saved⟩ }

def alive (runtime : Runtime) : Bool := runtime.runner ∈ [.head, .locking, .waiting, .flow]

def startRunner (runtime : Runtime) : Runtime :=
  if runtime.alive then runtime else { runtime with runner := .head }

def evict (runtime : Runtime) : Runtime :=
  { runtime with runner := .idle, nodeTasks := [], settleTasks := [], evicted := true }

/-- The executions that are not over. -/
def inFlight (runtime : Runtime) : List NodeTask :=
  runtime.nodeTasks.filter fun task => !task.done

end Runtime

/-! ### The dispatch block -/

namespace OrchestrationState

def retryFailed (config : ExecutorConfig) (state : OrchestrationState) : OrchestrationState :=
  { state with
    nodes := state.nodes.map
      (fun node =>
        if node.canRetry config.maxNodeAttempts then
          { node with status := .pending, error := none }
        else node)
      (fun node => by split <;> rfl) }

def hasActiveHelper (state : OrchestrationState) (nodeId : String) : Bool :=
  (state.helpersOf nodeId).any fun helper =>
    helper.status ∈ activeNodeStatuses ++ pendingNodeStatuses ++ [.inputRequired]

end OrchestrationState

def modeOf : NodeStatus → Mode
  | .recover => .recover
  | .ready => .continuation
  | _ => .dispatch

def spawnTasks (first : Nat) : List NodeState → List NodeTask
  | [] => []
  | node :: rest =>
      ⟨first, .planned node.id, modeOf node.status, .created⟩ :: spawnTasks (first + 1) rest

def spawnSettleTasks (first : Nat) : List NodeState → List SettleTask
  | [] => []
  | node :: rest => ⟨first, .planned node.id, .created⟩ :: spawnSettleTasks (first + 1) rest

namespace Runtime

/-- The undecided nodes without a settlement. -/
def unsettled (runtime : Runtime) (state : OrchestrationState) : List NodeState :=
  state.inputRequiredNodes.filter fun node =>
    node.id ∉ runtime.settleTasks.map (·.ref.nodeId) ∧
      state.pendingInterventionFor node.id = none ∧ !state.hasActiveHelper node.id

/-- The nodes that the dispatch block starts. -/
def nextUp (config : ExecutorConfig) (runtime : Runtime) : List NodeState :=
  (runtime.session.state.retryFailed config).readyNodes.take
    (config.maxParallel - runtime.nodeTasks.length)

def dispatch (config : ExecutorConfig) (runtime : Runtime) : Runtime :=
  let retried := runtime.session.state.retryFailed config
  let settling := spawnSettleTasks runtime.nextTask (runtime.unsettled retried)
  let batch := runtime.nextUp config
  let tasks := spawnTasks (runtime.nextTask + settling.length) batch
  let submitted := (batch.filter fun node => node.status ≠ .recover).map (·.id)
  let session := { runtime.session with state := retried.moveNodes submitted .submitted }
  let nodeTasks := runtime.nodeTasks ++ tasks
  let settleTasks := runtime.settleTasks ++ settling
  { runtime with
    session := if batch = [] then session else session.persist
    nodeTasks
    settleTasks
    nextTask := runtime.nextTask + settling.length + tasks.length
    runner := if nodeTasks = [] ∧ settleTasks = [] then .flow else .waiting }

/-! ### The wait for tasks -/

/-- A task that raised fails its node if the node may still fail. -/
def collectTask (session : Session) (task : NodeTask) : Session :=
  match task.phase, task.ref with
  | .done (some text), .planned nodeId =>
      match session.state.node? nodeId with
      | none => session
      | some node =>
          let failed := if node.canTransition .failed then { node with status := .failed } else node
          { session with state := session.state.setNode { failed with error := some text } }
  | _, _ => session

def someDone (runtime : Runtime) : Bool :=
  runtime.nodeTasks.any (·.done) || runtime.settleTasks.any fun task => task.phase = .done

def collect (runtime : Runtime) : Runtime :=
  { runtime with
    session := (runtime.nodeTasks.filter (·.done)).foldl collectTask runtime.session
    nodeTasks := runtime.inFlight
    settleTasks := runtime.settleTasks.filter fun task => task.phase ≠ .done
    wake := false
    runner := .head }

end Runtime

/-! ### `plan_flow` -/

inductive FlowOutcome where
  | continued | exitWait | exitDone | exitFailed
deriving DecidableEq

/-- `repair_plan`: `decision` is the patch of the repair agent, if it gave one.
The failed nodes are invalidated in any case. -/
def repairPlan (env : Env) (session : Session) (decision : Option PlanPatch) : Session × Bool :=
  match env.agents, decision with
  | [], _ | _, none => (session, false)
  | _, some patch =>
      let failedIds := session.state.failedNodes.map (·.id)
      let invalidate := fromKeys [] (patch.invalidate ++ failedIds)
      let (revised, result) := revisePlan env session { patch with invalidate }
      (revised, result.changed)

section PlanFlow

variable (config : ExecutorConfig) (env : Env)

def mayRepair (state : OrchestrationState) : Bool :=
  config.replanOnFailure && state.revisionCount < config.maxRevisions

def planFlow (session : Session) (busy : Bool) (decision : Option PlanPatch) :
    Session × FlowOutcome :=
  let state := session.state
  if state.nodes.rows.any (·.canRetry config.maxNodeAttempts) then (session, .continued)
  else if state.inputRequiredNodes ≠ [] then (session.persist.emitPendingQuestions, .exitWait)
  else if state.allCompleted then (session, .exitDone)
  else if state.hasFailures then
    if mayRepair config state then
      let (repaired, succeeded) := repairPlan env session decision
      (repaired, if succeeded then .continued else .exitFailed)
    else (session, .exitFailed)
  else if state.hasPendingWork ∧ (state.readyNodes ≠ [] ∨ busy) then (session, .continued)
  else (session, .exitFailed)

def Runtime.busy (runtime : Runtime) : Bool := !runtime.nodeTasks.isEmpty

/-- Every exit but the one that waits evicts the session. -/
def Runtime.flow (runtime : Runtime) (decision : Option PlanPatch) : Runtime :=
  let (session, outcome) := planFlow config env runtime.session runtime.busy decision
  match outcome with
  | .continued => { runtime with session, runner := .head }
  | .exitWait => { runtime with session, runner := .exited, nodeTasks := [], settleTasks := [] }
  | .exitDone | .exitFailed =>
      { runtime with
        session, runner := .exited, nodeTasks := [], settleTasks := [], evicted := true }

end PlanFlow

/-! ### The steps of an execution -/

/-- Change fields of the node of an execution. -/
def Session.change (session : Session) (ref : NodeRef) (fields : NodeState → NodeState) : Handled :=
  match session.read ref with
  | none => ⟨session, ref, none⟩
  | some node =>
      let (session, ref) := session.write ref (fields node)
      ⟨session, ref, none⟩

def countAttempt (node : NodeState) : NodeState := { node with attempt := node.attempt + 1 }

/-- `build_node_text` takes the answer out of the node. -/
def takeAnswer (node : NodeState) : NodeState :=
  if node.answerText.isSome then
    { node with answerText := none, answerFrom := none, question := none }
  else node

/-- `execute_node` up to the remote call. -/
def startNode (session : Session) (ref : NodeRef) (mode : Mode) : Handled :=
  match mode with
  | .recover => session.transition ref id .recover
  | .dispatch =>
      let begun := session.transition ref countAttempt .submitted
      match begun.raised with
      | some _ => begun
      | none => begun.session.change begun.ref takeAnswer
  | .continuation => session.change ref (takeAnswer ∘ countAttempt)

def chunkFields (a2aTaskId : Option String) (node : NodeState) : NodeState :=
  { node with a2aTaskId := if given a2aTaskId then a2aTaskId else node.a2aTaskId }

/-- A snapshot of the remote task names it, and may report it as submitted. -/
def chunkNode (session : Session) (ref : NodeRef) (a2aTaskId : Option String)
    (submitted : Bool) : Handled :=
  if submitted then session.transition ref (chunkFields a2aTaskId) .submitted
  else session.change ref (chunkFields a2aTaskId)

namespace Runtime

def setTask (runtime : Runtime) (task : NodeTask) (handled : Handled) (phase : TaskPhase) :
    Runtime :=
  { runtime with
    session := handled.session
    nodeTasks := runtime.nodeTasks.map fun other =>
      if other.id = task.id then { task with ref := handled.ref, phase } else other }

def setSettleTask (runtime : Runtime) (task : SettleTask) (session : Session) (ref : NodeRef)
    (phase : SettlePhase) : Runtime :=
  { runtime with
    session
    settleTasks := runtime.settleTasks.map fun other =>
      if other.id = task.id then { task with ref, phase } else other }

def task? (runtime : Runtime) (taskId : Nat) (phase : TaskPhase) : Option NodeTask :=
  runtime.nodeTasks.find? fun task => task.id = taskId ∧ task.phase = phase

def settleTask? (runtime : Runtime) (taskId : Nat) : Option SettleTask :=
  runtime.settleTasks.find? fun task => task.id = taskId

/-- An exception ends the execution, else it goes on with the phase. -/
def finishPart (runtime : Runtime) (task : NodeTask) (handled : Handled) (phase : TaskPhase) :
    Runtime :=
  runtime.setTask task handled
    (match handled.raised with
     | some text => .done (some text)
     | none => phase)

end Runtime

end Choirworks.Orchestration
