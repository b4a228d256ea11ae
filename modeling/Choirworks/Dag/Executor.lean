import Choirworks.Dag.Runtime
import Choirworks.Library.Runs

/-!
The two deterministic nodes of the orchestration graph, `ExecutorNode` and
`Helper`, and the runs of the orchestrator they make with the planner. Node
tasks run outside: a `Wave` is a set of tasks that finish together, so a list
of waves is one completion order. The planner is a large language model; its
output is the plan an event carries, restricted to the agent catalog as its
output schema is.
-/

namespace Choirworks.Dag

abbrev Wave := List (String × Except String String)

/-- How one executor invocation ends. -/
inductive Outcome where
  | judge (nodeId : String)
  | default
  | raised (error : String)
deriving DecidableEq

def NodeTask.ofResult : Except String String → NodeTask
  | .ok output => .finished output
  | .error text => .raised text

namespace DagRuntime

def buildNodeMessage (runtime : DagRuntime) (node : PlanNode) : String :=
  let depOutputs := node.deps.filterMap fun dep =>
    (runtime.nodeOutputs.get? dep).map fun output => "[" ++ dep ++ " output]\n" ++ output
  Text.join "\n\n" (resolveInstruction node.instruction runtime.nodeOutputs :: depOutputs)

/-- The task of a node ends with that result, if it is still at work. -/
def finishTask (runtime : DagRuntime) (ended : String × Except String String) : DagRuntime :=
  match runtime.runningTasks.get? ended.1 with
  | some (.running _) =>
      { runtime with
        runningTasks := runtime.runningTasks.set ended.1 (.ofResult ended.2) }
  | _ => runtime

def finish (runtime : DagRuntime) (wave : Wave) : DagRuntime :=
  wave.foldl finishTask runtime

def collectTask (runtime : DagRuntime) (row : String × NodeTask) : DagRuntime :=
  match row.2 with
  | .running _ => runtime
  | .finished output =>
      { runtime with runningTasks := runtime.runningTasks.erase row.1 }.recordCompletion row.1 output
  | .raised error =>
      { runtime with runningTasks := runtime.runningTasks.erase row.1 }.recordFailure row.1 error

def collectDone (runtime : DagRuntime) : DagRuntime :=
  runtime.runningTasks.rows.foldl collectTask runtime

/-- `_wait_one`: `none` while no task of the given waves ends the wait. -/
def waitOne (runtime : DagRuntime) (waves : List Wave) : Option (DagRuntime × List Wave) :=
  if runtime.runningTasks.rows = [] ∨ ∃ row ∈ runtime.runningTasks.rows, row.2.done = true then
    some (runtime, waves)
  else
    match waves with
    | [] => none
    | wave :: rest => waitOne (runtime.finish wave) rest

/-- The loop behind an empty plan: wait and collect until no task is left. -/
def drain : Nat → DagRuntime → List Wave → Option DagRuntime
  | 0, runtime, _ => if runtime.runningTasks.rows = [] then some runtime else none
  | fuel + 1, runtime, waves =>
      if runtime.runningTasks.rows = [] then some runtime
      else match runtime.waitOne waves with
        | none => none
        | some (waited, rest) => drain fuel waited.collectDone rest

/-- An error is the argument of the `KeyError` and the runtime at that point. -/
def dispatchNode (runtime : DagRuntime) (nodeId : String) :
    Except (String × DagRuntime) DagRuntime :=
  match runtime.plan.find? nodeId with
  | none => .error ("node " ++ nodeId ++ " not found in plan", runtime)
  | some node =>
      if node.agentName ∈ runtime.agents.keys then
        .ok { runtime with
          nodeStatus := runtime.nodeStatus.set nodeId .running
          runningTasks := runtime.runningTasks.set nodeId
            (.running (runtime.buildNodeMessage node)) }
      else .error (node.agentName, runtime)

def dispatchNodes : List String → DagRuntime → Except (String × DagRuntime) DagRuntime
  | [], runtime => .ok runtime
  | nodeId :: rest, runtime =>
      match runtime.dispatchNode nodeId with
      | .error raised => .error raised
      | .ok next => dispatchNodes rest next

def dispatchReady (runtime : DagRuntime) : Except (String × DagRuntime) DagRuntime :=
  dispatchNodes runtime.dispatchable runtime

def applyPlanInput (runtime : DagRuntime) : Option DagPlan → Except String DagRuntime
  | none => .ok runtime
  | some plan => runtime.applyPlan plan

def abortText (failed : CompletionRecord) : String :=
  "node " ++ failed.nodeId ++ " failed: " ++ failed.error.getD ""

def noProgressText : String := "Executor executor: dispatch made no progress"

/-- The end of an invocation that has waited. -/
def routeWaited (runtime : DagRuntime) : Outcome × DagRuntime :=
  match runtime.failedCompletion with
  | some failed => (.raised (abortText failed), runtime.shutdown)
  | none =>
      match runtime.popCompletion with
      | (some record, rest) => (.judge record.nodeId, rest)
      | (none, rest) => (.raised noProgressText, rest)

/-- Nothing to judge: dispatch, then wait for the first task to finish. -/
def dispatchAndWait (runtime : DagRuntime) (waves : List Wave) : Option (Outcome × DagRuntime) :=
  match runtime.dispatchReady with
  | .error (text, stopped) => some (.raised text, stopped)
  | .ok dispatched =>
      if dispatched.hasWork = false then some (.default, dispatched)
      else (dispatched.waitOne waves).map fun waited => routeWaited waited.1.collectDone

/-- What an invocation does once the new plan is applied and the finished tasks
are collected. -/
def proceed (runtime : DagRuntime) (waves : List Wave) : Option (Outcome × DagRuntime) :=
  if runtime.doneRequested then
    (drain runtime.runningTasks.rows.length runtime waves).map fun drained => (.default, drained)
  else
    match runtime.failedCompletion with
    | some failed => some (.raised (abortText failed), runtime.shutdown)
    | none =>
        match runtime.popCompletion with
        | (some record, rest) => some (.judge record.nodeId, rest)
        | (none, rest) => rest.dispatchAndWait waves

/-- `ExecutorNode._run_impl`; `none` means that it still waits for a task. -/
def runImpl (runtime : DagRuntime) (input : Option DagPlan) (waves : List Wave) :
    Option (Outcome × DagRuntime) :=
  match runtime.applyPlanInput input with
  | .error text => some (.raised text, runtime)
  | .ok planned => planned.collectDone.proceed waves

end DagRuntime

namespace Helper

/-- One `@agent instruction` request: an agent of the catalog, one blank and an
instruction up to the next `@`. -/
def parseMention (agents : List String) (part : List Char) : Option (String × String) :=
  match Text.cut ' ' part with
  | none => none
  | some (before, after) =>
      let agentName := String.ofList before
      let instruction := String.ofList (Text.strip after)
      if agentName ∈ agents ∧ instruction ≠ "" then some (agentName, instruction) else none

def parseMentions (text : String) (agents : List String) : List (String × String) :=
  ((Text.split '@' text.toList).drop 1).filterMap (parseMention agents)

/-- Mentions of the node's own agent, repeated ones and those that already have
an assist are left out. -/
def candidates (runtime : DagRuntime) (parent : PlanNode) (nodeId : String) :
    List String → List (String × String) → List (String × String)
  | _, [] => []
  | seen, (agentName, instruction) :: rest =>
      if agentName = parent.agentName ∨ agentName ∈ seen then
        candidates runtime parent nodeId seen rest
      else if runtime.hasAssistFor nodeId agentName then
        candidates runtime parent nodeId (seen ++ [agentName]) rest
      else (agentName, instruction) :: candidates runtime parent nodeId (seen ++ [agentName]) rest

/-- The assists `Helper._run_impl` adds for the node it judges; an empty list
is its `DEFAULT` route. -/
def assists (runtime : DagRuntime) (nodeId : String) : List (String × String) :=
  match runtime.plan.find? nodeId with
  | none => []
  | some parent =>
      let output := runtime.nodeOutputs.getD nodeId ""
      let found := candidates runtime parent nodeId [] (parseMentions output runtime.agents.keys)
      if runtime.canAddAssists nodeId found.length then found else []

def runImpl (runtime : DagRuntime) (nodeId : String) : DagRuntime :=
  (assists runtime nodeId).foldl
    (fun current mention => current.addAssist nodeId mention.1 mention.2) runtime

end Helper

/-- The orchestrator between two workflow nodes. `routed` is the id that the
executor handed to the helper. -/
structure Orchestrator where
  runtime : DagRuntime
  routed : Option String
deriving DecidableEq

inductive Event where
  | applyPlan (plan : DagPlan)
  | invoke (input : Option DagPlan) (waves : List Wave)
  | judge
  | finish (wave : Wave)

/-- The planner's output schema admits the registered agents only. -/
def KnownAgents (agents : Dict String AgentInfo) (plan : DagPlan) : Prop :=
  ∀ node ∈ plan.nodes, node.agentName ∈ agents.keys

instance (agents : Dict String AgentInfo) (plan : DagPlan) : Decidable (KnownAgents agents plan) :=
  inferInstanceAs (Decidable (∀ node ∈ plan.nodes, node.agentName ∈ agents.keys))

/-- A plan the planner may hand over: it passes validation and names known agents. -/
def Acceptable (agents : Dict String AgentInfo) (plan : DagPlan) : Prop :=
  validatePlan plan maxNodes = .ok () ∧ KnownAgents agents plan

namespace Orchestrator

def start (agents : Dict String AgentInfo) (userTask : String) : Orchestrator :=
  ⟨.start agents userTask, none⟩

def applyPlan (system : Orchestrator) (plan : DagPlan) : Option Orchestrator :=
  if KnownAgents system.runtime.agents plan then
    match system.runtime.applyPlan plan with
    | .error _ => none
    | .ok runtime => some { system with runtime }
  else none

/-- An invocation that raises ends the run. -/
def invoke (system : Orchestrator) (input : Option DagPlan) (waves : List Wave) :
    Option Orchestrator :=
  if ∀ plan ∈ input, KnownAgents system.runtime.agents plan then
    match system.runtime.runImpl input waves with
    | some (.judge nodeId, runtime) => some ⟨runtime, some nodeId⟩
    | some (.default, runtime) => some ⟨runtime, none⟩
    | some (.raised _, _) | none => none
  else none

def judge (system : Orchestrator) : Option Orchestrator :=
  match system.routed with
  | none => none
  | some nodeId => some ⟨Helper.runImpl system.runtime nodeId, none⟩

def step (system : Orchestrator) : Event → Option Orchestrator
  | .applyPlan plan => system.applyPlan plan
  | .invoke input waves => system.invoke input waves
  | .judge => system.judge
  | .finish wave => some { system with runtime := system.runtime.finish wave }

end Orchestrator

end Choirworks.Dag
