import Choirworks.A2a.Remote
import Choirworks.Library.Closings
import Choirworks.Library.Runs

/-!
`BaseAgentExecutor` running an orchestrating agent. An `execute` wraps `_run` in
a child task; the planner and the node tasks of the agent put their events on
the queue of the calling task while `_run` waits for the agent. Everything the
executor keeps is kept by task id, and so is the state here. A label names one
step of one coroutine. Which nodes a plan dispatches, what the remote agents
answer and how the agent ends are its choices.
-/

namespace Choirworks.A2a

open Workflow (TaskState Part)

/-! ### The coroutines of a task -/

/-- What the event queue of a task receives. -/
inductive Queued where
  | task (taskId contextId : String) (state : TaskState)
  | event (event : Event)
deriving DecidableEq

/-- A terminal status event; the initial task is none. -/
def Queued.Terminal : Queued → Prop
  | .task .. => False
  | .event posted => posted.Terminal

instance : DecidablePred Queued.Terminal := by
  intro queued
  unfold Queued.Terminal
  cases queued <;> infer_instance

/-- How the agent of a run ends. -/
inductive Outcome where
  | returned
  | raised (text : String)
  | cancelled
deriving DecidableEq

/-- Where `_run` stands. -/
inductive Phase where
  | created
  /-- The initial task is enqueued. -/
  | submitted
  /-- The agent runs. -/
  | working
  /-- The agent ends: its `finally` blocks stop the tasks that are left. -/
  | closing (outcome : Outcome)
  /-- The final status is enqueued. -/
  | reported
  /-- Cancelled at an `await` outside the agent. -/
  | stopping
  | done (cancelled : Bool)
deriving DecidableEq

/-- `task.cancel()`: the agent winds up, every other `await` gives up at once. -/
def Phase.cancel : Phase → Phase
  | .created | .submitted | .reported | .stopping => .stopping
  | .working | .closing _ => .closing .cancelled
  | .done cancelled => .done cancelled

/-- The tasks of the agent are running. -/
def Phase.agentRuns : Phase → Bool
  | .working | .closing _ => true
  | .created | .submitted | .reported | .stopping | .done _ => false

def Phase.isDone : Phase → Bool
  | .done _ => true
  | .created | .submitted | .working | .closing _ | .reported | .stopping => false

/-- `run_remote_node`: the stream of one remote agent. What the node makes of it
(its output, or the failure or pause it raises) only tells the plan how to go on. -/
structure Stream where
  agentName : String
  buffers : Dict String (List Part) := .empty
  /-- The events of the last response that are not enqueued yet. -/
  pending : List Event := []

/-- Where `execute` stands: at its `await`, cancelled from outside, or back. -/
inductive Execution where
  | awaiting | interrupted | returned | raised
deriving DecidableEq

structure Run where
  id : Nat
  contextId : String
  phase : Phase := .created
  streams : Dict String Stream := .empty
  execution : Execution := .awaiting

/-- `execute` is not back yet. -/
def Run.UnderWay (run : Run) : Prop := run.execution = .awaiting ∨ run.execution = .interrupted

instance (run : Run) : Decidable run.UnderWay := inferInstanceAs (Decidable (_ ∨ _))

/-- `execute` returned by itself, its run not cancelled. -/
def Run.ReturnedItself (run : Run) : Prop := run.execution = .returned ∧ run.phase = .done false

/-- A call of `cancel`; `awaits` is the run it waits for, none once it is back. -/
structure Cancel where
  id : Nat
  contextId : String
  awaits : Option Nat

/-- The part of one task id: its entry of `_active`, its runs and cancel calls,
and what its queue has received. -/
structure Served where
  active : Option Nat := none
  runs : Table Run.id := .empty
  cancels : Table Cancel.id := .empty
  queue : List Queued := []

/-! ### Steps of a run -/

inductive RunAct where
  /-- `_run` goes on to its next `await`. -/
  | advance
  /-- An event of the planner. -/
  | emit (artifactId : String) (parts : List Part) (append lastChunk : Bool)
  /-- The workflow ends, or fails with a text. -/
  | conclude (failure : Option String)
  | dispatch (nodeId agentName : String)
  | respond (nodeId : String) (response : Response)
  /-- The remote agent cannot be reached or breaks off. -/
  | lose (nodeId text : String)
  /-- The next event of a stream is enqueued. -/
  | relay (nodeId : String)
  /-- The node task ends. -/
  | finish (nodeId : String)
  /-- `execute` is cancelled from outside: its `await` hands that on to the child
  task and comes back once this is done. -/
  | interrupt

def statusEntry (taskId contextId : String) (state : TaskState) (parts : List Part) : Queued :=
  .event { taskId, contextId, body := .status state parts }

def textPart (text : String) : Part where
  text
  thought := false
  kind := none

def Run.advance (taskId : String) (run : Run) : Option (Run × List Queued) :=
  match run.phase with
  | .created =>
      some ({ run with phase := .submitted }, [.task taskId run.contextId .submitted])
  | .submitted =>
      some ({ run with phase := .working }, [statusEntry taskId run.contextId .working []])
  | .working => none
  | .closing outcome =>
      -- the agent is back when all its tasks are
      if run.streams.rows.isEmpty then
        match outcome with
        | .returned =>
            some ({ run with phase := .reported },
              [statusEntry taskId run.contextId .completed []])
        | .raised text =>
            some ({ run with phase := .reported },
              [statusEntry taskId run.contextId .failed [textPart text]])
        | .cancelled => some ({ run with phase := .done true }, [])
      else none
  | .reported => some ({ run with phase := .done false }, [])
  | .stopping => some ({ run with phase := .done true }, [])
  | .done _ => none

/-- A stream that has nothing left to relay takes in what comes next. -/
def Run.receive (run : Run) (nodeId : String)
    (next : Stream → Dict String (List Part) × List Event) : Option (Run × List Queued) :=
  match run.streams.get? nodeId with
  | some stream =>
      if run.phase.agentRuns ∧ stream.pending = [] then
        let (buffers, pending) := next stream
        some ({ run with streams := run.streams.set nodeId { stream with buffers, pending } }, [])
      else none
  | none => none

def Run.act (taskId : String) (run : Run) : RunAct → Option (Run × List Queued)
  | .advance => run.advance taskId
  | .emit artifactId parts append lastChunk =>
      if run.phase.agentRuns then
        some (run, [.event
          { taskId
            contextId := run.contextId
            author := "planner"
            body := .artifact artifactId parts append lastChunk }])
      else none
  | .conclude failure =>
      if run.phase = .working then
        let outcome := match failure with
          | none => .returned
          | some text => .raised text
        some ({ run with phase := .closing outcome }, [])
      else none
  | .dispatch nodeId agentName =>
      if run.phase.agentRuns ∧ nodeId ∉ run.streams.keys then
        some ({ run with streams := run.streams.set nodeId { agentName } }, [])
      else none
  | .respond nodeId response =>
      run.receive nodeId fun stream =>
        handleA2aResponse stream.agentName taskId run.contextId stream.buffers response
  | .lose nodeId text =>
      run.receive nodeId fun stream =>
        (stream.buffers, [failedEvent stream.agentName taskId run.contextId text])
  | .relay nodeId =>
      match run.streams.get? nodeId with
      | some stream =>
          match stream.pending with
          | event :: rest =>
              if run.phase.agentRuns then
                some ({ run with
                    streams := run.streams.set nodeId { stream with pending := rest } },
                  [.event event])
              else none
          | [] => none
      | none => none
  | .finish nodeId =>
      match run.streams.get? nodeId with
      | some stream =>
          -- a node task that is being stopped leaves what it has not relayed
          if run.phase.agentRuns ∧ (stream.pending = [] ∨ run.phase ≠ .working) then
            some ({ run with streams := run.streams.erase nodeId }, [])
          else none
      | none => none
  | .interrupt =>
      if run.execution = .awaiting then
        some ({ run with phase := run.phase.cancel, execution := .interrupted }, [])
      else none

/-- `execute` comes back: with the cancellation it was interrupted by only if the
child was not cancelled itself. -/
def Run.collected (run : Run) : Option Run :=
  match run.phase, run.execution with
  | .done _, .awaiting => some { run with execution := .returned }
  | .done cancelled, .interrupted =>
      some { run with execution := if cancelled then .returned else .raised }
  | _, _ => none

/-! ### Steps of the executor -/

inductive Act where
  | execute (run : Nat) (contextId : String)
  | act (run : Nat) (act : RunAct)
  | collect (run : Nat)
  | cancel (id : Nat) (contextId : String)
  /-- A call of `cancel` goes on behind the run it waited for. -/
  | resume (id : Nat)

/-- The run of `_active`, if it is not done. -/
def Served.activeRun (served : Served) : Option Run :=
  (served.active.bind served.runs.find?).filter fun run => !run.phase.isDone

def Served.put (served : Served) (run : Run) (entries : List Queued) : Served :=
  { served with runs := served.runs.insert run, queue := served.queue ++ entries }

def Served.step (taskId : String) (served : Served) : Act → Option Served
  | .execute id contextId =>
      if id ∈ served.runs.keys then none
      else some { served with active := some id, runs := served.runs.insert { id, contextId } }
  | .act id act =>
      match served.runs.find? id with
      | some run => (run.act taskId act).map fun (next, entries) => served.put next entries
      | none => none
  | .collect id =>
      match served.runs.find? id with
      | some run => run.collected.map fun next => { served.put next [] with active := none }
      | none => none
  | .cancel id contextId =>
      if id ∈ served.cancels.keys then none
      else
        match served.activeRun with
        | some run =>
            some { served.put { run with phase := run.phase.cancel } [] with
              cancels := served.cancels.insert { id, contextId, awaits := some run.id } }
        | none =>
            some { served with
              cancels := served.cancels.insert { id, contextId, awaits := none }
              queue := served.queue ++ [statusEntry taskId contextId .canceled []] }
  | .resume id =>
      match served.cancels.find? id with
      | some call =>
          if ∃ run ∈ served.runs.rows, call.awaits = some run.id ∧ run.phase.isDone then
            some { served with
              cancels := served.cancels.insert { call with awaits := none }
              queue := served.queue ++ [statusEntry taskId call.contextId .canceled []] }
          else none
      | none => none

/-- The executor with the queues of all tasks. -/
abbrev Executor := String → Served

def start : Executor := fun _ => {}

def step (executor : Executor) (label : String × Act) : Option Executor :=
  ((executor label.1).step label.1 label.2).map (Function.update executor label.1)

end Choirworks.A2a
