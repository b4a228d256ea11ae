import Choirworks.Dag.Loop
import Choirworks.Workflow.Output
import Choirworks.Workflow.Relay

/-!
The graph of the orchestrator and its nodes, run by the loop of the workflows:
triggers, tasks and routes decide whose turn it is. It is always one node's turn,
and the turns are those of `Loop`. Behind `Done` the output of the workflow is the
registry of outputs.
-/

namespace Choirworks.Dag

open Workflow (AtWork BaseNode ChildContext Edge Execution LoopState Routes RouteValue WorkflowError
  defaultRoute startName)

/-- What the nodes of the graph hand on. -/
inductive Value where
  | text (text : String)
  | plan (plan : DagPlan)
  | nodeId (nodeId : String)
  | outputs (outputs : Dict String String)

def planner : BaseNode := ⟨1, "planner", false⟩

def executor : BaseNode := ⟨2, "executor", false⟩

def helper : BaseNode := ⟨3, "helper", false⟩

def doneNode : BaseNode := ⟨4, "done", false⟩

def judgeRoute : Routes := .one (.str "judge")

def executeRoute : Routes := .one (.str "execute")

def buildWorkflow : Workflow Value where
  graph :=
    let start : BaseNode := ⟨0, startName, false⟩
    ⟨[⟨start, planner, none⟩, ⟨planner, executor, none⟩, ⟨executor, helper, some judgeRoute⟩,
      ⟨executor, doneNode, some (.one defaultRoute)⟩, ⟨helper, executor, some executeRoute⟩,
      ⟨helper, planner, some (.one defaultRoute)⟩]⟩
  maxConcurrency := none
  asDict := fun _ => .text ""
  checked := by decide +kernel

/-! ### The nodes -/

/-- `_apply_plan_input` takes a plan and nothing else. -/
def planInput : Option Value → Option DagPlan
  | some (.plan plan) => some plan
  | _ => none

/-- What an invocation leaves in its context. -/
def executed : Outcome → ChildContext Value
  | .judge nodeId => ⟨some (.nodeId nodeId), some judgeRoute, none⟩
  | .default => ⟨none, some (.one defaultRoute), none⟩
  | .raised error => ⟨none, none, some error⟩

/-- `Helper._run_impl`. -/
def judged (runtime : DagRuntime) (input : Option Value) : ChildContext Value × DagRuntime :=
  match input with
  | some (.nodeId nodeId) =>
      if Helper.assists runtime nodeId = [] then (⟨none, some (.one defaultRoute), none⟩, runtime)
      else (⟨none, some executeRoute, none⟩, Helper.runImpl runtime nodeId)
  | _ => (⟨none, some (.one defaultRoute), none⟩, runtime)

/-- `DoneNode._run_impl`. -/
def concluded (runtime : DagRuntime) : ChildContext Value :=
  ⟨some (.outputs runtime.nodeOutputs), none, none⟩

/-! ### The orchestrator -/

structure Orchestration where
  execution : Execution Value
  runtime : DagRuntime

namespace Orchestration

def begin (agents : Dict String AgentInfo) (userTask : String) : Orchestration :=
  ⟨buildWorkflow.start (some (.text userTask)), .start agents userTask⟩

/-- The task of the node ends, if it is at work. -/
def ends (system : Orchestration) (name : String)
    (run : Option Value → Option (ChildContext Value × DagRuntime)) : Option Orchestration :=
  match system.execution with
  | .raised _ _ => none
  | .looping state =>
      match state.pendingTasks.get? name with
      | none => none
      | some task =>
          match run task.input with
          | none => none
          | some (child, runtime) =>
              (buildWorkflow.step (.looping state) [(name, child)]).map fun execution =>
                ⟨execution, runtime⟩

def step (system : Orchestration) : LoopEvent → Option Orchestration
  | .plan plan =>
      system.ends planner.name fun _ =>
        if KnownAgents system.runtime.agents plan then
          some (⟨some (.plan plan), none, none⟩, system.runtime)
        else none
  | .invoke waves =>
      system.ends executor.name fun input =>
        (system.runtime.runImpl (planInput input) waves).map fun (outcome, runtime) =>
          (executed outcome, runtime)
  | .judge => system.ends helper.name fun input => some (judged system.runtime input)
  | .finish wave =>
      match system.execution with
      | .raised _ _ => none
      | .looping _ => some { system with runtime := system.runtime.finish wave }

def conclude (system : Orchestration) : Option Orchestration :=
  system.ends doneNode.name fun _ => some (concluded system.runtime, system.runtime)

end Orchestration

/-! ### Turns -/

/-- Whose turn it is in an execution. -/
def Turn : Execution Value → Stage → Prop
  | .looping state, .planner => ∃ value, AtWork buildWorkflow state planner.name value
  | .looping state, .executor input =>
      ∃ value, AtWork buildWorkflow state executor.name value ∧ planInput value = input
  | .looping state, .helper nodeId =>
      AtWork buildWorkflow state helper.name (some (.nodeId nodeId))
  | .looping state, .done => ∃ value, AtWork buildWorkflow state doneNode.name value
  | .raised _ error, .failed text => error = ⟨executor.name, text⟩
  | _, _ => False

/-- The execution is at the stage of the loop, with the same runtime. -/
structure Agrees (system : Orchestration) (loop : Loop) : Prop where
  runtime : system.runtime = loop.runtime
  turn : Turn system.execution loop.stage

/-- The node that is at work at a stage. -/
def nodeOf : Stage → Option String
  | .planner => some planner.name
  | .executor _ => some executor.name
  | .helper _ => some helper.name
  | .done => some doneNode.name
  | .failed _ => none

section Turns

theorem planner_next : buildWorkflow.graph.getNextPendingNodes planner.name none = [executor.name] := by
  decide +kernel

theorem judge_next :
    buildWorkflow.graph.getNextPendingNodes executor.name (some judgeRoute) = [helper.name] := by
  decide +kernel

theorem default_next : buildWorkflow.graph.getNextPendingNodes executor.name
    (some (.one defaultRoute)) = [doneNode.name] := by
  decide +kernel

theorem execute_next :
    buildWorkflow.graph.getNextPendingNodes helper.name (some executeRoute) = [executor.name] := by
  decide +kernel

theorem replan_next : buildWorkflow.graph.getNextPendingNodes helper.name
    (some (.one defaultRoute)) = [planner.name] := by
  decide +kernel

theorem done_next : buildWorkflow.graph.getNextPendingNodes doneNode.name none = [] := by
  decide +kernel

variable {system : Orchestration} {loop : Loop} {state : LoopState Value}
  {execution : Execution Value} {stage : Stage} {name : String} {value : Option Value}
  {runtime : DagRuntime} {run : Option Value → Option (ChildContext Value × DagRuntime)}

theorem Turn.atWork (turn : Turn (.looping state) stage) :
    ∃ name value, nodeOf stage = some name ∧ AtWork buildWorkflow state name value := by
  cases stage with
  | planner | done =>
      obtain ⟨value, atWork⟩ := turn
      exact ⟨_, value, rfl, atWork⟩
  | executor input =>
      obtain ⟨value, atWork, _⟩ := turn
      exact ⟨_, value, rfl, atWork⟩
  | helper nodeId => exact ⟨_, some (.nodeId nodeId), rfl, turn⟩
  | failed error => exact absurd turn id

/-- A node whose turn it is not has no task that could end. -/
theorem Turn.idle (turn : Turn execution stage) (other : nodeOf stage ≠ some name) :
    Orchestration.ends ⟨execution, runtime⟩ name run = none := by
  unfold Orchestration.ends
  cases execution with
  | raised state error => rfl
  | looping state =>
      obtain ⟨actor, value, named, atWork⟩ := turn.atWork
      have different : name ≠ actor := by
        rintro rfl
        exact other named
      simp only [atWork.only different]

theorem ends_eq (atWork : AtWork buildWorkflow state name value) :
    Orchestration.ends ⟨.looping state, runtime⟩ name run = (run value).bind fun ended =>
      (buildWorkflow.step (.looping state) [(name, ended.1)]).map fun execution =>
        ⟨execution, ended.2⟩ := by
  obtain ⟨task, _, found, rfl⟩ := atWork.one
  unfold Orchestration.ends
  simp only [found]
  cases run task.input <;> rfl

/-! ### One event -/

theorem plan_agrees (agrees : Agrees system loop) (plan : DagPlan) :
    Option.Rel Agrees (system.step (.plan plan)) (loop.step (.plan plan)) := by
  obtain ⟨execution, runtime⟩ := system
  obtain ⟨_, stage, journal⟩ := loop
  obtain ⟨rfl, turn⟩ := agrees
  by_cases planning : stage = .planner
  · subst planning
    cases execution with
    | raised state error => exact absurd turn id
    | looping state =>
        obtain ⟨value, atWork⟩ := turn
        simp only [Orchestration.step, Loop.step, ends_eq atWork, true_and]
        split
        · obtain ⟨after, stepped, handed⟩ :=
            @AtWork.hands_over _ _ _ _ executor.name _ ⟨some (.plan plan), none, none⟩ atWork rfl
              planner_next (by decide +kernel)
          rw [Option.bind_some, stepped]
          exact .some ⟨rfl, _, handed, rfl⟩
        · exact .none
  · have other : nodeOf stage ≠ some planner.name := by
      cases stage with
      | planner => exact absurd rfl planning
      | _ => simp [nodeOf, planner, executor, helper, doneNode]
    rw [Orchestration.step, turn.idle other, Loop.step, if_neg fun both => planning both.1]
    exact .none

theorem invoke_agrees (agrees : Agrees system loop) (waves : List Wave) :
    Option.Rel Agrees (system.step (.invoke waves)) (loop.step (.invoke waves)) := by
  obtain ⟨execution, runtime⟩ := system
  obtain ⟨_, stage, journal⟩ := loop
  obtain ⟨rfl, turn⟩ := agrees
  cases stage with
  | executor input =>
      cases execution with
      | raised state error => exact absurd turn id
      | looping state =>
          obtain ⟨value, atWork, rfl⟩ := turn
          simp only [Orchestration.step, Loop.step, Loop.invoke, ends_eq atWork]
          cases DagRuntime.runImpl runtime (planInput value) waves with
          | none => exact .none
          | some ended =>
              obtain ⟨outcome, next⟩ := ended
              simp only [Option.map_some, Option.bind_some]
              cases outcome with
              | judge nodeId =>
                  obtain ⟨after, stepped, handed⟩ :=
                    @AtWork.hands_over _ _ _ _ helper.name _ (executed (.judge nodeId)) atWork rfl
                      judge_next (by decide +kernel)
                  rw [stepped]
                  exact .some ⟨rfl, handed⟩
              | default =>
                  obtain ⟨after, stepped, handed⟩ :=
                    @AtWork.hands_over _ _ _ _ doneNode.name _ (executed .default) atWork rfl
                      default_next (by decide +kernel)
                  rw [stepped]
                  exact .some ⟨rfl, _, handed⟩
              | raised error =>
                  obtain ⟨after, stepped⟩ :=
                    @AtWork.raises _ _ _ _ _ (executed (.raised error)) atWork error rfl
                  rw [stepped]
                  exact .some ⟨rfl, rfl⟩
  | planner | helper nodeId | done | failed error =>
      rw [Orchestration.step, turn.idle (by simp [nodeOf, planner, executor, helper, doneNode])]
      exact .none

theorem judge_agrees (agrees : Agrees system loop) :
    Option.Rel Agrees (system.step .judge) (loop.step .judge) := by
  obtain ⟨execution, runtime⟩ := system
  obtain ⟨_, stage, journal⟩ := loop
  obtain ⟨rfl, turn⟩ := agrees
  cases stage with
  | helper nodeId =>
      cases execution with
      | raised state error => exact absurd turn id
      | looping state =>
          have atWork : AtWork buildWorkflow state helper.name (some (.nodeId nodeId)) := turn
          simp only [Orchestration.step, Loop.step, Loop.judge, ends_eq atWork, Option.bind_some,
            judged]
          split
          · rename_i none_
            obtain ⟨after, stepped, handed⟩ :=
              @AtWork.hands_over _ _ _ _ planner.name _ ⟨none, some (.one defaultRoute), none⟩
                atWork rfl replan_next (by decide +kernel)
            rw [stepped]
            exact .some ⟨by simp [Helper.runImpl, none_], _, handed⟩
          · obtain ⟨after, stepped, handed⟩ :=
              @AtWork.hands_over _ _ _ _ executor.name _ ⟨none, some executeRoute, none⟩
                atWork rfl execute_next (by decide +kernel)
            rw [stepped]
            exact .some ⟨rfl, _, handed, rfl⟩
  | planner | executor input | done | failed error =>
      rw [Orchestration.step, turn.idle (by simp [nodeOf, planner, executor, helper, doneNode])]
      exact .none

theorem finish_agrees (agrees : Agrees system loop) (wave : Wave) :
    Option.Rel Agrees (system.step (.finish wave)) (loop.step (.finish wave)) := by
  obtain ⟨execution, runtime⟩ := system
  obtain ⟨_, stage, journal⟩ := loop
  obtain ⟨rfl, turn⟩ := agrees
  cases execution with
  | raised state error =>
      cases stage with
      | failed text => exact .none
      | _ => exact absurd turn id
  | looping state =>
      cases stage with
      | failed text => exact absurd turn id
      | _ => exact .some ⟨rfl, turn⟩

theorem step_agrees (agrees : Agrees system loop) (event : LoopEvent) :
    Option.Rel Agrees (system.step event) (loop.step event) := by
  cases event with
  | plan plan => exact plan_agrees agrees plan
  | invoke waves => exact invoke_agrees agrees waves
  | judge => exact judge_agrees agrees
  | finish wave => exact finish_agrees agrees wave

theorem begin_agrees (agents : Dict String AgentInfo) (userTask : String) :
    Agrees (.begin agents userTask) (.start agents userTask) :=
  ⟨rfl, _, @Workflow.schedule_one _ buildWorkflow _ planner.name ⟨some (.text userTask)⟩
    (Workflow.books_seeded _) rfl rfl⟩

/-- The last turn stores the registry of outputs, which is the output of the
workflow. -/
theorem Agrees.concludes (agrees : Agrees system loop) (done : loop.stage = .done) :
    ∃ state, system.conclude = some ⟨.looping state, loop.runtime⟩ ∧
      state.pendingTasks.keys = [] ∧
      Workflow.finalize buildWorkflow state = .ok (some (.outputs loop.runtime.nodeOutputs)) := by
  obtain ⟨execution, runtime⟩ := system
  obtain ⟨_, stage, journal⟩ := loop
  obtain ⟨rfl, turn⟩ := agrees
  cases done
  cases execution with
  | raised state error => exact absurd turn id
  | looping state =>
      obtain ⟨value, atWork⟩ := turn
      obtain ⟨after, stepped, idle, stored⟩ :=
        @AtWork.ends _ _ _ _ _ (concluded runtime) atWork rfl done_next
      refine ⟨after, ?_, idle, ?_⟩
      · rw [Orchestration.conclude, ends_eq atWork, Option.bind_some, stepped]
        rfl
      · have terminal : buildWorkflow.graph.terminalNodeNames = [doneNode.name] := by decide +kernel
        rw [Workflow.finalize, terminal, List.filterMap_cons, stored _ rfl]
        rfl

end Turns

/-- The graph makes the turns of `Loop`: an event is possible in one exactly if it
is in the other, with the same runtime behind it. A run that comes to `Done`
ends with the registry of outputs. -/
theorem orchestrator_refines (agents : Dict String AgentInfo) (userTask : String)
    (events : List LoopEvent) :
    Option.Rel Agrees (Runs.run Orchestration.step (.begin agents userTask) events)
        (Runs.run Loop.step (.start agents userTask) events) ∧
      ∀ loop, Runs.run Loop.step (.start agents userTask) events = some loop →
        loop.stage = .done → ∃ system state,
          Runs.run Orchestration.step (.begin agents userTask) events = some system ∧
            system.conclude = some ⟨.looping state, loop.runtime⟩ ∧
            state.pendingTasks.keys = [] ∧
            Workflow.finalize buildWorkflow state =
              .ok (some (.outputs loop.runtime.nodeOutputs)) := by
  have related := Runs.run_related step_agrees events (begin_agrees agents userTask)
  refine ⟨related, ?_⟩
  intro loop ran done
  rw [ran] at related
  cases reached : Runs.run Orchestration.step (.begin agents userTask) events with
  | none =>
      rw [reached] at related
      cases related
  | some system =>
      rw [reached] at related
      cases related with
      | some agrees =>
          obtain ⟨state, concluded, idle, output⟩ := agrees.concludes done
          exact ⟨system, state, rfl, concluded, idle, output⟩

end Choirworks.Dag
