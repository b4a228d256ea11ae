import Choirworks.Core.Attempts
import Choirworks.Orchestration.Planning

/-!
`plan` and `stream_plan`, and the agents that decide by a final tool. The planner
accepts a call whose plan is valid, an agent any call of its tool. What the planner
comes to over the streams of the model is what `Orchestration.plan` says of their
drafts.
-/

namespace Choirworks.Core

open History (ChatMessage)
open Orchestration (Env ExecutorConfig PlanNodeDraft validatePlan)

/-! ### The planner -/

section Planner

variable (config : ExecutorConfig) (env : Env)
  (validate : String → Except String (List PlanNodeDraft)) (dump : List PlanNodeDraft → String)

def createPlanTool : FunctionTool (List PlanNodeDraft) := ⟨"create_plan", validate⟩

/-- Without agents there is nothing to plan. -/
def planner : Caller (List PlanNodeDraft) (ToolCallResult (List PlanNodeDraft)) where
  toolName := "create_plan"
  tools := [createPlanTool validate]
  attempts := if env.agents = [] then 0 else config.maxPlanRetries + 1
  accept := fun call =>
    match validatePlan call.args config.maxNodes with
    | .ok () => .ok call
    | .error error => .error ⟨error, dump call.args⟩
  reports := true
  reseals := false

/-- The `PlanningFailed` error with its `args_json`. -/
def planningFailed (lastFault : Option Fault) : Fault :=
  if env.agents = [] then
    ⟨"no agents registered; register at least one A2A agent first", ""⟩
  else
    ⟨"planner failed after " ++ toString (config.maxPlanRetries + 1) ++ " attempts: " ++
        ((lastFault.map (·.error)).getD "None"),
      (lastFault.map (·.payload)).getD ""⟩

/-- What `stream_plan` returns or raises. -/
inductive Planned where
  | returned (call : ToolCallResult (List PlanNodeDraft))
  | failed (failure : Fault)
  | raised (error : String)

def planned : Ending (ToolCallResult (List PlanNodeDraft)) → Planned
  | .answered call => .returned call
  | .exhausted lastFault => .failed (planningFailed config env lastFault)
  | .broken error => .raised error

/-- The draft of an answer, valid or not. -/
def draftOf (completion : Completion) : Option (List PlanNodeDraft) :=
  match stream [createPlanTool validate] completion with
  | .called call => some call.args
  | .noCall | .refused _ | .unparsed _ _ | .broken _ => none

end Planner

/-! ### Agents with a final tool -/

/-- `LlmAgent.run_async` in its deciding form; a negative number of retries is no
attempt. -/
def llmAgent {Args : Type} (finalTool : String) (tools : List (FunctionTool Args))
    (maxRetries : Int) : Caller Args (ToolCallResult Args) where
  toolName := finalTool
  tools
  attempts := (maxRetries + 1).toNat
  accept := .ok
  reports := false
  reseals := true

/-- The `ResultEvent`: what `process` makes of the call, or of none. -/
def agentResult {Args Result : Type} (process : Option (ToolCallResult Args) → Result) :
    Ending (ToolCallResult Args) → Except String Result
  | .answered call => .ok (process (some call))
  | .exhausted _ => .ok (process none)
  | .broken error => .error error

/-! ### What they come to -/

section Results

variable {config : ExecutorConfig} {env : Env}
  {validate : String → Except String (List PlanNodeDraft)} {dump : List PlanNodeDraft → String}

theorem planner_answer (completion : Completion) :
    ((draftOf validate completion).filter fun nodes =>
      validatePlan nodes config.maxNodes matches .ok ()) =
        ((planner config env validate dump).answer completion).map (·.args) := by
  unfold draftOf Caller.answer Caller.judge
  have tools : (planner config env validate dump).tools = [createPlanTool validate] := rfl
  rw [tools]
  cases stream [createPlanTool validate] completion with
  | called call =>
      simp only [planner]
      cases valid : validatePlan call.args config.maxNodes with
      | ok _ => simp [valid]
      | error text => simp [valid]
  | noCall | refused error | unparsed payload cause | broken error => rfl

theorem find_mapped {Item Value Other : Type} (items : List Item) (find : Item → Option Value)
    (change : Value → Other) :
    items.findSome? (fun item => (find item).map change) = (items.findSome? find).map change := by
  induction items with
  | nil => rfl
  | cons item rest ih =>
      rw [List.findSome?_cons, List.findSome?_cons, ih]
      cases find item <;> rfl

/-- The planner's answers are those of the plan. -/
theorem plan_eq (agents : env.agents ≠ []) (answers : Nat → Completion) :
    Orchestration.plan config env ((List.range (config.maxPlanRetries + 1)).map fun attempt =>
        draftOf validate (answers attempt)) =
      ((List.range (planner config env validate dump).attempts).findSome? fun attempt =>
        (planner config env validate dump).answer (answers attempt)).map (·.args) := by
  have attempts : (planner config env validate dump).attempts = config.maxPlanRetries + 1 :=
    if_neg agents
  rw [Orchestration.plan, if_neg agents, attempts, ← find_mapped, List.take_of_length_le (by simp),
    List.findSome?_map]
  congr 1
  funext attempt
  exact planner_answer (answers attempt)

end Results

/-- Whatever the model streams, the planner comes to an end within its attempts. It
sends the conversation with the faults of the attempts before, and returns the
plan that the drafts of the streams give; without one it fails. -/
theorem plan_ends (config : ExecutorConfig) (env : Env)
    (validate : String → Except String (List PlanNodeDraft)) (dump : List PlanNodeDraft → String)
    (opening : List ChatMessage) (answers : Nat → Completion) :
    let caller := planner config env validate dump
    let drafts := (List.range (config.maxPlanRetries + 1)).map fun attempt =>
      draftOf validate (answers attempt)
    ∃ made talk ending, made ≤ config.maxPlanRetries + 1 ∧
      Runs.run (Talk.step caller) (.begin caller opening) ((List.range made).map answers) =
        some talk ∧
      talk.ending = some ending ∧
      (talk.requests = (List.range made).map fun attempt =>
        opening ++ ((List.range attempt).map answers).flatMap caller.complaint) ∧
      match planned config env ending with
      | .returned call => Orchestration.plan config env drafts = some call.args
      | .failed _ => Orchestration.plan config env drafts = none
      | .raised error => ∃ attempt < made, (answers attempt).stop = .raised error := by
  dsimp only
  obtain ⟨made, talk, ran, ended⟩ :=
    talk_ends (planner config env validate dump) opening answers
  have told := told_run ran
  have settles := told.settles ended
  have within := told.within
  rw [List.length_map, List.length_range] at within
  cases ends : talk.ending with
  | none => exact absurd ends ended
  | some ending =>
      rw [ends] at settles
      refine ⟨made, talk, ending, ?_, ran, ends, told.asked, ?_⟩
      · refine Nat.le_trans within ?_
        show (if env.agents = [] then 0 else _) ≤ _
        split <;> omega
      · by_cases agents : env.agents = []
        · -- no attempt is made
          have none_ : (planner config env validate dump).attempts = 0 := if_pos agents
          have plan_none : Orchestration.plan config env ((List.range (config.maxPlanRetries + 1)).map
              fun attempt => draftOf validate (answers attempt)) = none := if_pos agents
          cases ending with
          | answered call => simp [Settles, none_] at settles
          | exhausted lastFault => exact plan_none
          | broken error =>
              obtain ⟨attempt, same, _⟩ := settles
              omega
        · cases ending with
          | answered call =>
              have found : _ = some call := settles
              show Orchestration.plan _ _ _ = some call.args
              rw [@plan_eq _ _ _ dump agents, found]
              rfl
          | exhausted lastFault =>
              obtain ⟨all, rejected, _⟩ := settles
              show Orchestration.plan _ _ _ = none
              rw [@plan_eq _ _ _ dump agents, Option.map_eq_none_iff, List.findSome?_eq_none_iff]
              intro attempt member
              exact (rejected attempt (all ▸ List.mem_range.mp member)).answer
          | broken error =>
              obtain ⟨attempt, same, judged⟩ := settles
              refine ⟨attempt, by omega, ?_⟩
              exact stop_of_broken judged

/-! ### Agents -/

section Agents

variable {Args : Type} {finalTool : String} {tools : List (FunctionTool Args)}
  {maxRetries : Int}

def callOf (tools : List (FunctionTool Args)) (completion : Completion) :
    Option (ToolCallResult Args) :=
  match stream tools completion with
  | .called call => some call
  | .noCall | .refused _ | .unparsed _ _ | .broken _ => none

theorem agent_answer (completion : Completion) :
    (llmAgent finalTool tools maxRetries).answer completion = callOf tools completion := by
  unfold Caller.answer Caller.judge callOf
  have same : (llmAgent finalTool tools maxRetries).tools = tools := rfl
  rw [same]
  cases stream tools completion <;> rfl

end Agents

/-- Whatever the model streams, the result of an agent is what it makes of the first
call among its attempts, or of none if there is no such call. -/
theorem agent_ends {Args Result : Type} (finalTool : String) (tools : List (FunctionTool Args))
    (maxRetries : Int) (process : Option (ToolCallResult Args) → Result)
    (opening : List ChatMessage) (answers : Nat → Completion) :
    let caller := llmAgent finalTool tools maxRetries
    ∃ made talk ending,
      Runs.run (Talk.step caller) (.begin caller opening) ((List.range made).map answers) =
        some talk ∧
      talk.ending = some ending ∧
      (talk.requests = (List.range made).map fun attempt =>
        opening ++ ((List.range attempt).map answers).flatMap caller.complaint) ∧
      match agentResult process ending with
      | .ok result => result = process ((List.range (maxRetries + 1).toNat).findSome? fun attempt =>
          callOf tools (answers attempt))
      | .error error => ∃ attempt < made, (answers attempt).stop = .raised error := by
  dsimp only
  obtain ⟨made, talk, ran, ended⟩ :=
    talk_ends (llmAgent finalTool tools maxRetries) opening answers
  have told := told_run ran
  have settles := told.settles ended
  cases ends : talk.ending with
  | none => exact absurd ends ended
  | some ending =>
      rw [ends] at settles
      refine ⟨made, talk, ending, ran, ends, told.asked, ?_⟩
      cases ending with
      | answered call =>
          have found : (List.range (maxRetries + 1).toNat).findSome? (fun attempt =>
              (llmAgent finalTool tools maxRetries).answer (answers attempt)) = some call := settles
          simp only [agent_answer] at found
          show process (some call) = _
          rw [found]
      | exhausted lastFault =>
          obtain ⟨all, rejected, _⟩ := settles
          have nothing : (List.range (maxRetries + 1).toNat).findSome? (fun attempt =>
              callOf tools (answers attempt)) = none := by
            apply List.findSome?_eq_none_iff.mpr
            intro attempt member
            rw [← @agent_answer _ finalTool tools maxRetries]
            exact (rejected attempt (all ▸ List.mem_range.mp member)).answer
          show process none = _
          rw [nothing]
      | broken error =>
          obtain ⟨attempt, same, judged⟩ := settles
          exact ⟨attempt, by omega, stop_of_broken judged⟩

end Choirworks.Core
