import Choirworks.Flows.Engine
import Choirworks.Orchestration.Runner

/-!
`plan_flow` as the source declares it: its handlers, the literal routes of their
annotations and its edges. The engine driving it does what `planFlow` does in
one function.
-/

namespace Choirworks.Flows.Plan

open Choirworks.Flows.Flow (Acts)
open Orchestration (Session ExecutorConfig Env PlanPatch)

inductive PlanHandler where
  | checkRetryable | backoffContinue | checkInputRequired | exitWait | checkAllCompleted
  | emitCompleted | checkRepairable | repair | emitFailed | stalled
deriving DecidableEq

/-- The literal routes of the return annotations. -/
def literals : PlanHandler → List Route
  | .checkRetryable => ["retry", "next"]
  | .checkInputRequired => ["wait_input", "next"]
  | .checkAllCompleted => ["plan_completed", "next"]
  | .checkRepairable => ["repair", "next"]
  | .repair => ["repair_ok", defaultRoute]
  | _ => []

def planFlow : Flow PlanHandler where
  start := .checkRetryable
  edges :=
    [ ⟨.checkRetryable, .backoffContinue, ["retry"]⟩,
      ⟨.checkRetryable, .checkInputRequired, ["next"]⟩,
      ⟨.checkInputRequired, .exitWait, ["wait_input"]⟩,
      ⟨.checkInputRequired, .checkAllCompleted, ["next"]⟩,
      ⟨.checkAllCompleted, .emitCompleted, ["plan_completed"]⟩,
      ⟨.checkAllCompleted, .checkRepairable, ["next"]⟩,
      ⟨.checkRepairable, .repair, ["repair"]⟩,
      ⟨.checkRepairable, .stalled, ["next"]⟩,
      ⟨.repair, .backoffContinue, ["repair_ok"]⟩,
      ⟨.repair, .emitFailed, [defaultRoute]⟩ ]

/-- The orchestration context: the session, and whether it has been evicted. -/
structure Context where
  session : Session
  evicted : Bool := false

namespace Context

def evict (ctx : Context) : Context := { ctx with evicted := true }

end Context

section Handlers

variable (config : ExecutorConfig) (env : Env) (busy : Bool) (decision : Option PlanPatch)

/-- `busy` is whether node tasks are running, `decision` the answer of the repair
agent. -/
def acts : Acts PlanHandler Context
  | .checkRetryable, ctx =>
      let retryable := ctx.session.state.nodes.rows.any (·.canRetry config.maxNodeAttempts)
      (ctx, .ok (.route (if retryable then "retry" else "next")))
  | .backoffContinue, ctx => (ctx, .ok (.outcome .continued))
  | .checkInputRequired, ctx =>
      let waiting := ctx.session.state.inputRequiredNodes ≠ []
      (ctx, .ok (.route (if waiting then "wait_input" else "next")))
  | .exitWait, ctx =>
      let session := ctx.session.persist
      ({ ctx with
          session := if session.state.pendingInterventions ≠ [] then session.emitPendingQuestions
            else session },
        .ok (.outcome .exitWait))
  | .checkAllCompleted, ctx =>
      (ctx, .ok (.route (if ctx.session.state.allCompleted then "plan_completed" else "next")))
  | .emitCompleted, ctx => (ctx.evict, .ok (.outcome .exitDone))
  | .checkRepairable, ctx =>
      (ctx, .ok (.route (if ctx.session.state.hasFailures then "repair" else "next")))
  | .repair, ctx =>
      let state := ctx.session.state
      if config.replanOnFailure ∧ state.revisionCount < config.maxRevisions then
        let (session, succeeded) := Orchestration.repairPlan env ctx.session decision
        ({ ctx with session }, .ok (.route (if succeeded then "repair_ok" else defaultRoute)))
      else (ctx, .ok (.route defaultRoute))
  | .emitFailed, ctx => (ctx.evict, .ok (.outcome .exitFailed))
  | .stalled, ctx =>
      let state := ctx.session.state
      if state.hasPendingWork ∧ (state.readyNodes ≠ [] ∨ busy) then (ctx, .ok (.outcome .continued))
      else (ctx.evict, .ok (.outcome .exitFailed))

end Handlers

/-! ### The declaration -/

theorem planFlow_valid : planFlow.validate literals = .ok () := by decide

/-- How far a handler is from the end. -/
def rank : PlanHandler → Nat
  | .checkRetryable => 5
  | .checkInputRequired => 4
  | .checkAllCompleted => 3
  | .checkRepairable => 2
  | .repair => 1
  | _ => 0

theorem planFlow_acyclic : Chains.Acyclic planFlow.Leads := by
  have falls : ∀ edge ∈ planFlow.edges, rank edge.target < rank edge.source := by decide
  apply @Chains.acyclic_of_rank _ _ rank
  rintro _ _ ⟨edge, member, rfl, rfl⟩
  exact falls edge member

variable {config : ExecutorConfig} {env : Env} {busy : Bool} {decision : Option PlanPatch}

theorem acts_declared : planFlow.Declared literals (acts config env busy decision) := by
  intro handler _ ctx route returned
  left
  cases handler <;> grind [acts, literals]

/-- The session of an empty plan. -/
def idle : Context := { session := ⟨{}, {}⟩ }

theorem validated_run_idle :
    let steps := acts {} ⟨["writer"], "now", fun drawn => toString drawn⟩ false none
    ∃ after result, (∀ fuel, planFlow.nodes.length ≤ fuel →
        planFlow.run steps fuel planFlow.start idle = (after, some result)) ∧
      ∃ handler ∈ planFlow.nodes, ∃ before,
        steps handler before = (after, result.map Result.outcome) :=
  Flow.validated_run planFlow_valid planFlow_acyclic acts_declared idle

/-! ### The flow in one function -/

/-- What the caller sees of an outcome. -/
def reported : Orchestration.FlowOutcome → FlowOutcome
  | .continued => .continued
  | .exitWait => .exitWait
  | .exitDone => .exitDone
  | .exitFailed => .exitFailed

/-- The exits that evict the session. -/
def evicts : Orchestration.FlowOutcome → Bool
  | .exitDone | .exitFailed => true
  | _ => false

/-- Without pending questions there is nothing to present. -/
theorem present_eq (session : Session) :
    (if session.state.pendingInterventions ≠ [] then session.emitPendingQuestions else session) =
      session.emitPendingQuestions := by
  split
  case isTrue => rfl
  case isFalse free =>
    have none_pending : session.state.pendingInterventions = [] := not_not.mp free
    simp [Session.emitPendingQuestions, none_pending]

theorem run_repair (session : Session) (fuel : Nat) :
    planFlow.run (acts config env busy decision) (fuel + 2) .repair { session } =
      if Orchestration.mayRepair config session.state then
        let (repaired, succeeded) := Orchestration.repairPlan env session decision
        ({ session := repaired, evicted := !succeeded },
          some (.ok (if succeeded then .continued else .exitFailed)))
      else ({ session, evicted := true }, some (.ok .exitFailed)) := by
  have ok : planFlow.targetFor .repair "repair_ok" = some .backoffContinue := by decide
  have failed : planFlow.targetFor .repair defaultRoute = some .emitFailed := by decide
  by_cases may : config.replanOnFailure ∧ session.state.revisionCount < config.maxRevisions
  · rw [if_pos (by simpa [Orchestration.mayRepair] using may)]
    cases repaired : Orchestration.repairPlan env session decision with
    | mk after succeeded =>
        cases succeeded with
        | true =>
            rw [Flow.run_route (by simp [acts, may, repaired]; rfl) ok]
            rfl
        | false =>
            rw [Flow.run_route (by simp [acts, may, repaired]; rfl) failed]
            rfl
  · rw [if_neg (by simpa [Orchestration.mayRepair] using may),
      Flow.run_route (by simp only [acts, if_neg may]; rfl) failed]
    rfl

theorem run_stalled (session : Session) (fuel : Nat) :
    planFlow.run (acts config env busy decision) (fuel + 1) .stalled { session } =
      if session.state.hasPendingWork ∧ (session.state.readyNodes ≠ [] ∨ busy) then
        ({ session }, some (.ok .continued))
      else ({ session, evicted := true }, some (.ok .exitFailed)) := by
  by_cases going : session.state.hasPendingWork ∧ (session.state.readyNodes ≠ [] ∨ busy)
  · rw [if_pos going]
    simp only [Flow.run, acts, if_pos going, Flow.progress]
  · rw [if_neg going]
    simp only [Flow.run, acts, if_neg going, Flow.progress]
    rfl

/-- The engine on `plan_flow` does to the session what the one function does,
and the session is evicted exactly where the flow exits without waiting. -/
theorem planFlow_run (session : Session) :
    let done := Orchestration.planFlow config env session busy decision
    planFlow.run (acts config env busy decision) 6 planFlow.start { session } =
      ({ session := done.1, evicted := evicts done.2 }, some (.ok (reported done.2))) := by
  unfold Orchestration.planFlow
  dsimp only
  split
  case isTrue retryable =>
    rw [show planFlow.start = .checkRetryable from rfl,
      Flow.run_route (by simp only [acts, if_pos retryable]; rfl)
        (by decide : planFlow.targetFor .checkRetryable "retry" = some .backoffContinue)]
    rfl
  case isFalse settled =>
    rw [show planFlow.start = .checkRetryable from rfl,
      Flow.run_route (by simp only [acts, if_neg settled]; rfl)
        (by decide : planFlow.targetFor .checkRetryable "next" = some .checkInputRequired)]
    split
    case isTrue waiting =>
      rw [Flow.run_route (by simp only [acts, if_pos waiting]; rfl)
        (by decide : planFlow.targetFor .checkInputRequired "wait_input" = some .exitWait)]
      simp only [Flow.run, acts, present_eq, Flow.progress]
      rfl
    case isFalse answered =>
      rw [Flow.run_route (by simp only [acts, if_neg answered]; rfl)
        (by decide : planFlow.targetFor .checkInputRequired "next" = some .checkAllCompleted)]
      split
      case isTrue completed =>
        rw [Flow.run_route (by simp only [acts, if_pos completed]; rfl)
          (by decide : planFlow.targetFor .checkAllCompleted "plan_completed" =
            some .emitCompleted)]
        rfl
      case isFalse unfinished =>
        rw [Flow.run_route (by simp only [acts, if_neg unfinished]; rfl)
          (by decide : planFlow.targetFor .checkAllCompleted "next" = some .checkRepairable)]
        split
        case isTrue failed =>
          rw [Flow.run_route (by simp only [acts, if_pos failed]; rfl)
            (by decide : planFlow.targetFor .checkRepairable "repair" = some .repair), run_repair]
          split
          · cases repaired : Orchestration.repairPlan env session decision with
            | mk after succeeded => cases succeeded <;> rfl
          · rfl
        case isFalse unfailed =>
          rw [Flow.run_route (by simp only [acts, if_neg unfailed]; rfl)
            (by decide : planFlow.targetFor .checkRepairable "next" = some .stalled), run_stalled]
          split <;> rfl

end Choirworks.Flows.Plan
