import Choirworks.Flows.Outcome

/-!
`settlement_flow` as the source declares it. Its handlers take the lock one by one,
so that the session may be another one each time: `between` is what other tasks do
to it, and to the node, before each handler.
-/

namespace Choirworks.Flows.Settlement

open Choirworks.Flows.Flow (Acts)
open Outcome (routed)
open Orchestration (Session ExecutorConfig Env NodeState NodeRef AssistanceResult Handled)

inductive SettlementHandler where
  | inspectHelpers | noop | resolveFromHelper | decideAssistance | act
deriving DecidableEq

def literals : SettlementHandler → List Route
  | .inspectHelpers => ["already_pending", "helper_completed", "helper_active", "helper_blocked", "decide"]
  | .decideAssistance => ["act"]
  | _ => []

def settlementFlow : Flow SettlementHandler where
  start := .inspectHelpers
  edges :=
    [ ⟨.inspectHelpers, .noop, ["already_pending", "helper_active", "helper_blocked"]⟩,
      ⟨.inspectHelpers, .resolveFromHelper, ["helper_completed"]⟩,
      ⟨.inspectHelpers, .decideAssistance, ["decide"]⟩,
      ⟨.decideAssistance, .act, ["act"]⟩ ]

/-- What other tasks do before the handler with that number. -/
abbrev Between := Nat → Session × NodeRef → Session × NodeRef

/-- The orchestration context and the payload; `turns` counts the handlers. -/
structure Context where
  session : Session
  ref : NodeRef
  decision : Option AssistanceResult := none
  helper : Option NodeState := none
  turns : Nat := 0

namespace Context

def meanwhile (ctx : Context) (between : Between) : Context :=
  let (session, ref) := between ctx.turns (ctx.session, ctx.ref)
  { ctx with session, ref, turns := ctx.turns + 1 }

def handled (ctx : Context) (done : Handled) : Context :=
  { ctx with session := done.session, ref := done.ref }

end Context

section Handlers

variable (config : ExecutorConfig) (env : Env) (between : Between)
  (answered : Option AssistanceResult)

def inspected (ctx : Context) : Context × Except String Result :=
  match ctx.session.read ctx.ref with
  | none => (ctx, .ok (.outcome .ended))
  | some node =>
      match ctx.session.state.inspectHelpers node with
      | .alreadyPending => (ctx, .ok (.route "already_pending"))
      | .helperCompleted helper =>
          ({ ctx with helper := some helper }, .ok (.route "helper_completed"))
      | .helperActive => (ctx, .ok (.route "helper_active"))
      | .helperBlocked => (ctx, .ok (.route "helper_blocked"))
      | .decide => (ctx, .ok (.route "decide"))

def asksHuman (ctx : Context) (node : NodeState) : Context × Except String Result :=
  let done := Orchestration.requestHuman env ctx.session ctx.ref node ctx.decision
  (ctx.handled done, routed done (.outcome .ended))

def acted (ctx : Context) : Context × Except String Result :=
  match ctx.session.read ctx.ref with
  | none => (ctx, .ok (.outcome .ended))
  | some node =>
      if (ctx.session.state.pendingInterventionFor node.id).isSome then
        (ctx, .ok (.outcome .ended))
      else
        let target := (ctx.decision.bind (·.targetAgent)).getD ""
        let instruction := (ctx.decision.map (·.instruction)).getD ""
        if target = "" then asksHuman env ctx node
        else
          match Orchestration.callSubagent config env ctx.session node.id target instruction with
          | (session, .ok _) => ({ ctx with session }, .ok (.outcome .exitDone))
          | (session, .error _) => asksHuman env { ctx with session } node

/-- `answered` is the decision about assistance. -/
def acts : Acts SettlementHandler Context := fun handler found =>
  let ctx := found.meanwhile between
  match handler with
  | .inspectHelpers => inspected ctx
  | .noop => (ctx, .ok (.outcome .ended))
  | .resolveFromHelper =>
      match ctx.helper with
      | none => (ctx, .ok (.outcome .ended))
      | some helper =>
          let done := Orchestration.resolveFromHelper ctx.session ctx.ref helper
          (ctx.handled done, routed done (.outcome .exitDone))
  | .decideAssistance => ({ ctx with decision := answered }, .ok (.route "act"))
  | .act => acted config env ctx

/-! ### The declaration -/

theorem settlementFlow_valid : settlementFlow.validate literals = .ok () := by decide

def rank : SettlementHandler → Nat
  | .inspectHelpers => 2
  | .decideAssistance => 1
  | _ => 0

theorem settlementFlow_acyclic : Chains.Acyclic settlementFlow.Leads := by
  have falls : ∀ edge ∈ settlementFlow.edges, rank edge.target < rank edge.source := by decide
  apply @Chains.acyclic_of_rank _ _ rank
  rintro _ _ ⟨edge, member, rfl, rfl⟩
  exact falls edge member

/-- The flow in one function: the last handler that has something to do, on the
session that it finds. -/
def settled (session : Session) (ref : NodeRef) : Handled :=
  let (first, firstRef) := between 0 (session, ref)
  match first.read firstRef with
  | none => ⟨first, firstRef, none⟩
  | some node =>
      let (second, secondRef) := between 1 (first, firstRef)
      match first.state.inspectHelpers node with
      | .alreadyPending | .helperActive | .helperBlocked => ⟨second, secondRef, none⟩
      | .helperCompleted helper => Orchestration.resolveFromHelper second secondRef helper
      | .decide =>
          let (third, thirdRef) := between 2 (second, secondRef)
          Orchestration.actOnDecision config env third thirdRef answered

end Handlers

section Runs

variable {config : ExecutorConfig} {env : Env} {between : Between}
  {answered : Option AssistanceResult}

/-- The handler ends the flow with what the step does. -/
structure Concludes (answer : Context × Except String Result) (done : Handled) : Prop where
  session : answer.1.session = done.session
  ref : answer.1.ref = done.ref
  result : ∃ outcome, (outcome = .ended ∨ outcome = .exitDone) ∧
    answer.2 = routed done (.outcome outcome)

/-- What the caller of the flow sees: the session, the node and what was raised. -/
structure Reports (ran : Context × Option (Except String FlowOutcome)) (done : Handled) : Prop where
  session : ran.1.session = done.session
  ref : ran.1.ref = done.ref
  result : ∃ outcome, (outcome = .ended ∨ outcome = .exitDone) ∧
    ran.2 = some (match done.raised with
      | some text => .error text
      | none => .ok outcome)

theorem human_concludes (ctx : Context) (node : NodeState) :
    Concludes (asksHuman env ctx node)
      (Orchestration.requestHuman env ctx.session ctx.ref node ctx.decision) :=
  ⟨rfl, rfl, .ended, Or.inl rfl, rfl⟩

theorem acted_concludes (ctx : Context) :
    Concludes (acted config env ctx)
      (Orchestration.actOnDecision config env ctx.session ctx.ref ctx.decision) := by
  unfold acted Orchestration.actOnDecision
  cases ctx.session.read ctx.ref with
  | none => exact ⟨rfl, rfl, .ended, Or.inl rfl, rfl⟩
  | some node =>
      dsimp only
      split
      · exact ⟨rfl, rfl, .ended, Or.inl rfl, rfl⟩
      · split
        · exact human_concludes ctx node
        · generalize Orchestration.callSubagent _ _ _ _ _ _ = called
          obtain ⟨asked, refused | helper⟩ := called
          · exact human_concludes { ctx with session := asked } node
          · exact ⟨rfl, rfl, .exitDone, Or.inr rfl, rfl⟩

theorem resolved_concludes (ctx : Context) (helper : NodeState) :
    Concludes
      (ctx.handled (Orchestration.resolveFromHelper ctx.session ctx.ref helper),
        routed (Orchestration.resolveFromHelper ctx.session ctx.ref helper) (.outcome .exitDone))
      (Orchestration.resolveFromHelper ctx.session ctx.ref helper) :=
  ⟨rfl, rfl, .exitDone, Or.inr rfl, rfl⟩

theorem Concludes.unrouted {answer : Context × Except String Result} {done : Handled}
    (concludes : Concludes answer done) (route : Route) : answer.2 ≠ .ok (.route route) := by
  obtain ⟨outcome, _, result⟩ := concludes.result
  rw [result, routed]
  split <;> simp

/-- A handler that concludes is the last one of the run. -/
theorem Concludes.reports {acts : Acts SettlementHandler Context} {handler : SettlementHandler}
    {ctx : Context} {done : Handled} (concludes : Concludes (acts handler ctx) done) (fuel : Nat) :
    Reports (settlementFlow.run acts (fuel + 1) handler ctx) done := by
  obtain ⟨session, ref, outcome, either, result⟩ := concludes
  rw [Flow.run]
  cases answer : acts handler ctx with
  | mk after answered =>
      rw [answer] at session ref result
      dsimp only at session ref result
      rw [result, routed]
      cases raised : done.raised with
      | none => exact ⟨session, ref, outcome, either, by rw [raised]; rfl⟩
      | some text => exact ⟨session, ref, outcome, either, by rw [raised]; rfl⟩

theorem acts_declared : settlementFlow.Declared literals (acts config env between answered) := by
  intro handler _ ctx route returned
  left
  cases handler with
  | inspectHelpers => grind [acts, inspected, literals]
  | decideAssistance => grind [acts, literals]
  | noop => grind [acts]
  | resolveFromHelper => grind [acts, routed]
  | act => exact absurd returned ((acted_concludes _).unrouted route)

/-- The engine on `settlement_flow` does to the session and the node what its steps do
one by one, whatever happens between them. -/
theorem settlementFlow_run (session : Session) (ref : NodeRef) :
    Reports
      (settlementFlow.run (acts config env between answered) 3 settlementFlow.start { session, ref })
      (settled config env between answered session ref) := by
  rw [show settlementFlow.start = .inspectHelpers from rfl]
  unfold settled
  dsimp only
  cases found : (between 0 (session, ref)).1.read (between 0 (session, ref)).2 with
  | none =>
      dsimp only
      apply Concludes.reports
      simp only [acts, Context.meanwhile, inspected, found]
      exact ⟨rfl, rfl, .ended, Or.inl rfl, rfl⟩
  | some node =>
      dsimp only
      cases inspects : (between 0 (session, ref)).1.state.inspectHelpers node with
      | alreadyPending =>
          rw [Flow.run_route (by simp only [acts, Context.meanwhile, inspected, found, inspects]; rfl)
            (by decide : settlementFlow.targetFor .inspectHelpers "already_pending" = some .noop)]
          apply Concludes.reports
          exact ⟨rfl, rfl, .ended, Or.inl rfl, rfl⟩
      | helperActive =>
          rw [Flow.run_route (by simp only [acts, Context.meanwhile, inspected, found, inspects]; rfl)
            (by decide : settlementFlow.targetFor .inspectHelpers "helper_active" = some .noop)]
          apply Concludes.reports
          exact ⟨rfl, rfl, .ended, Or.inl rfl, rfl⟩
      | helperBlocked =>
          rw [Flow.run_route (by simp only [acts, Context.meanwhile, inspected, found, inspects]; rfl)
            (by decide : settlementFlow.targetFor .inspectHelpers "helper_blocked" = some .noop)]
          apply Concludes.reports
          exact ⟨rfl, rfl, .ended, Or.inl rfl, rfl⟩
      | helperCompleted helper =>
          rw [Flow.run_route (by simp only [acts, Context.meanwhile, inspected, found, inspects]; rfl)
            (by decide :
              settlementFlow.targetFor .inspectHelpers "helper_completed" = some .resolveFromHelper)]
          apply Concludes.reports
          exact resolved_concludes _ helper
      | decide =>
          rw [Flow.run_route (by simp only [acts, Context.meanwhile, inspected, found, inspects]; rfl)
              (by decide :
                settlementFlow.targetFor .inspectHelpers "decide" = some .decideAssistance),
            Flow.run_route (by simp only [acts]; rfl)
              (by decide : settlementFlow.targetFor .decideAssistance "act" = some .act)]
          apply Concludes.reports
          exact acted_concludes _

end Runs

end Choirworks.Flows.Settlement
