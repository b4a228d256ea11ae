import Choirworks.Flows.Engine
import Choirworks.Orchestration.Outcome

/-!
`outcome_flow` as the source declares it. Three of its handlers return an open
route, which the edges behind them take whatever it is.
-/

namespace Choirworks.Flows.Outcome

open Choirworks.Flows.Flow (Acts)
open Orchestration (Session ExecutorConfig Env NodeState NodeRef OutcomeResult Handled)

inductive OutcomeHandler where
  | interpret | markInputRequired | revise | markDelivered | arbitrate | deliverQueued
deriving DecidableEq

def literals : OutcomeHandler → List Route
  | .interpret => ["deliver", "need_info", "revise"]
  | _ => []

def outcomeFlow : Flow OutcomeHandler where
  start := .interpret
  edges :=
    [ ⟨.interpret, .markDelivered, ["deliver"]⟩,
      ⟨.interpret, .markInputRequired, ["need_info"]⟩,
      ⟨.interpret, .revise, ["revise"]⟩,
      ⟨.revise, .markDelivered, []⟩,
      ⟨.markDelivered, .arbitrate, []⟩,
      ⟨.arbitrate, .deliverQueued, []⟩ ]

/-- The orchestration context and the payload. The payload holds its node as an
object, which stays what it is when the plan changes around it. -/
structure Context where
  session : Session
  ref : NodeRef
  node : Option NodeState := none
  decision : Option OutcomeResult := none

namespace Context

/-- A status change of the payload's node. -/
def moved (ctx : Context) (handled : Handled) : Context :=
  { ctx with
    session := handled.session
    ref := handled.ref
    node := handled.session.read handled.ref }

end Context

def routed (handled : Handled) (result : Result) : Except String Result :=
  match handled.raised with
  | some text => .error text
  | none => .ok result

section Handlers

variable (config : ExecutorConfig) (env : Env) (answered : Option OutcomeResult)

/-- `answered` is what the outcome agent says, if it is asked and says anything. -/
def acts : Acts OutcomeHandler Context
  | .interpret, ctx =>
      let output := (ctx.session.read ctx.ref).bind (·.output)
      let decision := Orchestration.interpretOutcome output answered
      ({ ctx with decision := some decision },
        .ok (.route
          (match decision.intent with
           | .needInfo => "need_info"
           | .revise => "revise"
           | .deliver => "deliver")))
  | .markInputRequired, ctx =>
      let question := (ctx.decision.map (·.question)).getD ""
      let handled := ctx.session.transition ctx.ref
        (fun node =>
          { node with
            question := if question = "" then node.output else some question
            a2aTaskId := none })
        .inputRequired
      (ctx.moved handled, routed handled (.outcome .ended))
  | .revise, ctx =>
      let revised :=
        match ctx.decision with
        | some decision => Orchestration.revise config env ctx.session decision
        | none => ctx.session
      ({ ctx with session := revised }, .ok (.route ""))
  | .markDelivered, ctx =>
      let handled := ctx.session.transition ctx.ref id .completed
      (ctx.moved handled, routed handled (.route ""))
  | .arbitrate, ctx =>
      match ctx.node with
      | some node =>
          ({ ctx with session := Orchestration.arbitrateMentions config env ctx.session node },
            .ok (.route ""))
      | none => (ctx, .ok (.route ""))
  | .deliverQueued, ctx =>
      match ctx.node with
      | some node =>
          ({ ctx with session := Orchestration.deliverQueued config env ctx.session node },
            .ok (.outcome .ended))
      | none => (ctx, .ok (.outcome .ended))

end Handlers

/-! ### The declaration -/

theorem outcomeFlow_valid : outcomeFlow.validate literals = .ok () := by decide

def rank : OutcomeHandler → Nat
  | .interpret => 4
  | .revise => 3
  | .markDelivered => 2
  | .arbitrate => 1
  | _ => 0

theorem outcomeFlow_acyclic : Chains.Acyclic outcomeFlow.Leads := by
  have falls : ∀ edge ∈ outcomeFlow.edges, rank edge.target < rank edge.source := by decide
  apply @Chains.acyclic_of_rank _ _ rank
  rintro _ _ ⟨edge, member, rfl, rfl⟩
  exact falls edge member

variable {config : ExecutorConfig} {env : Env} {answered : Option OutcomeResult}

theorem acts_declared : outcomeFlow.Declared literals (acts config env answered) := by
  intro handler _ ctx route returned
  cases handler with
  | interpret =>
      left
      grind [acts, literals]
  | markInputRequired => grind [acts, routed]
  | deliverQueued => grind [acts]
  | _ =>
      right
      decide

/-! ### The flow in one function -/

/-- What the caller of the flow sees: the session, the node and what was raised. -/
def Context.reports (ended : Context × Option (Except String FlowOutcome)) (done : Handled) : Prop :=
  ended.1.session = done.session ∧ ended.1.ref = done.ref ∧
    ended.2 = some (match done.raised with
      | some text => .error text
      | none => .ok .ended)

/-- A handler that changes the status of the node and ends the flow. -/
theorem run_ended {acts : Acts OutcomeHandler Context} {handler : OutcomeHandler}
    {ctx : Context} {handled : Handled}
    (acted : acts handler ctx = (ctx.moved handled, routed handled (.outcome .ended)))
    (fuel : Nat) : Context.reports (outcomeFlow.run acts (fuel + 1) handler ctx) handled := by
  cases raised : handled.raised with
  | none => simp [Context.reports, Flow.run, acted, routed, raised, Flow.progress, Context.moved]
  | some text =>
      simp [Context.reports, Flow.run, acted, routed, raised, Flow.progress, Context.moved]

theorem run_delivered (ctx : Context) (fuel : Nat) :
    Context.reports (outcomeFlow.run (acts config env answered) (fuel + 3) .markDelivered ctx)
      (Orchestration.markDelivered config env ctx.session ctx.ref) := by
  have on_arbitrate : outcomeFlow.targetFor .markDelivered "" = some .arbitrate := by decide
  have on_deliver : outcomeFlow.targetFor .arbitrate "" = some .deliverQueued := by decide
  cases raised : (ctx.session.transition ctx.ref id .completed).raised with
  | some text =>
      have acted : acts config env answered .markDelivered ctx =
          (ctx.moved (ctx.session.transition ctx.ref id .completed), .error text) := by
        simp only [acts, routed, raised]
      simp [Context.reports, Flow.run, acted, Flow.progress, Orchestration.markDelivered, raised,
        Context.moved]
  | none =>
      have acted : acts config env answered .markDelivered ctx =
          (ctx.moved (ctx.session.transition ctx.ref id .completed), .ok (.route "")) := by
        simp only [acts, routed, raised]
      rw [Flow.run_route acted on_arbitrate]
      set delivered := ctx.session.transition ctx.ref id .completed with transitioned
      cases held : delivered.session.read delivered.ref with
      | none =>
          rw [Flow.run_route (by simp only [acts, Context.moved, held]; rfl) on_deliver]
          simp [Context.reports, Flow.run, acts, Flow.progress, Orchestration.markDelivered,
            ← transitioned, raised, held]
      | some node =>
          rw [Flow.run_route (by simp only [acts, Context.moved, held]; rfl) on_deliver]
          simp [Context.reports, Flow.run, acts, Flow.progress, Orchestration.markDelivered,
            ← transitioned, raised, held]

/-- The engine on `outcome_flow` does to the session and the node what the one
function does, and raises what that raises. -/
theorem outcomeFlow_run (session : Session) (ref : NodeRef) :
    Context.reports
      (outcomeFlow.run (acts config env answered) 5 outcomeFlow.start { session, ref })
      (Orchestration.outcomeFlow config env session ref answered) := by
  unfold Orchestration.outcomeFlow
  dsimp only
  set decision := Orchestration.interpretOutcome ((session.read ref).bind (·.output)) answered
    with decided
  rw [show outcomeFlow.start = .interpret from rfl]
  cases intent : decision.intent with
  | needInfo =>
      rw [Flow.run_route (by simp only [acts, ← decided, intent]; rfl)
        (by decide : outcomeFlow.targetFor .interpret "need_info" = some .markInputRequired)]
      exact @run_ended (acts config env answered) _ _ _ (by simp only [acts]; rfl) 3
  | deliver =>
      rw [Flow.run_route (by simp only [acts, ← decided, intent]; rfl)
        (by decide : outcomeFlow.targetFor .interpret "deliver" = some .markDelivered)]
      have same : Orchestration.revise config env session decision = session := by
        simp [Orchestration.revise, intent]
      have delivered := @run_delivered config env answered
        { session, ref, decision := some decision } 1
      simpa [same] using delivered
  | revise =>
      rw [Flow.run_route (by simp only [acts, ← decided, intent]; rfl)
          (by decide : outcomeFlow.targetFor .interpret "revise" = some .revise),
        Flow.run_route (by simp only [acts]; rfl)
          (by decide : outcomeFlow.targetFor .revise "" = some .markDelivered)]
      exact run_delivered
        { session := Orchestration.revise config env session decision, ref,
          decision := some decision } 0

end Choirworks.Flows.Outcome
