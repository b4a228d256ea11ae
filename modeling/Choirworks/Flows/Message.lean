import Choirworks.Flows.Plan
import Choirworks.Orchestration.Message

/-!
`message_flow` as the source declares it. Its handlers hand what they find to one
another in the orchestration context, where `classify` and `handle` pass it as
arguments.
-/

namespace Choirworks.Flows.Message

open Choirworks.Flows.Flow (Acts)
open Orchestration (Runtime ExecutorConfig Env Inbound NodeState QuestionResponse PlanNodeDraft given)

inductive MessageHandler where
  | prepareInbound | doRecover | classifyInbound | doReject | doAnswers | doReemitQuestions
  | classifyRoom | doComplete | doPlanAndLaunch | doNoop | doEnqueue | doSpawnFollowup
  | doInterrupt | doNewPlan
deriving DecidableEq

def literals : MessageHandler → List Route
  | .prepareInbound => ["recover", "ready"]
  | .classifyInbound => ["malformed", "answers", "unanswered_pending", "room", "empty", "plan"]
  | .classifyRoom =>
      ["quote_active", "quote_completed", "interrupt", "target", "new_plan", "noop"]
  | _ => []

def messageFlow : Flow MessageHandler where
  start := .prepareInbound
  edges :=
    [ ⟨.prepareInbound, .doRecover, ["recover"]⟩,
      ⟨.prepareInbound, .classifyInbound, ["ready"]⟩,
      ⟨.classifyInbound, .doReject, ["malformed"]⟩,
      ⟨.classifyInbound, .doAnswers, ["answers"]⟩,
      ⟨.classifyInbound, .doReemitQuestions, ["unanswered_pending"]⟩,
      ⟨.classifyInbound, .classifyRoom, ["room"]⟩,
      ⟨.classifyInbound, .doComplete, ["empty"]⟩,
      ⟨.classifyInbound, .doPlanAndLaunch, ["plan"]⟩,
      ⟨.classifyRoom, .doNoop, ["noop"]⟩,
      ⟨.classifyRoom, .doEnqueue, ["quote_active", "target"]⟩,
      ⟨.classifyRoom, .doSpawnFollowup, ["quote_completed"]⟩,
      ⟨.classifyRoom, .doInterrupt, ["interrupt"]⟩,
      ⟨.classifyRoom, .doNewPlan, ["new_plan"]⟩ ]

/-- The orchestration context of one request. -/
structure Context where
  runtime : Runtime
  request : Inbound
  text : String := ""
  responses : List QuestionResponse := []
  malformed : Option String := none
  mentions : List String := []
  target : Option NodeState := none
  quoteId : Option String := none
  needsRunner : Bool := false

namespace Context

def route (ctx : Context) (route : Route) : Context × Except String Result :=
  (ctx, .ok (.route route))

/-- Every handler that does something ends the flow. -/
def finishWith (ctx : Context) (runtime : Runtime) : Context × Except String Result :=
  ({ ctx with runtime }, .ok (.outcome .ended))

/-- `_finish`: the room route may have to start a runner. -/
def finish (ctx : Context) (runtime : Runtime) : Context × Except String Result :=
  ctx.finishWith (if ctx.needsRunner then runtime.startRunner else runtime)

end Context

section Handlers

variable (config : ExecutorConfig) (env : Env) (drafts : List (Option (List PlanNodeDraft)))

def classifyInbound (ctx : Context) : Context × Except String Result :=
  let state := ctx.runtime.session.state
  if ctx.malformed.isSome then ctx.route "malformed"
  else if ctx.responses ≠ [] then ctx.route "answers"
  else if state.pendingInterventions ≠ [] then ctx.route "unanswered_pending"
  else if ctx.runtime.alive then ctx.route "room"
  else if state.hasPendingWork then Context.route { ctx with needsRunner := true } "room"
  else if ctx.text = "" then ctx.route "empty"
  else ctx.route "plan"

/-- What the room route does when no node is quoted, or none that can take it. -/
def classifyTarget (ctx : Context) : Context × Except String Result :=
  let state := ctx.runtime.session.state
  let quoteId := ctx.request.quoteId
  let target :=
    match state.activeNodes with
    | active :: _ => some active
    | [] => state.nodes.rows.find? fun node => node.status ∈ [.pending, .ready]
  match ctx.request.interrupt, state.activeNodes with
  | true, active :: _ => Context.route { ctx with target := some active } "interrupt"
  | _, _ =>
      match target with
      | some target =>
          Context.route
            { ctx with
              quoteId := if given quoteId then quoteId else none
              target := some target }
            "target"
      | none => ctx.route "new_plan"

def classifyRoom (ctx : Context) : Context × Except String Result :=
  let quoteId := ctx.request.quoteId
  if ctx.text = "" then ctx.route "noop"
  else if given quoteId ∧ !ctx.request.interrupt then
    let quoted := ctx.runtime.session.state.nodes.rows.find? fun node =>
      some node.id = quoteId ∨ some (ctx.request.taskId ++ ":" ++ node.id) = quoteId
    match quoted with
    | some quoted =>
        if quoted.status ∈ Orchestration.activeNodeStatuses then
          Context.route { ctx with quoteId, target := some quoted } "quote_active"
        else if quoted.status = .completed then
          Context.route { ctx with target := some quoted } "quote_completed"
        else classifyTarget ctx
    | none => classifyTarget ctx
  else classifyTarget ctx

/-- `drafts` are the answers of the planner. -/
def acts : Acts MessageHandler Context
  | .prepareInbound, ctx =>
      let request := ctx.request
      if request.recover then ctx.route "recover"
      else
        Context.route
          { ctx with
            text := request.request
            responses := match request.responses with | .ok responses => responses | .error _ => []
            malformed := match request.responses with | .ok _ => none | .error text => some text
            mentions := request.allMentions }
          "ready"
  | .doRecover, ctx =>
      ctx.finishWith
        (Runtime.startRunner { ctx.runtime with session := ctx.runtime.session.recoverSession })
  | .classifyInbound, ctx => classifyInbound ctx
  | .doReject, ctx => ctx.finishWith ctx.runtime
  | .doAnswers, ctx =>
      let (session, resolved) := ctx.runtime.session.answerAll ctx.responses
      let presented :=
        if session.state.pendingInterventions ≠ [] then session.emitPendingQuestions else session
      ctx.finishWith
        (if resolved then
          Runtime.startRunner { ctx.runtime with session := presented, wake := true }
        else { ctx.runtime with session })
  | .doReemitQuestions, ctx =>
      ctx.finishWith { ctx.runtime with session := ctx.runtime.session.emitPendingQuestions }
  | .doComplete, ctx => ctx.finishWith ctx.runtime.evict
  | .doPlanAndLaunch, ctx =>
      ctx.finishWith (ctx.runtime.planAndLaunch config env drafts ctx.mentions)
  | .classifyRoom, ctx => classifyRoom ctx
  | .doNoop, ctx => ctx.finish ctx.runtime
  | .doEnqueue, ctx =>
      match ctx.target with
      | none => ctx.finish ctx.runtime
      | some node =>
          let session := ctx.runtime.session
          let state := session.state.enqueue node.id ctx.text ctx.quoteId env.now
          ctx.finish { ctx.runtime with session := { session with state }.persist }
  | .doSpawnFollowup, ctx =>
      match ctx.target with
      | none => ctx.finish ctx.runtime
      | some node =>
          let session :=
            Orchestration.spawnFollowupNode config env ctx.runtime.session ctx.text node [node.id]
          ctx.finish { ctx.runtime with session }
  | .doInterrupt, ctx =>
      match ctx.target with
      | none => ctx.finish ctx.runtime
      | some node =>
          let session := ctx.runtime.session.interrupt config env node ctx.text
          ctx.finish { ctx.runtime with session }
  | .doNewPlan, ctx => ctx.finish (ctx.runtime.planAndLaunch config env drafts [])

end Handlers

/-! ### The declaration -/

theorem messageFlow_valid : messageFlow.validate literals = .ok () := by decide

def rank : MessageHandler → Nat
  | .prepareInbound => 3
  | .classifyInbound => 2
  | .classifyRoom => 1
  | _ => 0

theorem messageFlow_acyclic : Chains.Acyclic messageFlow.Leads := by
  have falls : ∀ edge ∈ messageFlow.edges, rank edge.target < rank edge.source := by decide
  apply @Chains.acyclic_of_rank _ _ rank
  rintro _ _ ⟨edge, member, rfl, rfl⟩
  exact falls edge member

/-! ### The flow in one function -/

variable {config : ExecutorConfig} {env : Env} {drafts : List (Option (List PlanNodeDraft))}

/-- The context behind `_prepare_inbound`. -/
def ready (runtime : Runtime) (inbound : Inbound) : Context where
  runtime := runtime
  request := inbound
  text := inbound.request
  responses := match inbound.responses with | .ok responses => responses | .error _ => []
  malformed := match inbound.responses with | .ok _ => none | .error text => some text
  mentions := inbound.allMentions

/-- The context in the room. -/
def inRoom (runtime : Runtime) (inbound : Inbound) : Context :=
  { ready runtime inbound with needsRunner := runtime.needsRunner }

/-- A flow that ends without an exception, and what it leaves. -/
def Context.leaves (ended : Context × Option (Except String FlowOutcome)) (runtime : Runtime) :
    Prop :=
  ended.1.runtime = runtime ∧ ended.2 = some (.ok .ended)

theorem run_finished {handler : MessageHandler} {ctx : Context} {runtime : Runtime}
    (acted : acts config env drafts handler ctx = ctx.finishWith runtime) (fuel : Nat) :
    Context.leaves (messageFlow.run (acts config env drafts) (fuel + 1) handler ctx) runtime := by
  simp only [Context.leaves, Flow.run, acted, Context.finishWith, Flow.progress, and_self]

/-- A route is taken to a handler that does what the chosen one does. -/
def Chooses (config : ExecutorConfig) (env : Env) (drafts : List (Option (List PlanNodeDraft)))
    (runtime : Runtime) (inbound : Inbound) (answer : Context × Except String Result)
    (chosen : Orchestration.Handler) : Prop :=
  ∃ route next, answer.2 = .ok (.route route) ∧
    messageFlow.targetFor .classifyRoom route = some next ∧
    Context.leaves (messageFlow.run (acts config env drafts) 1 next answer.1)
      (runtime.handle config env inbound drafts chosen)

section Room

variable (runtime : Runtime) (inbound : Inbound)

theorem classifyTarget_chooses :
    Chooses config env drafts runtime inbound (classifyTarget (inRoom runtime inbound))
      (runtime.classifyUnquoted inbound) := by
  have on_target : messageFlow.targetFor .classifyRoom "target" = some .doEnqueue := by decide
  have on_interrupt : messageFlow.targetFor .classifyRoom "interrupt" = some .doInterrupt := by
    decide
  have on_plan : messageFlow.targetFor .classifyRoom "new_plan" = some .doNewPlan := by decide
  have same_state : (inRoom runtime inbound).runtime.session.state = runtime.session.state := rfl
  have same_interrupt : (inRoom runtime inbound).request.interrupt = inbound.interrupt := rfl
  unfold classifyTarget Runtime.classifyUnquoted
  simp only [same_state, same_interrupt]
  cases interrupt : inbound.interrupt with
  | true =>
      cases nodes : runtime.session.state.activeNodes with
      | cons active rest => exact ⟨"interrupt", .doInterrupt, rfl, on_interrupt, rfl, rfl⟩
      | nil =>
          cases found : runtime.session.state.nodes.rows.find? fun node =>
              node.status ∈ [.pending, .ready] with
          | some target => exact ⟨"target", .doEnqueue, rfl, on_target, rfl, rfl⟩
          | none => exact ⟨"new_plan", .doNewPlan, rfl, on_plan, rfl, rfl⟩
  | false =>
      cases nodes : runtime.session.state.activeNodes with
      | cons active rest => exact ⟨"target", .doEnqueue, rfl, on_target, rfl, rfl⟩
      | nil =>
          cases found : runtime.session.state.nodes.rows.find? fun node =>
              node.status ∈ [.pending, .ready] with
          | some target => exact ⟨"target", .doEnqueue, rfl, on_target, rfl, rfl⟩
          | none => exact ⟨"new_plan", .doNewPlan, rfl, on_plan, rfl, rfl⟩

theorem quoted_eq :
    (runtime.session.state.nodes.rows.find? fun node =>
      some node.id = inbound.quoteId ∨
        some (inbound.taskId ++ ":" ++ node.id) = inbound.quoteId) =
      runtime.quotedNode inbound := by
  unfold Runtime.quotedNode
  cases inbound.quoteId with
  | none => simp
  | some quoteId => simp

theorem classifyRoom_chooses :
    Chooses config env drafts runtime inbound (classifyRoom (inRoom runtime inbound))
      (runtime.classifyRoom inbound) := by
  have on_noop : messageFlow.targetFor .classifyRoom "noop" = some .doNoop := by decide
  have on_active : messageFlow.targetFor .classifyRoom "quote_active" = some .doEnqueue := by
    decide
  have on_completed : messageFlow.targetFor .classifyRoom "quote_completed" =
      some .doSpawnFollowup := by decide
  have unquoted := @classifyTarget_chooses config env drafts runtime inbound
  have same_text : (inRoom runtime inbound).text = inbound.request := rfl
  have same_request : (inRoom runtime inbound).request = inbound := rfl
  have same_quoted :
      ((inRoom runtime inbound).runtime.session.state.nodes.rows.find? fun node =>
        some node.id = inbound.quoteId ∨
          some (inbound.taskId ++ ":" ++ node.id) = inbound.quoteId) =
        runtime.quotedNode inbound := quoted_eq runtime inbound
  unfold classifyRoom Runtime.classifyRoom
  simp only [same_text, same_request, same_quoted]
  split
  · exact ⟨"noop", .doNoop, rfl, on_noop, rfl, rfl⟩
  · split
    · cases found : runtime.quotedNode inbound with
      | none => exact unquoted
      | some quoted =>
          dsimp only
          split
          · exact ⟨"quote_active", .doEnqueue, rfl, on_active, rfl, rfl⟩
          · split
            · exact ⟨"quote_completed", .doSpawnFollowup, rfl, on_completed, rfl, rfl⟩
            · exact unquoted
    · exact unquoted

/-- The room, entered with what the classification knows about the runner. -/
theorem run_room {ctx : Context} (entered : ctx = inRoom runtime inbound) (fuel : Nat) :
    Context.leaves (messageFlow.run (acts config env drafts) (fuel + 2) .classifyRoom ctx)
      (runtime.handle config env inbound drafts (runtime.classifyRoom inbound)) := by
  obtain ⟨route, next, returned, found, left⟩ := @classifyRoom_chooses config env drafts
    runtime inbound
  subst entered
  have acted : acts config env drafts .classifyRoom (inRoom runtime inbound) =
      ((classifyRoom (inRoom runtime inbound)).1, .ok (.route route)) := by
    rw [← returned, Prod.mk.eta]
    simp only [acts]
  rw [show fuel + 2 = fuel + 1 + 1 from rfl, Flow.run_route acted found]
  cases ended : messageFlow.run (acts config env drafts) 1 next
      (classifyRoom (inRoom runtime inbound)).1 with
  | mk after result =>
      rw [ended] at left
      obtain ⟨same, rfl⟩ := left
      rw [Flow.run_more 1 ended (by omega)]
      exact ⟨same, rfl⟩

theorem run_classified :
    Context.leaves
      (messageFlow.run (acts config env drafts) 3 .classifyInbound (ready runtime inbound))
      (runtime.handle config env inbound drafts (runtime.classifyInbound inbound)) := by
  have on_room : messageFlow.targetFor .classifyInbound "room" = some .classifyRoom := by decide
  unfold Runtime.classifyInbound
  cases parsed : inbound.responses with
  | error text =>
      rw [Flow.run_route (by simp only [acts, classifyInbound, ready, parsed]; rfl)
        (by decide : messageFlow.targetFor .classifyInbound "malformed" = some .doReject)]
      apply run_finished
      simp only [acts, Runtime.handle]
  | ok responses =>
      cases responses with
      | cons response rest =>
          rw [Flow.run_route (by simp only [acts, classifyInbound, ready, parsed]; rfl)
            (by decide : messageFlow.targetFor .classifyInbound "answers" = some .doAnswers)]
          cases answered : runtime.session.answerAll (response :: rest) with
          | mk session resolved =>
              apply run_finished
              simp only [acts, answered, Plan.present_eq, Runtime.handle]
      | nil =>
          dsimp only
          split
          case isTrue pending =>
            rw [Flow.run_route
              (by simp only [acts, classifyInbound, ready, parsed, if_pos pending]; rfl)
              (by decide : messageFlow.targetFor .classifyInbound "unanswered_pending" =
                some .doReemitQuestions)]
            apply run_finished
            simp only [acts, Runtime.handle]
          case isFalse free =>
            split
            case isTrue alive =>
              rw [Flow.run_route
                (by simp only [acts, classifyInbound, ready, parsed, if_neg free, if_pos alive]
                    rfl) on_room]
              apply run_room
              simp [inRoom, ready, parsed, Runtime.needsRunner, alive]
            case isFalse ended =>
              split
              case isTrue works =>
                rw [Flow.run_route
                  (by simp only [acts, classifyInbound, ready, parsed, if_neg free, if_neg ended,
                        if_pos works]
                      rfl) on_room]
                apply run_room
                simp [inRoom, ready, parsed, Runtime.needsRunner, ended, works]
              case isFalse quiet =>
                split
                case isTrue empty =>
                  rw [Flow.run_route
                    (by simp only [acts, classifyInbound, ready, parsed, if_neg free, if_neg ended,
                          if_neg quiet, if_pos empty]
                        rfl)
                    (by decide : messageFlow.targetFor .classifyInbound "empty" =
                      some .doComplete)]
                  apply run_finished
                  simp only [acts, Runtime.handle]
                case isFalse text =>
                  rw [Flow.run_route
                    (by simp only [acts, classifyInbound, ready, parsed, if_neg free, if_neg ended,
                          if_neg quiet, if_neg text]
                        rfl)
                    (by decide : messageFlow.targetFor .classifyInbound "plan" =
                      some .doPlanAndLaunch)]
                  apply run_finished
                  simp only [acts, Runtime.handle]

end Room

/-- The engine on `message_flow` leaves what the handler leaves that `classify`
chooses, whatever the request and the session are, and ends without an exception. -/
theorem messageFlow_run (runtime : Runtime) (inbound : Inbound) :
    Context.leaves
      (messageFlow.run (acts config env drafts) 4 messageFlow.start { runtime, request := inbound })
      (runtime.handle config env inbound drafts (runtime.classify inbound)) := by
  unfold Runtime.classify
  rw [show messageFlow.start = .prepareInbound from rfl]
  split
  case isTrue recover =>
    rw [Flow.run_route (by simp only [acts, if_pos recover]; rfl)
      (by decide : messageFlow.targetFor .prepareInbound "recover" = some .doRecover)]
    apply run_finished
    simp only [acts, Runtime.handle]
  case isFalse fresh =>
    rw [Flow.run_route (by simp only [acts, if_neg fresh]; rfl)
      (by decide : messageFlow.targetFor .prepareInbound "ready" = some .classifyInbound)]
    exact run_classified runtime inbound

end Choirworks.Flows.Message
