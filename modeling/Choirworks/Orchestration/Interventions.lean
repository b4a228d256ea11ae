import Choirworks.Orchestration.Planning

/-!
The operations around a human: answers to pending interventions, the
cancellation of a node, questions that a settlement asks, and what a restart or
a cancelled task does to the nodes.
-/

namespace Choirworks.Orchestration

/-- A Python condition on a text that may be missing. -/
def given (text : Option String) : Bool :=
  match text with
  | none => false
  | some text => text ≠ ""

/-! ### Cancellation -/

namespace OrchestrationState

/-- Invalidate the nodes that are blocked now. The blocked nodes are collected
once: what depends on them is not looked at. -/
def invalidateBlocked (state : OrchestrationState) : OrchestrationState :=
  state.moveNodes (state.blockedNodes.map (·.id)) .invalidated

end OrchestrationState

namespace Session

/-- `cancel_node`, of an active node. -/
def cancelNode (session : Session) (node : NodeState) : Session :=
  let canceled := session.state.setNode { node with status := .canceled, a2aTaskId := none }
  let concerned := node.id :: canceled.blockedNodes.map (·.id)
  let state := concerned.foldl OrchestrationState.expireNodeInterventions
    canceled.invalidateBlocked
  { session with state }.persist

/-- `_do_interrupt`, of an active node: the words of the interrupt become a
follow-up without dependencies. -/
def interrupt (config : ExecutorConfig) (env : Env) (session : Session) (node : NodeState)
    (text : String) : Session :=
  let canceled := { node with status := .canceled }
  let state := (session.state.setNode canceled).invalidateBlocked
  spawnFollowupNode config env { session with state } text canceled []

/-- `ChoirWorksAgentExecutor.cancel`: what runs or was answered is cancelled. -/
def cancelAll (session : Session) : Session :=
  let nodeIds := (session.state.nodes.rows.filter fun node =>
    node.status ∈ activeNodeStatuses ++ [.ready]).map (·.id)
  { session with state := session.state.moveNodes nodeIds .canceled }.persist

/-! ### Answers -/

end Session

structure QuestionResponse where
  interventionId : String
  answer : Answer
deriving DecidableEq

/-- The text of the rejection of an ill-typed answer. -/
def validateAnswer (intervention : Intervention) (answer : Answer) : Option String :=
  match intervention.questionType with
  | .select =>
      if intervention.multi then
        match answer with
        | .choices values =>
            if values = [] then some "multi-select answer must be a non-empty list"
            else if ∀ value ∈ values, value ∈ intervention.options then none
            else some "answer contains options outside the allowed set"
        | _ => some "multi-select answer must be a non-empty list"
      else
        match answer with
        | .text value =>
            if value ∈ intervention.options then none
            else some "answer must be one of the allowed options"
        | _ => some "answer must be one of the allowed options"
  | .confirm =>
      match answer with
      | .flag _ => none
      | _ => some "confirm answer must be a boolean"
  | .input =>
      match answer with
      | .text value =>
          if Text.stripString value = "" then some "input answer must be a non-empty string"
          else none
      | _ => some "input answer must be a non-empty string"

def Intervention.answered (intervention : Intervention) (answer : Answer) : Intervention :=
  { intervention with status := .resolved, answer := some answer, responder := some "human" }

namespace Session

def setIntervention (session : Session) (intervention : Intervention) : Session :=
  { session with
    state := { session.state with
      interventions := session.state.interventions.insert intervention } }

def expire (session : Session) (intervention : Intervention) : Session :=
  (session.setIntervention { intervention with status := .expired }).persist

@[simp] theorem setIntervention_nodes (session : Session) (intervention : Intervention) :
    (session.setIntervention intervention).state.nodes = session.state.nodes := rfl

@[simp] theorem expire_nodes (session : Session) (intervention : Intervention) :
    (session.expire intervention).state.nodes = session.state.nodes := rfl

/-- The answer to a confirmation: cancel the target if it is still active. -/
def answerConfirmation (session : Session) (intervention : Intervention) (answer : Answer) :
    Session × Bool :=
  match session.state.node? intervention.nodeId with
  | none => (session.expire intervention, false)
  | some target =>
      if target.status ∉ activeNodeStatuses then (session.expire intervention, false)
      else
        let resolved := session.setIntervention
          { intervention with
            status := .resolved, answer := some answer, responder := some "human" }
        let canceled := if answer = .flag true then resolved.cancelNode target else resolved
        (canceled.persist, true)

/-- The answer to a question: the node becomes ready to continue. -/
def answerQuestion (session : Session) (intervention : Intervention) (answer : Answer) :
    Session × Bool :=
  match session.state.node? intervention.nodeId with
  | none => (session.expire intervention, false)
  | some node =>
      if node.status ≠ .inputRequired then (session.expire intervention, false)
      else
        let answered :=
          { intervention with
            status := .resolved, answer := some answer, responder := some "human" }
        let resolved := session.setIntervention answered
        let ready :=
          { node with answerText := some answered.renderAnswer, status := .ready }
        ({ resolved with state := resolved.state.setNode ready }.persist, true)

/-- Whether the intervention was resolved comes with the session. -/
def answerIntervention (session : Session) (response : QuestionResponse) : Session × Bool :=
  match session.state.interventions.find? response.interventionId with
  | none => (session, false)
  | some intervention =>
      if intervention.status ≠ .pending then (session, false)
      else
        match validateAnswer intervention response.answer with
        | some _ => (session, false)
        | none =>
            match intervention.kind with
            | .confirmCancel => session.answerConfirmation intervention response.answer
            | .question => session.answerQuestion intervention response.answer

/-- The response answers the intervention: it is pending, and the answer fits. -/
structure Awaited (session : Session) (response : QuestionResponse)
    (intervention : Intervention) : Prop where
  found : session.state.interventions.find? response.interventionId = some intervention
  pending : intervention.status = .pending
  valid : validateAnswer intervention response.answer = none

/-- What an answer does to a session, and when. -/
inductive Answers (session : Session) (response : QuestionResponse) : Session × Bool → Prop where
  | ignored (unawaited : ∀ intervention, ¬session.Awaited response intervention) :
      Answers session response (session, false)
  | stale {intervention : Intervention} (awaited : session.Awaited response intervention)
      (inactive : intervention.kind = .confirmCancel →
        ∀ target ∈ session.state.node? intervention.nodeId, target.status ∉ activeNodeStatuses)
      (settled : intervention.kind = .question →
        ∀ target ∈ session.state.node? intervention.nodeId, target.status ≠ .inputRequired) :
      Answers session response (session.expire intervention, false)
  | declined {intervention : Intervention} (awaited : session.Awaited response intervention)
      (confirms : intervention.kind = .confirmCancel) {target : NodeState}
      (there : session.state.node? intervention.nodeId = some target)
      (active : target.status ∈ activeNodeStatuses) (refused : response.answer ≠ .flag true) :
      Answers session response
        ((session.setIntervention (intervention.answered response.answer)).persist, true)
  | canceled {intervention : Intervention} (awaited : session.Awaited response intervention)
      (confirms : intervention.kind = .confirmCancel) {target : NodeState}
      (there : session.state.node? intervention.nodeId = some target)
      (active : target.status ∈ activeNodeStatuses) (agreed : response.answer = .flag true) :
      Answers session response
        (((session.setIntervention (intervention.answered response.answer)).cancelNode
          target).persist, true)
  | continued {intervention : Intervention} (awaited : session.Awaited response intervention)
      (asks : intervention.kind = .question) {target : NodeState}
      (there : session.state.node? intervention.nodeId = some target)
      (waits : target.status = .inputRequired) :
      Answers session response
        (Session.persist
          { session.setIntervention (intervention.answered response.answer) with
            state := (session.setIntervention
              (intervention.answered response.answer)).state.setNode
                { target with
                  answerText := some (intervention.answered response.answer).renderAnswer
                  status := .ready } }, true)

theorem answers (session : Session) (response : QuestionResponse) :
    Answers session response (session.answerIntervention response) := by
  unfold answerIntervention
  split
  · rename_i unknown
    refine .ignored fun intervention awaited => ?_
    cases unknown.symm.trans awaited.found
  · rename_i intervention found
    -- the question that is answered is the only one it can be
    have itself : ∀ other, session.Awaited response other → other = intervention :=
      fun other awaited => Option.some.inj (awaited.found.symm.trans found)
    split
    · rename_i closed
      exact .ignored fun other awaited => closed (itself other awaited ▸ awaited.pending)
    · rename_i pending
      rw [Decidable.not_not] at pending
      split
      · rename_i text invalid
        refine .ignored fun other awaited => ?_
        obtain rfl := itself other awaited
        cases invalid.symm.trans awaited.valid
      · rename_i valid
        have awaited : session.Awaited response intervention := ⟨found, pending, valid⟩
        split
        · rename_i confirms
          have confirmed : intervention.kind ≠ .question := by simp [confirms]
          unfold answerConfirmation
          split
          · rename_i gone
            exact .stale awaited (by simp [gone]) fun asks => absurd asks confirmed
          · rename_i target there
            split
            · rename_i inactive
              exact .stale awaited (fun _ => by simpa [there] using inactive)
                fun asks => absurd asks confirmed
            · rename_i active
              rw [Decidable.not_not] at active
              dsimp only
              split
              · rename_i agreed
                exact .canceled awaited confirms there active agreed
              · rename_i refused
                exact .declined awaited confirms there active refused
        · rename_i asks
          have unconfirmed : intervention.kind ≠ .confirmCancel := by simp [asks]
          unfold answerQuestion
          split
          · rename_i gone
            exact .stale awaited (fun confirms => absurd confirms unconfirmed) (by simp [gone])
          · rename_i target there
            split
            · rename_i settled
              exact .stale awaited (fun confirms => absurd confirms unconfirmed)
                fun _ => by simpa [there] using settled
            · rename_i waits
              rw [Decidable.not_not] at waits
              exact .continued awaited asks there waits

/-- `_do_answers`: whether any was resolved. -/
def answerAll : Session → List QuestionResponse → Session × Bool
  | session, [] => (session, false)
  | session, response :: rest =>
      let (answered, resolved) := session.answerIntervention response
      let (final, others) := answered.answerAll rest
      (final, resolved || others)

end Session

/-! ### Settlement of a node that needs input -/

structure AssistanceResult where
  targetAgent : Option String := none
  instruction : String := ""
  questionType : QuestionType := .input
  options : List String := []
  multi : Bool := false
deriving DecidableEq

inductive HelperRoute where
  | alreadyPending
  | helperCompleted (helper : NodeState)
  | helperActive
  | helperBlocked
  | decide
deriving DecidableEq

namespace OrchestrationState

def helpersOf (state : OrchestrationState) (nodeId : String) : List NodeState :=
  state.nodes.rows.filter fun node => node.derived ∧ node.assistRequestedBy = some nodeId

def inspectHelpers (state : OrchestrationState) (node : NodeState) : HelperRoute :=
  if (state.pendingInterventionFor node.id).isSome then .alreadyPending
  else
    let helpers := state.helpersOf node.id
    match helpers.find? fun helper =>
        helper.status = .completed ∧ helper.id ∉ node.adoptedHelpers with
    | some helper => .helperCompleted helper
    | none =>
        if helpers.any fun helper => helper.status ∈ activeNodeStatuses ++ pendingNodeStatuses then
          .helperActive
        else if helpers.any fun helper => helper.status = .inputRequired then .helperBlocked
        else .decide

/-- `ask_user`. An error is the exception of the status machine; an unknown
node or a question that is pending already only fails the tool call. -/
def askUser (env : Env) (state : OrchestrationState) (nodeId question : String)
    (decision : AssistanceResult) : Except String OrchestrationState :=
  match state.node? nodeId with
  | none => .ok state
  | some node =>
      match node.applyTransition .inputRequired with
      | .error text => .error text
      | .ok waiting =>
          let moved := state.setNode waiting
          let intervention : Intervention :=
            { id := env.fresh 0
              nodeId
              question
              questionType := decision.questionType
              options := decision.options
              multi := decision.multi
              requester := node.agentName
              createdAt := env.now }
          match moved.requestUserInput intervention with
          | none => .ok moved
          | some asked => .ok (asked.setNode { waiting with question := some question })

/-! ### Restart -/

/-- `recover_session`: what was in flight is followed or dispatched again. -/
def recoverNodes (state : OrchestrationState) : OrchestrationState :=
  { state with
    nodes := state.nodes.map
      (fun node =>
        if node.status ∈ activeNodeStatuses then
          { node with status := if given node.a2aTaskId then .recover else .pending }
        else node)
      (fun node => by split <;> rfl) }

end OrchestrationState

def Session.recoverSession (session : Session) : Session :=
  { session with state := session.state.normalizeInterventions.recoverNodes }.persist

end Choirworks.Orchestration
