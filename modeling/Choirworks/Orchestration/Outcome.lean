import Choirworks.Orchestration.Interventions

/-!
What the end of a remote call does to the node and the plan: the outcome flow
of an execution, and the settlement of a node that needs input. An execution
holds its node as an object, which a new plan takes out of the state: `NodeRef`.
-/

namespace Choirworks.Orchestration

inductive NodeRef where
  | planned (nodeId : String)
  | detached (node : NodeState)
deriving DecidableEq

def NodeRef.nodeId : NodeRef → String
  | .planned nodeId => nodeId
  | .detached node => node.id

namespace Session

def read (session : Session) : NodeRef → Option NodeState
  | .planned nodeId => session.state.node? nodeId
  | .detached node => some node

def write (session : Session) (ref : NodeRef) (node : NodeState) : Session × NodeRef :=
  match ref with
  | .planned nodeId => ({ session with state := session.state.setNode node }, .planned nodeId)
  | .detached _ => (session, .detached node)

end Session

/-- A session after a part of an execution, and the exception that ended it. -/
structure Handled where
  session : Session
  ref : NodeRef
  raised : Option String := none
deriving DecidableEq

/-- Change fields of the node, then its status. A forbidden transition raises
after the fields are set. -/
def Session.transition (session : Session) (ref : NodeRef) (fields : NodeState → NodeState)
    (target : NodeStatus) : Handled :=
  match session.read ref with
  | none => ⟨session, ref, none⟩
  | some node =>
      match (fields node).applyTransition target with
      | .error text =>
          let (session, ref) := session.write ref (fields node)
          ⟨session, ref, some text⟩
      | .ok moved =>
          let (session, ref) := session.write ref moved
          ⟨session, ref, none⟩

/-! ### Receipt markers -/

inductive Intent where
  | deliver | needInfo | revise
deriving DecidableEq

structure OutcomeResult where
  intent : Intent
  question : String := ""
  patch : Option PlanPatch := none
deriving DecidableEq

def markerIntents : List (String × Intent) :=
  [("deliver", .deliver), ("need_info", .needInfo), ("assist", .needInfo), ("revise", .revise)]

def matchMarker (line : List Char) : Option OutcomeResult :=
  markerIntents.findSome? fun (name, intent) =>
    (Text.afterPrefix ("[cw:" ++ name ++ "]").toList line).map fun text =>
      { intent, question := String.ofList (Text.strip text) }

/-- Only the first line that is not blank can be a marker. -/
def parseMarker (output : String) : Option OutcomeResult :=
  ((Text.splitLines [] output.toList).find? fun line => Text.strip line ≠ []).bind matchMarker

/-- `answered` is the decision of the outcome agent, if it gave one. -/
def interpretOutcome (output : Option String) (answered : Option OutcomeResult) : OutcomeResult :=
  match output with
  | none => { intent := .deliver }
  | some text =>
      match parseMarker text with
      | some marker => marker
      | none => if text = "" then { intent := .deliver } else answered.getD { intent := .deliver }

/-! ### The outcome flow -/

section Flow

variable (config : ExecutorConfig) (env : Env)

def revise (session : Session) (decision : OutcomeResult) : Session :=
  match decision.intent, decision.patch with
  | .revise, some patch =>
      if session.state.revisionCount < config.maxRevisions then (revisePlan env session patch).1
      else session
  | _, _ => session

/-- What the completed node's queue becomes: one follow-up. -/
def deliverQueued (session : Session) (node : NodeState) : Session :=
  let (messages, state) := session.state.takeQueued node.id
  let taken := { session with state }
  if messages = [] then taken
  else
    spawnFollowupNode config env taken (Text.join "\n\n" (messages.map (·.text))) node [node.id]

def markDelivered (session : Session) (ref : NodeRef) : Handled :=
  let delivered := session.transition ref id .completed
  match delivered.raised, delivered.session.read delivered.ref with
  | none, some node =>
      let helped := arbitrateMentions config env delivered.session node
      { delivered with session := deliverQueued config env helped node }
  | _, _ => delivered

def outcomeFlow (session : Session) (ref : NodeRef) (answered : Option OutcomeResult) : Handled :=
  let decision := interpretOutcome ((session.read ref).bind (·.output)) answered
  match decision.intent with
  | .needInfo =>
      session.transition ref
        (fun node =>
          { node with
            question := if decision.question = "" then node.output else some decision.question
            a2aTaskId := none })
        .inputRequired
  | .deliver | .revise =>
      markDelivered config env (revise config env session decision) ref

/-- How a remote call ended; `stopped` is a failure, a timeout, an exception or
an unfinished remote task. -/
inductive RemoteEnd where
  | completed | canceled | inputRequired | stopped
deriving DecidableEq

/-- The end of a remote call and the fields that it left on the node. -/
structure Remote where
  ended : RemoteEnd
  output : Option String := none
  question : Option String := none
  error : Option String := none
deriving DecidableEq

def Remote.fields (remote : Remote) (node : NodeState) : NodeState :=
  { node with output := remote.output, question := remote.question, error := remote.error }

/-- `execute_node` from the end of the remote call up to its closing steps. -/
def interpretRemote (session : Session) (ref : NodeRef) (remote : Remote)
    (answered : Option OutcomeResult) : Handled :=
  match remote.ended with
  | .completed =>
      match session.read ref with
      | none => ⟨session, ref, none⟩
      | some node =>
          let (session, ref) := session.write ref (remote.fields node)
          outcomeFlow config env session ref answered
  | .canceled => session.transition ref remote.fields .canceled
  | .inputRequired => session.transition ref remote.fields .inputRequired
  | .stopped => session.transition ref remote.fields .failed

/-- The closing steps of `execute_node`. -/
def closeNode (session : Session) (nodeId : String) : Session :=
  Session.emitPendingQuestions
    { session with state := session.state.expireNodeInterventions nodeId }.persist

/-! ### Settlement -/

def resolveFromHelper (session : Session) (ref : NodeRef) (helper : NodeState) : Handled :=
  let moved := session.transition ref
    (fun node =>
      { node with
        answerText := helper.output
        answerFrom := some helper.agentName
        adoptedHelpers := node.adoptedHelpers ++ [helper.id] })
    .ready
  match moved.raised with
  | some _ => moved
  | none =>
      { moved with
        session := { moved.session with
          state := moved.session.state.expireNodeInterventions ref.nodeId }.persist }

/-- `request_human`: the question goes to the node that has the id now. -/
def requestHuman (session : Session) (ref : NodeRef) (node : NodeState)
    (decision : Option AssistanceResult) : Handled :=
  let asked := if given node.question then node.question else node.output
  match session.state.askUser env node.id (asked.getD "") (decision.getD {}) with
  | .error text => ⟨session, ref, some text⟩
  | .ok state => ⟨({ session with state }).persist.emitPendingQuestions, ref, none⟩

/-- `_act`: ask another agent, else the human. -/
def actOnDecision (session : Session) (ref : NodeRef) (decision : Option AssistanceResult) :
    Handled :=
  match session.read ref with
  | none => ⟨session, ref, none⟩
  | some node =>
      if (session.state.pendingInterventionFor node.id).isSome then ⟨session, ref, none⟩
      else
        let target := (decision.bind (·.targetAgent)).getD ""
        let instruction := (decision.map (·.instruction)).getD ""
        if target = "" then requestHuman env session ref node decision
        else
          match callSubagent config env session node.id target instruction with
          | (asked, .ok _) => ⟨asked, ref, none⟩
          | (refused, .error _) => requestHuman env refused ref node decision

end Flow

end Choirworks.Orchestration
