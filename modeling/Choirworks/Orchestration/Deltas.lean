import Choirworks.Library.Mirroring
import Choirworks.Library.Runs
import Choirworks.Orchestration.Kept

/-!
The state deltas of a session: which statuses they report, and what a client
makes of them that folds them. Most deltas follow a change of the status at
once. Two say a status that is written out, whatever the node has, and the
report of a spawned assist comes behind an await. Other changes are not
reported at all, until the node is reported for another reason.
-/

namespace Choirworks.Orchestration

open OrchestrationState
open Mirroring

abbrev Delta := Report OrchestrationState String NodeStatus

namespace Delta

/-- `emit_state_delta` of one node. -/
def node (state : OrchestrationState) (nodeId : String) (status : NodeStatus) : Delta :=
  ⟨[(nodeId, status)], state⟩

def invalidated (state : OrchestrationState) (nodeIds : List String) : List Delta :=
  if nodeIds = [] then [] else [⟨nodeIds.map fun nodeId => (nodeId, .invalidated), state⟩]

/-- A canceled node, and the blocked nodes behind it. -/
def canceled (state : OrchestrationState) (nodeId : String) (blocked : List String) : Delta :=
  ⟨(nodeId, .canceled) :: blocked.map fun nodeId => (nodeId, .invalidated), state⟩

end Delta

/-! ### The deltas of the operations -/

section Operations

variable (config : ExecutorConfig) (env : Env) (session : Session) (ref : NodeRef)

/-- `transition`: validate, apply, emit. -/
def transitionDeltas (fields : NodeState → NodeState) (target : NodeStatus) : List Delta :=
  let moved := session.transition ref fields target
  match session.read ref, moved.raised with
  | some node, none => [.node moved.session.state node.id target]
  | _, _ => []

def startDeltas : Mode → List Delta
  | .recover => transitionDeltas session ref id .recover
  | .dispatch => transitionDeltas session ref countAttempt .submitted
  | .continuation => []

/-- A snapshot of the remote task is reported as submitted in any case. -/
def chunkDeltas (a2aTaskId : Option String) (submitted : Bool) : List Delta :=
  match session.read ref with
  | none => []
  | some node =>
      [.node (chunkNode session ref a2aTaskId submitted).session.state node.id .submitted]

def patchDeltas (patch : PlanPatch) : List Delta :=
  let (patched, result) := applyPatchLocked env session patch
  Delta.invalidated patched.state result.invalidated

def reviseDeltas (decision : OutcomeResult) : List Delta :=
  match decision.intent, decision.patch with
  | .revise, some patch =>
      if session.state.revisionCount < config.maxRevisions then patchDeltas env session patch else []
  | _, _ => []

def followupDeltas (text : String) (anchor : NodeState) (deps : List String) : List Delta :=
  match spawnDerivedNode config env session
    { kind := .followup, parentId := anchor.id, agentName := anchor.agentName, inputText := text,
      deps } with
  | (_, none) => []
  | (spawned, some node) => [.node spawned.state node.id .pending]

def queuedDeltas (node : NodeState) : List Delta :=
  let (messages, state) := session.state.takeQueued node.id
  if messages = [] then []
  else
    followupDeltas config env { session with state }
      (Text.join "\n\n" (messages.map (·.text))) node [node.id]

/-- The assists that `arbitrate_mentions` spawns. -/
def mentionedAssists (node : NodeState) (output : String) : List String → Session → List String
  | [], _ => []
  | name :: rest, session =>
      if name = node.agentName ∨ name ∉ env.agents ∨
          session.state.assistNodesFor name node.id ≠ [] then
        mentionedAssists node output rest session
      else
        match spawnDerivedNode config env session
          { kind := .assist, parentId := node.id, agentName := name,
            inputText := buildAssistInput node.agentName (some output),
            assistRequestedBy := some node.id } with
        | (_, none) => []
        | (session, some assist) => assist.id :: mentionedAssists node output rest session

def assists (node : NodeState) : List String :=
  match node.output with
  | none => []
  | some output => mentionedAssists config env node output (mentionsOf output) session

def deliveredDeltas : List Delta :=
  let delivered := session.transition ref id .completed
  transitionDeltas session ref id .completed ++
    match delivered.raised, delivered.session.read delivered.ref with
    | none, some node =>
        queuedDeltas config env (arbitrateMentions config env delivered.session node) node
    | _, _ => []

/-- The assists of a delivered node. -/
def deliveredAssists : List String :=
  let delivered := session.transition ref id .completed
  match delivered.raised, delivered.session.read delivered.ref with
  | none, some node => assists config env delivered.session node
  | _, _ => []

def needInfoFields (question : String) (node : NodeState) : NodeState :=
  { node with
    question := if question = "" then node.output else some question
    a2aTaskId := none }

def outcomeDeltas (answered : Option OutcomeResult) : List Delta :=
  let decision := interpretOutcome ((session.read ref).bind (·.output)) answered
  match decision.intent with
  | .needInfo => transitionDeltas session ref (needInfoFields decision.question) .inputRequired
  | .deliver | .revise =>
      reviseDeltas config env session decision ++
        deliveredDeltas config env (revise config env session decision) ref

def outcomeAssists (answered : Option OutcomeResult) : List String :=
  let decision := interpretOutcome ((session.read ref).bind (·.output)) answered
  match decision.intent with
  | .needInfo => []
  | .deliver | .revise => deliveredAssists config env (revise config env session decision) ref

def remoteDeltas (remote : Remote) (answered : Option OutcomeResult) : List Delta :=
  match remote.ended with
  | .completed =>
      match session.read ref with
      | none => []
      | some node =>
          let (session, ref) := session.write ref (remote.fields node)
          outcomeDeltas config env session ref answered
  | .canceled => transitionDeltas session ref remote.fields .canceled
  | .inputRequired => transitionDeltas session ref remote.fields .inputRequired
  | .stopped => transitionDeltas session ref remote.fields .failed

def remoteAssists (remote : Remote) (answered : Option OutcomeResult) : List String :=
  match remote.ended with
  | .completed =>
      match session.read ref with
      | none => []
      | some node =>
          let (session, ref) := session.write ref (remote.fields node)
          outcomeAssists config env session ref answered
  | _ => []

/-- An execution that raised is reported as failed, whether its node may fail or not. -/
def collectDeltas : Session → List NodeTask → List Delta
  | _, [] => []
  | session, task :: rest =>
      let collected := Runtime.collectTask session task
      match task.phase with
      | .done (some _) =>
          .node collected.state task.ref.nodeId .failed :: collectDeltas collected rest
      | _ => collectDeltas collected rest

def flowDeltas (decision : Option PlanPatch) : List Delta :=
  match flowPatch env config session.state decision with
  | none => []
  | some patch => patchDeltas env session patch

def resolveDeltas (helper : NodeState) : List Delta :=
  let resolved := resolveFromHelper session ref helper
  match session.read ref, resolved.raised with
  | some node, none => [.node resolved.session.state node.id .ready]
  | _, _ => []

/-! ### The deltas of a message -/

def confirmationDeltas (target : NodeState) (response : QuestionResponse) : List Delta :=
  if target.status ∈ activeNodeStatuses ∧ response.answer = .flag true then
    let canceled := session.state.setNode { target with status := .canceled, a2aTaskId := none }
    [.canceled (session.answerIntervention response).1.state target.id
      (canceled.blockedNodes.map (·.id))]
  else []

def questionDeltas (node : NodeState) (response : QuestionResponse) : List Delta :=
  if node.status = .inputRequired then
    [.node (session.answerIntervention response).1.state node.id .ready]
  else []

def answerDeltas (response : QuestionResponse) : List Delta :=
  match session.state.interventions.find? response.interventionId with
  | none => []
  | some intervention =>
      if intervention.status ≠ .pending then []
      else
        match validateAnswer intervention response.answer with
        | some _ => []
        | none =>
            match session.state.node? intervention.nodeId with
            | none => []
            | some node =>
                match intervention.kind with
                | .confirmCancel => confirmationDeltas session node response
                | .question => questionDeltas session node response

def answerAllDeltas : Session → List QuestionResponse → List Delta
  | _, [] => []
  | session, response :: rest =>
      answerDeltas session response ++ answerAllDeltas (session.answerIntervention response).1 rest

def interruptDeltas (node : NodeState) (text : String) : List Delta :=
  let canceled := { node with status := .canceled }
  let blocked := (session.state.setNode canceled).blockedNodes
  let state := (session.state.setNode canceled).invalidateBlocked
  .canceled state node.id (blocked.map (·.id)) ::
    followupDeltas config env { session with state } text canceled []

end Operations

namespace Runtime

variable (config : ExecutorConfig) (runtime : Runtime)

def messageDeltas (env : Env) (inbound : Inbound) : Handler → List Delta
  | .answers responses => answerAllDeltas runtime.session responses
  | .spawnFollowup target =>
      followupDeltas config env runtime.session inbound.request target [target.id]
  | .interrupt target => interruptDeltas config env runtime.session target inbound.request
  | _ => []

/-- The deltas of a step, in their order. -/
def deltas : Event → List Delta
  | .message inbound env _ => runtime.messageDeltas config env inbound (runtime.classify inbound)
  | .collect => collectDeltas runtime.session (runtime.nodeTasks.filter (·.done))
  | .flow env decision => flowDeltas config env runtime.session decision
  | .start taskId =>
      match runtime.task? taskId .created with
      | none => []
      | some task => startDeltas runtime.session task.ref task.mode
  | .chunk taskId a2aTaskId submitted =>
      match runtime.task? taskId .remote with
      | none => []
      | some task => chunkDeltas runtime.session task.ref a2aTaskId submitted
  | .outcome taskId env remote answered =>
      match runtime.task? taskId .remote with
      | none => []
      | some task => remoteDeltas config env runtime.session task.ref remote answered
  | .resolve taskId =>
      match runtime.settleTask? taskId with
      | some ⟨_, ref, .resolving helper⟩ => resolveDeltas runtime.session ref helper
      | _ => []
  | _ => []

/-- The assists whose report is still to come. -/
def announces : Event → List String
  | .outcome taskId env remote answered =>
      match runtime.task? taskId .remote with
      | none => []
      | some task => remoteAssists config env runtime.session task.ref remote answered
  | _ => []

/-- The message makes a plan, which the client shows from then on. -/
def plans (inbound : Inbound) (env : Env) (drafts : List (Option (List PlanNodeDraft))) : Bool :=
  (runtime.classify inbound).plans &&
    match plan config env drafts with
    | some (_ :: _) => true
    | _ => false

end Runtime

/-! ### The client -/

/-- The nodes that do not show what they showed before. -/
def changedNodes (old new : OrchestrationState) : List String :=
  (old.nodes.keys ++ new.nodes.keys).filter fun nodeId =>
    shown OrchestrationState.status? .pending new nodeId ≠
      shown OrchestrationState.status? .pending old nodeId

/-- What a step changes without a report: a dispatch, a reset, a cancellation of
the task, a settlement, and a plan that fails. -/
def Runtime.unreported (config : ExecutorConfig) (runtime next : Runtime) : Event → List String
  | .message inbound _ _ =>
      match runtime.classify inbound with
      | .recover | .planAndLaunch | .newPlan =>
          changedNodes runtime.session.state next.session.state
      | _ => []
  | .dispatch | .act .. | .cancel | .reload => changedNodes runtime.session.state next.session.state
  | event => runtime.announces config event

structure Announcement where
  taskId : Nat
  nodeId : String
deriving DecidableEq

/-- A session with the reports that executions have still to make, and a client. -/
structure Observed where
  runtime : Runtime
  announcing : List Announcement := []
  client : Mirror String NodeStatus := ⟨fun _ => .pending, []⟩

inductive Sight where
  | session (event : Event)
  | announce (announcement : Announcement)

namespace Observed

variable (config : ExecutorConfig) (observed : Observed)

/-- The execution that a step belongs to, if it goes on behind an outcome. -/
def closes : Event → Option Nat
  | .close taskId => some taskId
  | _ => none

def hears (next : Runtime) : Event → Mirror String NodeStatus
  | event@(.message inbound env drafts) =>
      if observed.runtime.plans config inbound env drafts then ⟨fun _ => .pending, []⟩
      else observed.client.follow (observed.runtime.deltas config event)
        (observed.runtime.unreported config next event)
  | event => observed.client.follow (observed.runtime.deltas config event)
      (observed.runtime.unreported config next event)

def stillAnnounced (next : Runtime) (event : Event) : List Announcement :=
  let made := match event with
    | .outcome taskId .. => (observed.runtime.announces config event).map (Announcement.mk taskId)
    | _ => []
  (observed.announcing ++ made).filter fun announcement =>
    next.nodeTasks.any fun task => task.id = announcement.taskId

def session (event : Event) : Option Observed :=
  if (closes event).any fun taskId => observed.announcing.any (·.taskId = taskId) then none
  else
    (observed.runtime.step config event).map fun next =>
      { runtime := next
        announcing := observed.stillAnnounced config next event
        client := observed.hears config next event }

/-- Behind `join_members`: the assist is reported as pending. -/
def announce (announcement : Announcement) : Option Observed :=
  if announcement ∈ observed.announcing then
    some { observed with
      announcing := observed.announcing.erase announcement
      client := observed.client.follow
        [Delta.node observed.runtime.session.state announcement.nodeId .pending] [] }
  else none

def step : Sight → Option Observed
  | .session event => observed.session config event
  | .announce announcement => observed.announce announcement

/-- The deltas of a step. -/
def notes : Sight → List Delta
  | .session event => observed.runtime.deltas config event
  | .announce announcement => [.node observed.runtime.session.state announcement.nodeId .pending]

def initial : Observed := { runtime := .loaded {} }

end Observed

/-! ### When a step only reports what is so -/

/-- An execution of the plan, or one that may not report the status. -/
def NodeRef.reports (target : NodeStatus) : NodeRef → Bool
  | .planned _ => true
  | .detached own => !own.canTransition target

/-- What the end of a remote call makes of the node. -/
def Remote.target (remote : Remote) (answered : Option OutcomeResult) : NodeStatus :=
  match remote.ended with
  | .completed =>
      match (interpretOutcome remote.output answered).intent with
      | .needInfo => .inputRequired
      | .deliver | .revise => .completed
  | .canceled => .canceled
  | .inputRequired => .inputRequired
  | .stopped => .failed

namespace Runtime

/-- An execution that raised is of a node that may fail. -/
def failsNode (state : OrchestrationState) (task : NodeTask) : Bool :=
  match task.phase, task.ref with
  | .done (some _), .planned nodeId => (state.node? nodeId).any (·.canTransition .failed)
  | .done (some _), .detached _ => false
  | _, _ => true

def sure (runtime : Runtime) : Event → Bool
  | .start taskId =>
      match runtime.task? taskId .created with
      | none => true
      | some task =>
          match task.mode with
          | .recover => task.ref.reports .recover
          | .dispatch => task.ref.reports .submitted
          | .continuation => true
  | .chunk taskId _ submitted =>
      match runtime.task? taskId .remote with
      | none => true
      | some task =>
          match task.ref with
          | .planned nodeId =>
              submitted || runtime.session.state.status? nodeId = some .submitted
          | .detached _ => false
  | .outcome taskId _ remote answered =>
      match runtime.task? taskId .remote with
      | none => true
      | some task => task.ref.reports (remote.target answered)
  | .collect =>
      (runtime.nodeTasks.filter (·.done)).all (failsNode runtime.session.state)
  | .resolve taskId =>
      match runtime.settleTask? taskId with
      | none => true
      | some task => task.ref.reports .ready
  | _ => true

end Runtime

/-- The condition on a step: an assist that is announced still waits. -/
def Observed.Sure (observed : Observed) : Sight → Prop
  | .session event => observed.runtime.sure event = true
  | .announce announcement =>
      observed.runtime.session.state.status? announcement.nodeId = some .pending

instance (observed : Observed) : (sight : Sight) → Decidable (observed.Sure sight)
  | .session event => inferInstanceAs (Decidable (observed.runtime.sure event = true))
  | .announce announcement =>
      inferInstanceAs (Decidable
        (observed.runtime.session.state.status? announcement.nodeId = some .pending))

/-! ### What the operations tell -/

/-- The work from one state to the next, with its deltas and silent changes. -/
abbrev Told : OrchestrationState → List Delta → List String → OrchestrationState → Prop :=
  Tells OrchestrationState.status? NodeStatus.pending

section States

variable {old new last state : OrchestrationState}

theorem told_status (same : ∀ nodeId, new.status? nodeId = old.status? nodeId) :
    Told old [] [] new := by
  apply Tells.still
  intro nodeId
  unfold shown
  rw [same nodeId]

theorem told_nodes (same : new.nodes = old.nodes) : Told old [] [] new :=
  told_status fun nodeId => status_of_nodes old nodeId same

/-- One node has a status, as reported. -/
theorem told_set {node : NodeState} {nodeId : String} {status : NodeStatus}
    (named : node.id = nodeId) (has : node.status = status)
    (same : new.nodes = (old.setNode node).nodes) :
    Told old [.node new nodeId status] [] new := by
  subst named has
  have status : ∀ nodeId, new.status? nodeId = (old.setNode node).status? nodeId :=
    fun nodeId => status_of_nodes _ nodeId same
  apply Tells.one
  · intro entry member
    rw [List.mem_singleton.mp member, status, status_setNode, if_pos rfl]
  · intro nodeId other
    have apart : nodeId ≠ node.id := by simpa using other
    unfold shown
    rw [status, status_setNode, if_neg apart]

/-- A canceled node and the blocked nodes behind it, as reported. -/
theorem told_canceled {target : NodeState} (canceled : target.status = .canceled)
    (same : new.nodes = (old.setNode target).invalidateBlocked.nodes) :
    Told old [.canceled new target.id ((old.setNode target).blockedNodes.map (·.id))] [] new := by
  let blocked := (old.setNode target).blockedNodes.map (·.id)
  have status : ∀ nodeId, new.status? nodeId =
      ((old.setNode target).status? nodeId).map fun status =>
        if nodeId ∈ blocked then .invalidated else status := by
    intro nodeId
    have moved := (old.setNode target).status_moveNodes nodeId blocked .invalidated
    exact (status_of_nodes _ nodeId same).trans moved
  have waiting : ∀ nodeId ∈ blocked, (old.setNode target).status? nodeId = some .pending := by
    intro nodeId member
    obtain ⟨node, listed, rfl⟩ := List.mem_map.mp member
    obtain ⟨row, blocks⟩ := List.mem_filter.mp listed
    rw [status_of_mem _ row]
    simp only [decide_eq_true_eq] at blocks
    rw [blocks.1]
  have apart : target.id ∉ blocked := by
    intro member
    have waits := waiting target.id member
    rw [status_setNode, if_pos rfl, canceled] at waits
    cases waits
  apply Tells.one
  · intro entry member
    rcases List.mem_cons.mp member with rfl | behind
    · rw [status, status_setNode, if_pos rfl, Option.map_some, if_neg apart, canceled]
    · obtain ⟨nodeId, listed, rfl⟩ := List.mem_map.mp behind
      rw [status, waiting nodeId listed, Option.map_some, if_pos listed]
  · intro nodeId other
    simp only [List.map_cons, List.map_map, List.mem_cons, not_or] at other
    have outside : nodeId ∉ blocked := by
      intro member
      obtain ⟨node, listed, named⟩ := List.mem_map.mp member
      exact other.2 (List.mem_map.mpr ⟨node, listed, named⟩)
    unfold shown
    rw [status, status_setNode, if_neg other.1]
    simp [outside]

/-- What is not listed as changed shows the same. -/
theorem told_changed (old new : OrchestrationState) : Told old [] (changedNodes old new) new := by
  apply Tells.hidden
  intro nodeId unlisted
  unfold changedNodes at unlisted
  rw [List.mem_filter] at unlisted
  by_cases known : nodeId ∈ old.nodes.keys ++ new.nodes.keys
  · simpa [known] using unlisted
  · rw [List.mem_append, not_or] at known
    have absent : ∀ state : OrchestrationState, nodeId ∉ state.nodes.keys →
        state.status? nodeId = none := by
      intro state outside
      unfold OrchestrationState.status? OrchestrationState.node?
      rw [(Table.find?_eq_none_iff _ _).mpr outside]
      rfl
    unfold shown
    rw [absent old known.1, absent new known.2]

end States

/-! ### Executions -/

section Executions

variable {config : ExecutorConfig} {env : Env} {session : Session} {ref : NodeRef}
  {fields : NodeState → NodeState} {target : NodeStatus}

theorem canTransition_congr {node other : NodeState} (same : other.status = node.status)
    (target : NodeStatus) : other.canTransition target = node.canTransition target := by
  unfold NodeState.canTransition
  rw [same]

theorem reports_write {node : NodeState} (found : session.read ref = some node)
    (keeps : (fields node).status = node.status) :
    (session.write ref (fields node)).2.reports target = ref.reports target := by
  cases ref with
  | planned nodeId => rfl
  | detached own =>
      cases found
      simp only [Session.write, NodeRef.reports, canTransition_congr keeps]

/-- A transition, as reported now or when nothing but the nodes is as it was. -/
theorem transition_reported (sameId : ∀ node, (fields node).id = node.id)
    (sameStatus : ∀ node, (fields node).status = node.status) (sure : ref.reports target = true)
    {later : OrchestrationState}
    (nodes : later.nodes = (session.transition ref fields target).session.state.nodes) :
    Told session.state
      (match session.read ref, (session.transition ref fields target).raised with
        | some node, none => [.node later node.id target]
        | _, _ => []) [] later := by
  cases found : session.read ref with
  | none =>
      have still : session.transition ref fields target = ⟨session, ref, none⟩ := by
        unfold Session.transition
        rw [found]
      rw [still] at nodes
      exact told_nodes nodes
  | some node =>
      cases moved : (fields node).applyTransition target with
      | error text =>
          have refused : session.transition ref fields target =
              ⟨(session.write ref (fields node)).1, (session.write ref (fields node)).2,
                some text⟩ := by
            simp only [Session.transition, found, moved]
          rw [refused] at nodes ⊢
          have written := told_status (status_write found (sameId node) (sameStatus node))
          exact written.trans (told_nodes nodes)
      | ok moved_node =>
          obtain ⟨may, rfl⟩ := NodeState.apply_transition_ok moved
          have accepted : session.transition ref fields target =
              ⟨(session.write ref { fields node with status := target }).1,
                (session.write ref { fields node with status := target }).2, none⟩ := by
            simp only [Session.transition, found, moved]
          rw [accepted] at nodes ⊢
          cases ref with
          | planned nodeId =>
              have named : { fields node with status := target }.id = node.id := sameId node
              exact told_set named rfl nodes
          | detached own =>
              cases found
              rw [canTransition_congr (sameStatus node)] at may
              simp [NodeRef.reports, may] at sure

theorem transition_told (sameId : ∀ node, (fields node).id = node.id)
    (sameStatus : ∀ node, (fields node).status = node.status) (sure : ref.reports target = true) :
    Told session.state (transitionDeltas session ref fields target) []
      (session.transition ref fields target).session.state :=
  transition_reported sameId sameStatus sure rfl

theorem change_told (sameId : ∀ node, (fields node).id = node.id)
    (sameStatus : ∀ node, (fields node).status = node.status) :
    Told session.state [] [] (session.change ref fields).session.state := by
  unfold Session.change
  split
  · exact .refl _
  · rename_i node found
    exact told_status (status_write found (sameId node) (sameStatus node))

theorem takeAnswer_status (node : NodeState) : (takeAnswer node).status = node.status := by
  unfold takeAnswer
  split <;> rfl

/-- What is not reported of an execution of the plan is not detached later. -/
theorem startNode_told {mode : Mode}
    (sure : mode = .recover → ref.reports .recover = true)
    (begins : mode = .dispatch → ref.reports .submitted = true) :
    Told session.state (startDeltas session ref mode) [] (startNode session ref mode).session.state := by
  cases mode with
  | recover => exact transition_told (fun _ => rfl) (fun _ => rfl) (sure rfl)
  | continuation =>
      exact change_told (fun node => takeAnswer_id (countAttempt node))
        fun node => takeAnswer_status (countAttempt node)
  | dispatch =>
      have begun := @transition_told session ref countAttempt .submitted (fun _ => rfl) (fun _ => rfl)
        (begins rfl)
      unfold startNode
      dsimp only
      split
      · exact begun
      · have taken := @change_told
          (session.transition ref countAttempt .submitted).session
          (session.transition ref countAttempt .submitted).ref takeAnswer takeAnswer_id
          takeAnswer_status
        exact begun.trans_still taken

/-- A snapshot is only reported right of a node that is submitted. -/
theorem chunkNode_told {nodeId : String} {a2aTaskId : Option String} {submitted : Bool}
    (quiet : (chunkNode session (.planned nodeId) a2aTaskId submitted).raised = none)
    (sure : submitted = true ∨ session.state.status? nodeId = some .submitted) :
    Told session.state (chunkDeltas session (.planned nodeId) a2aTaskId submitted) []
      (chunkNode session (.planned nodeId) a2aTaskId submitted).session.state := by
  cases submitted with
  | true =>
      have told := @transition_told session (.planned nodeId) (chunkFields a2aTaskId) .submitted
        (fun _ => rfl) (fun _ => rfl) rfl
      have handled : chunkNode session (.planned nodeId) a2aTaskId true =
          session.transition (.planned nodeId) (chunkFields a2aTaskId) .submitted := rfl
      unfold transitionDeltas at told
      unfold chunkDeltas
      rw [handled] at quiet ⊢
      simp only [quiet] at told
      cases found : session.read (.planned nodeId) with
      | none => simpa only [found] using told
      | some node => simpa only [found] using told
  | false =>
      have known := sure.resolve_left (by decide)
      unfold chunkDeltas
      cases found : session.read (.planned nodeId) with
      | none =>
          have absent : session.state.node? nodeId = none := found
          simp [OrchestrationState.status?, absent] at known
      | some node =>
          have status : node.status = .submitted := by
            have there : session.state.node? nodeId = some node := found
            simpa [OrchestrationState.status?, there] using known
          unfold chunkNode Session.change
          simp only [Bool.false_eq_true, ↓reduceIte, found]
          have submitted : (chunkFields a2aTaskId node).status = .submitted := status
          have named : (chunkFields a2aTaskId node).id = node.id := rfl
          exact told_set named submitted rfl

/-! ### Patches and spawned nodes -/

theorem patch_told (patch : PlanPatch) :
    Told session.state (patchDeltas env session patch) [] (applyPatchLocked env session patch).1.state := by
  obtain ⟨state, quiet, stored⟩ := applyPatchLocked_cases env session patch
  obtain ⟨moved, taken⟩ := applyPatch_cut session.state patch env.agents
  have result : (applyPatchLocked env session patch).2 =
      (applyPatch session.state patch env.agents).result := rfl
  let cut := (applyPatch session.state patch env.agents).result.invalidated
  have status : ∀ nodeId, state.status? nodeId =
      ((withDrafts session.state patch env.agents).status? nodeId).map fun status =>
        if nodeId ∈ cut then .invalidated else status := by
    intro nodeId
    have patched := (withDrafts session.state patch env.agents).status_moveNodes nodeId cut .invalidated
    rw [← moved] at patched
    exact (status_of_nodes _ nodeId quiet.nodes).trans patched
  -- the drafts are pending, the other nodes are as they were
  have drafted : ∀ nodeId, shown OrchestrationState.status? .pending
      (withDrafts session.state patch env.agents) nodeId =
        shown OrchestrationState.status? .pending session.state nodeId := by
    intro nodeId
    unfold shown
    cases known : session.state.node? nodeId with
    | some node =>
        have kept := withDrafts_kept session.state patch env.agents known
        simp only [OrchestrationState.status?, known, kept]
    | none =>
        have before : session.state.status? nodeId = none := by
          simp [OrchestrationState.status?, known]
        cases after : (withDrafts session.state patch env.agents).status? nodeId with
        | none => rw [before]
        | some status =>
            rcases withDrafts_enters session.state patch env.agents nodeId status after with old | new
            · rw [before] at old
              cases old
            · rw [before, List.mem_singleton.mp new]
              rfl
  have others : ∀ nodeId ∉ cut, shown OrchestrationState.status? .pending state nodeId =
      shown OrchestrationState.status? .pending session.state nodeId := by
    intro nodeId outside
    rw [← drafted nodeId]
    unfold shown
    rw [status]
    simp [outside]
  unfold patchDeltas
  simp only [stored, result]
  unfold Delta.invalidated
  split
  · rename_i none
    apply Tells.still
    intro nodeId
    apply others
    rw [show cut = [] from none]
    exact List.not_mem_nil
  · apply Tells.one
    · intro entry member
      obtain ⟨nodeId, listed, rfl⟩ := List.mem_map.mp member
      obtain ⟨node, affected, rfl⟩ := (taken nodeId).mp listed
      rw [status, status_of_mem _ affected.row.1, Option.map_some, if_pos listed]
    · intro nodeId outside
      apply others
      intro listed
      exact outside (List.mem_map.mpr ⟨(nodeId, .invalidated),
        List.mem_map.mpr ⟨nodeId, listed, rfl⟩, rfl⟩)

theorem revisePlan_told (patch : PlanPatch) :
    Told session.state (patchDeltas env session patch) [] (revisePlan env session patch).1.state := by
  have told := @patch_told env session patch
  unfold revisePlan
  dsimp only
  split
  · exact told.trans_still (told_nodes rfl)
  · exact told

theorem revise_told (decision : OutcomeResult) :
    Told session.state (reviseDeltas config env session decision) []
      (revise config env session decision).state := by
  unfold reviseDeltas revise
  cases decision.intent with
  | deliver => exact .refl _
  | needInfo => exact .refl _
  | revise =>
      cases decision.patch with
      | none => exact .refl _
      | some patch =>
          dsimp only
          split
          · exact revisePlan_told patch
          · exact .refl _

theorem followup_told (text : String) (anchor : NodeState) (deps : List String) :
    Told session.state (followupDeltas config env session text anchor deps) []
      (spawnFollowupNode config env session text anchor deps).state := by
  unfold followupDeltas spawnFollowupNode
  rcases spawnDerivedNode_cases config env session
    { kind := .followup, parentId := anchor.id, agentName := anchor.agentName, inputText := text,
      deps } with ⟨_, refused⟩ | ⟨state, _, quiet, spawned⟩
  · rw [refused]
    exact .refl _
  · rw [spawned]
    exact told_set rfl rfl quiet.nodes

theorem queued_told (node : NodeState) :
    Told session.state (queuedDeltas config env session node) []
      (deliverQueued config env session node).state := by
  unfold queuedDeltas deliverQueued
  dsimp only
  split
  · exact told_nodes rfl
  · have taken := @told_nodes session.state (session.state.takeQueued node.id).2 rfl
    have followed := @followup_told config env
      { session with state := (session.state.takeQueued node.id).2 }
      (Text.join "\n\n" ((session.state.takeQueued node.id).1.map (·.text))) node [node.id]
    exact taken.trans followed

/-- The assists are there before they are reported. -/
theorem spawnMentioned_told (node : NodeState) (output : String) (names : List String) :
    Told session.state [] (mentionedAssists config env node output names session)
      (spawnMentioned config env node output names session).state := by
  induction names generalizing session with
  | nil => exact .refl _
  | cons name rest ih =>
      unfold mentionedAssists spawnMentioned
      split
      · exact ih
      · rcases spawnDerivedNode_cases config env session
          { kind := .assist, parentId := node.id, agentName := name,
            inputText := buildAssistInput node.agentName (some output),
            assistRequestedBy := some node.id } with ⟨_, refused⟩ | ⟨state, _, quiet, spawned⟩
        · rw [refused]
          exact .refl _
        · rw [spawned]
          dsimp only
          refine Tells.trans (Tells.hidden [_] ?_) (@ih ⟨state, state⟩)
          intro nodeId outside
          have apart := fun same => outside (List.mem_singleton.mpr same)
          have status : state.status? nodeId = session.state.status? nodeId := by
            have set := session.state.status_setNode nodeId
              (Spawn.node
                { kind := .assist, parentId := node.id, agentName := name,
                  inputText := buildAssistInput node.agentName (some output),
                  assistRequestedBy := some node.id } (session.state.derivedCount + 1))
            rw [if_neg apart] at set
            exact (status_of_nodes _ nodeId quiet.nodes).trans set
          unfold shown
          rw [status]

theorem assists_told (node : NodeState) :
    Told session.state [] (assists config env session node)
      (arbitrateMentions config env session node).state := by
  unfold assists arbitrateMentions
  cases node.output with
  | none => exact .refl _
  | some output => exact spawnMentioned_told node output _

theorem delivered_told (sure : ref.reports .completed = true) :
    Told session.state (deliveredDeltas config env session ref)
      (deliveredAssists config env session ref) (markDelivered config env session ref).session.state := by
  have moved := @transition_told session ref id .completed (fun _ => rfl) (fun _ => rfl) sure
  unfold deliveredDeltas deliveredAssists markDelivered
  dsimp only
  cases (session.transition ref id .completed).raised with
  | some text =>
      rw [List.append_nil]
      exact moved
  | none =>
      cases (session.transition ref id .completed).session.read
        (session.transition ref id .completed).ref with
      | none =>
          rw [List.append_nil]
          exact moved
      | some node =>
          have helped := @assists_told config env (session.transition ref id .completed).session node
          have queued := @queued_told config env
            (arbitrateMentions config env (session.transition ref id .completed).session node) node
          have all := moved.trans (helped.trans queued)
          rwa [List.nil_append, List.nil_append, List.append_nil] at all

/-! ### Outcomes -/

theorem outcome_told {answered : Option OutcomeResult} {output : Option String}
    (read : (session.read ref).bind (·.output) = output)
    (sure : ref.reports (Remote.target { ended := .completed, output } answered) = true) :
    Told session.state (outcomeDeltas config env session ref answered)
      (outcomeAssists config env session ref answered)
      (outcomeFlow config env session ref answered).session.state := by
  subst read
  unfold Remote.target at sure
  unfold outcomeDeltas outcomeAssists outcomeFlow
  dsimp only at sure ⊢
  have revised := @revise_told config env session
    (interpretOutcome ((session.read ref).bind (·.output)) answered)
  cases intent : (interpretOutcome ((session.read ref).bind (·.output)) answered).intent with
  | needInfo =>
      rw [intent] at sure
      exact transition_told (fun _ => rfl) (fun _ => rfl) sure
  | deliver =>
      rw [intent] at sure
      exact revised.trans (delivered_told sure)
  | revise =>
      rw [intent] at sure
      exact revised.trans (delivered_told sure)

theorem remote_told {remote : Remote} {answered : Option OutcomeResult}
    (sure : ref.reports (remote.target answered) = true) :
    Told session.state (remoteDeltas config env session ref remote answered)
      (remoteAssists config env session ref remote answered)
      (interpretRemote config env session ref remote answered).session.state := by
  unfold remoteDeltas remoteAssists interpretRemote
  cases ended : remote.ended with
  | canceled =>
      simp only [Remote.target, ended] at sure
      exact transition_told (fun _ => rfl) (fun _ => rfl) sure
  | inputRequired =>
      simp only [Remote.target, ended] at sure
      exact transition_told (fun _ => rfl) (fun _ => rfl) sure
  | stopped =>
      simp only [Remote.target, ended] at sure
      exact transition_told (fun _ => rfl) (fun _ => rfl) sure
  | completed =>
      cases found : session.read ref with
      | none => exact .refl _
      | some node =>
          have written := told_status (status_write found (remote.fields_keeps.nodeId node)
            (remote.fields_keeps.status node))
          have reads := read_write found (remote.fields_keeps.nodeId node)
          have same := @reports_write session ref remote.fields
            (remote.target answered) node found rfl
          have target : Remote.target { ended := .completed, output := remote.output } answered =
              remote.target answered := by
            simp only [Remote.target, ended]
          have told := @outcome_told config env (session.write ref (remote.fields node)).1
            (session.write ref (remote.fields node)).2 answered remote.output
            (by rw [reads]; rfl) (by rw [target, same]; exact sure)
          exact written.trans told

theorem resolve_told {helper : NodeState} (sure : ref.reports .ready = true) :
    Told session.state (resolveDeltas session ref helper) []
      (resolveFromHelper session ref helper).session.state := by
  let adopt (node : NodeState) : NodeState :=
    { node with
      answerText := helper.output
      answerFrom := some helper.agentName
      adoptedHelpers := node.adoptedHelpers ++ [helper.id] }
  have resolved : (resolveFromHelper session ref helper).raised =
        (session.transition ref adopt .ready).raised ∧
      (resolveFromHelper session ref helper).session.state.nodes =
        (session.transition ref adopt .ready).session.state.nodes := by
    unfold resolveFromHelper
    dsimp only
    split <;> exact ⟨rfl, rfl⟩
  have moved := @transition_reported session ref adopt .ready (fun _ => rfl) (fun _ => rfl) sure _
    resolved.2
  unfold resolveDeltas
  rw [← resolved.1] at moved
  exact moved

/-- The deltas of `plan_flow` are those of its repair. -/
theorem planFlow_told (busy : Bool) (decision : Option PlanPatch) :
    Told session.state (flowDeltas config env session decision) []
      (planFlow config env session busy decision).1.state := by
  have silent : flowPatch env config session.state decision = none →
      flowDeltas config env session decision = [] := by
    intro none
    unfold flowDeltas
    rw [none]
  unfold planFlow
  dsimp only
  split
  · rw [silent (by simp [flowPatch, *])]
    exact .refl _
  · split
    · rw [silent (by simp [flowPatch, *])]
      exact told_nodes (emitPendingQuestions_quiet session.persist).nodes
    · split
      · rw [silent (by simp [flowPatch, *])]
        exact .refl _
      · split
        · split
          · have repairs : flowPatch env config session.state decision =
                repairOf env session.state decision := by
              simp [flowPatch, *]
            unfold flowDeltas
            rw [repairs]
            unfold repairOf repairPlan
            cases env.agents with
            | nil => exact .refl _
            | cons first others =>
                cases decision with
                | none => exact .refl _
                | some patch => exact revisePlan_told _
          · rw [silent (by simp [flowPatch, *])]
            exact .refl _
        · rw [silent (by simp [flowPatch, *])]
          split <;> exact .refl _

theorem closeNode_told (nodeId : String) :
    Told session.state [] [] (closeNode session nodeId).state := by
  apply told_nodes
  unfold closeNode
  rw [Session.emitPendingQuestions_nodes]
  rfl

end Executions

/-! ### The end of executions -/

section Collect

variable {session : Session} {task : NodeTask}

theorem canTransition_itself {node : NodeState} {target : NodeStatus} (same : node.status = target) :
    node.canTransition target = true := by
  simp [NodeState.canTransition, same]

/-- The row of an execution that raised. -/
def raisedRow (node : NodeState) (text : String) : NodeState :=
  { (if node.canTransition .failed then { node with status := .failed } else node) with
    error := some text }

theorem raisedRow_id (node : NodeState) (text : String) : (raisedRow node text).id = node.id := by
  unfold raisedRow
  split <;> rfl

theorem raisedRow_status {node : NodeState} (text : String)
    (may : node.canTransition .failed = true) : (raisedRow node text).status = .failed := by
  unfold raisedRow
  rw [if_pos may]

theorem collectTask_cases (session : Session) (task : NodeTask) :
    (Runtime.collectTask session task).state = session.state ∨
      ∃ text nodeId node, task.phase = .done (some text) ∧ task.ref = .planned nodeId ∧
        session.state.node? nodeId = some node ∧
        (Runtime.collectTask session task).state = session.state.setNode (raisedRow node text) := by
  unfold Runtime.collectTask
  split
  · rename_i text nodeId phase planned
    split
    · exact Or.inl rfl
    · rename_i node found
      exact Or.inr ⟨text, nodeId, node, phase, planned, found, rfl⟩
  · exact Or.inl rfl

/-- A node that may fail may still do so when another execution was collected. -/
theorem collectTask_fails (first : NodeTask)
    (fails : Runtime.failsNode session.state task = true) :
    Runtime.failsNode (Runtime.collectTask session first).state task = true := by
  rcases collectTask_cases session first with same | ⟨text, nodeId, node, _, _, found, set⟩
  · rw [same]
    exact fails
  · rw [set]
    unfold Runtime.failsNode at fails ⊢
    split
    · rename_i other phase planned
      simp only [phase, planned, Option.any_eq_true] at fails ⊢
      obtain ⟨before, there, may⟩ := fails
      have named : (raisedRow node text).id = nodeId :=
        (raisedRow_id node text).trans (session.state.node_mem nodeId found).2
      simp only [OrchestrationState.node?, setNode, Table.find?_insert, named] at there ⊢
      by_cases same : other = nodeId
      · subst same
        have itself : node = before := Option.some.inj (found.symm.trans there)
        rw [if_pos rfl]
        exact ⟨_, rfl, canTransition_itself (raisedRow_status text (itself ▸ may))⟩
      · rw [if_neg same]
        exact ⟨before, there, may⟩
    · rename_i phase detached
      simp [phase, detached] at fails
    · rfl

theorem collectTask_told (fails : Runtime.failsNode session.state task = true) :
    Told session.state (collectDeltas session [task]) [] (Runtime.collectTask session task).state := by
  simp only [collectDeltas]
  split
  · rename_i text phase
    unfold Runtime.failsNode at fails
    cases planned : task.ref with
    | detached own => simp [phase, planned] at fails
    | planned nodeId =>
        simp only [phase, planned, Option.any_eq_true] at fails
        obtain ⟨node, found, may⟩ := fails
        have set : (Runtime.collectTask session task).state =
            session.state.setNode (raisedRow node text) := by
          simp only [Runtime.collectTask, phase, planned, found]
          rfl
        have named : (raisedRow node text).id = nodeId :=
          (raisedRow_id node text).trans (session.state.node_mem nodeId found).2
        exact told_set named (raisedRow_status text may) (congrArg (·.nodes) set)
  · rename_i quiet
    rcases collectTask_cases session task with same | ⟨text, _, _, phase, _⟩
    · rw [same]
      exact .refl _
    · exact absurd phase (quiet text)

theorem collect_told (tasks : List NodeTask)
    (sure : ∀ task ∈ tasks, Runtime.failsNode session.state task = true) :
    Told session.state (collectDeltas session tasks) []
      (tasks.foldl Runtime.collectTask session).state := by
  induction tasks generalizing session with
  | nil => exact .refl _
  | cons task rest ih =>
      have first := collectTask_told (sure task List.mem_cons_self)
      have later := @ih (Runtime.collectTask session task) fun other member =>
        collectTask_fails task (sure other (List.mem_cons_of_mem _ member))
      have split : collectDeltas session (task :: rest) =
          collectDeltas session [task] ++ collectDeltas (Runtime.collectTask session task) rest := by
        simp only [collectDeltas]
        split <;> rfl
      rw [split]
      exact first.trans later

end Collect

/-! ### Messages -/

section Messages

variable {config : ExecutorConfig} {env : Env} {session : Session}

theorem cancelNode_nodes (session : Session) (target : NodeState) :
    (session.cancelNode target).state.nodes =
      (session.state.setNode
        { target with status := .canceled, a2aTaskId := none }).invalidateBlocked.nodes :=
  (expireAll_quiet (session.state.setNode
    { target with status := .canceled, a2aTaskId := none }).invalidateBlocked _).nodes

theorem answerDeltas_awaited {response : QuestionResponse} {intervention : Intervention}
    {target : NodeState} (awaited : session.Awaited response intervention)
    (there : session.state.node? intervention.nodeId = some target) :
    answerDeltas session response =
      match intervention.kind with
      | .confirmCancel => confirmationDeltas session target response
      | .question => questionDeltas session target response := by
  simp only [answerDeltas, awaited.found, awaited.pending, awaited.valid, there, ne_eq,
    not_true_eq_false, if_false]

theorem answer_told (response : QuestionResponse) :
    Told session.state (answerDeltas session response) []
      (session.answerIntervention response).1.state := by
  have answers := session.answers response
  generalize called : session.answerIntervention response = result at answers
  cases answers with
  | ignored unawaited =>
      have silent : answerDeltas session response = [] := by
        unfold answerDeltas
        split
        · rfl
        · rename_i intervention found
          split
          · rfl
          · rename_i pending
            split
            · rfl
            · rename_i valid
              exact absurd ⟨found, by simpa using pending, valid⟩ (unawaited intervention)
      rw [silent]
      exact .refl _
  -- what is stale only expires, and an expiry is no change of a node
  | @stale intervention awaited inactive settled =>
      have silent : answerDeltas session response = [] := by
        cases there : session.state.node? intervention.nodeId with
        | none => simp [answerDeltas, awaited.found, awaited.pending, awaited.valid, there]
        | some target =>
            rw [answerDeltas_awaited awaited there]
            cases kind : intervention.kind with
            | confirmCancel => simp [confirmationDeltas, inactive kind target there]
            | question => simp [questionDeltas, settled kind target there]
      rw [silent]
      exact told_nodes (Session.expire_nodes _ _)
  | declined awaited confirms there active refused =>
      rw [answerDeltas_awaited awaited there, confirms]
      simp only [confirmationDeltas, refused, and_false, if_false]
      exact told_nodes rfl
  | @canceled intervention awaited confirms target there active agreed =>
      rw [answerDeltas_awaited awaited there, confirms]
      simp only [confirmationDeltas, called]
      rw [if_pos ⟨active, agreed⟩]
      let resolved := session.setIntervention (intervention.answered response.answer)
      have marked : Told session.state [] [] resolved.state := told_nodes rfl
      exact marked.trans (told_canceled rfl (cancelNode_nodes resolved target))
  | @continued intervention awaited asks target there waits =>
      rw [answerDeltas_awaited awaited there, asks]
      simp only [questionDeltas, called]
      rw [if_pos waits]
      let ready : NodeState :=
        { target with
          answerText := some (intervention.answered response.answer).renderAnswer
          status := .ready }
      exact @told_set session.state _ ready target.id .ready rfl rfl rfl

theorem answerAll_told (responses : List QuestionResponse) :
    Told session.state (answerAllDeltas session responses) [] (session.answerAll responses).1.state := by
  induction responses generalizing session with
  | nil => exact .refl _
  | cons response rest ih => exact (answer_told response).trans ih

theorem interrupt_told (target : NodeState) (text : String) :
    Told session.state (interruptDeltas config env session target text) []
      (session.interrupt config env target text).state := by
  have canceled := @told_canceled session.state
    (session.state.setNode { target with status := .canceled }).invalidateBlocked
    { target with status := .canceled } rfl rfl
  have followed := @followup_told config env
    { session with
      state := (session.state.setNode { target with status := .canceled }).invalidateBlocked }
    text { target with status := .canceled } []
  exact canceled.trans followed

end Messages

/-! ### Steps -/

namespace Runtime

variable {config : ExecutorConfig} {runtime next : Runtime}

/-- What a message tells that neither resets the session nor makes a plan. -/
theorem handle_told {env : Env} {inbound : Inbound} {drafts : List (Option (List PlanNodeDraft))}
    (handler : Handler) (stays : handler.plans = false) (follows : handler ≠ .recover) :
    Told runtime.session.state (runtime.messageDeltas config env inbound handler) []
      (runtime.handle config env inbound drafts handler).session.state := by
  cases handler with
  | recover => exact absurd rfl follows
  | planAndLaunch => cases stays
  | newPlan => cases stays
  | reject => exact .refl _
  -- answers tell their own changes, the questions asked again none
  | answers responses =>
      have answered := @answerAll_told runtime.session responses
      unfold handle
      dsimp only
      split
      · rw [startRunner_session]
        have announced := told_nodes
          (emitPendingQuestions_quiet (runtime.session.answerAll responses).1).nodes
        exact answered.trans_still announced
      · exact answered
  | reemitQuestions => exact told_nodes (emitPendingQuestions_quiet runtime.session).nodes
  | complete => exact .refl _
  | noop =>
      unfold handle
      rw [finish_session]
      exact .refl _
  | enqueue target quoteId =>
      unfold handle
      dsimp only
      rw [finish_session]
      exact told_nodes rfl
  | spawnFollowup target =>
      unfold handle
      dsimp only
      rw [finish_session]
      exact followup_told inbound.request target [target.id]
  | interrupt target =>
      unfold handle
      dsimp only
      rw [finish_session]
      exact interrupt_told target inbound.request

theorem message_told {env : Env} {inbound : Inbound}
    {drafts : List (Option (List PlanNodeDraft))}
    (stepped : runtime.step config (.message inbound env drafts) = some next) :
    Told runtime.session.state (runtime.deltas config (.message inbound env drafts))
      (runtime.unreported config next (.message inbound env drafts)) next.session.state := by
  have handled := step_message stepped
  rw [handled]
  unfold deltas unreported
  dsimp only
  generalize runtime.classify inbound = handler
  cases handler with
  | recover => exact told_changed _ _
  | planAndLaunch => exact told_changed _ _
  | newPlan => exact told_changed _ _
  | _ =>
      apply handle_told _ rfl
      intro same
      cases same

/-- A step that is sure tells what it changes, with reports that agree. -/
theorem step_told {event : Event} (sure : runtime.sure event = true)
    (stepped : runtime.step config event = some next) :
    Told runtime.session.state (runtime.deltas config event)
      (runtime.unreported config next event) next.session.state := by
  by_cases isInner : event.inner = true
  · have advanced := (step_inner isInner stepped).2
    cases advances advanced with
    | message | reload => cases isInner
    -- what these change is not reported
    | dispatch => exact told_changed _ _
    | act => exact told_changed _ _
    | cancel => exact told_changed _ _
    | clearWake => exact .refl _
    | collect => exact collect_told _ (List.all_eq_true.mp sure)
    | flow env decision =>
        have told := @planFlow_told config env runtime.session runtime.busy decision
        unfold flow
        dsimp only
        split <;> exact told
    | start task found =>
        simp only [Runtime.sure, found] at sure
        simp only [deltas, found]
        apply startNode_told
        · intro mode
          simpa [mode] using sure
        · intro mode
          simpa [mode] using sure
    | chunk a2aTaskId submitted task found allowed =>
        simp only [Runtime.sure, found] at sure
        simp only [deltas, found]
        cases planned : task.ref with
        | detached own => simp [planned] at sure
        | planned nodeId =>
            simp only [planned, Bool.or_eq_true, decide_eq_true_eq] at sure allowed
            exact chunkNode_told allowed sure
    | outcome env remote answered task found =>
        simp only [Runtime.sure, found] at sure
        simp only [deltas, unreported, announces, found]
        exact remote_told sure
    | close task => exact closeNode_told task.ref.nodeId
    | inspect => exact .refl _
    | resolve task helper found resolving =>
        simp only [Runtime.sure, found] at sure
        obtain ⟨taskId, ref, reached⟩ := task
        cases resolving
        simp only [deltas, found]
        exact resolve_told sure
  · cases event with
    | message inbound env drafts => exact message_told stepped
    | reload => exact told_changed _ _
    | _ => exact absurd rfl isInner

/-- Every node of a new plan is pending. -/
theorem planned_shows {env : Env} {inbound : Inbound}
    {drafts : List (Option (List PlanNodeDraft))}
    (planned : runtime.plans config inbound env drafts = true)
    (stepped : runtime.step config (.message inbound env drafts) = some next) (nodeId : String) :
    shown OrchestrationState.status? .pending next.session.state nodeId = .pending := by
  have handled := step_message stepped
  have launched : ∀ mentions, shown OrchestrationState.status? .pending
      (runtime.planAndLaunch config env drafts mentions).session.state nodeId = .pending := by
    intro mentions
    have empty : (runtime.startNewPlan (planId env)).session.state.status? nodeId = none := rfl
    unfold planAndLaunch
    dsimp only
    split
    · rfl
    · rfl
    · rename_i nodes _ _
      rw [startRunner_session]
      have created := createPlan_enters env (runtime.startNewPlan (planId env)).session.state nodes
      have joined := @Enters.quiet [.pending] _ _ (joinMembers_quiet env
        (createPlan env (runtime.startNewPlan (planId env)).session.state nodes) mentions
        "human_mention")
      unfold shown
      dsimp only [Session.persist_state]
      cases found : (joinMembers env (createPlan env
          (runtime.startNewPlan (planId env)).session.state nodes) mentions
          "human_mention").status? nodeId with
      | none => rfl
      | some status =>
          -- the nodes are all new, and new nodes are pending
          rcases created.trans joined nodeId status found with old | new
          · cases empty.symm.trans old
          · exact List.mem_singleton.mp new
  unfold plans at planned
  rw [handled]
  generalize runtime.classify inbound = handler at planned
  cases handler with
  | planAndLaunch => exact launched inbound.allMentions
  | newPlan =>
      unfold handle
      rw [finish_session]
      exact launched []
  | _ => simp [Handler.plans] at planned

end Runtime

/-! ### Runs -/

namespace Observed

variable {config : ExecutorConfig} {observed next : Observed}

/-- The client shows the session where it is not behind. -/
def Follows (observed : Observed) : Prop :=
  observed.client.Shows OrchestrationState.status? .pending observed.runtime.session.state

theorem initial_follows : initial.Follows := by
  intro nodeId _
  rfl

theorem announce_told {announcement : Announcement}
    (waits : observed.runtime.session.state.status? announcement.nodeId = some .pending) :
    Told observed.runtime.session.state
      [Delta.node observed.runtime.session.state announcement.nodeId .pending] []
      observed.runtime.session.state := by
  apply Tells.one
  · intro entry member
    rw [List.mem_singleton.mp member]
    exact waits
  · intro _ _
    rfl

/-- A step that is sure keeps the client with the session, and its reports agree. -/
theorem step_follows {sight : Sight} (follows : observed.Follows) (sure : observed.Sure sight)
    (stepped : observed.step config sight = some next) :
    next.Follows ∧ ∀ delta ∈ observed.notes config sight, delta.Agrees OrchestrationState.status? := by
  cases sight with
  | announce announcement =>
      simp only [step, announce, Option.ite_none_right_eq_some, Option.some.injEq] at stepped
      obtain ⟨_, rfl⟩ := stepped
      have told := announce_told sure
      exact ⟨told.shows follows, told.agrees⟩
  | session event =>
      simp only [step, session, Option.ite_none_left_eq_some, Option.map_eq_some_iff] at stepped
      obtain ⟨_, runtime, advanced, rfl⟩ := stepped
      have told := Runtime.step_told sure advanced
      have heard := told.shows follows
      refine ⟨?_, told.agrees⟩
      cases event with
      | message inbound env drafts =>
          unfold Follows hears
          dsimp only
          split
          · rename_i planned
            intro nodeId _
            exact (Runtime.planned_shows planned advanced nodeId).symm
          · exact heard
      | _ => exact heard

end Observed

section Runs

/-! A node that mentions another agent, up to the end of its assist; and a node
that is interrupted while its remote task goes on. -/

def deltasEnv : Env := ⟨["writer", "editor"], "now", fun drawn => "drawn" ++ toString drawn⟩

def deltasPlan : List Sight := [
  .session (.message { taskId := "t1", text := "write" } deltasEnv
    [some [⟨"n1", "first", "writer", .empty, []⟩]]),
  .session .clearWake, .session .dispatch, .session (.start 0),
  .session (.chunk 0 (some "r1") false)]

def assisted : List Sight := deltasPlan ++ [
  .session (.outcome 0 deltasEnv { ended := .completed, output := some "ask @editor" } none),
  .announce ⟨0, "n1-a1"⟩, .session (.close 0), .session .collect, .session .clearWake,
  .session .dispatch, .session (.start 1),
  .session (.outcome 1 deltasEnv { ended := .completed, output := some "fine" } none),
  .session (.close 1)]

def interruptedStream : List Sight := deltasPlan ++ [
  .session (.message { taskId := "t1", text := "stop", interrupt := true } deltasEnv []),
  .session (.chunk 0 (some "r1") false),
  .session (.outcome 0 deltasEnv { ended := .completed, output := some "done" } none),
  .session .collect]

end Runs

end Choirworks.Orchestration
