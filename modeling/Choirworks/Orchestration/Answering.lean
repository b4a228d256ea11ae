import Choirworks.Library.Runs
import Choirworks.Orchestration.Edits
import Choirworks.Orchestration.Message

/-!
`answer_intervention` and `cancel_node`, cut at their awaits. The call has the
session lock, so between its parts only what needs no lock goes on: the
executions of the nodes, and the runner that collects them. It marks the
intervention first and moves the target behind the awaits; the target may have
moved in between.
-/

namespace Choirworks.Orchestration

/-- Where the call is: behind the mark in `record_message`, in one of the awaits
of `cancel_node`, or over. -/
inductive AnswerPoint where
  | recording | lookingUp | canceling
  | returned (resolved : Bool)
  | raised (error : String)
deriving DecidableEq

/-- A call with its local variable `intervention`. -/
structure AnswerCall where
  runtime : Runtime
  response : QuestionResponse
  intervention : Option Intervention := none
  point : AnswerPoint
deriving DecidableEq

/-- What an await of the call is answered with. -/
inductive AwaitReply where
  | done
  | agent (known : Bool)
  | remote (error : Option String)
deriving DecidableEq

inductive AnswerEvent where
  | outside (event : Event)
  | proceed (reply : AwaitReply)

/-- The status in which a node is the target of such an intervention. -/
def InterventionKind.awaits : InterventionKind → NodeStatus → Bool
  | .question, status => status = .inputRequired
  | .confirmCancel, status => status ∈ activeNodeStatuses

open OrchestrationState

namespace AnswerCall

def settle (call : AnswerCall) (session : Session) (resolved : Bool) : AnswerCall :=
  { call with runtime := { call.runtime with session }, point := .returned resolved }

/-- Mark the intervention; a question hands its answer to the node. -/
def mark (call : AnswerCall) (intervention : Intervention) (target : NodeState) : AnswerCall :=
  let answered := intervention.answered call.response.answer
  let marked := call.runtime.session.setIntervention answered
  let session :=
    match intervention.kind with
    | .confirmCancel => marked
    | .question =>
        { marked with
          state := marked.state.setNode { target with answerText := some answered.renderAnswer } }
  { call with
    runtime := { call.runtime with session }, intervention := some answered, point := .recording }

/-- The call up to its first await behind the mark. -/
def check (call : AnswerCall) : AnswerCall :=
  let session := call.runtime.session
  match session.state.interventions.find? call.response.interventionId with
  | none => call.settle session false
  | some intervention =>
      if intervention.status ≠ .pending then call.settle session false
      else match validateAnswer intervention call.response.answer with
        | some _ => call.settle session false
        | none =>
            match session.state.node? intervention.nodeId with
            | none => call.settle (session.expire intervention) false
            | some target =>
                if intervention.kind.awaits target.status then call.mark intervention target
                else call.settle (session.expire intervention) false

def begin (runtime : Runtime) (response : QuestionResponse) : AnswerCall :=
  check { runtime, response, point := .returned false }

/-- `cancel_node` behind its awaits. -/
def cancelTarget (call : AnswerCall) (target : NodeState) : AnswerCall :=
  match target.applyTransition .canceled with
  | .error error => { call with point := .raised error }
  | .ok _ => call.settle (call.runtime.session.cancelNode target).persist true

/-- Behind `record_message`. -/
def resume (call : AnswerCall) (intervention : Intervention) (target : NodeState) : AnswerCall :=
  match intervention.kind with
  | .question =>
      match target.applyTransition .ready with
      | .error error => { call with point := .raised error }
      | .ok ready =>
          let session := call.runtime.session
          call.settle { session with state := session.state.setNode ready }.persist true
  | .confirmCancel =>
      if call.response.answer = .flag true then
        if given target.a2aTaskId then { call with point := .lookingUp } else call.cancelTarget target
      else call.settle call.runtime.session.persist true

/-- The next part of the call, when the await in front of it is answered. -/
def part (call : AnswerCall) (intervention : Intervention) (target : NodeState)
    (reply : AwaitReply) : Option AnswerCall :=
  match call.point, reply with
  | .recording, .done => some (call.resume intervention target)
  | .lookingUp, .agent true => some { call with point := .canceling }
  | .lookingUp, .agent false => some (call.cancelTarget target)
  | .canceling, .remote none => some (call.cancelTarget target)
  | .canceling, .remote (some error) => some { call with point := .raised error }
  | _, _ => none

def proceed (call : AnswerCall) (reply : AwaitReply) : Option AnswerCall :=
  match call.intervention with
  | none => none
  | some intervention =>
      match call.runtime.session.state.node? intervention.nodeId with
      | none => none
      | some target => call.part intervention target reply

/-- The call is over. -/
def Ended (call : AnswerCall) : Prop :=
  match call.point with
  | .returned _ | .raised _ => True
  | _ => False

instance (call : AnswerCall) : Decidable call.Ended := by
  unfold Ended
  split <;> infer_instance

end AnswerCall

/-- What goes on without the session lock; an outcome that revises the plan
waits for it. -/
def Event.unlocked (config : ExecutorConfig) (state : OrchestrationState) : Event → Bool
  | .clearWake | .collect | .start _ | .chunk .. | .close _ | .inspect _ => true
  | .outcome _ _ remote answered => outcomePatch config state remote answered = none
  | _ => false

def AnswerCall.step (config : ExecutorConfig) (call : AnswerCall) : AnswerEvent → Option AnswerCall
  | .outside event =>
      if call.Ended ∨ !event.unlocked config call.runtime.session.state then none
      else (call.runtime.step config event).map fun runtime => { call with runtime }
  | .proceed reply => call.proceed reply

/-! ### What goes on beside the call -/

/-- An intervention that is not pending stays as it is. -/
def KeepsSettled (old new : OrchestrationState) : Prop :=
  ∀ intervention ∈ old.interventions.rows, intervention.status ≠ .pending →
    intervention ∈ new.interventions.rows

section Beside

variable {config : ExecutorConfig} {env : Env} {old new last state : OrchestrationState}
  {session : Session} {ref : NodeRef}

theorem KeepsSettled.refl (state : OrchestrationState) : KeepsSettled state state :=
  fun _ member _ => member

theorem KeepsSettled.trans (first : KeepsSettled old new) (second : KeepsSettled new last) :
    KeepsSettled old last :=
  fun intervention member settled => second intervention (first intervention member settled) settled

theorem KeepsSettled.of_eq (same : new.interventions = old.interventions) :
    KeepsSettled old new := by
  intro intervention member _
  rw [same]
  exact member

theorem expireWhere_settled (concerns : Intervention → Bool) :
    KeepsSettled state (state.expireWhere concerns) := by
  intro intervention member settled
  refine List.mem_map.mpr ⟨intervention, member, ?_⟩
  rw [if_neg fun expires => settled expires.1]

theorem emitPendingQuestions_settled :
    KeepsSettled session.state session.emitPendingQuestions.state := by
  unfold Session.emitPendingQuestions
  split
  · exact .refl _
  · intro intervention member settled
    refine List.mem_map.mpr ⟨intervention, member, ?_⟩
    rw [if_neg settled]

theorem expireAll_settled (nodeIds : List String) (state : OrchestrationState) :
    KeepsSettled state (nodeIds.foldl OrchestrationState.expireNodeInterventions state) := by
  induction nodeIds generalizing state with
  | nil => exact .refl state
  | cons nodeId rest ih => exact (expireWhere_settled _).trans (ih _)

theorem KeepsSettled.find {interventionId : String} {intervention : Intervention}
    (keeps : KeepsSettled old new) (settled : intervention.status ≠ .pending)
    (found : old.interventions.find? interventionId = some intervention) :
    new.interventions.find? interventionId = some intervention := by
  obtain ⟨member, key⟩ := (Table.find?_eq_some_iff _ _ _).mp found
  exact (Table.find?_eq_some_iff _ _ _).mpr ⟨keeps intervention member settled, key⟩

theorem joinMembers_interventions (names : List String) (reason : String) :
    (joinMembers env state names reason).interventions = state.interventions := by
  unfold joinMembers
  generalize names.filter (· ∈ env.agents) = known
  induction known generalizing state with
  | nil => rfl
  | cons name rest ih =>
      rw [List.foldl_cons, ih]
      unfold OrchestrationState.addMember
      split <;> rfl

theorem spawnDerivedNode_interventions (spawn : Spawn) :
    (spawnDerivedNode config env session spawn).1.state.interventions =
      session.state.interventions := by
  unfold spawnDerivedNode
  dsimp only
  split
  · rfl
  · split
    · rfl
    · exact joinMembers_interventions _ _

theorem deliverQueued_interventions (node : NodeState) :
    (deliverQueued config env session node).state.interventions = session.state.interventions := by
  unfold deliverQueued
  dsimp only
  split
  · rfl
  · exact spawnDerivedNode_interventions _

theorem write_interventions (node : NodeState) :
    (session.write ref node).1.state.interventions = session.state.interventions := by
  rw [write_frame]

theorem transition_interventions (fields : NodeState → NodeState) (target : NodeStatus) :
    (session.transition ref fields target).session.state.interventions =
      session.state.interventions := by
  unfold Session.transition
  split
  · rfl
  · split <;> exact write_interventions _

theorem change_interventions (fields : NodeState → NodeState) :
    (session.change ref fields).session.state.interventions = session.state.interventions := by
  unfold Session.change
  split
  · rfl
  · exact write_interventions _

theorem startNode_interventions (mode : Mode) :
    (startNode session ref mode).session.state.interventions = session.state.interventions := by
  unfold startNode
  split
  · exact transition_interventions _ _
  · dsimp only
    split
    · exact transition_interventions _ _
    · exact (change_interventions _).trans (transition_interventions _ _)
  · exact change_interventions _

theorem chunkNode_interventions (a2aTaskId : Option String) (submitted : Bool) :
    (chunkNode session ref a2aTaskId submitted).session.state.interventions =
      session.state.interventions := by
  unfold chunkNode
  split
  · exact transition_interventions _ _
  · exact change_interventions _

theorem markDelivered_interventions :
    (markDelivered config env session ref).session.state.interventions =
      session.state.interventions := by
  unfold markDelivered
  dsimp only
  split
  · rw [deliverQueued_interventions]
    rename_i node _ _
    exact (arbitrateMentions_rule config env _
      (fun before behind => behind.state.interventions = before.state.interventions)
      (fun _ => rfl) (fun first second => second.trans first) node
      fun _ spawn _ _ => spawnDerivedNode_interventions spawn).trans
        (transition_interventions _ _)
  · exact transition_interventions _ _

theorem revise_idle {decision : OutcomeResult}
    (free : revisionOf config decision session.state.revisionCount = none) :
    revise config env session decision = session := by
  unfold revise
  unfold revisionOf at free
  split
  · rename_i patch intent brought
    simp only [intent, brought] at free
    split
    · rename_i room
      simp [room] at free
    · rfl
  · rfl

theorem outcomeFlow_interventions (answered : Option OutcomeResult)
    (free : revisionOf config (interpretOutcome ((session.read ref).bind (·.output)) answered)
      session.state.revisionCount = none) :
    (outcomeFlow config env session ref answered).session.state.interventions =
      session.state.interventions := by
  unfold outcomeFlow
  dsimp only
  split
  · exact transition_interventions _ _
  · rw [revise_idle free]
    exact markDelivered_interventions
  · rw [revise_idle free]
    exact markDelivered_interventions

/-- An outcome that does not wait for the lock revises nothing. -/
theorem interpretRemote_interventions (remote : Remote) (answered : Option OutcomeResult)
    (free : outcomePatch config session.state remote answered = none) :
    (interpretRemote config env session ref remote answered).session.state.interventions =
      session.state.interventions := by
  unfold interpretRemote
  unfold outcomePatch at free
  cases ended : remote.ended with
  | completed =>
      simp only [ended] at free ⊢
      cases found : session.read ref with
      | none => rfl
      | some node =>
          have output := read_write found (remote.fields_keeps.nodeId node)
          have count := write_revisionCount session ref (remote.fields node)
          refine (outcomeFlow_interventions answered ?_).trans (write_interventions _)
          rw [output, count]
          exact free
  | canceled | inputRequired | stopped => exact transition_interventions _ _

theorem collectTask_interventions (task : NodeTask) :
    (Runtime.collectTask session task).state.interventions = session.state.interventions := by
  unfold Runtime.collectTask
  split
  · split <;> rfl
  · rfl

theorem collect_interventions (runtime : Runtime) :
    runtime.collect.session.state.interventions = runtime.session.state.interventions := by
  unfold Runtime.collect
  dsimp only
  generalize runtime.nodeTasks.filter (·.done) = ended
  generalize runtime.session = session
  induction ended generalizing session with
  | nil => rfl
  | cons task rest ih =>
      rw [List.foldl_cons, ih]
      exact collectTask_interventions task

theorem closeNode_settled (nodeId : String) :
    KeepsSettled session.state (closeNode session nodeId).state := by
  have expired : KeepsSettled session.state (session.state.expireNodeInterventions nodeId) :=
    expireWhere_settled _
  exact expired.trans (@emitPendingQuestions_settled
    (Session.persist { session with state := session.state.expireNodeInterventions nodeId }))

theorem advance_of_unlocked {runtime next : Runtime} {event : Event}
    (free : event.unlocked config runtime.session.state = true)
    (stepped : runtime.step config event = some next) :
    runtime.advance config event = some next := by
  unfold Runtime.step at stepped
  split at stepped
  · cases free
  · cases stepped
  · exact stepped

/-- What needs no lock settles pending interventions only. -/
theorem unlocked_settled {runtime next : Runtime} {event : Event}
    (free : event.unlocked config runtime.session.state = true)
    (stepped : runtime.step config event = some next) :
    KeepsSettled runtime.session.state next.session.state := by
  cases Runtime.advances (advance_of_unlocked free stepped) with
  | message | dispatch | flow | resolve | act | cancel | reload => cases free
  | clearWake => exact .refl _
  | collect => exact .of_eq (collect_interventions runtime)
  | start task => exact .of_eq (startNode_interventions task.mode)
  | chunk a2aTaskId submitted => exact .of_eq (chunkNode_interventions a2aTaskId submitted)
  | outcome env remote answered =>
      exact .of_eq (interpretRemote_interventions remote answered (by simpa [Event.unlocked] using free))
  | close task => exact closeNode_settled task.ref.nodeId
  | inspect => exact .refl _

end Beside

/-! ### What a call leaves -/

/-- The effect of an answered intervention on its target: it continues with the
answer, or it is canceled and no node goes on waiting for it. -/
def Intervention.Effected (intervention : Intervention) (state : OrchestrationState) : Prop :=
  match intervention.kind with
  | .question =>
      ∃ target, state.node? intervention.nodeId = some target ∧ target.status = .ready ∧
        target.answerText = some intervention.renderAnswer
  | .confirmCancel =>
      intervention.answer = some (.flag true) →
        ∃ target, state.node? intervention.nodeId = some target ∧ target.status = .canceled ∧
          ∀ other ∈ state.nodes.rows, intervention.nodeId ∈ other.deps → other.status ≠ .pending

namespace AnswerCall

/-- The call changes nothing, or expires a pending intervention whose target
does not await its answer. -/
def Declines (before : Session) (call : AnswerCall) : Prop :=
  call.runtime.session = before ∨
    ∃ intervention, before.state.interventions.find? call.response.interventionId = some intervention ∧
      intervention.status = .pending ∧
      (∀ target, before.state.node? intervention.nodeId = some target →
        intervention.kind.awaits target.status = false) ∧
      call.runtime.session = before.expire intervention

/-- The pending intervention is resolved, and its target has its effect. -/
def Resolves (before : Session) (call : AnswerCall) : Prop :=
  ∃ intervention, before.state.interventions.find? call.response.interventionId = some intervention ∧
    intervention.status = .pending ∧
    let answered := intervention.answered call.response.answer
    call.runtime.session.state.interventions.find? call.response.interventionId = some answered ∧
      answered.Effected call.runtime.session.state

/-- All or nothing, and no exception. -/
def Atomic (before : Session) (call : AnswerCall) : Prop :=
  match call.point with
  | .returned true => call.Resolves before
  | .returned false => call.Declines before
  | _ => False

/-- A part of the call finds the target as it needs it: it may still move, the
answer is still on it, and the cancellation of its remote task raises nothing. -/
def Finds (call : AnswerCall) (reply : AwaitReply) (intervention : Intervention)
    (target : NodeState) : Prop :=
  match call.point, reply, intervention.kind with
  | .recording, .done, .question =>
      target.canTransition .ready = true ∧ target.answerText = some intervention.renderAnswer
  | .recording, .done, .confirmCancel =>
      call.response.answer = .flag true → given target.a2aTaskId = false →
        target.canTransition .canceled = true
  | .lookingUp, .agent known, _ => known = false → target.canTransition .canceled = true
  | .canceling, .remote error, _ => error = none ∧ target.canTransition .canceled = true
  | _, _, _ => True

def Admits (call : AnswerCall) : AnswerEvent → Prop
  | .outside _ => True
  | .proceed reply =>
      ∀ intervention ∈ call.intervention,
        ∀ target ∈ call.runtime.session.state.node? intervention.nodeId,
          call.Finds reply intervention target

/-- A call that is behind its mark. -/
structure Marked (before : Session) (call : AnswerCall) (intervention : Intervention) : Prop where
  found : before.state.interventions.find? call.response.interventionId = some intervention
  pending : intervention.status = .pending
  held : call.intervention = some (intervention.answered call.response.answer)
  resolved : call.runtime.session.state.interventions.find? call.response.interventionId =
    some (intervention.answered call.response.answer)
  cancels : call.point = .recording ∨
    ((call.point = .lookingUp ∨ call.point = .canceling) ∧ intervention.kind = .confirmCancel ∧
      call.response.answer = .flag true)

section Parts

variable {config : ExecutorConfig} {before : Session} {call next : AnswerCall}
  {intervention : Intervention} {target : NodeState}

theorem Marked.going (marked : call.Marked before intervention) : ¬ call.Ended := by
  rcases marked.cancels with point | ⟨point | point, _⟩ <;> simp [Ended, point]

/-- The first part declines, or marks. -/
theorem check_cases (call : AnswerCall) :
    (call.check.Ended ∧ call.check.Atomic call.runtime.session) ∨
      ∃ intervention, call.check.Marked call.runtime.session intervention := by
  have declined : (call.settle call.runtime.session false).Ended ∧
      (call.settle call.runtime.session false).Atomic call.runtime.session :=
    ⟨trivial, .inl rfl⟩
  unfold check
  dsimp only
  cases found : call.runtime.session.state.interventions.find? call.response.interventionId with
  | none => exact .inl declined
  | some intervention =>
      dsimp only
      split
      · exact .inl declined
      · rename_i pending
        replace pending := Classical.not_not.mp pending
        split
        · exact .inl declined
        · cases known : call.runtime.session.state.node? intervention.nodeId with
          | none => exact .inl ⟨trivial, .inr ⟨intervention, found, pending, by simp [known], rfl⟩⟩
          | some target =>
              dsimp only
              split
              · right
                have key := Table.key_of_find? found
                refine ⟨intervention, found, pending, rfl, ?_, .inl rfl⟩
                simp only [mark]
                split <;> simp [Session.setIntervention, OrchestrationState.setNode,
                  Intervention.answered, key]
              · rename_i stale
                refine .inl ⟨trivial, .inr ⟨intervention, found, pending, ?_, rfl⟩⟩
                intro other same
                obtain rfl : target = other := Option.some.inj (known.symm.trans same)
                simpa using stale

/-- What `cancel_node` leaves of its target and of the nodes that wait for it. -/
theorem cancelNode_effect (session : Session) {nodeId : String}
    (found : session.state.node? nodeId = some target) :
    let state := (session.cancelNode target).state
    KeepsSettled session.state state ∧
      state.node? nodeId = some { target with status := .canceled, a2aTaskId := none } ∧
      ∀ other ∈ state.nodes.rows, nodeId ∈ other.deps → other.status ≠ .pending := by
  obtain ⟨_, rfl⟩ := session.state.node_mem nodeId found
  let canceled := session.state.setNode { target with status := .canceled, a2aTaskId := none }
  let blocked := canceled.blockedNodes.map (·.id)
  have nodes : (session.cancelNode target).state.nodes = canceled.invalidateBlocked.nodes :=
    (expireAll_quiet _ _).nodes
  have row : canceled.node? target.id =
      some { target with status := .canceled, a2aTaskId := none } := by
    simp [canceled, OrchestrationState.node?, OrchestrationState.setNode]
  -- Only pending nodes are blocked.
  have spared : target.id ∉ blocked := by
    intro listed
    obtain ⟨other, inside, same⟩ := List.mem_map.mp listed
    obtain ⟨member, pending⟩ := List.mem_filter.mp inside
    have itself : canceled.node? target.id = some other := same ▸ canceled.node_of_mem member
    rw [row] at itself
    cases itself
    simp at pending
  refine ⟨?_, ?_, ?_⟩
  · have untouched : canceled.invalidateBlocked.interventions = session.state.interventions := rfl
    exact (KeepsSettled.of_eq untouched).trans (expireAll_settled _ _)
  · rw [OrchestrationState.node?, nodes]
    have moved := node_moveNodes canceled blocked .invalidated target.id
    rw [row] at moved
    refine moved.trans ?_
    simp [spared]
  · intro other member waits pending
    rw [nodes] at member
    rcases (mem_moveNodes canceled blocked .invalidated other).mp member with
      ⟨node, _, _, rfl⟩ | ⟨member, unlisted⟩
    · cases pending
    · apply unlisted
      refine List.mem_map_of_mem (List.mem_filter.mpr ⟨member, ?_⟩)
      have ended : canceled.depEnded other = true :=
        List.any_eq_true.mpr ⟨target.id, waits, by simp [status?, row, terminalNodeStatuses]⟩
      simp [pending, ended]

theorem cancelTarget_atomic (marked : call.Marked before intervention)
    (kind : intervention.kind = .confirmCancel)
    (found : call.runtime.session.state.node? intervention.nodeId = some target) :
    (call.cancelTarget target).Ended ∧
      ((call.cancelTarget target).Atomic before ↔ target.canTransition .canceled = true) := by
  unfold cancelTarget NodeState.applyTransition
  split
  · rename_i refused
    split at refused
    · cases refused
    · rename_i stays
      exact ⟨trivial, iff_of_false id stays⟩
  · rename_i moved
    split at moved
    · rename_i admits
      refine ⟨trivial, iff_of_true ?_ admits⟩
      obtain ⟨keeps, canceled, released⟩ := cancelNode_effect call.runtime.session found
      refine ⟨intervention, marked.found, marked.pending, ?_, ?_⟩
      · exact keeps.find (by simp [Intervention.answered]) marked.resolved
      · unfold Intervention.Effected
        simp only [Intervention.answered, kind]
        exact fun _ => ⟨_, canceled, rfl, released⟩
    · cases moved

theorem ready_atomic (marked : call.Marked before intervention)
    (kind : intervention.kind = .question)
    (found : call.runtime.session.state.node? intervention.nodeId = some target) :
    (call.resume (intervention.answered call.response.answer) target).Ended ∧
      ((call.resume (intervention.answered call.response.answer) target).Atomic before ↔
        target.canTransition .ready = true ∧
          target.answerText = some (intervention.answered call.response.answer).renderAnswer) := by
  have same : (intervention.answered call.response.answer).kind = .question := kind
  unfold resume NodeState.applyTransition
  simp only [same]
  by_cases admits : target.canTransition .ready = true
  · rw [if_pos admits]
    have id := (call.runtime.session.state.node_mem _ found).2
    refine ⟨trivial, ?_, ?_⟩
    · rintro ⟨other, known, _, _, effected⟩
      obtain rfl : intervention = other := Option.some.inj (marked.found.symm.trans known)
      simp only [Intervention.Effected, settle, same] at effected
      obtain ⟨node, row, _, answer⟩ := effected
      have ready : node = { target with status := .ready } := by
        simpa [node?, setNode, Intervention.answered, id] using row.symm
      rw [ready] at answer
      exact ⟨admits, answer⟩
    · rintro ⟨_, answer⟩
      refine ⟨intervention, marked.found, marked.pending, marked.resolved, ?_⟩
      simp only [Intervention.Effected, settle, same]
      refine ⟨{ target with status := .ready }, ?_, rfl, answer⟩
      simp [node?, setNode, Intervention.answered, id]
  · rw [if_neg admits]
    exact ⟨trivial, iff_of_false (fun never => never) fun admitted => admits admitted.1⟩

theorem resume_marked (marked : call.Marked before intervention) (point : call.point = .recording)
    (found : call.runtime.session.state.node? intervention.nodeId = some target) :
    let answered := intervention.answered call.response.answer
    let next := call.resume answered target
    (next.Ended ∧ (next.Atomic before ↔ call.Finds .done answered target)) ∨
      (call.Finds .done answered target ∧ next.Marked before intervention) := by
  intro answered next
  cases kind : intervention.kind with
  | question =>
      have same : answered.kind = .question := kind
      have finds : call.Finds .done answered target ↔
          target.canTransition .ready = true ∧ target.answerText = some answered.renderAnswer := by
        simp only [Finds, point, same]
      rw [finds]
      exact .inl (ready_atomic marked kind found)
  | confirmCancel =>
      have same : answered.kind = .confirmCancel := kind
      have finds : call.Finds .done answered target ↔ (call.response.answer = .flag true →
          given target.a2aTaskId = false → target.canTransition .canceled = true) := by
        simp only [Finds, point, same]
      rw [finds]
      simp only [next, resume, same]
      by_cases confirmed : call.response.answer = .flag true
      · rw [if_pos confirmed]
        cases remote : given target.a2aTaskId with
        | true =>
            -- the remote task is to be cancelled first, so the call goes on
            right
            exact ⟨fun _ absent => (by cases absent), marked.found, marked.pending, marked.held,
              marked.resolved, .inr ⟨.inl rfl, kind, confirmed⟩⟩
        | false =>
            left
            simpa [confirmed] using cancelTarget_atomic marked kind found
      · rw [if_neg confirmed]
        left
        refine ⟨trivial, iff_of_true ?_ fun other => absurd other confirmed⟩
        refine ⟨intervention, marked.found, marked.pending, marked.resolved, ?_⟩
        have unconfirmed : answered.Effected call.runtime.session.state := by
          unfold Intervention.Effected
          simp only [same]
          intro other
          exact absurd (Option.some.inj other) confirmed
        exact unconfirmed

/-- A part of a marked call ends it, all or nothing exactly if it finds the
target as it needs it; or it does so and goes on. -/
theorem proceed_marked {reply : AwaitReply} (marked : call.Marked before intervention)
    (proceeded : call.proceed reply = some next) :
    (next.Ended ∧ (next.Atomic before ↔ call.Admits (.proceed reply))) ∨
      (call.Admits (.proceed reply) ∧ next.Marked before intervention) := by
  let answered := intervention.answered call.response.answer
  simp only [proceed, marked.held] at proceeded
  cases found : call.runtime.session.state.node? intervention.nodeId with
  | none =>
      have missing : call.runtime.session.state.node? answered.nodeId = none := found
      rw [missing] at proceeded
      cases proceeded
  | some target =>
      have row : call.runtime.session.state.node? answered.nodeId = some target := found
      have admits : call.Admits (.proceed reply) ↔ call.Finds reply answered target := by
        constructor
        · exact fun admitted => admitted answered marked.held target row
        · rintro finds other held node same
          obtain rfl : answered = other := Option.some.inj (marked.held.symm.trans held)
          obtain rfl : target = node := Option.some.inj (row.symm.trans same)
          exact finds
      rw [row] at proceeded
      rw [admits]
      rcases marked.cancels with point | ⟨point | point, confirms, confirmed⟩
      · cases reply with
        -- A reply that is not for the call's point is no step.
        | done =>
            simp only [part, point] at proceeded
            cases proceeded
            exact resume_marked marked point found
        | agent _ | remote _ =>
            simp only [part, point] at proceeded
            cases proceeded
      · simp only [part, point] at proceeded
        cases reply with
        | done | remote _ => cases proceeded
        | agent known =>
            simp only [Finds, point]
            cases known with
            | true =>
                cases proceeded
                -- The agent is known: the call goes on to the remote cancellation.
                right
                exact ⟨nofun, marked.found, marked.pending, marked.held, marked.resolved,
                  .inr ⟨.inr rfl, confirms, confirmed⟩⟩
            | false =>
                cases proceeded
                left
                simpa using cancelTarget_atomic marked confirms found
      · simp only [part, point] at proceeded
        cases reply with
        | done | agent _ => cases proceeded
        | remote error =>
            simp only [Finds, point]
            left
            cases error with
            | none =>
                cases proceeded
                simpa using cancelTarget_atomic marked confirms found
            | some error =>
                cases proceeded
                -- The remote error leaves the intervention resolved and the target untouched.
                exact ⟨trivial, iff_of_false id fun admitted => by simp at admitted⟩

theorem step_marked {event : AnswerEvent} (marked : call.Marked before intervention)
    (stepped : call.step config event = some next) :
    (next.Ended ∧ (next.Atomic before ↔ call.Admits event)) ∨
      (call.Admits event ∧ next.Marked before intervention) := by
  cases event with
  | proceed reply => exact proceed_marked marked stepped
  | outside event =>
      right
      refine ⟨trivial, ?_⟩
      simp only [step] at stepped
      split at stepped
      · cases stepped
      · rename_i going
        obtain ⟨runtime, moved, rfl⟩ := Option.map_eq_some_iff.mp stepped
        have free : event.unlocked config call.runtime.session.state = true := by
          simpa using (not_or.mp going).2
        exact ⟨marked.found, marked.pending, marked.held,
          (unlocked_settled free moved).find (by simp [Intervention.answered]) marked.resolved,
          marked.cancels⟩

theorem ended_stuck {event : AnswerEvent} (ended : call.Ended) :
    call.step config event = none := by
  cases event with
  | outside event => simp [step, ended]
  | proceed reply =>
      have stuck : ∀ intervention target, call.part intervention target reply = none := by
        intro intervention target
        unfold part
        unfold Ended at ended
        split at ended
        · rename_i point
          simp [point]
        · rename_i point
          simp [point]
        · exact ended.elim
      simp only [step, proceed, stuck]
      split
      · rfl
      · split <;> rfl

/-- A run from the mark to the end of the call. -/
theorem run_marked (events : List AnswerEvent) {final : AnswerCall}
    (marked : call.Marked before intervention)
    (ran : Runs.run (step config) call events = some final) (ended : final.Ended) :
    final.Atomic before ↔ Runs.Guarded (step config) Admits call events := by
  induction events generalizing call with
  | nil =>
      cases ran
      exact absurd ended marked.going
  | cons event rest ih =>
      cases stepped : call.step config event with
      | none => simp [Runs.run, stepped] at ran
      | some next =>
          simp only [Runs.run, stepped] at ran
          simp only [Runs.Guarded, stepped]
          rcases step_marked marked stepped with ⟨finished, agrees⟩ | ⟨admits, marked⟩
          · cases rest with
            | nil =>
                cases ran
                simpa [Runs.Guarded] using agrees
            | cons other rest => simp [Runs.run, ended_stuck finished] at ran
          · rw [ih marked ran]
            simp [admits]

theorem settle_settled {session : Session} {resolved : Bool}
    (keeps : KeepsSettled call.runtime.session.state session.state) :
    KeepsSettled call.runtime.session.state (call.settle session resolved).runtime.session.state :=
  keeps

theorem cancelTarget_settled {nodeId : String}
    (found : call.runtime.session.state.node? nodeId = some target) :
    KeepsSettled call.runtime.session.state (call.cancelTarget target).runtime.session.state := by
  unfold cancelTarget
  split
  · exact .refl _
  · exact settle_settled (cancelNode_effect call.runtime.session found).1

theorem part_settled {reply : AwaitReply} (intervention : Intervention) {nodeId : String}
    (found : call.runtime.session.state.node? nodeId = some target)
    (taken : call.part intervention target reply = some next) :
    KeepsSettled call.runtime.session.state next.runtime.session.state := by
  unfold part at taken
  split at taken
  · cases taken
    unfold resume
    split
    · split
      · exact .refl _
      · exact settle_settled (.of_eq rfl)
    · split
      · split
        · exact .refl _
        · exact cancelTarget_settled found
      · exact settle_settled (.refl _)
  · cases taken
    exact .refl _
  · cases taken
    exact cancelTarget_settled found
  · cases taken
    exact cancelTarget_settled found
  · cases taken
    exact .refl _
  · cases taken

theorem step_settled {event : AnswerEvent} (stepped : call.step config event = some next) :
    KeepsSettled call.runtime.session.state next.runtime.session.state := by
  cases event with
  | outside event =>
      simp only [step] at stepped
      split at stepped
      · cases stepped
      · rename_i going
        obtain ⟨runtime, moved, rfl⟩ := Option.map_eq_some_iff.mp stepped
        exact unlocked_settled (by simpa using (not_or.mp going).2) moved
  | proceed reply =>
      simp only [step, proceed] at stepped
      split at stepped
      · cases stepped
      · rename_i intervention _
        split at stepped
        · cases stepped
        · rename_i found
          exact part_settled intervention found stepped

theorem set_settled {session : Session} {intervention later : Intervention}
    (found : session.state.interventions.find? call.response.interventionId = some intervention)
    (pending : intervention.status = .pending) (same : later.id = intervention.id) :
    KeepsSettled session.state (session.setIntervention later).state := by
  intro other member settled
  refine (Table.mem_insert _ _ _).mpr (.inr ⟨member, fun key => settled ?_⟩)
  have row : other = intervention := Table.row_unique _ member (Table.mem_of_find? found)
    (key.trans same)
  rw [row, pending]

theorem check_settled (call : AnswerCall) :
    KeepsSettled call.runtime.session.state call.check.runtime.session.state := by
  unfold check
  dsimp only
  split
  · exact settle_settled (.refl _)
  · rename_i intervention found
    split
    · exact settle_settled (.refl _)
    · rename_i pending
      replace pending := Classical.not_not.mp pending
      split
      · exact settle_settled (.refl _)
      · split
        · exact settle_settled (set_settled found pending rfl)
        · split
          · have marked : KeepsSettled call.runtime.session.state
                (call.runtime.session.setIntervention
                  (intervention.answered call.response.answer)).state :=
              set_settled found pending rfl
            unfold mark
            dsimp only
            split
            · exact marked
            · exact marked.trans (.of_eq rfl)
          · exact settle_settled (set_settled found pending rfl)

theorem run_settled (events : List AnswerEvent) {final : AnswerCall}
    (ran : Runs.run (step config) call events = some final) :
    KeepsSettled call.runtime.session.state final.runtime.session.state :=
  Runs.run_invariant_of_step
    (fun reached => KeepsSettled call.runtime.session.state reached.runtime.session.state)
    (fun _ _ _ before stepped => before.trans (step_settled stepped)) events call final (.refl _) ran

end Parts

end AnswerCall

section Undisturbed

theorem setNode_setNode {state : OrchestrationState} {node later : NodeState}
    (same : node.id = later.id) : (state.setNode node).setNode later = state.setNode later := by
  simp only [setNode, Table.insert_insert _ same]

variable (config : ExecutorConfig) {runtime : Runtime} {response : QuestionResponse}
  {intervention : Intervention} {target : NodeState}

/-- A marked call with nothing beside it. -/
theorem undisturbed_question
    (found : runtime.session.state.node? intervention.nodeId = some target)
    (kind : intervention.kind = .question) (waits : target.status = .inputRequired) :
    ∃ final,
      Runs.run (AnswerCall.step config)
        (AnswerCall.mark { runtime, response, point := .returned false } intervention target)
        [.proceed .done] = some final ∧
        final.runtime.session =
          (runtime.session.answerQuestion intervention response.answer).1 ∧
          final.point = .returned true := by
  have id := (runtime.session.state.node_mem _ found).2
  have same : (intervention.answered response.answer).kind = .question := kind
  let handed : NodeState :=
    { target with answerText := some (intervention.answered response.answer).renderAnswer }
  let marked := AnswerCall.mark { runtime, response, point := .returned false } intervention target
  have row : marked.runtime.session.state.node? intervention.nodeId = some handed := by
    simp [marked, AnswerCall.mark, kind, node?, setNode, handed, ← id]
  have moves : handed.applyTransition .ready = .ok { handed with status := .ready } := by
    simp [NodeState.applyTransition, NodeState.canTransition, NodeState.allowedTransitions, handed,
      waits]
  have step : AnswerCall.step config marked (.proceed .done) =
      some (marked.resume (intervention.answered response.answer) handed) := by
    have held : marked.intervention = some (intervention.answered response.answer) := rfl
    have there : marked.runtime.session.state.node?
        (intervention.answered response.answer).nodeId = some handed := row
    simp only [AnswerCall.step, AnswerCall.proceed, held, there]
    rfl
  refine ⟨marked.resume (intervention.answered response.answer) handed, ?_, ?_, ?_⟩
  · simp only [Runs.run]
    rw [step]
  · let resolved := runtime.session.setIntervention (intervention.answered response.answer)
    have session : marked.runtime.session =
        { resolved with state := resolved.state.setNode handed } := by
      simp only [marked, AnswerCall.mark, kind]
      rfl
    -- The row is written twice, first with the answer and then ready.
    have twice : (resolved.state.setNode handed).setNode { handed with status := .ready } =
        resolved.state.setNode { handed with status := .ready } := setNode_setNode rfl
    simp only [AnswerCall.resume, same, moves, AnswerCall.settle, session, twice,
      Session.answerQuestion, found]
    rw [if_neg (by simp [waits])]
    rfl
  · simp only [AnswerCall.resume, same, moves]
    rfl

theorem undisturbed_confirmation
    (found : runtime.session.state.node? intervention.nodeId = some target)
    (kind : intervention.kind = .confirmCancel) (active : target.status ∈ activeNodeStatuses) :
    ∃ (replies : List AwaitReply) (final : AnswerCall),
      Runs.run (AnswerCall.step config)
        (AnswerCall.mark { runtime, response, point := .returned false } intervention target)
        (replies.map .proceed) = some final ∧
        final.runtime.session =
          (runtime.session.answerConfirmation intervention response.answer).1 ∧
          final.point = .returned true := by
  have same : (intervention.answered response.answer).kind = .confirmCancel := kind
  let marked := AnswerCall.mark { runtime, response, point := .returned false } intervention target
  have held : marked.intervention = some (intervention.answered response.answer) := rfl
  have row : marked.runtime.session.state.node? (intervention.answered response.answer).nodeId =
      some target := by
    simp only [marked, AnswerCall.mark, kind]
    exact found
  have moves : ∃ moved, target.applyTransition .canceled = .ok moved := by
    refine ⟨_, if_pos ?_⟩
    simp only [activeNodeStatuses, List.mem_cons, List.not_mem_nil, or_false] at active
    rcases active with status | status <;>
      simp [NodeState.canTransition, NodeState.allowedTransitions, status]
  obtain ⟨moved, moves⟩ := moves
  have first : AnswerCall.step config marked (.proceed .done) =
      some (marked.resume (intervention.answered response.answer) target) := by
    simp only [AnswerCall.step, AnswerCall.proceed, held, row]
    rfl
  have session : marked.runtime.session =
      runtime.session.setIntervention (intervention.answered response.answer) := by
    simp only [marked, AnswerCall.mark, kind]
  by_cases confirmed : response.answer = .flag true
  · have answer : marked.response.answer = .flag true := confirmed
    have expected : (marked.runtime.session.cancelNode target).persist =
        (runtime.session.answerConfirmation intervention response.answer).1 := by
      simp only [Session.answerConfirmation, found]
      rw [if_neg (by simp [active]), if_pos confirmed, session]
      rfl
    -- A target with a remote task asks for its agent first; an unknown one ends the call there.
    cases remote : given target.a2aTaskId with
    | false =>
        have last : marked.resume (intervention.answered response.answer) target =
            marked.settle (marked.runtime.session.cancelNode target).persist true := by
          simp [AnswerCall.resume, same, answer, remote, AnswerCall.cancelTarget, moves]
        refine ⟨[.done], marked.settle (marked.runtime.session.cancelNode target).persist true, ?_,
          expected, rfl⟩
        simp only [List.map_cons, List.map_nil, Runs.run]
        rw [first, last]
    | true =>
        have second : marked.resume (intervention.answered response.answer) target =
            { marked with point := .lookingUp } := by
          simp [AnswerCall.resume, same, answer, remote]
        have last : AnswerCall.step config { marked with point := .lookingUp } (.proceed (.agent false)) =
            some (marked.settle (marked.runtime.session.cancelNode target).persist true) := by
          simp only [AnswerCall.step, AnswerCall.proceed, held, row, AnswerCall.part,
            AnswerCall.cancelTarget, moves]
          rfl
        refine ⟨[.done, .agent false],
          marked.settle (marked.runtime.session.cancelNode target).persist true, ?_, expected, rfl⟩
        simp only [List.map_cons, List.map_nil, Runs.run]
        rw [first, second]
        dsimp only
        rw [last]
  · refine ⟨[.done], marked.resume (intervention.answered response.answer) target, ?_, ?_, ?_⟩
    · simp only [List.map_cons, List.map_nil, Runs.run]
      rw [first]
    · have response_ : marked.response = response := rfl
      simp only [AnswerCall.resume, same, response_, confirmed, ↓reduceIte, AnswerCall.settle, session,
        Session.answerConfirmation, found, active, not_true_eq_false]
      rfl
    · have response_ : marked.response = response := rfl
      simp only [AnswerCall.resume, same, response_, confirmed, ↓reduceIte]
      rfl

/-- Without anything beside it the call does what `answerIntervention` does. -/
theorem undisturbed_answer (runtime : Runtime) (response : QuestionResponse) :
    ∃ (replies : List AwaitReply) (final : AnswerCall),
      Runs.run (AnswerCall.step config) (.begin runtime response) (replies.map .proceed) = some final ∧
        final.runtime.session = (runtime.session.answerIntervention response).1 ∧
          final.point = .returned (runtime.session.answerIntervention response).2 := by
  unfold AnswerCall.begin AnswerCall.check Session.answerIntervention
  dsimp only
  cases known : runtime.session.state.interventions.find? response.interventionId with
  | none => exact ⟨[], _, rfl, rfl, rfl⟩
  | some intervention =>
      dsimp only
      split
      · exact ⟨[], _, rfl, rfl, rfl⟩
      · cases invalid : validateAnswer intervention response.answer with
        | some text => exact ⟨[], _, rfl, rfl, rfl⟩
        | none =>
            dsimp only
            cases kind : intervention.kind with
            | question =>
                cases found : runtime.session.state.node? intervention.nodeId with
                | none =>
                    simp only [Session.answerQuestion, found]
                    exact ⟨[], _, rfl, rfl, rfl⟩
                | some target =>
                    dsimp only
                    split
                    · rename_i waits
                      have waits : target.status = .inputRequired := by
                        simpa [InterventionKind.awaits] using waits
                      obtain ⟨final, ran, session, point⟩ :=
                        @undisturbed_question config _ response _ _ found kind waits
                      have resolves : (runtime.session.answerQuestion intervention response.answer).2 =
                          true := by
                        simp [Session.answerQuestion, found, waits]
                      exact ⟨[.done], final, ran, session, by rw [point, resolves]⟩
                    · rename_i stale
                      have stale : target.status ≠ .inputRequired := by
                        simpa [InterventionKind.awaits] using stale
                      simp only [Session.answerQuestion, found, if_pos stale]
                      exact ⟨[], _, rfl, rfl, rfl⟩
            | confirmCancel =>
                cases found : runtime.session.state.node? intervention.nodeId with
                | none =>
                    simp only [Session.answerConfirmation, found]
                    exact ⟨[], _, rfl, rfl, rfl⟩
                | some target =>
                    dsimp only
                    split
                    · rename_i active
                      have active : target.status ∈ activeNodeStatuses := by
                        simpa [InterventionKind.awaits] using active
                      obtain ⟨replies, final, ran, session, point⟩ :=
                        @undisturbed_confirmation config _ response _ _ found kind active
                      have resolves :
                          (runtime.session.answerConfirmation intervention response.answer).2 = true := by
                        simp [Session.answerConfirmation, found, active]
                      exact ⟨replies, final, ran, session, by rw [point, resolves]⟩
                    · rename_i stale
                      have stale : target.status ∉ activeNodeStatuses := by
                        simpa [InterventionKind.awaits] using stale
                      simp only [Session.answerConfirmation, found, if_pos stale]
                      exact ⟨[], _, rfl, rfl, rfl⟩

end Undisturbed

section Sample

/-! Two nodes at work. The first one ends with a revision that drops the second
one, which asks whether to cancel it. -/

def answerEnv : Env := ⟨["writer"], "now", fun drawn => "drawn" ++ toString drawn⟩

def confirmationAsked : List Event := [
  .message { taskId := "t1", text := "write" } answerEnv
    [some [⟨"n1", "first", "writer", .empty, []⟩, ⟨"n2", "second", "writer", .empty, []⟩]],
  .clearWake, .dispatch, .start 0, .start 1,
  .outcome 0 answerEnv { ended := .completed, output := some "changed" }
    (some { intent := .revise, patch := some { invalidate := ["n2"] } })]

def confirmation : QuestionResponse := ⟨"drawn0", .flag true⟩

def deliversSecond : AnswerEvent :=
  .outside (.outcome 1 answerEnv { ended := .completed, output := some "done" } none)

end Sample

end Choirworks.Orchestration
