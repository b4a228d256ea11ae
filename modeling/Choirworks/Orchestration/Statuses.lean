import Choirworks.Orchestration.Onward
import Choirworks.Orchestration.Revision

/-!
Which statuses an operation gives to nodes. `Enters` lists them: a node of the
state behind the operation has the status it had, or one of the list. What no
operation of a run enters can only come from where the run began.
-/

namespace Choirworks.Orchestration

namespace OrchestrationState

/-- Every node of `new` has the status it had in `old`, or one of those listed. -/
def Enters (entered : List NodeStatus) (old new : OrchestrationState) : Prop :=
  ∀ nodeId status, new.status? nodeId = some status →
    old.status? nodeId = some status ∨ status ∈ entered

section Enters

variable {entered more : List NodeStatus} {old new last : OrchestrationState}

theorem Enters.refl (entered : List NodeStatus) (state : OrchestrationState) :
    Enters entered state state :=
  fun _ _ => Or.inl

theorem Enters.trans (first : Enters entered old new) (second : Enters entered new last) :
    Enters entered old last := by
  intro nodeId status found
  rcases second nodeId status found with before | listed
  · exact first nodeId status before
  · exact Or.inr listed

theorem Enters.mono (effect : Enters entered old new) (fewer : ∀ status ∈ entered, status ∈ more) :
    Enters more old new :=
  fun nodeId status found => (effect nodeId status found).imp_right (fewer status)

theorem Enters.congr (nodes : new.nodes = old.nodes) : Enters entered old new := by
  intro nodeId status found
  left
  simpa [status?, node?, nodes] using found

theorem Enters.quiet (quiet : Quiet old new) : Enters entered old new := .congr quiet.nodes

theorem Enters.set {node : NodeState} (status : node.status ∈ entered ∨
    old.status? node.id = some node.status) : Enters entered old (old.setNode node) := by
  intro nodeId found known
  rw [status_setNode] at known
  split at known
  · rename_i same
    subst same
    obtain rfl := Option.some.inj known
    exact status.symm
  · exact Or.inl known

theorem Enters.move (state : OrchestrationState) (nodeIds : List String) {target : NodeStatus}
    (listed : target ∈ entered) : Enters entered state (state.moveNodes nodeIds target) := by
  intro nodeId status found
  rw [status_moveNodes, Option.map_eq_some_iff] at found
  obtain ⟨before, known, same⟩ := found
  split at same
  · exact Or.inr (same ▸ listed)
  · exact Or.inl (same ▸ known)

/-- A change of every row: either the status stays or it is a listed one. -/
theorem Enters.rows {change : NodeState → NodeState} (keeps : ∀ node, (change node).id = node.id)
    (each : ∀ node ∈ old.nodes.rows, (change node).status = node.status ∨
      (change node).status ∈ entered)
    (rows : new.nodes = old.nodes.map change keeps) : Enters entered old new := by
  intro nodeId status found
  simp only [status?, node?, rows, Table.find?_map, Option.map_map,
    Option.map_eq_some_iff] at found
  obtain ⟨node, known, rfl⟩ := found
  rcases each node (old.node_mem nodeId known).1 with same | listed
  · left
    simp [status?, node?, known, same]
  · exact Or.inr listed

theorem Enters.absent (effect : Enters entered old new) {status : NodeStatus}
    (unlisted : status ∉ entered) {nodeId : String} (found : new.status? nodeId = some status) :
    old.status? nodeId = some status :=
  (effect nodeId status found).resolve_right unlisted

end Enters

end OrchestrationState

open OrchestrationState

/-! ### Plans and patches -/

section Planning

variable (config : ExecutorConfig) (env : Env)

theorem createPlan_enters (state : OrchestrationState) (drafts : List PlanNodeDraft) :
    Enters [.pending] state (createPlan env state drafts) := by
  have planned : ∀ (drafts : List PlanNodeDraft) (state : OrchestrationState),
      Enters [.pending] state (drafts.foldl (fun state draft => state.setNode draft.node) state) := by
    intro drafts
    induction drafts with
    | nil => exact fun state => .refl _ state
    | cons draft rest ih =>
        intro state
        exact (Enters.set (Or.inl (by simp [PlanNodeDraft.node]))).trans (ih _)
  exact (planned drafts state).trans (.quiet (joinMembers_quiet env _ _ _))

theorem withDrafts_enters (state : OrchestrationState) (patch : PlanPatch)
    (knownAgents : List String) : Enters [.pending] state (withDrafts state patch knownAgents) := by
  have added : ∀ (drafts : List PatchNode) (patching : Patching),
      Enters [.pending] patching.state
        (drafts.foldl (Patching.addDraft knownAgents) patching).state := by
    intro drafts
    induction drafts with
    | nil => exact fun patching => .refl _ patching.state
    | cons draft rest ih =>
        intro patching
        refine Enters.trans ?_ (ih _)
        rcases Patching.addDraft_cases knownAgents patching draft with ⟨same, _⟩ | ⟨node, _, accepted⟩
        · exact .congr (by rw [same])
        · rw [accepted.state]
          exact Enters.set (Or.inl (by simp [accepted.waits]))
  exact added patch.add ⟨state, {}⟩

theorem applyPatch_enters (state : OrchestrationState) (patch : PlanPatch)
    (knownAgents : List String) :
    Enters [.pending, .invalidated] state (applyPatch state patch knownAgents).state := by
  rw [(applyPatch_cut state patch knownAgents).1]
  exact ((withDrafts_enters state patch knownAgents).mono (by decide)).trans
    (.move _ _ (by decide))

variable (session : Session)

theorem revisePlan_enters (patch : PlanPatch) :
    Enters [.pending, .invalidated] session.state (revisePlan env session patch).1.state := by
  obtain ⟨state, count, quiet, revised⟩ := revisePlan_cases env session patch
  rw [revised]
  exact (applyPatch_enters session.state patch env.agents).trans (.congr quiet.nodes)

theorem revise_enters (decision : OutcomeResult) :
    Enters [.pending, .invalidated] session.state (revise config env session decision).state := by
  unfold revise
  split
  · split
    · exact revisePlan_enters env session _
    · exact .refl _ _
  · exact .refl _ _

theorem repairPlan_enters (decision : Option PlanPatch) :
    Enters [.pending, .invalidated] session.state (repairPlan env session decision).1.state := by
  unfold repairPlan
  split
  · exact .refl _ _
  · exact .refl _ _
  · exact revisePlan_enters env session _

theorem emitPendingQuestions_enters :
    Enters [] session.state session.emitPendingQuestions.state :=
  .quiet (emitPendingQuestions_quiet session)

theorem planFlow_enters (busy : Bool) (decision : Option PlanPatch) :
    Enters [.pending, .invalidated] session.state
      (planFlow config env session busy decision).1.state := by
  unfold planFlow
  dsimp only
  split
  · exact .refl _ _
  · split
    · exact (emitPendingQuestions_enters session.persist).mono (by simp)
    · split
      · exact .refl _ _
      · split
        · split
          · exact repairPlan_enters env session decision
          · exact .refl _ _
        · split <;> exact .refl _ _

/-! ### Derived nodes -/

theorem spawnDerivedNode_enters (spawn : Spawn) :
    Enters [.pending] session.state (spawnDerivedNode config env session spawn).1.state := by
  rcases spawnDerivedNode_cases config env session spawn with
    ⟨_, refused⟩ | ⟨state, _, quiet, spawned⟩
  · rw [refused]
    exact .refl _ _
  · rw [spawned]
    refine Enters.trans ?_ (.quiet quiet)
    exact Enters.set (Or.inl (by simp [Spawn.node]))

theorem arbitrateMentions_enters (node : NodeState) :
    Enters [.pending] session.state (arbitrateMentions config env session node).state :=
  arbitrateMentions_rule config env session
    (fun session next => Enters [.pending] session.state next.state) (fun _ => .refl _ _) .trans node
    fun session spawn _ _ => spawnDerivedNode_enters config env session spawn

theorem deliverQueued_enters (node : NodeState) :
    Enters [.pending] session.state (deliverQueued config env session node).state := by
  have taken : Enters [.pending] session.state (session.state.takeQueued node.id).2 := .congr rfl
  unfold deliverQueued
  dsimp only
  split
  · exact taken
  · exact taken.trans (spawnDerivedNode_enters config env _ _)

theorem callSubagent_enters (requestedBy target instruction : String) :
    Enters [.pending] session.state
      (callSubagent config env session requestedBy target instruction).1.state := by
  rcases callSubagent_cases config env session requestedBy target instruction with
    refused | ⟨spawn, _, _, spawned⟩
  · rw [refused]
    exact .refl _ _
  · rw [spawned]
    exact spawnDerivedNode_enters config env session spawn

end Planning

/-! ### Executions -/

section Execution

variable (config : ExecutorConfig) (env : Env) (session : Session) (ref : NodeRef)
  {entered : List NodeStatus} {fields : NodeState → NodeState}

theorem write_enters {node later : NodeState} (found : session.read ref = some node)
    (sameId : later.id = node.id)
    (status : later.status = node.status ∨ later.status ∈ entered) :
    Enters entered session.state (session.write ref later).1.state := by
  cases ref with
  | detached own => exact .refl _ _
  | planned nodeId =>
      apply Enters.set
      rcases status with same | listed
      · right
        rw [sameId, same]
        exact session.state.status_of_mem (session.state.node_mem nodeId found).1
      · exact Or.inl listed

theorem transition_enters (keeps : KeepsRow fields) (target : NodeStatus) :
    Enters [target] session.state (session.transition ref fields target).session.state := by
  unfold Session.transition
  split
  · exact .refl _ _
  · rename_i node found
    split
    · exact write_enters session ref found (keeps.nodeId node) (Or.inl (keeps.status node))
    · rename_i moved allowed
      obtain ⟨_, rfl⟩ := NodeState.apply_transition_ok allowed
      exact write_enters session ref found (keeps.nodeId node) (Or.inr List.mem_cons_self)

theorem markDelivered_enters :
    Enters [.completed, .pending] session.state
      (markDelivered config env session ref).session.state := by
  have delivered : Enters [.completed, .pending] session.state
      (session.transition ref id .completed).session.state :=
    (transition_enters session ref .id .completed).mono (by decide)
  simp only [markDelivered]
  split
  · rename_i node _ _
    have helped := arbitrateMentions_enters config env
      (session.transition ref id .completed).session node
    have drained := deliverQueued_enters config env
      (arbitrateMentions config env (session.transition ref id .completed).session node) node
    exact delivered.trans ((helped.trans drained).mono (by decide))
  · exact delivered

theorem outcomeFlow_enters (answered : Option OutcomeResult) :
    Enters [.completed, .inputRequired, .pending, .invalidated] session.state
      (outcomeFlow config env session ref answered).session.state := by
  have revised : Enters [.completed, .inputRequired, .pending, .invalidated] session.state
      (revise config env session
        (interpretOutcome ((session.read ref).bind (·.output)) answered)).state :=
    (revise_enters config env session _).mono (by decide)
  have delivered := revised.trans ((markDelivered_enters config env _ ref).mono (by decide))
  simp only [outcomeFlow]
  split
  · have waiting := fun fields (keeps : KeepsRow fields) =>
      (transition_enters session ref keeps .inputRequired).mono
        (by decide : ∀ status ∈ [NodeStatus.inputRequired],
          status ∈ [NodeStatus.completed, .inputRequired, .pending, .invalidated])
    exact waiting _ ⟨fun _ => rfl, fun _ => rfl, fun _ => rfl⟩
  · exact delivered
  · exact delivered

theorem Remote.fields_keeps (remote : Remote) : KeepsRow remote.fields :=
  ⟨fun _ => rfl, fun _ => rfl, fun _ => rfl⟩

/-- Behind a remote call no node is new at work. -/
theorem interpretRemote_enters (remote : Remote) (answered : Option OutcomeResult) :
    Enters [.completed, .inputRequired, .canceled, .failed, .pending, .invalidated] session.state
      (interpretRemote config env session ref remote answered).session.state := by
  simp only [interpretRemote]
  split
  · split
    · exact .refl _ _
    · rename_i node found
      have written :
          Enters [.completed, .inputRequired, .canceled, .failed, .pending, .invalidated]
            session.state (session.write ref (remote.fields node)).1.state :=
        write_enters session ref found (remote.fields_keeps.nodeId node)
          (Or.inl (remote.fields_keeps.status node))
      exact written.trans ((outcomeFlow_enters config env _ _ answered).mono (by decide))
  · exact (transition_enters session ref remote.fields_keeps _).mono (by decide)
  · exact (transition_enters session ref remote.fields_keeps _).mono (by decide)
  · exact (transition_enters session ref remote.fields_keeps _).mono (by decide)

theorem closeNode_enters (nodeId : String) :
    Enters [] session.state (closeNode session nodeId).state :=
  (Enters.quiet (session.state.expireWhere_quiet _)).trans (emitPendingQuestions_enters _)

theorem collectTask_enters (task : NodeTask) :
    Enters [.failed] session.state (Runtime.collectTask session task).state := by
  unfold Runtime.collectTask
  split
  · split
    · exact .refl _ _
    · rename_i node found
      apply Enters.set
      dsimp only
      split
      · exact Or.inl List.mem_cons_self
      · exact Or.inr (session.state.status_of_mem (session.state.node_mem _ found).1)
  · exact .refl _ _

end Execution

/-! ### Settlements, answers and restarts -/

section Human

variable (config : ExecutorConfig) (env : Env) (session : Session) (ref : NodeRef)

theorem resolveFromHelper_enters (helper : NodeState) :
    Enters [.ready] session.state (resolveFromHelper session ref helper).session.state := by
  have moved := fun fields (keeps : KeepsRow fields) =>
    transition_enters session ref keeps .ready
  unfold resolveFromHelper
  dsimp only
  split
  · exact moved _ ⟨fun _ => rfl, fun _ => rfl, fun _ => rfl⟩
  · have ready := moved
      (fun node =>
        { node with
          answerText := helper.output
          answerFrom := some helper.agentName
          adoptedHelpers := node.adoptedHelpers ++ [helper.id] })
      ⟨fun _ => rfl, fun _ => rfl, fun _ => rfl⟩
    exact ready.trans (.congr rfl)

theorem askUser_enters {state asked : OrchestrationState} {nodeId question : String}
    {decision : AssistanceResult}
    (answered : state.askUser env nodeId question decision = .ok asked) :
    Enters [.inputRequired] state asked := by
  unfold OrchestrationState.askUser at answered
  split at answered
  · cases answered
    exact .refl _ _
  · split at answered
    · cases answered
    · rename_i waiting moved
      obtain ⟨_, rfl⟩ := NodeState.apply_transition_ok moved
      dsimp only at answered
      split at answered
      · cases answered
        exact Enters.set (Or.inl List.mem_cons_self)
      · rename_i noted requested
        cases answered
        refine (Enters.set (Or.inl List.mem_cons_self)).trans
          ((Enters.quiet (requestUserInput_quiet _ requested)).trans ?_)
        exact Enters.set (Or.inl List.mem_cons_self)

theorem requestHuman_enters (node : NodeState) (decision : Option AssistanceResult) :
    Enters [.inputRequired] session.state
      (requestHuman env session ref node decision).session.state := by
  unfold requestHuman
  dsimp only
  split
  · exact .refl _ _
  · rename_i state answered
    exact (askUser_enters env answered).trans ((emitPendingQuestions_enters _).mono (by simp))

theorem actOnDecision_enters (decision : Option AssistanceResult) :
    Enters [.inputRequired, .pending] session.state
      (actOnDecision config env session ref decision).session.state := by
  unfold actOnDecision
  split
  · exact .refl _ _
  · rename_i node found
    split
    · exact .refl _ _
    · dsimp only
      split
      · exact (requestHuman_enters env session ref node decision).mono (by decide)
      · have called := callSubagent_enters config env session node.id
          ((decision.bind (·.targetAgent)).getD "") ((decision.map (·.instruction)).getD "")
        split
        · rename_i result
          rw [result] at called
          exact called.mono (by decide)
        · rename_i result
          rw [callSubagent_refused config env session result]
          exact (requestHuman_enters env session ref node decision).mono (by decide)

theorem cancelNode_enters (target : NodeState) :
    Enters [.canceled, .invalidated] session.state (session.cancelNode target).state := by
  have canceled : Enters [.canceled, .invalidated] session.state
      (session.state.setNode { target with status := .canceled, a2aTaskId := none }) :=
    Enters.set (Or.inl List.mem_cons_self)
  exact (canceled.trans (.move _ _ (by decide))).trans (.quiet (expireAll_quiet _ _))

theorem interrupt_enters (target : NodeState) (text : String) :
    Enters [.canceled, .invalidated, .pending] session.state
      (session.interrupt config env target text).state := by
  have canceled : Enters [.canceled, .invalidated, .pending] session.state
      (session.state.setNode { target with status := .canceled }) :=
    Enters.set (Or.inl List.mem_cons_self)
  exact (canceled.trans (.move _ _ (by decide))).trans
    ((spawnDerivedNode_enters config env _ _).mono (by decide))

theorem answerIntervention_enters (response : QuestionResponse) :
    Enters [.canceled, .invalidated, .ready] session.state
      (session.answerIntervention response).1.state := by
  have settled : ∀ state : OrchestrationState, state.nodes = session.state.nodes →
      Enters [.canceled, .invalidated, .ready] session.state state := fun _ => .congr
  have answers := session.answers response
  generalize session.answerIntervention response = result at answers ⊢
  cases answers with
  | ignored => exact .refl _ _
  | stale => exact settled _ rfl
  | declined => exact settled _ rfl
  | canceled => exact (settled _ rfl).trans ((cancelNode_enters _ _).mono (by decide))
  | continued => exact (settled _ rfl).trans (Enters.set (Or.inl (by simp)))

theorem answerAll_enters (responses : List QuestionResponse) :
    Enters [.canceled, .invalidated, .ready] session.state (session.answerAll responses).1.state := by
  induction responses generalizing session with
  | nil => exact .refl _ _
  | cons response rest ih => exact (answerIntervention_enters session response).trans (ih _)

theorem recoverSession_enters :
    Enters [.recover, .pending] session.state session.recoverSession.state := by
  have expired : Enters [.recover, .pending] session.state session.state.normalizeInterventions :=
    .congr rfl
  refine expired.trans (.rows (fun node => by split <;> rfl) ?_ rfl)
  intro node _
  split
  · right
    dsimp only
    split <;> decide
  · exact Or.inl rfl

theorem retryFailed_enters (state : OrchestrationState) :
    Enters [.pending] state (state.retryFailed config) := by
  refine .rows (fun node => by split <;> rfl) ?_ rfl
  intro node _
  split
  · exact Or.inr List.mem_cons_self
  · exact Or.inl rfl

end Human

end Choirworks.Orchestration
