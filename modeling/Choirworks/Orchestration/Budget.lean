import Choirworks.Library.Runs
import Choirworks.Orchestration.Edits
import Choirworks.Orchestration.Message

/-!
The budgets of a plan: its derived nodes and its revisions. A spawn checks and
counts in one go. A revision is checked before the execution waits for the
session lock, and counted behind the patch: the check and the count are two
steps here, and whatever happens while an execution waits may count first.
-/

namespace Choirworks.Orchestration

open OrchestrationState

/-! ### What the operations count -/

def SameCounts (old new : OrchestrationState) : Prop :=
  new.derivedCount = old.derivedCount ∧ new.revisionCount = old.revisionCount

theorem quiet_counts {old new : OrchestrationState} (quiet : Quiet old new) : SameCounts old new := by
  obtain ⟨_, _, rfl⟩ := quiet
  exact ⟨rfl, rfl⟩

/-- Derived nodes are counted where there is room, revisions not at all. -/
inductive Session.Spends (config : ExecutorConfig) : Session → Session → Prop where
  | refl (session : Session) : Spends config session session
  | change {session mid : Session} {state : OrchestrationState} (spends : Spends config session mid)
      (same : SameCounts mid.state state) : Spends config session { mid with state }
  | spawn {session mid : Session} {state : OrchestrationState} (spends : Spends config session mid)
      (room : mid.state.derivedCount < config.maxDerivedNodes)
      (counted : state.derivedCount = mid.state.derivedCount + 1)
      (revisions : state.revisionCount = mid.state.revisionCount) :
      Spends config session { mid with state }
  | persist {session mid : Session} (spends : Spends config session mid) :
      Spends config session mid.persist

namespace Session

variable {config : ExecutorConfig} {session next last : Session}

theorem Spends.trans (first : Spends config session next) (second : Spends config next last) :
    Spends config session last := by
  induction second with
  | refl => exact first
  | change _ same ih => exact .change ih same
  | spawn _ room counted revisions ih => exact .spawn ih room counted revisions
  | persist _ ih => exact .persist ih

theorem Spends.one {state : OrchestrationState} (same : SameCounts session.state state) :
    Spends config session { session with state } := .change (.refl session) same

theorem Spends.stored {state : OrchestrationState} (same : SameCounts session.state state) :
    Spends config session ⟨state, state⟩ :=
  @Spends.persist config session { session with state } (.one same)

/-- The revisions in memory are those before. -/
theorem Spends.revisions (spends : Spends config session next) :
    next.state.revisionCount = session.state.revisionCount := by
  induction spends with
  | refl => rfl
  | change _ same ih => exact same.2.trans ih
  | spawn _ _ _ revisions ih => exact revisions.trans ih
  | persist _ ih => exact ih

end Session

/-- The derived nodes are within their budget, in memory and in the store, and
the revisions are within the limit. -/
structure Session.Within (config : ExecutorConfig) (limit : Nat) (session : Session) : Prop where
  derived : session.state.derivedCount ≤ config.maxDerivedNodes
  savedDerived : session.saved.derivedCount ≤ config.maxDerivedNodes
  revisions : session.state.revisionCount ≤ limit
  savedRevisions : session.saved.revisionCount ≤ limit

namespace Session

variable {config : ExecutorConfig} {limit : Nat} {session next : Session}

theorem Spends.within (spends : Spends config session next) (within : Within config limit session) :
    next.Within config limit := by
  induction spends with
  | refl => exact within
  | change _ same ih =>
      exact ⟨same.1 ▸ ih.derived, ih.savedDerived, same.2 ▸ ih.revisions, ih.savedRevisions⟩
  | spawn _ room counted revisions ih =>
      exact ⟨counted ▸ room, ih.savedDerived, revisions ▸ ih.revisions, ih.savedRevisions⟩
  | persist _ ih => exact ⟨ih.derived, ih.derived, ih.revisions, ih.revisions⟩

/-- Revisions that may pile up are within some limit. -/
theorem Within.mono {wider : Nat} (within : Within config limit session) (wide : limit ≤ wider) :
    Within config wider session :=
  ⟨within.derived, within.savedDerived, Nat.le_trans within.revisions wide,
    Nat.le_trans within.savedRevisions wide⟩

end Session

open Session

section Operations

variable {config : ExecutorConfig} {limit : Nat} {env : Env} {session : Session} {ref : NodeRef}

theorem emitPendingQuestions_spends : Spends config session session.emitPendingQuestions := by
  unfold emitPendingQuestions
  split
  · exact .refl session
  · exact .persist (.one ⟨rfl, rfl⟩)

theorem spawnDerivedNode_spends (spawn : Spawn) :
    Spends config session (spawnDerivedNode config env session spawn).1 := by
  rcases spawnDerivedNode_cases config env session spawn with
    ⟨_, refused⟩ | ⟨state, room, quiet, spawned⟩
  · rw [refused]
    exact .refl session
  · rw [spawned]
    exact @Spends.persist config session { session with state }
      (.spawn (.refl session) room quiet.derivedCount (quiet_counts quiet).2)

theorem arbitrateMentions_spends (node : NodeState) :
    Spends config session (arbitrateMentions config env session node) :=
  arbitrateMentions_rule config env session (Spends config) .refl .trans node
    fun _ spawn _ _ => spawnDerivedNode_spends spawn

theorem deliverQueued_spends (node : NodeState) :
    Spends config session (deliverQueued config env session node) := by
  have taken : Spends config session { session with state := (session.state.takeQueued node.id).2 } :=
    .one ⟨rfl, rfl⟩
  unfold deliverQueued
  dsimp only
  split
  · exact taken
  · exact taken.trans (spawnDerivedNode_spends _)

theorem callSubagent_spends (requestedBy target instruction : String) :
    Spends config session (callSubagent config env session requestedBy target instruction).1 := by
  rcases callSubagent_cases config env session requestedBy target instruction with
    same | ⟨spawn, _, _, spawned⟩
  · rw [same]
    exact .refl session
  · rw [spawned]
    exact spawnDerivedNode_spends spawn

theorem write_spends (node : NodeState) : Spends config session (session.write ref node).1 := by
  cases ref with
  | planned nodeId => exact .one ⟨rfl, rfl⟩
  | detached own => exact .refl session

theorem transition_spends (fields : NodeState → NodeState) (target : NodeStatus) :
    Spends config session (session.transition ref fields target).session := by
  unfold Session.transition
  split
  · exact .refl session
  · split <;> exact write_spends _

theorem change_spends (fields : NodeState → NodeState) :
    Spends config session (session.change ref fields).session := by
  unfold Session.change
  split
  · exact .refl session
  · exact write_spends _

theorem startNode_spends (mode : Mode) :
    Spends config session (startNode session ref mode).session := by
  unfold startNode
  split
  · exact transition_spends _ _
  · dsimp only
    split
    · exact transition_spends _ _
    · exact (transition_spends _ _).trans (change_spends _)
  · exact change_spends _

theorem chunkNode_spends (a2aTaskId : Option String) (submitted : Bool) :
    Spends config session (chunkNode session ref a2aTaskId submitted).session := by
  unfold chunkNode
  split
  · exact transition_spends _ _
  · exact change_spends _

theorem markDelivered_spends :
    Spends config session (markDelivered config env session ref).session := by
  unfold markDelivered
  dsimp only
  split
  · exact (transition_spends _ _).trans
      ((arbitrateMentions_spends _).trans (deliverQueued_spends _))
  · exact transition_spends _ _

theorem closeNode_spends (nodeId : String) : Spends config session (closeNode session nodeId) := by
  have expired : Spends config session
      (Session.persist { session with state := session.state.expireNodeInterventions nodeId }) :=
    .persist (.one ⟨rfl, rfl⟩)
  exact expired.trans emitPendingQuestions_spends

theorem resolveFromHelper_spends (helper : NodeState) :
    Spends config session (resolveFromHelper session ref helper).session := by
  unfold resolveFromHelper
  dsimp only
  split
  · exact transition_spends _ _
  · exact .persist (.change (transition_spends _ _) ⟨rfl, rfl⟩)

theorem askUser_counts {state asked : OrchestrationState} {nodeId question : String}
    {decision : AssistanceResult}
    (asks : state.askUser env nodeId question decision = .ok asked) : SameCounts state asked := by
  unfold OrchestrationState.askUser at asks
  split at asks
  · cases asks
    exact ⟨rfl, rfl⟩
  · split at asks
    · cases asks
    · dsimp only at asks
      split at asks
      · cases asks
        exact ⟨rfl, rfl⟩
      · rename_i requested
        cases asks
        unfold OrchestrationState.requestUserInput at requested
        split at requested
        · cases requested
        · cases requested
          exact ⟨rfl, rfl⟩

theorem requestHuman_spends (node : NodeState) (decision : Option AssistanceResult) :
    Spends config session (requestHuman env session ref node decision).session := by
  unfold requestHuman
  dsimp only
  split
  · exact .refl session
  · rename_i asks
    exact (Spends.persist (.one (askUser_counts asks))).trans emitPendingQuestions_spends

theorem actOnDecision_spends (decision : Option AssistanceResult) :
    Spends config session (actOnDecision config env session ref decision).session := by
  unfold actOnDecision
  split
  · exact .refl session
  · split
    · exact .refl session
    · dsimp only
      split
      · exact requestHuman_spends _ _
      · rename_i node _ _ _
        have called := @callSubagent_spends config env session node.id
          ((decision.bind (·.targetAgent)).getD "") ((decision.map (·.instruction)).getD "")
        split
        · rename_i result
          rw [result] at called
          exact called
        · rename_i result
          rw [result] at called
          exact called.trans (requestHuman_spends _ _)

/-! ### Revisions -/

theorem applyPatch_counts (state : OrchestrationState) (patch : PlanPatch)
    (knownAgents : List String) : SameCounts state (applyPatch state patch knownAgents).state := by
  obtain ⟨_, _, same⟩ := applyPatch_replanned state patch knownAgents
  rw [same]
  exact ⟨rfl, rfl⟩

theorem applyPatchLocked_spends (patch : PlanPatch) :
    Spends config session (applyPatchLocked env session patch).1 := by
  obtain ⟨state, quiet, stored⟩ := applyPatchLocked_cases env session patch
  have patched := applyPatch_counts session.state patch env.agents
  have asked := quiet_counts quiet
  rw [stored]
  exact .stored ⟨asked.1.trans patched.1, asked.2.trans patched.2⟩

/-- A patch that changes something is one more revision. -/
def revisesBy (env : Env) (state : OrchestrationState) (patch : PlanPatch) : Nat :=
  if (applyPatch state patch env.agents).result.changed then 1 else 0

theorem revisePlan_count (patch : PlanPatch) :
    (revisePlan env session patch).1.state.revisionCount =
      session.state.revisionCount + revisesBy env session.state patch := by
  have same := (@applyPatchLocked_spends {} env session patch).revisions
  have result : (applyPatchLocked env session patch).2 =
      (applyPatch session.state patch env.agents).result := rfl
  unfold revisePlan revisesBy
  rw [← result]
  dsimp only
  split
  · rw [← same]
  · exact same

theorem revisePlan_within (within : session.Within config limit) (patch : PlanPatch)
    (room : session.state.revisionCount + revisesBy env session.state patch ≤ limit) :
    (revisePlan env session patch).1.Within config limit := by
  have patched := (@applyPatchLocked_spends config env session patch).within within
  refine ⟨?_, ?_, (@revisePlan_count env session patch).symm ▸ room, ?_⟩
  · unfold revisePlan
    dsimp only
    split <;> exact patched.derived
  · unfold revisePlan
    dsimp only
    split <;> exact patched.savedDerived
  · unfold revisePlan
    dsimp only
    split <;> exact patched.savedRevisions

theorem planFlow_within (covers : config.maxRevisions ≤ limit)
    (within : session.Within config limit) (busy : Bool)
    (decision : Option PlanPatch) :
    (planFlow config env session busy decision).1.Within config limit := by
  unfold planFlow
  dsimp only
  split
  · exact within
  · split
    · exact (Spends.trans (.persist (.refl session)) emitPendingQuestions_spends).within within
    · split
      · exact within
      · split
        · split
          · rename_i repairs
            simp only [mayRepair, Bool.and_eq_true, decide_eq_true_eq] at repairs
            unfold repairPlan
            split
            · exact within
            · exact within
            · refine revisePlan_within within _ ?_
              unfold revisesBy
              split <;> omega
          · exact within
        · split <;> exact within

end Operations

/-! ### The human, and the loop -/

section Human

variable {config : ExecutorConfig} {env : Env} {session : Session}

theorem expireAll_counts (nodeIds : List String) (state : OrchestrationState) :
    SameCounts state (nodeIds.foldl OrchestrationState.expireNodeInterventions state) :=
  quiet_counts (expireAll_quiet state nodeIds)

theorem cancelNode_spends (target : NodeState) :
    Spends config session (session.cancelNode target) :=
  .persist (.one (expireAll_counts _ _))

theorem interrupt_spends (target : NodeState) (text : String) :
    Spends config session (session.interrupt config env target text) := by
  refine Spends.trans (.one ?_) (spawnDerivedNode_spends _)
  exact ⟨rfl, rfl⟩

theorem answerIntervention_spends (response : QuestionResponse) :
    Spends config session (session.answerIntervention response).1 := by
  have answers := session.answers response
  generalize session.answerIntervention response = result at answers ⊢
  cases answers with
  | ignored => exact .refl session
  | stale => exact .persist (.one ⟨rfl, rfl⟩)
  | declined => exact .persist (.one ⟨rfl, rfl⟩)
  | canceled =>
      refine .persist (Spends.trans (.one ?_) (cancelNode_spends _))
      exact ⟨rfl, rfl⟩
  | continued => exact .persist (.one ⟨rfl, rfl⟩)

theorem answerAll_spends (responses : List QuestionResponse) :
    Spends config session (session.answerAll responses).1 := by
  induction responses generalizing session with
  | nil => exact .refl session
  | cons response rest ih => exact (answerIntervention_spends response).trans ih

theorem createPlan_counts (state : OrchestrationState) (nodes : List PlanNodeDraft) :
    SameCounts state (createPlan env state nodes) := by
  have drafted : ∀ (nodes : List PlanNodeDraft) (state : OrchestrationState), SameCounts state
      (nodes.foldl (fun state draft => state.setNode draft.node) state) := by
    intro nodes
    induction nodes with
    | nil => exact fun _ => ⟨rfl, rfl⟩
    | cons draft rest ih => exact fun state => ih (state.setNode draft.node)
  have joined := quiet_counts (joinMembers_quiet env
    (nodes.foldl (fun state draft => state.setNode draft.node) state)
    (((nodes.foldl (fun state draft => state.setNode draft.node) state).nodes.rows.map
      (·.agentName)).filter (· ≠ "")) "plan")
  exact ⟨joined.1.trans (drafted nodes state).1, joined.2.trans (drafted nodes state).2⟩

end Human

/-! ### The steps of the machine -/

namespace Runtime

section Loop

variable {config : ExecutorConfig} {limit : Nat} {env : Env} {runtime : Runtime}

theorem dispatch_spends : Spends config runtime.session (runtime.dispatch config).session := by
  unfold dispatch
  dsimp only
  split
  · exact .one ⟨rfl, rfl⟩
  · exact .persist (.one ⟨rfl, rfl⟩)

theorem collectTask_spends {session : Session} (task : NodeTask) :
    Spends config session (collectTask session task) := by
  unfold collectTask
  split
  · split
    · exact .refl session
    · exact .one ⟨rfl, rfl⟩
  · exact .refl session

theorem collect_spends : Spends config runtime.session runtime.collect.session := by
  have collected : ∀ (tasks : List NodeTask) (session : Session),
      Spends config session (tasks.foldl collectTask session) := by
    intro tasks
    induction tasks with
    | nil => exact .refl
    | cons task rest ih =>
        intro session
        exact (collectTask_spends task).trans (ih _)
  exact collected _ _

/-- A new plan begins to count anew, in memory and in the store. -/
theorem planAndLaunch_within (drafts : List (Option (List PlanNodeDraft)))
    (mentions : List String) :
    (runtime.planAndLaunch config env drafts mentions).session.Within config limit := by
  have fresh : ∀ state : OrchestrationState, state.derivedCount = 0 → state.revisionCount = 0 →
      Session.Within config limit ⟨state, state⟩ := by
    intro state derived revisions
    exact ⟨derived ▸ Nat.zero_le _, derived ▸ Nat.zero_le _, revisions ▸ Nat.zero_le _,
      revisions ▸ Nat.zero_le _⟩
  unfold planAndLaunch
  dsimp only
  split
  · exact fresh _ rfl rfl
  · exact fresh _ rfl rfl
  · rename_i nodes _ _
    have created := @createPlan_counts env
      (runtime.startNewPlan (planId env)).session.state nodes
    have joined := quiet_counts (joinMembers_quiet env
      (createPlan env (runtime.startNewPlan (planId env)).session.state nodes) mentions
      "human_mention")
    rw [startRunner_session]
    exact fresh _ (joined.1.trans created.1) (joined.2.trans created.2)

theorem handle_within (within : runtime.session.Within config limit) (inbound : Inbound)
    (drafts : List (Option (List PlanNodeDraft))) (handler : Handler) :
    (runtime.handle config env inbound drafts handler).session.Within config limit := by
  cases handler with
  | recover =>
      unfold handle
      rw [startRunner_session]
      refine Spends.within (.persist (.one ?_)) within
      exact ⟨rfl, rfl⟩
  | reject => exact within
  | answers responses =>
      have answered := (@answerAll_spends config runtime.session responses).within within
      unfold handle
      dsimp only
      split
      · rw [startRunner_session]
        exact emitPendingQuestions_spends.within answered
      · exact answered
  | reemitQuestions => exact emitPendingQuestions_spends.within within
  | complete => exact within
  | planAndLaunch => exact planAndLaunch_within drafts inbound.allMentions
  | noop =>
      unfold handle
      rw [finish_session]
      exact within
  | enqueue target quoteId =>
      unfold handle
      dsimp only
      rw [finish_session]
      refine Spends.within (.persist (.one ?_)) within
      exact ⟨rfl, rfl⟩
  | spawnFollowup target =>
      unfold handle
      dsimp only
      rw [finish_session]
      exact (spawnDerivedNode_spends _).within within
  | interrupt target =>
      unfold handle
      dsimp only
      rw [finish_session]
      exact (interrupt_spends target inbound.request).within within
  | newPlan =>
      unfold handle
      rw [finish_session]
      exact planAndLaunch_within drafts []

end Loop

end Runtime

section Outcome

variable {config : ExecutorConfig} {limit : Nat} {env : Env} {session : Session} {ref : NodeRef}

theorem revise_within (covers : config.maxRevisions ≤ limit)
    (within : session.Within config limit) (decision : OutcomeResult) :
    (revise config env session decision).Within config limit := by
  unfold revise
  split
  · split
    · rename_i patch _ _ room
      refine revisePlan_within within patch ?_
      unfold revisesBy
      split <;> omega
    · exact within
  · exact within

theorem outcomeFlow_within (covers : config.maxRevisions ≤ limit)
    (within : session.Within config limit) (answered : Option OutcomeResult) :
    (outcomeFlow config env session ref answered).session.Within config limit := by
  have revised := @revise_within config limit env session covers within
    (interpretOutcome ((session.read ref).bind (·.output)) answered)
  unfold outcomeFlow
  dsimp only
  split
  · exact (transition_spends _ _).within within
  · exact markDelivered_spends.within revised
  · exact markDelivered_spends.within revised

/-- An outcome that gets the session lock at once is checked and counted in one step. -/
theorem interpretRemote_within (covers : config.maxRevisions ≤ limit)
    (within : session.Within config limit) (remote : Remote)
    (answered : Option OutcomeResult) :
    (interpretRemote config env session ref remote answered).session.Within config limit := by
  unfold interpretRemote
  split
  · split
    · exact within
    · exact outcomeFlow_within covers ((write_spends _).within within) answered
  · exact (transition_spends _ _).within within
  · exact (transition_spends _ _).within within
  · exact (transition_spends _ _).within within

end Outcome

namespace Runtime

variable {config : ExecutorConfig} {limit : Nat} {runtime next : Runtime}

theorem loaded_within (within : runtime.session.Within config limit) :
    (loaded runtime.session.saved).session.Within config limit :=
  ⟨within.savedDerived, within.savedDerived, within.savedRevisions, within.savedRevisions⟩

theorem advance_within (covers : config.maxRevisions ≤ limit)
    (within : runtime.session.Within config limit) {event : Event}
    (advanced : runtime.advance config event = some next) : next.session.Within config limit := by
  cases advances advanced with
  | message inbound env drafts => exact handle_within within inbound drafts _
  | clearWake => exact within
  | dispatch => exact dispatch_spends.within within
  | collect => exact collect_spends.within within
  | flow env decision =>
      have flowed := @planFlow_within config limit env runtime.session covers within runtime.busy decision
      unfold flow
      dsimp only
      split <;> exact flowed
  | start task => exact (startNode_spends task.mode).within within
  | chunk a2aTaskId submitted => exact (chunkNode_spends a2aTaskId submitted).within within
  | outcome env remote answered => exact interpretRemote_within covers within remote answered
  | close task => exact (closeNode_spends task.ref.nodeId).within within
  | inspect => exact within
  | resolve => exact (resolveFromHelper_spends _).within within
  | act env decision => exact (actOnDecision_spends decision).within within
  | cancel =>
      refine Spends.within (.persist (.one ?_)) within
      exact ⟨rfl, rfl⟩
  | reload => exact loaded_within within

/-- No step that does not wait between its check and its count breaks a budget. -/
theorem step_within (covers : config.maxRevisions ≤ limit)
    (within : runtime.session.Within config limit) {event : Event}
    (stepped : runtime.step config event = some next) : next.session.Within config limit := by
  rcases step_cases stepped with rfl | ⟨_, advanced⟩
  · exact loaded_within within
  · exact advance_within covers within advanced

end Runtime

/-! ### Executions that wait for the lock -/

namespace Runtime

variable {runtime : Runtime}

theorem task_setTask {taskId : Nat} {phase : TaskPhase} {task : NodeTask}
    (found : runtime.task? taskId phase = some task) (handled : Handled) :
    (runtime.setTask task handled phase).task? taskId phase =
      some { task with ref := handled.ref, phase } := by
  have named : task.id = taskId := by
    have holds := List.find?_some found
    simp only [Bool.decide_and, Bool.and_eq_true, decide_eq_true_eq] at holds
    exact holds.1
  have mapped : ∀ tasks : List NodeTask,
      tasks.find? (fun other => other.id = taskId ∧ other.phase = phase) = some task →
        (tasks.map fun other =>
            if other.id = task.id then { task with ref := handled.ref, phase } else other).find?
          (fun other => other.id = taskId ∧ other.phase = phase) =
            some { task with ref := handled.ref, phase } := by
    intro tasks
    induction tasks with
    | nil =>
        intro none
        cases none
    | cons first rest ih =>
        intro found
        by_cases same : first.id = task.id
        · simp [same, named]
        · have other : first.id ≠ taskId := fun hit => same (hit.trans named.symm)
          simp only [List.map_cons, List.find?_cons, same, other, false_and, decide_false,
            ↓reduceIte] at found ⊢
          exact ih found
  exact mapped runtime.nodeTasks found

theorem setTask_setTask (task : NodeTask) (first second : Handled) (phase later : TaskPhase) :
    (runtime.setTask task first phase).setTask { task with ref := first.ref, phase } second later =
      runtime.setTask task second later := by
  simp only [setTask, List.map_map]
  congr 1
  apply List.map_congr_left
  intro other _
  by_cases same : other.id = task.id <;> simp [same]

end Runtime

/-- What an outcome does whose patch is let through. -/
theorem interpretRemote_revises {config : ExecutorConfig} {session : Session} {ref : NodeRef}
    (env : Env) {node : NodeState} {remote : Remote} {answered : Option OutcomeResult}
    {patch : PlanPatch} (found : session.read ref = some node)
    (brought : outcomePatch config session.state remote answered = some patch) :
    interpretRemote config env session ref remote answered =
      markDelivered config env
        (revisePlan env (session.write ref (remote.fields node)).1 patch).1
        (session.write ref (remote.fields node)).2 := by
  have output := read_write found (remote.fields_keeps.nodeId node)
  have count := write_revisionCount session ref (remote.fields node)
  unfold outcomePatch at brought
  split at brought
  · rename_i completed
    unfold revisionOf at brought
    split at brought
    · rename_i wantedPatch intent wanted
      simp only [Option.ite_none_right_eq_some, Option.some.injEq] at brought
      obtain ⟨room, rfl⟩ := brought
      have revised : revise config env (session.write ref (remote.fields node)).1
          (interpretOutcome remote.output answered) =
            (revisePlan env (session.write ref (remote.fields node)).1 wantedPatch).1 := by
        simp only [revise, intent, wanted]
        exact if_pos (count.symm ▸ room)
      have said : (remote.fields node).output = remote.output := rfl
      simp only [interpretRemote, completed, found, outcomeFlow, output, Option.bind_some, said,
        intent, revised]
    · cases brought
  · cases brought

/-- The execution a step of the machine belongs to. -/
def Event.execution : Event → Option Nat
  | .start taskId | .chunk taskId _ _ | .outcome taskId _ _ _ | .close taskId => some taskId
  | _ => none

/-- An execution that has passed the check of `_revise`. -/
structure Waiter where
  taskId : Nat
  patch : PlanPatch
deriving DecidableEq

structure Concurrent where
  runtime : Runtime
  waiting : List Waiter := []
deriving DecidableEq

inductive Move where
  | session (event : Event)
  | check (taskId : Nat) (remote : Remote) (answered : Option OutcomeResult)
  | apply (taskId : Nat) (env : Env)

namespace Concurrent

section Steps

variable (config : ExecutorConfig) (concurrent : Concurrent)

def waiter? (taskId : Nat) : Option Waiter :=
  concurrent.waiting.find? fun waiter => waiter.taskId = taskId

/-- A step of the session, while the waiting executions stand still. A session
that is over or loaded anew has none. -/
def session (event : Event) : Option Concurrent :=
  if event.execution.any fun taskId => (concurrent.waiter? taskId).isSome then none
  else
    (concurrent.runtime.step config event).map fun next =>
      { runtime := next
        waiting := concurrent.waiting.filter fun waiter =>
          (next.task? waiter.taskId .remote).isSome }

/-- `_revise` up to the lock: the count is looked at without it. -/
def check (taskId : Nat) (remote : Remote) (answered : Option OutcomeResult) : Option Concurrent :=
  let runtime := concurrent.runtime
  if runtime.evicted ∨ (concurrent.waiter? taskId).isSome then none
  else
    match runtime.task? taskId .remote with
    | none => none
    | some task =>
        match runtime.session.read task.ref,
          outcomePatch config runtime.session.state remote answered with
        | some node, some patch =>
            let (session, ref) := runtime.session.write task.ref (remote.fields node)
            some {
              runtime := runtime.setTask task ⟨session, ref, none⟩ .remote
              waiting := concurrent.waiting ++ [⟨taskId, patch⟩] }
        | _, _ => none

/-- The execution has the lock: it revises the plan, and goes on to deliver. -/
def apply (taskId : Nat) (env : Env) : Option Concurrent :=
  let runtime := concurrent.runtime
  match concurrent.waiter? taskId, runtime.task? taskId .remote with
  | some waiter, some task =>
      let revised := (revisePlan env runtime.session waiter.patch).1
      some {
        runtime := runtime.finishPart task (markDelivered config env revised task.ref) .closing
        waiting := concurrent.waiting.filter fun other => other.taskId ≠ taskId }
  | _, _ => none

def step : Move → Option Concurrent
  | .session event => concurrent.session config event
  | .check taskId remote answered => concurrent.check config taskId remote answered
  | .apply taskId env => concurrent.apply config taskId env

end Steps

/-- There is room for the revision when the lock is there. -/
def Room (config : ExecutorConfig) (concurrent : Concurrent) : Move → Prop
  | .apply taskId env =>
      ∀ waiter ∈ concurrent.waiter? taskId,
        (concurrent.runtime.task? taskId .remote).isSome →
          concurrent.runtime.session.state.revisionCount < config.maxRevisions ∨
            revisesBy env concurrent.runtime.session.state waiter.patch = 0
  | _ => True

/-- What the two counts of a plan may come to. -/
def InBudget (config : ExecutorConfig) (concurrent : Concurrent) : Prop :=
  concurrent.runtime.session.state.derivedCount ≤ config.maxDerivedNodes ∧
    concurrent.runtime.session.state.revisionCount ≤ config.maxRevisions

instance (config : ExecutorConfig) (concurrent : Concurrent) :
    Decidable (concurrent.InBudget config) :=
  inferInstanceAs (Decidable (_ ∧ _))

variable {config : ExecutorConfig} {limit : Nat} {concurrent next : Concurrent}

/-- An execution that waits for nobody is an outcome of the session. -/
theorem check_apply {checked : Concurrent} (taskId : Nat) (env : Env) (remote : Remote)
    (answered : Option OutcomeResult)
    (passed : concurrent.check config taskId remote answered = some checked) :
    (checked.apply config taskId env).map (·.runtime) =
      concurrent.runtime.step config (.outcome taskId env remote answered) := by
  simp only [check, Option.ite_none_left_eq_some, not_or, Bool.not_eq_true,
    Option.isSome_eq_false_iff, Option.isNone_iff_eq_none] at passed
  obtain ⟨⟨present, free⟩, passed⟩ := passed
  split at passed
  · cases passed
  · rename_i task running
    split at passed
    · rename_i node patch found brought
      cases passed
      have named : (concurrent.waiting ++ [Waiter.mk taskId patch]).find?
          (fun waiter => waiter.taskId = taskId) = some ⟨taskId, patch⟩ := by
        rw [List.find?_append]
        unfold waiter? at free
        simp [free]
      have still := Runtime.task_setTask running
        ⟨(concurrent.runtime.session.write task.ref (remote.fields node)).1,
          (concurrent.runtime.session.write task.ref (remote.fields node)).2, none⟩
      have called := interpretRemote_revises env found brought
      simp only [apply, waiter?, named, still, Option.map_some, Runtime.step, present,
        Runtime.advance, Runtime.outcome, running, called, Runtime.finishPart]
      rw [Runtime.setTask_setTask]
      rfl
    · cases passed

theorem session_within (covers : config.maxRevisions ≤ limit)
    (within : concurrent.runtime.session.Within config limit) (event : Event)
    (stepped : concurrent.session config event = some next) :
    next.runtime.session.Within config limit := by
  simp only [session, Option.ite_none_left_eq_some, Option.map_eq_some_iff] at stepped
  obtain ⟨_, runtime, advanced, rfl⟩ := stepped
  exact Runtime.step_within covers within advanced

theorem check_within (within : concurrent.runtime.session.Within config limit) (taskId : Nat)
    (remote : Remote) (answered : Option OutcomeResult)
    (stepped : concurrent.check config taskId remote answered = some next) :
    next.runtime.session.Within config limit := by
  simp only [check, Option.ite_none_left_eq_some] at stepped
  obtain ⟨_, passed⟩ := stepped
  split at passed
  · cases passed
  · split at passed
    · cases passed
      exact (write_spends _).within within
    · cases passed

/-- What the revision behind the lock counts. -/
theorem apply_cases {taskId : Nat} {env : Env}
    (stepped : concurrent.apply config taskId env = some next) :
    ∃ waiter, concurrent.waiter? taskId = some waiter ∧
      (concurrent.runtime.task? taskId .remote).isSome ∧
      Spends config (revisePlan env concurrent.runtime.session waiter.patch).1
        next.runtime.session := by
  simp only [apply] at stepped
  split at stepped
  · rename_i waiter task waits running
    cases stepped
    exact ⟨waiter, waits, by simp [running], markDelivered_spends⟩
  · cases stepped

theorem apply_within (within : concurrent.runtime.session.Within config limit) {taskId : Nat}
    {env : Env} (stepped : concurrent.apply config taskId env = some next)
    (room : ∀ waiter ∈ concurrent.waiter? taskId,
      concurrent.runtime.session.state.revisionCount +
        revisesBy env concurrent.runtime.session.state waiter.patch ≤ limit) :
    next.runtime.session.Within config limit := by
  obtain ⟨waiter, waits, _, spends⟩ := apply_cases stepped
  exact spends.within (revisePlan_within within waiter.patch (room waiter waits))

theorem step_within (covers : config.maxRevisions ≤ limit)
    (within : concurrent.runtime.session.Within config limit) {move : Move}
    (stepped : concurrent.step config move = some next) :
    next.runtime.session.Within config (limit + 1) := by
  have wide : limit ≤ limit + 1 := Nat.le_succ limit
  cases move with
  | session event => exact (session_within covers within event stepped).mono wide
  | check taskId remote answered =>
      exact (check_within within taskId remote answered stepped).mono wide
  | apply taskId env =>
      refine apply_within (within.mono wide) stepped ?_
      intro waiter _
      have revisions := within.revisions
      unfold revisesBy
      split <;> omega

theorem step_room (within : concurrent.runtime.session.Within config config.maxRevisions)
    {move : Move} (room : Room config concurrent move)
    (stepped : concurrent.step config move = some next) :
    next.runtime.session.Within config config.maxRevisions := by
  cases move with
  | session event => exact session_within (Nat.le_refl _) within event stepped
  | check taskId remote answered => exact check_within within taskId remote answered stepped
  | apply taskId env =>
      obtain ⟨_, _, running, _⟩ := apply_cases stepped
      refine apply_within within stepped ?_
      intro waiter waits
      have revisions := within.revisions
      rcases room waiter waits running with free | unchanged
      · unfold revisesBy
        split <;> omega
      · omega

/-- Where there is no room, the revision breaks the budget. -/
theorem room_needed {move : Move}
    (always : ∀ next, concurrent.step config move = some next → next.InBudget config) :
    Room config concurrent move := by
  cases move with
  | session event => trivial
  | check taskId remote answered => trivial
  | apply taskId env =>
      intro waiter waits running
      obtain ⟨task, runs⟩ := Option.isSome_iff_exists.mp running
      have applied : ∃ next, concurrent.apply config taskId env = some next := by
        simp only [apply, Option.mem_def.mp waits, runs]
        exact ⟨_, rfl⟩
      obtain ⟨next, stepped⟩ := applied
      obtain ⟨other, same, _, spends⟩ := apply_cases stepped
      obtain rfl : waiter = other := Option.some.inj (waits.symm.trans same)
      have bound := (always next stepped).2
      rw [spends.revisions, revisePlan_count] at bound
      unfold revisesBy at bound ⊢
      split at bound
      · exact Or.inl (by omega)
      · rename_i unchanged
        exact Or.inr (if_neg unchanged)

def initial : Concurrent := { runtime := .loaded {} }

theorem initial_within : initial.runtime.session.Within config config.maxRevisions :=
  ⟨Nat.zero_le _, Nat.zero_le _, Nat.zero_le _, Nat.zero_le _⟩

end Concurrent

/-- The derived nodes stay within their budget in every run. Both budgets hold
in every state that a run reaches exactly if each revision that has waited for
the lock still has room when it gets it. -/
theorem budgets_hold_iff (config : ExecutorConfig) (moves : List Move) :
    (∀ front, front <+: moves → ∀ reached,
        Runs.run (Concurrent.step config) Concurrent.initial front = some reached →
          reached.runtime.session.state.derivedCount ≤ config.maxDerivedNodes) ∧
      (Runs.Guarded (Concurrent.step config) (Concurrent.Room config) Concurrent.initial moves ↔
        ∀ front, front <+: moves → ∀ reached,
          Runs.run (Concurrent.step config) Concurrent.initial front = some reached →
            reached.InBudget config) := by
  constructor
  · intro front _ reached ran
    obtain ⟨limit, _, within⟩ := Runs.run_invariant_of_step
      (fun concurrent : Concurrent => ∃ limit, config.maxRevisions ≤ limit ∧
        concurrent.runtime.session.Within config limit)
      (fun _ _ _ holds stepped => by
        obtain ⟨limit, covers, within⟩ := holds
        exact ⟨limit + 1, Nat.le_succ_of_le covers,
          Concurrent.step_within covers within stepped⟩)
      front _ reached ⟨_, Nat.le_refl _, Concurrent.initial_within⟩ ran
    exact within.derived
  · exact Runs.guarded_iff_always
      (fun concurrent => concurrent.runtime.session.Within config config.maxRevisions)
      (Concurrent.InBudget config)
      (fun _ within => ⟨within.derived, within.revisions⟩)
      (fun _ _ _ within room stepped => Concurrent.step_room within room stepped)
      (fun _ _ _ always => Concurrent.room_needed always)
      moves _ Concurrent.initial_within

/-! ### A plan revised twice -/

def budgetEnv : Env := ⟨["writer"], "now", fun drawn => "drawn" ++ toString drawn⟩

/-- A remote agent has answered, and the outcome agent wants one more node. -/
def addsNode (taskId : Nat) : Move :=
  .check taskId { ended := .completed, output := some "done" }
    (some { intent := .revise, patch := some { add := [⟨"writer", "", "more", []⟩] } })

/-- Both outcomes pass the check, then both revise the plan. -/
def revisedTwice : List Move := [
  .session (.message { taskId := "t1", text := "write" } budgetEnv
    [some [⟨"n1", "first", "writer", .empty, []⟩, ⟨"n2", "second", "writer", .empty, []⟩]]),
  .session .clearWake, .session .dispatch, .session (.start 0), .session (.start 1),
  addsNode 0, addsNode 1, .apply 0 budgetEnv, .apply 1 budgetEnv]

theorem second_revision_breaks_budget :
    Runs.Ends (Concurrent.step { maxRevisions := 1 }) Concurrent.initial revisedTwice fun reached =>
      ¬reached.InBudget { maxRevisions := 1 } := by
  decide +kernel

end Choirworks.Orchestration
