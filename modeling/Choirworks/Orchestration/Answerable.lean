import Choirworks.Orchestration.DeadDependency
import Choirworks.Orchestration.Kept
import Choirworks.Orchestration.Ownership
import Choirworks.Orchestration.Pending

/-!
Whether somebody can answer what is pending. A pending question is about a node
that waits for input, a pending confirmation about one that is executed or that
a restart has left to be followed. Between the outcome of an execution and its
closing steps its own node is exempt: the closing steps expire what has become
stale. The other operations keep the interventions in step as long as patches
offer only work in progress, and no node with a pending question is started,
fails or is cancelled behind the back of the question.
-/

namespace Choirworks.Orchestration

open OrchestrationState
open Session (Edits Held)

/-- The kind of intervention is pending for the node of an execution. -/
def NodeRef.Pends (state : OrchestrationState) (kind : InterventionKind) : NodeRef → Prop
  | .planned nodeId => state.Pends kind nodeId
  | .detached _ => False

instance (state : OrchestrationState) (kind : InterventionKind) :
    (ref : NodeRef) → Decidable (ref.Pends state kind)
  | .planned nodeId => inferInstanceAs (Decidable (state.Pends kind nodeId))
  | .detached _ => .isFalse id

/-- What a stored state may have pending: a question about a node that waits, or
a confirmation about a node that is to be followed. -/
def OrchestrationState.Waiting (state : OrchestrationState) : Prop :=
  ∀ intervention ∈ state.pendingInterventions,
    ∃ status ∈ state.status? intervention.nodeId,
      match intervention.kind with
      | .question => status = .inputRequired
      | .confirmCancel => status = .recover

instance (state : OrchestrationState) : Decidable state.Waiting := by
  unfold OrchestrationState.Waiting
  have : ∀ (intervention : Intervention) (status : NodeStatus),
      Decidable (match intervention.kind with
        | .question => status = .inputRequired
        | .confirmCancel => status = .recover) := by
    intro intervention status
    split <;> infer_instance
  infer_instance

/-- Every active node that a confirmation is about has a remote task to follow. -/
def OrchestrationState.Followable (state : OrchestrationState) : Prop :=
  ∀ node ∈ state.nodes.rows, node.status ∈ activeNodeStatuses →
    state.Pends .confirmCancel node.id → given node.a2aTaskId = true

instance (state : OrchestrationState) : Decidable state.Followable :=
  inferInstanceAs (Decidable (∀ node ∈ state.nodes.rows, _))

namespace Runtime

/-- An execution accounts for the node. -/
def Executes (runtime : Runtime) (nodeId : String) : Prop :=
  ∃ task ∈ runtime.nodeTasks, task.ref = .planned nodeId ∧ task.phase.holds = true

instance (runtime : Runtime) : DecidablePred runtime.Executes :=
  fun _ => inferInstanceAs (Decidable (∃ task ∈ runtime.nodeTasks, _))

/-- The outcome of an execution of the node is known, and not closed yet. -/
def Closes (runtime : Runtime) (nodeId : String) : Prop :=
  ∃ task ∈ runtime.nodeTasks, task.ref = .planned nodeId ∧ task.phase = .closing

instance (runtime : Runtime) : DecidablePred runtime.Closes :=
  fun _ => inferInstanceAs (Decidable (∃ task ∈ runtime.nodeTasks, _))

/-- The intervention can be answered in the status of its node. -/
def AnswersIn (runtime : Runtime) (intervention : Intervention) (status : NodeStatus) : Prop :=
  match intervention.kind with
  | .question => status = .inputRequired
  | .confirmCancel =>
      (status ∈ activeNodeStatuses ∧ runtime.Executes intervention.nodeId) ∨ status = .recover

instance (runtime : Runtime) (intervention : Intervention) (status : NodeStatus) :
    Decidable (runtime.AnswersIn intervention status) := by
  unfold AnswersIn
  split <;> infer_instance

structure Answerable (runtime : Runtime) : Prop where
  answered : ∀ intervention ∈ runtime.session.state.pendingInterventions,
    runtime.Closes intervention.nodeId ∨
      ∃ status ∈ runtime.session.state.status? intervention.nodeId,
        runtime.AnswersIn intervention status
  single : ∀ left ∈ runtime.session.state.pendingInterventions,
    ∀ right ∈ runtime.session.state.pendingInterventions,
      left.nodeId = right.nodeId → left = right

instance (runtime : Runtime) : Decidable runtime.Answerable :=
  decidable_of_iff
    ((∀ intervention ∈ runtime.session.state.pendingInterventions,
        runtime.Closes intervention.nodeId ∨
          ∃ status ∈ runtime.session.state.status? intervention.nodeId,
            runtime.AnswersIn intervention status) ∧
      ∀ left ∈ runtime.session.state.pendingInterventions,
        ∀ right ∈ runtime.session.state.pendingInterventions,
          left.nodeId = right.nodeId → left = right)
    ⟨fun both => ⟨both.1, both.2⟩, fun answerable => ⟨answerable.answered, answerable.single⟩⟩

/-- What keeps a step of the session from leaving an intervention that nobody
can answer. -/
def Attends (config : ExecutorConfig) (runtime : Runtime) : Event → Prop
  | .start taskId => ∀ task ∈ runtime.task? taskId .created, task.mode = .dispatch →
      ¬ task.ref.Pends runtime.session.state .question
  | .chunk taskId _ submitted => submitted = true → ∀ task ∈ runtime.task? taskId .remote,
      ¬ task.ref.Pends runtime.session.state .question
  | .outcome _ env remote answered =>
      ∀ patch ∈ outcomePatch config runtime.session.state remote answered,
        OffersWork runtime.Executes env runtime.session.state patch
  | .flow env decision => ∀ patch ∈ flowPatch env config runtime.session.state decision,
      OffersWork runtime.Executes env runtime.session.state patch
  | .collect => ∀ task ∈ runtime.nodeTasks, task.phase.holds = true → task.done = true →
      ¬ task.ref.Pends runtime.session.state .question ∧
        ¬ task.ref.Pends runtime.session.state .confirmCancel
  | .cancel => runtime.session.state.Waiting
  | _ => True

instance (config : ExecutorConfig) (runtime : Runtime) :
    (event : Event) → Decidable (runtime.Attends config event)
  | .start _ => inferInstanceAs (Decidable (∀ task ∈ _, _ → ¬ _))
  | .chunk _ _ _ => inferInstanceAs (Decidable (_ → ∀ task ∈ _, ¬ _))
  | .outcome _ _ _ _ => inferInstanceAs (Decidable (∀ patch ∈ _, OffersWork _ _ _ patch))
  | .flow _ _ => inferInstanceAs (Decidable (∀ patch ∈ _, OffersWork _ _ _ patch))
  | .collect => inferInstanceAs (Decidable (∀ task ∈ _, _ → _ → ¬ _ ∧ ¬ _))
  | .cancel => inferInstanceAs (Decidable runtime.session.state.Waiting)
  | .message _ _ _ | .clearWake | .dispatch | .close _ | .inspect _ | .resolve _ | .act _ _ _
  | .reload => .isTrue trivial

/-! ### The invariant -/

structure AnswerInv (config : ExecutorConfig) (runtime : Runtime) : Prop where
  owned : OwnedInv config (runtime.session.state.Pends .confirmCancel) runtime
  held : runtime.session.Held runtime.Closes

/-- What a step leaves: everything fits, and a confirmation is new only about a
node that is executed. -/
structure Tended (runtime next : Runtime) : Prop where
  held : next.session.Held next.Closes
  asked : ∀ nodeId, next.session.state.Pends .confirmCancel nodeId →
    runtime.session.state.Pends .confirmCancel nodeId ∨ runtime.Executes nodeId

section Invariant

variable {config : ExecutorConfig} {runtime next : Runtime} {scope : Scope}

theorem AnswerInv.answerable (inv : AnswerInv config runtime) : runtime.Answerable where
  answered := by
    intro intervention member
    refine (inv.held.fitting _ _ (pends_of_mem member)).imp_right ?_
    rintro ⟨status, found, fits⟩
    refine ⟨status, found, ?_⟩
    unfold AnswersIn
    cases kind : intervention.kind with
    | question => simpa [kind, Fits] using fits
    | confirmCancel =>
        rw [kind] at fits
        rcases List.mem_append.mp fits with active | follows
        · exact Or.inl ⟨active, inv.owned.owners _ ⟨intervention, member, kind, rfl⟩ status found
            active⟩
        · exact Or.inr (List.mem_singleton.mp follows)
  single := inv.held.memory.single

/-- What is executed is owned as well. -/
theorem AnswerInv.concerned (inv : AnswerInv config runtime) :
    OwnedInv config
      (fun nodeId => runtime.session.state.Pends .confirmCancel nodeId ∨ runtime.Executes nodeId)
      runtime where
  tasks := inv.owned.tasks
  owners := by
    rintro nodeId (pends | executed) status found active
    · exact inv.owned.owners nodeId pends status found active
    · exact executed
  live := inv.owned.live

theorem Tended.inv (tended : Tended runtime next)
    (owned : OwnedInv config
      (fun nodeId => runtime.session.state.Pends .confirmCancel nodeId ∨ runtime.Executes nodeId)
      next) : AnswerInv config next :=
  ⟨owned.mono tended.asked, tended.held⟩

theorem Tended.of_edits (held : runtime.session.Held runtime.Closes)
    (edits : Edits scope runtime.session next.session)
    (spares : scope.Spares next.Closes fun kind nodeId =>
      runtime.session.state.Pends kind nodeId ∨ ∃ status, scope.asks kind nodeId status)
    (asks : ∀ nodeId status, scope.asks .confirmCancel nodeId status → runtime.Executes nodeId)
    (closes : ∀ nodeId, runtime.Closes nodeId → next.Closes nodeId) : Tended runtime next where
  held := edits.held (held.mono closes) spares
  asked nodeId pends := (edits.pends pends).imp_right fun ⟨status, asked⟩ => asks nodeId status asked

/-- A step that asks nothing. -/
theorem Tended.of_moves {moves : String → NodeStatus → NodeStatus → Prop}
    (held : runtime.session.Held runtime.Closes)
    (edits : Edits ⟨moves, fun _ _ _ => False, True, True⟩ runtime.session next.session)
    (closes : ∀ nodeId, runtime.Closes nodeId → next.Closes nodeId)
    (fits : ∀ kind nodeId status target, runtime.session.state.Pends kind nodeId →
      moves nodeId status target → next.Closes nodeId ∨ (Fits kind status → Fits kind target)) :
    Tended runtime next := by
  refine .of_edits held edits ⟨?_, fun _ _ _ asked => asked.elim⟩ (fun _ _ asked => asked.elim)
    closes
  intro kind nodeId status target watched moved
  exact fits kind nodeId status target (watched.resolve_right fun asked => asked.choose_spec) moved

/-! ### The steps of an execution -/

theorem setTask_closes (unique : (runtime.nodeTasks.map (·.id)).Nodup) {task : NodeTask}
    (member : task ∈ runtime.nodeTasks) (open_ : task.phase ≠ .closing) {handled : Handled}
    {phase : TaskPhase} {nodeId : String} (closes : runtime.Closes nodeId) :
    (runtime.setTask task handled phase).Closes nodeId := by
  obtain ⟨other, inside, ref, closing⟩ := closes
  have apart : other.id ≠ task.id := by
    intro hit
    obtain rfl := List.inj_on_of_nodup_map unique inside member hit
    exact open_ closing
  exact ⟨other, List.mem_map.mpr ⟨other, inside, by simp [apart]⟩, ref, closing⟩

/-- A node that waits for input is not followed. -/
theorem unfit_of_recover {node : NodeState} (may : node.canTransition .recover = true) :
    ¬ Fits .question node.status := by
  intro waits
  have same : node.status = .inputRequired := waits
  simp [NodeState.canTransition, same, NodeState.allowedTransitions] at may

/-- A move to a status in which a confirmation fits. -/
theorem flies_fit {moved target : NodeStatus} {kind : InterventionKind}
    (flies : target ∈ flyingStatuses) (unasked : kind = .question → ¬ Fits .question moved) :
    Fits kind moved → Fits kind target := by
  intro fits
  cases kind with
  | question => exact absurd fits (unasked rfl)
  | confirmCancel => exact flies

theorem start_tended (inv : AnswerInv config runtime) {taskId : Nat}
    (attends : runtime.Attends config (.start taskId))
    (stepped : runtime.start taskId = some next) : Tended runtime next := by
  obtain ⟨task, found, rfl⟩ := Option.map_eq_some_iff.mp stepped
  obtain ⟨member, created⟩ := task_found found
  have edits : Edits ⟨fun nodeId status target =>
      (target = .submitted ∧ ¬ runtime.session.state.Pends .question nodeId) ∨
        (target = .recover ∧ ¬ Fits .question status), fun _ _ _ => False, True, True⟩ runtime.session
      (startNode runtime.session task.ref task.mode).session := by
    refine startNode_edits trivial task.mode ?_ ?_
    · intro mode nodeId planned _ _ _
      refine Or.inl ⟨rfl, fun pends => attends task found mode ?_⟩
      rw [planned]
      exact pends
    · intro _ nodeId _ node _ may
      exact Or.inr ⟨rfl, unfit_of_recover may⟩
  refine .of_moves inv.held edits
    (fun nodeId => setTask_closes inv.owned.tasks.unique member (by simp [created])) ?_
  rintro kind nodeId status target pends (⟨rfl, unasked⟩ | ⟨rfl, unfit⟩)
  · exact Or.inr (flies_fit (by decide) fun same => absurd (same ▸ pends) unasked)
  · exact Or.inr (flies_fit (by decide) fun _ => unfit)

theorem chunk_tended (inv : AnswerInv config runtime) {taskId : Nat} {a2aTaskId : Option String}
    {submitted : Bool} (attends : runtime.Attends config (.chunk taskId a2aTaskId submitted))
    (stepped : runtime.chunk taskId a2aTaskId submitted = some next) : Tended runtime next := by
  unfold chunk at stepped
  split at stepped
  · cases stepped
  · rename_i task found
    obtain ⟨member, remote⟩ := task_found found
    dsimp only at stepped
    split at stepped
    · cases stepped
      have edits : Edits ⟨fun nodeId _ target =>
          target = .submitted ∧ ¬ runtime.session.state.Pends .question nodeId,
          fun _ _ _ => False, True, True⟩ runtime.session
          (chunkNode runtime.session task.ref a2aTaskId submitted).session := by
        refine chunkNode_edits a2aTaskId submitted fun reported nodeId planned _ _ _ => ?_
        refine ⟨rfl, fun pends => attends reported task found ?_⟩
        rw [planned]
        exact pends
      refine .of_moves inv.held edits
        (fun nodeId => setTask_closes inv.owned.tasks.unique member (by simp [remote])) ?_
      rintro kind nodeId status target pends ⟨rfl, unasked⟩
      exact Or.inr (flies_fit (by decide) fun same => absurd (same ▸ pends) unasked)
    · cases stepped

/-- Behind an outcome that did not raise, the own node is exempt. -/
theorem outcome_tended (inv : AnswerInv config runtime) {taskId : Nat} {env : Env}
    {remote : Remote} {answered : Option OutcomeResult}
    (attends : runtime.Attends config (.outcome taskId env remote answered))
    (stepped : runtime.outcome config taskId env remote answered = some next) :
    Tended runtime next := by
  obtain ⟨task, found, rfl⟩ := Option.map_eq_some_iff.mp stepped
  obtain ⟨member, underway⟩ := task_found found
  let owns (nodeId : String) : Prop :=
    (interpretRemote config env runtime.session task.ref remote answered).raised = none ∧
      task.ref = .planned nodeId
  have edits : Edits (offerScope owns runtime.Executes env runtime.session.state
      (outcomePatch config runtime.session.state remote answered)) runtime.session
      (interpretRemote config env runtime.session task.ref remote answered).session := by
    refine interpretRemote_edits config env trivial remote answered ?_ (offered_revises attends)
    exact fun quiet nodeId planned _ _ => Or.inl ⟨quiet, planned⟩
  have open_ : task.phase ≠ .closing := by simp [underway]
  refine .of_edits inv.held edits (offered_spares attends ?_) (fun _ _ asked => asked.2.2.1)
    fun nodeId => setTask_closes inv.owned.tasks.unique member open_
  rintro nodeId ⟨quiet, planned⟩
  refine ⟨_, List.mem_map.mpr ⟨task, member, if_pos rfl⟩, ?_, ?_⟩
  · rw [planned]
    exact interpretRemote_planned config env runtime.session remote answered
  · simp [quiet]

/-- The closing steps expire what is stale about the own node. -/
theorem close_tended (inv : AnswerInv config runtime) {taskId : Nat}
    (stepped : runtime.close taskId = some next) : Tended runtime next := by
  obtain ⟨task, found, rfl⟩ := Option.map_eq_some_iff.mp stepped
  obtain ⟨member, _⟩ := task_found found
  have left : ∀ nodeId, runtime.Closes nodeId →
      (runtime.setTask task ⟨closeNode runtime.session task.ref.nodeId, task.ref, none⟩
        (.done none)).Closes nodeId ∨ nodeId = task.ref.nodeId := by
    rintro nodeId ⟨other, inside, ref, closing⟩
    by_cases same : other.id = task.id
    · obtain rfl := List.inj_on_of_nodup_map inv.owned.tasks.unique inside member same
      exact Or.inr (by rw [ref]; rfl)
    · exact Or.inl ⟨other, List.mem_map.mpr ⟨other, inside, by simp [same]⟩, ref, closing⟩
  have edits : Edits .still runtime.session (closeNode runtime.session task.ref.nodeId) :=
    closeNode_edits task.ref.nodeId
  have expired := (inv.held.mono left).expireNode
  exact ⟨(emitPendingQuestions_edits _).still_held expired, fun nodeId pends =>
    Or.inl ((edits.pends pends).resolve_right fun asked => asked.choose_spec)⟩

/-! ### Settlements -/

/-- The node leaves its question behind, which is then stale. -/
theorem resolveFromHelper_held {session : Session} {exempt : String → Prop} {ref : NodeRef}
    (helper : NodeState) (held : session.Held exempt) :
    (resolveFromHelper session ref helper).session.Held exempt := by
  let fields (node : NodeState) : NodeState :=
    { node with
      answerText := helper.output
      answerFrom := some helper.agentName
      adoptedHelpers := node.adoptedHelpers ++ [helper.id] }
  have keeps : ∀ {scope}, KeepsPlan scope fields :=
    ⟨fun _ => ⟨rfl, rfl, rfl, rfl, rfl, rfl⟩, fun _ => rfl, fun _ => Or.inl rfl⟩
  unfold resolveFromHelper
  dsimp only
  split
  · rename_i text raised
    have stopped : (session.transition ref fields .ready).raised = some text := raised
    have edits : Edits .still session (session.transition ref fields .ready).session :=
      transition_edits keeps fun quiet => by simp [stopped] at quiet
    exact edits.still_held held
  · apply Held.expireNode
    have edits : Edits ⟨fun nodeId _ _ => nodeId = ref.nodeId, fun _ _ _ => False, True, True⟩ session
        (session.transition ref fields .ready).session := by
      refine transition_edits keeps fun _ nodeId planned _ _ _ => ?_
      rw [planned]
      rfl
    exact edits.held (held.mono fun _ => Or.inl)
      ⟨fun _ _ _ _ _ own => Or.inl (Or.inr own), fun _ _ _ asked => asked.elim⟩

theorem resolve_tended (inv : AnswerInv config runtime) {taskId : Nat}
    (stepped : runtime.resolve taskId = some next) : Tended runtime next := by
  unfold resolve at stepped
  split at stepped
  · cases stepped
  · rename_i task _
    split at stepped
    · rename_i helper _
      cases stepped
      have edits : Edits ⟨fun _ _ _ => True, fun _ _ _ => False, True, True⟩ runtime.session
          (resolveFromHelper runtime.session task.ref helper).session :=
        resolveFromHelper_edits helper fun _ _ _ _ _ _ => trivial
      exact ⟨resolveFromHelper_held helper inv.held, fun nodeId pends =>
        Or.inl ((edits.pends pends).resolve_right fun asked => asked.choose_spec)⟩
    · cases stepped

/-- A settlement asks only where nothing is pending. -/
theorem act_tended (inv : AnswerInv config runtime) {taskId : Nat} {env : Env}
    {decision : Option AssistanceResult}
    (stepped : runtime.act config taskId env decision = some next) : Tended runtime next := by
  unfold act at stepped
  split at stepped
  · cases stepped
  · rename_i task _
    split at stepped
    · cases stepped
      let asking (nodeId : String) (status : NodeStatus) : Prop :=
        nodeId = task.ref.nodeId ∧ status = .inputRequired ∧
          runtime.session.state.pendingInterventionFor nodeId = none
      let scope : Scope :=
        ⟨fun nodeId _ target => asking nodeId target,
          fun kind nodeId status => kind = .question ∧ asking nodeId status, True, True⟩
      have edits : Edits scope runtime.session
          (actOnDecision config env runtime.session task.ref decision).session :=
        actOnDecision_edits config env decision (fun free _ _ => ⟨rfl, rfl, free⟩)
          fun free => ⟨rfl, rfl, rfl, free⟩
      refine .of_edits inv.held edits ⟨?_, ?_⟩ (fun _ _ asked => by cases asked.1) fun _ => id
      · rintro kind nodeId status target watched ⟨rfl, rfl, free⟩
        rcases watched with pends | ⟨_, rfl, _⟩
        · exact absurd pends (not_pends free)
        · exact Or.inr fun _ => rfl
      · rintro kind nodeId status ⟨rfl, _, rfl, _⟩
        exact Or.inr rfl
    · cases stepped

/-! ### The loop -/

theorem dispatch_tended (inv : AnswerInv config runtime) :
    Tended runtime (runtime.dispatch config) := by
  have edits : Edits ⟨fun _ status _ => status ∈ [.failed, .pending, .ready],
      fun _ _ _ => False, True, True⟩ runtime.session (runtime.dispatch config).session := by
    apply dispatch_edits
    · exact fun _ => List.mem_cons_self
    · exact fun _ _ listed => List.mem_cons_of_mem _ listed
  refine .of_moves inv.held edits ?_ ?_
  · rintro nodeId ⟨task, member, closing⟩
    exact ⟨task, List.mem_append_left _ member, closing⟩
  · intro kind nodeId status target _ early
    refine Or.inr fun fits => ?_
    -- nothing is pending about a node that has not begun or has failed
    exfalso
    revert early fits
    cases kind <;> cases status <;> decide

theorem collect_tended (inv : AnswerInv config runtime)
    (attends : runtime.Attends config .collect) : Tended runtime runtime.collect := by
  have edits : Edits ⟨fun nodeId _ _ => ∀ kind, ¬ runtime.session.state.Pends kind nodeId,
      fun _ _ _ => False, True, True⟩ runtime.session runtime.collect.session := by
    refine collect_edits runtime fun task member text raised nodeId planned _ kind => ?_
    obtain ⟨unasked, unconfirmed⟩ :=
      attends task member (by simp [raised, TaskPhase.holds]) (by simp [NodeTask.done, raised])
    rw [planned] at unasked unconfirmed
    cases kind with
    | question => exact unasked
    | confirmCancel => exact unconfirmed
  refine .of_moves inv.held edits ?_ ?_
  · rintro nodeId ⟨task, member, ref, closing⟩
    exact ⟨task, List.mem_filter.mpr ⟨member, by simp [NodeTask.done, closing]⟩, ref, closing⟩
  · exact fun kind nodeId _ _ pends free => absurd pends (free kind)

theorem flow_tended (inv : AnswerInv config runtime) (atFlow : runtime.runner = .flow) {env : Env}
    {decision : Option PlanPatch} (attends : runtime.Attends config (.flow env decision)) :
    Tended runtime (runtime.flow config env decision) := by
  have edits : Edits (offerScope (fun _ => False) runtime.Executes env runtime.session.state
      (flowPatch env config runtime.session.state decision)) runtime.session
      (planFlow config env runtime.session runtime.busy decision).1 :=
    planFlow_edits config env runtime.session runtime.busy decision (offered_revises attends)
  have session : (runtime.flow config env decision).session =
      (planFlow config env runtime.session runtime.busy decision).1 := by
    unfold flow
    dsimp only
    split <;> rfl
  rw [← session] at edits
  refine .of_edits inv.held edits (offered_spares attends fun _ => False.elim)
    (fun _ _ asked => asked.2.2.1) ?_
  rintro nodeId ⟨task, member, _⟩
  rw [inv.owned.unexecuted atFlow] at member
  cases member

/-! ### Answers -/

/-- An answered or expired intervention no longer concerns its node. -/
theorem settled_held {session : Session} {exempt : String → Prop}
    {intervention : Intervention} (later : Intervention) (held : session.Held exempt)
    (member : intervention ∈ session.state.pendingInterventions)
    (sameId : later.id = intervention.id) (sameNode : later.nodeId = intervention.nodeId)
    (sameKind : later.kind = intervention.kind) (settles : later.status ≠ .pending) :
    (session.setIntervention later).Held exempt ∧
      (∀ kind nodeId, (session.setIntervention later).state.Pends kind nodeId →
        session.state.Pends kind nodeId) ∧
      ∀ kind, ¬ (session.setIntervention later).state.Pends kind intervention.nodeId := by
  obtain ⟨inside, pending⟩ := mem_pending.mp member
  have edits : Edits .still session (session.setIntervention later) :=
    .one (setIntervention_edit inside sameId ⟨sameNode, sameKind, fun _ => pending⟩)
  refine ⟨edits.still_held held, fun kind nodeId pends =>
    (edits.pends pends).resolve_right fun asked => asked.choose_spec, ?_⟩
  rintro kind ⟨other, listed, _, same⟩
  obtain ⟨row, waits⟩ := mem_pending.mp listed
  rcases (Table.mem_insert _ _ _).mp row with rfl | ⟨before, apart⟩
  · exact settles waits
  · have both := held.memory.single other (mem_pending.mpr ⟨before, waits⟩) intervention member same
    exact apart (by rw [both, sameId])

/-- The node that nothing is pending for may move, and so may what waits. -/
theorem moved_held {session next : Session} {exempt : String → Prop} {nodeId : String}
    (edits : Edits ⟨fun other status _ => other = nodeId ∨ status = .pending, fun _ _ _ => False, True, True⟩
      session next)
    (held : session.Held exempt) (free : ∀ kind, ¬ session.state.Pends kind nodeId) :
    next.Held exempt ∧
      ∀ kind nodeId, next.state.Pends kind nodeId → session.state.Pends kind nodeId := by
  have stay := fun kind nodeId (pends : next.state.Pends kind nodeId) =>
    (edits.pends pends).resolve_right fun asked => asked.choose_spec
  refine ⟨edits.held held ⟨?_, fun _ _ _ asked => asked.elim⟩, stay⟩
  rintro kind other status target watched (rfl | rfl)
  · exact absurd (watched.resolve_right fun asked => asked.choose_spec) (free kind)
  · refine Or.inr fun fits => ?_
    exfalso
    revert fits
    cases kind <;> decide

/-- What an answer leaves of a session. -/
structure Lessens (exempt : String → Prop) (session next : Session) : Prop where
  held : next.Held exempt
  fewer : ∀ kind nodeId, next.state.Pends kind nodeId → session.state.Pends kind nodeId

section Answers

variable {session : Session} {exempt : String → Prop} {intervention : Intervention}

theorem expire_lessens (held : session.Held exempt)
    (member : intervention ∈ session.state.pendingInterventions) :
    Lessens exempt session (session.expire intervention) := by
  obtain ⟨expired, fewer, _⟩ := settled_held { intervention with status := .expired } held member
    rfl rfl rfl (by simp)
  exact ⟨expired.persist, fewer⟩

theorem answerIntervention_lessens (response : QuestionResponse) (held : session.Held exempt) :
    Lessens exempt session (session.answerIntervention response).1 := by
  have waits : ∀ {intervention}, session.Awaited response intervention →
      intervention ∈ session.state.pendingInterventions :=
    fun awaited => mem_pending.mpr ⟨Table.mem_of_find? awaited.found, awaited.pending⟩
  have answers := session.answers response
  generalize session.answerIntervention response = result at answers ⊢
  cases answers with
  | ignored => exact ⟨held, fun _ _ => id⟩
  | stale awaited => exact expire_lessens held (waits awaited)
  | @declined intervention awaited =>
      obtain ⟨resolved, fewer, _⟩ := settled_held (intervention.answered response.answer) held
        (waits awaited) rfl rfl rfl (by simp [Intervention.answered])
      exact ⟨resolved.persist, fewer⟩
  | @canceled intervention awaited _ target found =>
      obtain ⟨resolved, fewer, free⟩ := settled_held (intervention.answered response.answer) held
        (waits awaited) rfl rfl rfl (by simp [Intervention.answered])
      obtain ⟨row, named⟩ := session.state.node_mem _ found
      have canceled := moved_held
        (cancelNode_edits (session.setIntervention (intervention.answered response.answer)) row
          (Or.inl named) fun _ _ => Or.inr rfl) resolved free
      exact ⟨canceled.1.persist, fun kind nodeId pends =>
        fewer kind nodeId (canceled.2 kind nodeId pends)⟩
  | @continued intervention awaited _ node found =>
      let answered := intervention.answered response.answer
      obtain ⟨resolved, fewer, free⟩ := settled_held answered held (waits awaited) rfl rfl rfl
        (by simp [answered, Intervention.answered])
      obtain ⟨row, named⟩ := session.state.node_mem _ found
      let ready := { node with answerText := some answered.renderAnswer, status := .ready }
      have edit : Edit ⟨fun other status _ => other = intervention.nodeId ∨ status = .pending,
          fun _ _ _ => False, True, True⟩ (session.setIntervention answered).state
          ((session.setIntervention answered).state.setNode ready) :=
        .row row ⟨rfl, rfl, rfl, rfl, rfl, rfl⟩ (Or.inr (Or.inl named)) (Or.inl rfl)
      have ready := moved_held (.one edit) resolved free
      exact ⟨ready.1.persist, fun kind nodeId pends =>
        fewer kind nodeId (ready.2 kind nodeId pends)⟩

theorem answerAll_lessens (responses : List QuestionResponse) (held : session.Held exempt) :
    Lessens exempt session (session.answerAll responses).1 := by
  induction responses generalizing session with
  | nil => exact ⟨held, fun _ _ => id⟩
  | cons response rest ih =>
      have answered := answerIntervention_lessens response held
      have others := ih answered.held
      exact ⟨others.held, fun kind nodeId pends =>
        answered.fewer kind nodeId (others.fewer kind nodeId pends)⟩

end Answers

/-! ### Messages -/

theorem closes_congr (same : next.nodeTasks = runtime.nodeTasks) : next.Closes = runtime.Closes := by
  funext nodeId
  simp only [Closes, same]

theorem Tended.of_lessens {session : Session}
    (lessens : Lessens next.Closes runtime.session session) (same : next.session = session) :
    Tended runtime next :=
  ⟨same ▸ lessens.held, fun nodeId pends => Or.inl (lessens.fewer _ nodeId (same ▸ pends))⟩

/-- Where nothing is pending, and nothing is asked, everything fits. -/
theorem Tended.of_free {moves : String → NodeStatus → NodeStatus → Prop}
    (held : runtime.session.Held runtime.Closes)
    (free : runtime.session.state.pendingInterventions = [])
    (edits : Edits ⟨moves, fun _ _ _ => False, True, True⟩ runtime.session next.session) :
    Tended runtime next := by
  have none : ∀ kind nodeId, ¬ next.session.state.Pends kind nodeId := by
    intro kind nodeId pends
    obtain ⟨intervention, member, _⟩ := (edits.pends pends).resolve_right fun asked => asked.choose_spec
    rw [free] at member
    cases member
  have steady := edits.both Edit.steady ⟨held.memory, held.stored⟩
  exact ⟨⟨steady.1, steady.2, fitting_of_none none⟩, fun nodeId pends => absurd pends (none _ nodeId)⟩

/-- The room is entered only where nothing is pending. -/
theorem classify_free {inbound : Inbound} (inRoom : (runtime.classify inbound).inRoom = true) :
    runtime.session.state.pendingInterventions = [] := by
  unfold classify classifyInbound at inRoom
  split at inRoom
  · cases inRoom
  · split at inRoom
    · cases inRoom
    · cases inRoom
    · split at inRoom
      · cases inRoom
      · rename_i free
        simpa using free

theorem room_edits (config : ExecutorConfig) (env : Env) (inbound : Inbound)
    (drafts : List (Option (List PlanNodeDraft))) {handler : Handler}
    (apt : Apt runtime.session.state handler) (inRoom : handler.inRoom = true)
    (keeps : handler.plans = false) :
    Edits ⟨fun _ _ _ => True, fun _ _ _ => False, True, True⟩ runtime.session
      (runtime.handle config env inbound drafts handler).session := by
  cases handler with
  | recover | reject | answers | reemitQuestions | complete | planAndLaunch => cases inRoom
  | newPlan => cases keeps
  | noop =>
      simp only [handle, finish_session]
      exact .refl _
  | enqueue target quoteId =>
      simp only [handle, finish_session]
      exact .persist (.one (.side _ _ _ _ (Or.inr trivial)))
  | spawnFollowup target =>
      simp only [handle, finish_session]
      exact spawnDerivedNode_edits config env _ _ (Or.inl ⟨trivial, rfl, rfl⟩)
  | interrupt target =>
      simp only [handle, finish_session]
      exact interrupt_edits config env _ trivial apt.1 inbound.request trivial fun _ _ => trivial

/-- A plan whose ids are no derived ids starts with nothing pending. -/
theorem planned_steady {nodes : List PlanNodeDraft} {state : OrchestrationState}
    (planned : Planned nodes state) (underived : ∀ draft ∈ nodes, isDerivedId draft.id = false) :
    Steady state := by
  refine ⟨fun left member => ?_, fun node member parentId kind count same => ?_⟩
  · simp [pendingInterventions, planned.interventions] at member
  · obtain ⟨draft, inside, rfl⟩ := planned.nodes node member
    have derived := isDerivedId_derivedId parentId kind count
    rw [← same] at derived
    simp [PlanNodeDraft.node, underived draft inside] at derived

theorem planAndLaunch_held (env : Env) {drafts : List (Option (List PlanNodeDraft))}
    (mentions : List String) (exempt : String → Prop) (underived : UnderivedPlan config env drafts) :
    (runtime.planAndLaunch config env drafts mentions).session.Held exempt ∧
      ∀ kind nodeId,
        ¬ (runtime.planAndLaunch config env drafts mentions).session.state.Pends kind nodeId := by
  obtain ⟨nodes, state, source, planned, edited, stored⟩ :=
    planAndLaunch_planned .still config runtime env drafts mentions
  have steady : Steady state := by
    apply planned_steady planned
    rcases source with rfl | source
    · nofun
    · exact underived nodes source
  have edits : Edits .still ⟨state, state⟩
      ⟨(runtime.planAndLaunch config env drafts mentions).session.state, state⟩ :=
    .edited (.refl _) edited
  have kept := edits.kept Edit.steady steady
  have none : ∀ kind nodeId,
      ¬ (runtime.planAndLaunch config env drafts mentions).session.state.Pends kind nodeId := by
    intro kind nodeId pends
    obtain ⟨intervention, member, _⟩ :=
      (edits.pends pends).resolve_right fun asked => asked.choose_spec
    simp [pendingInterventions, planned.interventions] at member
  exact ⟨⟨kept, stored ▸ kept, fitting_of_none none⟩, none⟩

/-- A recovery expires what is stale, and follows the nodes that a confirmation
is about. -/
theorem recoverSession_lessens {session : Session} {exempt : String → Prop}
    (memory : Steady session.state) (stored : Steady session.saved)
    (follows : session.state.Followable) : Lessens exempt session session.recoverSession := by
  have expiry : Edit .still session.state session.state.normalizeInterventions := expireWhere_edit _
  have normalized : Held exempt { session with state := session.state.normalizeInterventions } :=
    ⟨expiry.steady memory, stored, fitting_normalized _⟩
  have fewer : ∀ kind nodeId, session.state.normalizeInterventions.Pends kind nodeId →
      session.state.Pends kind nodeId := fun kind nodeId pends =>
    (expiry.pends pends).resolve_right fun asked => asked.choose_spec
  have edits : Edits ⟨fun nodeId status target => status ∈ activeNodeStatuses ∧
      (session.state.Pends .confirmCancel nodeId → target = .recover), fun _ _ _ => False, True, True⟩
      { session with state := session.state.normalizeInterventions } session.recoverSession := by
    refine .persist (.one (recoverNodes_edit fun node member active => ⟨active, fun pends => ?_⟩))
    rw [if_pos (follows node member active pends)]
  refine ⟨edits.held normalized ⟨?_, fun _ _ _ asked => asked.elim⟩, fun kind nodeId pends =>
    fewer kind nodeId ((edits.pends pends).resolve_right fun asked => asked.choose_spec)⟩
  rintro kind nodeId status target watched ⟨active, recovers⟩
  have pends := fewer kind nodeId (watched.resolve_right fun asked => asked.choose_spec)
  refine Or.inr fun fits => ?_
  cases kind with
  | question =>
      exfalso
      revert active
      rw [show status = .inputRequired from fits]
      decide
  | confirmCancel =>
      rw [recovers pends]
      exact (by decide : NodeStatus.recover ∈ flyingStatuses)

/-- What keeps a message from leaving an intervention that nobody can answer. -/
structure AttendsMessage (config : ExecutorConfig) (runtime : Runtime) (inbound : Inbound)
    (env : Env) (drafts : List (Option (List PlanNodeDraft))) : Prop where
  follows : inbound.recover = true → runtime.session.state.Followable
  underived : (runtime.classify inbound).plans = true → UnderivedPlan config env drafts

theorem classify_recover {inbound : Inbound} (same : runtime.classify inbound = .recover) :
    inbound.recover = true := by
  by_contra stays
  have room := runtime.classifyRoom_inRoom inbound
  unfold classify at same
  rw [if_neg stays] at same
  unfold classifyInbound at same
  split at same
  · cases same
  · cases same
  · split at same
    · cases same
    · split at same
      · simp [same, Handler.inRoom] at room
      · split at same
        · simp [same, Handler.inRoom] at room
        · split at same <;> cases same

theorem handle_tended (inv : AnswerInv config runtime) {inbound : Inbound} {env : Env}
    {drafts : List (Option (List PlanNodeDraft))}
    (attends : runtime.AttendsMessage config inbound env drafts) :
    runtime.classify inbound = .complete ∨
      Tended runtime (runtime.handle config env inbound drafts (runtime.classify inbound)) := by
  have apt := runtime.classify_apt inbound
  have free := @classify_free runtime inbound
  have underived := attends.underived
  have restarts : runtime.classify inbound = .recover → runtime.session.state.Followable :=
    fun same => attends.follows (classify_recover same)
  generalize runtime.classify inbound = handler at *
  cases handler with
  | complete => exact Or.inl rfl
  | reject => exact Or.inr ⟨inv.held, fun _ => Or.inl⟩
  | reemitQuestions =>
      right
      have edits : Edits .still runtime.session runtime.session.emitPendingQuestions :=
        emitPendingQuestions_edits _
      exact .of_edits inv.held edits ⟨fun _ _ _ _ _ moved => moved.elim, fun _ _ _ => False.elim⟩
        (fun _ _ => False.elim) fun _ => id
  | recover =>
      right
      exact .of_lessens (recoverSession_lessens inv.held.memory inv.held.stored (restarts rfl))
        (by simp [handle])
  -- asking again what is still open adds nothing to attend to
  | answers responses =>
      right
      have answered := answerAll_lessens responses inv.held
      simp only [handle]
      split
      · have emitted : Lessens runtime.Closes runtime.session
            (runtime.session.answerAll responses).1.emitPendingQuestions := by
          have edits : Edits .still _ (runtime.session.answerAll responses).1.emitPendingQuestions :=
            emitPendingQuestions_edits _
          exact ⟨edits.still_held answered.held, fun kind nodeId pends => answered.fewer kind nodeId
            ((edits.pends pends).resolve_right fun asked => asked.choose_spec)⟩
        refine .of_lessens ?_ (startRunner_session _)
        rw [closes_congr (startRunner_nodeTasks _)]
        exact emitted
      · exact ⟨answered.held, fun nodeId pends => Or.inl (answered.fewer _ nodeId pends)⟩
  -- a new plan starts without an intervention
  | planAndLaunch =>
      right
      obtain ⟨held, none⟩ := planAndLaunch_held env inbound.allMentions _ (underived rfl)
      exact ⟨held, fun nodeId pends => absurd pends (none _ nodeId)⟩
  | newPlan =>
      right
      obtain ⟨held, none⟩ := planAndLaunch_held env [] _ (underived rfl)
      simp only [handle]
      refine ⟨?_, fun nodeId pends => ?_⟩
      · rw [finish_session]
        exact held
      · rw [finish_session] at pends
        exact absurd pends (none _ nodeId)
  | noop | enqueue target quoteId | spawnFollowup target | interrupt target =>
      right
      have edits := room_edits config env inbound drafts apt rfl rfl
      exact .of_free inv.held (free rfl) edits

/-- What a step leaves in the store and in memory. -/
structure Answered (config : ExecutorConfig) (next : Runtime) : Prop where
  stored : Steady next.session.saved
  present : next.evicted = true ∨ AnswerInv config next

theorem Answered.of_tended (tended : Tended runtime next)
    (owned : next.evicted = true ∨ OwnedInv config
      (fun nodeId => runtime.session.state.Pends .confirmCancel nodeId ∨ runtime.Executes nodeId)
      next) : Answered config next :=
  ⟨tended.held.stored, owned.imp_right tended.inv⟩

theorem message_answered (inv : AnswerInv config runtime)
    {inbound : Inbound} {env : Env} {drafts : List (Option (List PlanNodeDraft))}
    (attends : runtime.AttendsMessage config inbound env drafts)
    (stepped : runtime.step config (.message inbound env drafts) = some next) :
    Answered config next := by
  have owned := message_owned inv.concerned stepped
  rw [step_message stepped] at owned ⊢
  rcases handle_tended inv attends with complete | tended
  · rw [complete]
    exact ⟨inv.held.stored, Or.inl rfl⟩
  · exact .of_tended tended owned

/-- The recovery owes nothing to what was loaded, but to what is pending. -/
theorem recover_answered {saved : OrchestrationState} {inbound : Inbound} {env : Env}
    {drafts : List (Option (List PlanNodeDraft))} (steady : Steady saved)
    (follows : (loaded saved).session.state.Followable) (restarts : inbound.recover = true)
    (stepped : (loaded saved).step config (.message inbound env drafts) = some next) :
    Answered config next := by
  have owned : OwnedInv config (next.session.state.Pends .confirmCancel) next :=
    recover_owned restarts stepped
  have lessens : Lessens next.Closes (loaded saved).session (loaded saved).session.recoverSession :=
    recoverSession_lessens steady.restored steady follows
  have session : next.session = (loaded saved).session.recoverSession := by
    rw [step_message stepped, classify, if_pos restarts]
    rfl
  exact ⟨session ▸ lessens.held.stored, Or.inr ⟨owned, session ▸ lessens.held⟩⟩

/-- A stored state without stale interventions is loaded as it is. -/
theorem loaded_inv {saved : OrchestrationState} (steady : Steady saved) (waiting : saved.Waiting) :
    AnswerInv config (loaded saved) := by
  have answers : ∀ kind nodeId, saved.Pends kind nodeId → ∃ status ∈ saved.status? nodeId,
      Fits kind status ∧ (kind = .confirmCancel → status = .recover) := by
    rintro kind nodeId ⟨intervention, member, rfl, rfl⟩
    obtain ⟨status, found, waits⟩ := waiting intervention member
    refine ⟨status, found, ?_⟩
    cases kind : intervention.kind with
    | question =>
        rw [kind] at waits
        exact ⟨waits, nofun⟩
    | confirmCancel =>
        rw [kind] at waits
        obtain rfl : status = .recover := waits
        exact ⟨(by decide : NodeStatus.recover ∈ flyingStatuses), fun _ => rfl⟩
  refine ⟨loaded_owned_of_idle fun nodeId pends status found => ?_, steady.restored, steady,
    fun kind nodeId pends => Or.inr ?_⟩
  · obtain ⟨other, known, _, recovers⟩ := answers .confirmCancel nodeId pends
    obtain rfl : other = status := Option.some.inj (known.symm.trans found)
    rw [recovers rfl]
    decide
  · obtain ⟨status, found, fits, _⟩ := answers kind nodeId pends
    exact ⟨status, (saved.status_restored nodeId).trans found, fits⟩

theorem inner_answered {event : Event} (inv : AnswerInv config runtime)
    (isInner : event.inner = true) (attends : runtime.Attends config event)
    (stepped : runtime.step config event = some next) : Answered config next := by
  have owned := inner_owned inv.concerned isInner stepped
  obtain ⟨_, stepped⟩ := step_inner isInner stepped
  cases advances stepped with
  | message | reload => cases isInner
  | clearWake => exact .of_tended ⟨inv.held, fun _ => Or.inl⟩ owned
  | dispatch => exact .of_tended (dispatch_tended inv) owned
  | collect => exact .of_tended (collect_tended inv attends) owned
  | flow env decision atFlow => exact .of_tended (flow_tended inv atFlow attends) owned
  | start => exact .of_tended (start_tended inv attends stepped) owned
  | chunk => exact .of_tended (chunk_tended inv attends stepped) owned
  | outcome => exact .of_tended (outcome_tended inv attends stepped) owned
  | close => exact .of_tended (close_tended inv stepped) owned
  | inspect => exact .of_tended ⟨inv.held, fun _ => Or.inl⟩ owned
  | resolve => exact .of_tended (resolve_tended inv stepped) owned
  | act => exact .of_tended (act_tended inv stepped) owned
  | cancel =>
      have edits : Edits ⟨fun _ _ _ => True, fun _ _ _ => False, True, True⟩ runtime.session
          runtime.session.cancelAll := cancelAll_edits _ fun _ _ _ _ => trivial
      exact ⟨(edits.both Edit.steady ⟨inv.held.memory, inv.held.stored⟩).2, Or.inl rfl⟩

/-- The cancellation moves no node that a waiting intervention is about. -/
theorem cancelAll_waiting {session : Session} (waiting : session.state.Waiting) :
    session.cancelAll.state.Waiting := by
  intro intervention member
  obtain ⟨status, found, waits⟩ := waiting intervention member
  refine ⟨status, ?_, waits⟩
  have same := session.state.status_moveNodes intervention.nodeId
    ((session.state.nodes.rows.filter fun node =>
      node.status ∈ activeNodeStatuses ++ [.ready]).map (·.id)) .canceled
  refine same.trans ?_
  rw [Option.mem_def.mp found, Option.map_some, if_neg]
  intro taken
  obtain ⟨node, listed, named⟩ := List.mem_map.mp taken
  obtain ⟨row, busy⟩ := List.mem_filter.mp listed
  have known := session.state.status_of_mem row
  rw [named, Option.mem_def.mp found] at known
  simp only [decide_eq_true_eq, ← Option.some.inj known] at busy
  cases kind : intervention.kind with
  | question =>
      rw [kind] at waits
      obtain rfl : status = .inputRequired := waits
      revert busy
      decide
  | confirmCancel =>
      rw [kind] at waits
      obtain rfl : status = .recover := waits
      revert busy
      decide

end Invariant

instance (config : ExecutorConfig) (runtime : Runtime) (inbound : Inbound) (env : Env)
    (drafts : List (Option (List PlanNodeDraft))) :
    Decidable (runtime.AttendsMessage config inbound env drafts) :=
  have : Decidable (UnderivedPlan config env drafts) := by
    unfold UnderivedPlan
    infer_instance
  decidable_of_iff
    ((inbound.recover = true → runtime.session.state.Followable) ∧
      ((runtime.classify inbound).plans = true → UnderivedPlan config env drafts))
    ⟨fun both => ⟨both.1, both.2⟩, fun attends => ⟨attends.follows, attends.underived⟩⟩

end Runtime

/-! ### Conversations -/

namespace Conversation

/-- A conversation stays steady whose planner names no node like a derived one. -/
theorem Held.steady_step {config : ExecutorConfig} {conversation next : Conversation}
    {event : ConversationEvent} (held : conversation.Held Steady)
    (underived : ∀ human inbound env drafts stored,
      event = .message human inbound env drafts stored →
      (conversation.runtime.ensureSession.classify inbound).plans = true →
        Runtime.UnderivedPlan config env drafts)
    (stepped : conversation.step config event = some next) : next.Held Steady := by
  refine Held.step Edit.steady Steady.restored (steady_of_empty rfl rfl) ?_ held stepped
  intro human inbound env drafts stored same plans nodes state source planned
  apply Runtime.planned_steady planned
  rcases source with rfl | source
  · exact fun draft member => by cases member
  · exact underived human inbound env drafts stored same plans nodes source

/-- What keeps a step of a conversation from leaving an intervention that nobody
can answer. -/
def Attends (config : ExecutorConfig) (conversation : Conversation) : ConversationEvent → Prop
  | .message _ inbound env drafts _ =>
      (conversation.runtime.evicted = true → inbound.recover = false →
        conversation.runtime.session.saved.Waiting) ∧
      conversation.runtime.ensureSession.AttendsMessage config inbound env drafts
  | .session event _ => conversation.runtime.Attends config event
  | _ => True

instance (config : ExecutorConfig) (conversation : Conversation) :
    (event : ConversationEvent) → Decidable (conversation.Attends config event)
  | .message _ _ _ _ _ =>
      inferInstanceAs (Decidable ((_ → _ → _) ∧ Runtime.AttendsMessage _ _ _ _ _))
  | .session _ _ => inferInstanceAs (Decidable (Runtime.Attends _ _ _))
  | .raise | .crash | .rewind _ => .isTrue trivial

/-- Behind a step, everything that is pending in memory can be answered; behind
a cancellation, everything that is stored. -/
def AnswerableAfter (next : Conversation) : ConversationEvent → Prop
  | .session .cancel _ => (Runtime.loaded next.runtime.session.saved).Answerable
  | _ => next.runtime.evicted = true ∨ next.runtime.Answerable

instance (next : Conversation) (event : ConversationEvent) :
    Decidable (next.AnswerableAfter event) := by
  unfold AnswerableAfter
  split <;> infer_instance

structure AnswerSession (config : ExecutorConfig) (conversation : Conversation) : Prop where
  present : conversation.runtime.evicted = true ∨ Runtime.AnswerInv config conversation.runtime
  stores : conversation.Stores Steady

section Runs

variable {config : ExecutorConfig} {conversation next : Conversation}

theorem message_answered {human : Bool} {inbound : Inbound} {env : Env}
    {drafts : List (Option (List PlanNodeDraft))} {stored : Bool} {runtime : Runtime}
    (inv : AnswerSession config conversation)
    (attends : conversation.Attends config (.message human inbound env drafts stored))
    (stepped : conversation.runtime.ensureSession.step config (.message inbound env drafts) =
      some runtime) : Runtime.Answered config runtime := by
  obtain ⟨opens, attends⟩ := attends
  unfold Runtime.ensureSession at stepped attends
  split at stepped
  · rename_i evicted
    rw [if_pos evicted] at attends
    cases restarts : inbound.recover with
    | true =>
        exact Runtime.recover_answered inv.stores.saved (attends.follows restarts) restarts
          stepped
    | false =>
        have loaded : Runtime.AnswerInv config (.loaded conversation.runtime.session.saved) :=
          Runtime.loaded_inv inv.stores.saved (opens evicted restarts)
        exact Runtime.message_answered loaded attends stepped
  · rename_i inMemory
    rw [if_neg inMemory] at attends
    exact Runtime.message_answered (inv.present.resolve_left inMemory) attends stepped

theorem step_answered (config : ExecutorConfig) (conversation : Conversation)
    (event : ConversationEvent) (next : Conversation) (inv : AnswerSession config conversation)
    (attends : conversation.Attends config event)
    (stepped : conversation.step config event = some next) : AnswerSession config next := by
  have stores := fun saved => inv.stores.step (steady_of_empty rfl rfl) Steady.restored
    (fun present => (inv.present.resolve_left (by simp [present])).held.memory) saved stepped
  rcases step_cases stepped with
    ⟨human, inbound, env, drafts, stored, rfl, taken⟩ | ⟨inner, stored, rfl, isInner, taken⟩ |
      ⟨passive, evicted⟩
  · have answered := message_answered inv attends taken
    exact ⟨answered.present, stores fun _ => answered.stored⟩
  · have inMemory := (Runtime.step_inner isInner taken).1
    have answered := Runtime.inner_answered
      (inv.present.resolve_left (by simp [inMemory])) isInner attends taken
    exact ⟨answered.present, stores fun _ => answered.stored⟩
  · exact ⟨Or.inl evicted, stores fun steps => by simp [passive] at steps⟩

theorem step_answerable {event : ConversationEvent} (inv : AnswerSession config conversation)
    (attends : conversation.Attends config event)
    (stepped : conversation.step config event = some next) : next.AnswerableAfter event := by
  have behind := step_answered config conversation event next inv attends stepped
  have general : next.runtime.evicted = true ∨ next.runtime.Answerable :=
    behind.present.imp_right Runtime.AnswerInv.answerable
  cases event with
  | session inner stored =>
      cases inner with
      | cancel =>
          simp only [step, Event.inner, ↓reduceIte] at stepped
          obtain ⟨runtime, taken, recorded⟩ := Option.bind_eq_some_iff.mp stepped
          obtain ⟨_, canceled⟩ := Runtime.step_inner rfl taken
          cases canceled
          have steady := behind.stores.saved
          unfold AnswerableAfter
          rw [record_runtime recorded] at steady ⊢
          have inv : Runtime.AnswerInv config
              (Runtime.loaded conversation.runtime.session.cancelAll.saved) :=
            Runtime.loaded_inv steady (Runtime.cancelAll_waiting attends)
          exact inv.answerable
      | _ => exact general
  | _ => exact general

end Runs

end Conversation

/-- In every run of a conversation whose steps attend to what is pending,
everything that is pending can be answered behind every step. -/
theorem interventions_answerable (config : ExecutorConfig) (events : List ConversationEvent)
    (attended : Runs.Guarded (Conversation.step config) (Conversation.Attends config) .empty
      events) :
    ∀ front event rest, events = front ++ event :: rest → ∀ reached,
      Runs.run (Conversation.step config) .empty front = some reached →
        ∀ next, reached.step config event = some next → next.AnswerableAfter event := by
  have start : Conversation.AnswerSession config .empty :=
    ⟨Or.inl rfl, steady_of_empty rfl rfl, nofun⟩
  intro front event rest split reached ran next stepped
  obtain ⟨inv, attends⟩ := Runs.guarded_at (Conversation.AnswerSession config)
    (Conversation.step_answered config) events .empty start attended front event rest split reached
    ran
  exact Conversation.step_answerable inv attends stepped

section Offered

/-! Two nodes are at work, and the second one ends with a revision that lists the
first: which is asked about where it is still at work, and also where it has
completed. -/

def twoAtWork : List ConversationEvent := [
  say "t1" "write" [some [⟨"n1", "first", "writer", .empty, []⟩,
    ⟨"n2", "second", "writer", .empty, []⟩]],
  .session .clearWake false, .session .dispatch true, .session (.start 0) false,
  .session (.start 1) false]

def completesFirst : List ConversationEvent := [
  .session (.outcome 0 turnEnv { ended := .completed } none) true, .session (.close 0) true]

def revisesFirst : ConversationEvent :=
  .session (.outcome 1 turnEnv { ended := .completed, output := some "changed" }
    (some { intent := .revise, patch := some { invalidate := ["n1"] } })) true

/-- The confirmation about the node at work can be answered. -/
theorem offered_work_answerable :
    ∃ reached next, Runs.run (Conversation.step {}) .empty twoAtWork = some reached ∧
      reached.step {} revisesFirst = some next ∧ next.AnswerableAfter revisesFirst ∧
        next.runtime.session.state.pendingInterventions ≠ [] := by
  have attended : Runs.Guarded (Conversation.step {}) (Conversation.Attends {}) .empty
      (twoAtWork ++ [revisesFirst]) := by
    decide +kernel
  have ends : Runs.Ends (Conversation.step {}) .empty twoAtWork fun reached =>
      ∃ next ∈ reached.step {} revisesFirst,
        next.runtime.session.state.pendingInterventions ≠ [] := by
    decide +kernel
  obtain ⟨reached, ran, next, stepped, asked⟩ := ends
  exact ⟨reached, next, ran, stepped,
    interventions_answerable {} (twoAtWork ++ [revisesFirst]) attended twoAtWork revisesFirst [] rfl
      reached ran next stepped, asked⟩

/-- The one about the completed node cannot. -/
theorem completed_node_confirmed :
    ¬ ∀ (config : ExecutorConfig) (events : List ConversationEvent) (reached : Conversation),
      Runs.run (Conversation.step config) .empty events = some reached →
        reached.runtime.evicted = true ∨ reached.runtime.Answerable := by
  intro claim
  have ends : Runs.Ends (Conversation.step {}) .empty
      (twoAtWork ++ completesFirst ++ [revisesFirst, .session (.close 1) true]) fun reached =>
        ¬ (reached.runtime.evicted = true ∨ reached.runtime.Answerable) := by
    decide +kernel
  obtain ⟨reached, ran, unanswerable⟩ := ends
  exact unanswerable (claim {} _ reached ran)

end Offered

end Choirworks.Orchestration
