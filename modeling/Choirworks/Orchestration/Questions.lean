import Mathlib.Algebra.Order.BigOperators.Group.List
import Mathlib.Algebra.Order.Group.Nat
import Choirworks.Library.Chains
import Choirworks.Orchestration.Kept
import Choirworks.Orchestration.Ownership
import Choirworks.Orchestration.Pending

/-!
What a run that waits is waiting for. A node that needs input has a question
pending, or waits for a helper that needs input in its turn; the ids of helpers
grow, so the chain ends in a question. The dispatch block settles every node
that neither has; but a confirmation stands in for a question there, and the way
out of `plan_flow` does not look for helpers that an answer has made ready.
-/

namespace Choirworks.Orchestration

open OrchestrationState
open Session (Edits)

namespace OrchestrationState

/-! ### Helpers -/

/-- A node that somebody has requested waits for nothing, and is named after the
node that it helps. -/
def Lineage (state : OrchestrationState) : Prop :=
  ∀ node ∈ state.nodes.rows, ∀ requester, node.assistRequestedBy = some requester →
    node.deps = [] ∧ ∃ kind number, kind ≠ .followup ∧ node.id = derivedId requester kind number

/-- The node waits for a helper that needs input. -/
def WaitsOn (state : OrchestrationState) (nodeId helperId : String) : Prop :=
  ∃ helper ∈ state.helpersOf nodeId, helper.id = helperId ∧ helper.status = .inputRequired

/-- A finite chain of helpers leads to a question. -/
def Asked (state : OrchestrationState) (nodeId : String) : Prop :=
  Chains.Leads state.WaitsOn (state.Pends .question) nodeId

/-- Every node that needs input can get it from a human. -/
def WaitsForHuman (state : OrchestrationState) : Prop :=
  ∀ node ∈ state.inputRequiredNodes, state.Asked node.id

def openStatuses : List NodeStatus := pendingNodeStatuses ++ [.inputRequired]

/-- Every node that needs input has a question pending, or a helper that has not
ended. -/
def Covered (state : OrchestrationState) : Prop :=
  ∀ nodeId, state.status? nodeId = some .inputRequired →
    state.Pends .question nodeId ∨ ∃ helper ∈ state.helpersOf nodeId, helper.status ∈ openStatuses

/-- No node that needs input has a helper that could run. -/
def HelpersWait (state : OrchestrationState) : Prop :=
  ∀ node ∈ state.inputRequiredNodes, ∀ helper ∈ state.helpersOf node.id, helper ∉ state.readyNodes

instance (state : OrchestrationState) : Decidable state.HelpersWait :=
  inferInstanceAs (Decidable (∀ node ∈ state.inputRequiredNodes, ∀ helper ∈ _, _))

section Helpers

variable {state old new last : OrchestrationState} {nodeId : String}

theorem mem_helpersOf {node : NodeState} : node ∈ state.helpersOf nodeId ↔
    node ∈ state.nodes.rows ∧ node.derived = true ∧ node.assistRequestedBy = some nodeId := by
  simp [helpersOf]

theorem mem_inputRequired {node : NodeState} : node ∈ state.inputRequiredNodes ↔
    node ∈ state.nodes.rows ∧ node.status = .inputRequired := by
  simp [inputRequiredNodes, inputNodeStatuses]

/-- The helpers of the chain have ever longer ids. -/
theorem Covered.asked (covered : Covered state) (lineage : Lineage state)
    (wait : state.HelpersWait) : state.WaitsForHuman := by
  intro node member
  obtain ⟨row, waits⟩ := mem_inputRequired.mp member
  refine Chains.leads_of_climb (fun nodeId => state.status? nodeId = some .inputRequired)
    String.length (state.nodes.rows.map (·.id.length)).sum ?_ ?_ node.id
    (waits ▸ state.status_of_mem row)
  · intro nodeId found
    obtain ⟨other, inside, rfl, _⟩ := state.status_eq_some nodeId found
    exact List.le_sum_of_mem (List.mem_map_of_mem inside)
  · intro nodeId found
    refine (covered nodeId found).imp_right ?_
    rintro ⟨helper, listed, unended⟩
    obtain ⟨inside, _, requested⟩ := mem_helpersOf.mp listed
    obtain ⟨deps, kind, number, _, named⟩ := lineage helper inside nodeId requested
    -- a helper that does not need input itself would be ready
    have blocked : helper.status = .inputRequired := by
      rcases List.mem_append.mp unended with early | late
      · obtain ⟨other, there, rfl, needs⟩ := state.status_eq_some nodeId found
        refine absurd ?_ (wait other (mem_inputRequired.mpr ⟨there, needs⟩) helper listed)
        exact List.mem_filter.mpr ⟨inside, by simp [early, deps]⟩
      · exact List.mem_singleton.mp late
    exact ⟨helper.id, ⟨helper, listed, rfl, blocked⟩, blocked ▸ state.status_of_mem inside,
      named ▸ derivedId_longer⟩

/-! ### What keeps the nodes covered -/

/-- No node needs input anew, the questions about those that do stay, and so do
the helpers that have not ended. -/
structure Carries (old new : OrchestrationState) : Prop where
  waits : ∀ nodeId, new.status? nodeId = some .inputRequired →
    old.status? nodeId = some .inputRequired
  asked : ∀ nodeId, new.status? nodeId = some .inputRequired → old.Pends .question nodeId →
    new.Pends .question nodeId
  helpers : ∀ nodeId, ∀ helper ∈ old.helpersOf nodeId, helper.status ∈ openStatuses →
    ∃ later ∈ new.helpersOf nodeId, later.status ∈ openStatuses

theorem Carries.trans (first : Carries old new) (second : Carries new last) : Carries old last where
  waits nodeId found := first.waits nodeId (second.waits nodeId found)
  asked nodeId found pends :=
    second.asked nodeId found (first.asked nodeId (second.waits nodeId found) pends)
  helpers nodeId helper listed unended := by
    obtain ⟨later, there, still⟩ := first.helpers nodeId helper listed unended
    exact second.helpers nodeId later there still

theorem Carries.congr (nodes : new.nodes = old.nodes)
    (asked : ∀ nodeId, new.status? nodeId = some .inputRequired → old.Pends .question nodeId →
      new.Pends .question nodeId) : Carries old new where
  waits := by simp [status?, node?, nodes]
  asked := asked
  helpers nodeId helper listed unended :=
    ⟨helper, by simpa [helpersOf, nodes] using listed, unended⟩

theorem Carries.refl (state : OrchestrationState) : Carries state state :=
  .congr rfl fun _ _ => id

theorem Covered.carry (covered : Covered old) (carries : Carries old new) : Covered new := by
  intro nodeId found
  rcases covered nodeId (carries.waits nodeId found) with pends | ⟨helper, listed, unended⟩
  · exact Or.inl (carries.asked nodeId found pends)
  · exact Or.inr (carries.helpers nodeId helper listed unended)

/-- Only one intervention is changed, which is no open question. -/
theorem carries_set {intervention later : Intervention}
    (member : intervention ∈ old.interventions.rows) (sameId : later.id = intervention.id)
    (closed : intervention.kind = .question →
      old.status? intervention.nodeId ≠ some .inputRequired) :
    Carries old { old with interventions := old.interventions.insert later } := by
  refine .congr rfl ?_
  rintro nodeId found ⟨question, listed, asks, rfl⟩
  obtain ⟨row, pending⟩ := mem_pending.mp listed
  refine ⟨question, mem_pending.mpr ⟨(Table.mem_insert _ _ _).mpr (Or.inr ⟨row, ?_⟩), pending⟩,
    asks, rfl⟩
  intro same
  obtain rfl := Table.row_unique _ row member (same.trans sameId)
  exact closed asks found

theorem expireWhere_carries (concerns : Intervention → Bool) :
    Carries old (old.expireWhere concerns) := by
  refine .congr rfl ?_
  rintro nodeId found ⟨question, listed, asks, rfl⟩
  obtain ⟨row, pending⟩ := mem_pending.mp listed
  obtain ⟨node, there, status⟩ := Option.map_eq_some_iff.mp found
  have fresh : interventionStale question (old.node? question.nodeId) = false := by
    rw [show old.node? question.nodeId = some node from there]
    simp [interventionStale, asks, status]
  refine ⟨question, mem_pending.mpr ⟨List.mem_map.mpr ⟨question, row, ?_⟩, pending⟩, asks, rfl⟩
  simp [fresh]

end Helpers

theorem Edit.lineage {scope : Scope} {old new : OrchestrationState} (edit : Edit scope old new)
    (lineage : Lineage old) : Lineage new := by
  cases edit with
  | rows keeps same =>
      intro node member requester requested
      obtain ⟨before, inside, rfl⟩ := List.mem_map.mp member
      have row := same before inside
      rw [row.assistRequestedBy] at requested
      rw [row.deps, row.id]
      exact lineage before inside requester requested
  | draft _ _ _ plain =>
      intro node member requester requested
      rcases (mem_setNode _ _ _).mp member with rfl | ⟨inside, _⟩
      · rw [plain] at requested
        cases requested
      · exact lineage node inside requester requested
  | spawn spawn helps =>
      intro node member requester requested
      rcases (mem_setNode _ _ _).mp member with rfl | ⟨inside, _⟩
      · rcases helps with follows | helps
        · rw [show (spawn.node _).assistRequestedBy = spawn.assistRequestedBy from rfl,
            follows.2.requester] at requested
          cases requested
        · rw [show (spawn.node _).assistRequestedBy = spawn.assistRequestedBy from rfl,
            helps.requester] at requested
          cases requested
          exact ⟨helps.deps, spawn.kind, _, helps.kind, rfl⟩
      · exact lineage node inside requester requested
  | side | settle => exact lineage
  | ask requested =>
      obtain ⟨_, rfl⟩ := requestUserInput_cases requested
      exact lineage

theorem Lineage.restored {state : OrchestrationState} (lineage : Lineage state) :
    Lineage state.restored := by
  intro node member
  obtain ⟨old, inside, rfl⟩ := List.mem_map.mp member
  exact lineage old inside

theorem lineage_empty : Lineage {} := by
  intro node member
  cases member

theorem Lineage.quiet {old new : OrchestrationState} (lineage : Lineage old)
    (quiet : Quiet old new) : Lineage new := by
  obtain ⟨_, _, rfl⟩ := quiet
  exact lineage

theorem HelpersWait.quiet {old new : OrchestrationState} (wait : old.HelpersWait)
    (quiet : Quiet old new) : new.HelpersWait := by
  obtain ⟨_, _, rfl⟩ := quiet
  exact wait

theorem planned_lineage {nodes : List PlanNodeDraft} {state : OrchestrationState}
    (planned : Planned nodes state) : Lineage state := by
  intro node member requester requested
  obtain ⟨draft, _, rfl⟩ := planned.nodes node member
  cases requested

end OrchestrationState

/-! ### What a session at `plan_flow` goes through -/

/-- No node is at work. -/
def OrchestrationState.Idle (state : OrchestrationState) : Prop :=
  ∀ nodeId, ∀ status ∈ state.status? nodeId, status ∉ activeNodeStatuses

namespace Session

section Calm

variable {session : Session}

theorem Idle.enters {entered : List NodeStatus} {old new : OrchestrationState} (idle : old.Idle)
    (effect : Enters entered old new) (calm : ∀ status ∈ entered, status ∉ activeNodeStatuses) :
    new.Idle := by
  intro nodeId status found
  rcases effect nodeId status found with before | listed
  · exact idle nodeId status before
  · exact calm status listed

theorem emitPendingQuestions_carries :
    Carries session.state session.emitPendingQuestions.state := by
  unfold emitPendingQuestions
  split
  · exact .refl _
  · refine .congr rfl ?_
    rintro nodeId _ ⟨question, listed, asks, rfl⟩
    obtain ⟨row, pending⟩ := mem_pending.mp listed
    refine ⟨{ question with announced := true }, mem_pending.mpr ⟨List.mem_map.mpr
      ⟨question, row, by simp [pending]⟩, pending⟩, asks, rfl⟩

/-- An answer to a question lets its node go on. -/
theorem continued_carries {intervention : Intervention} {answer : Answer} {node : NodeState}
    (member : intervention ∈ session.state.interventions.rows)
    (there : session.state.node? intervention.nodeId = some node) :
    Carries session.state ((session.setIntervention (intervention.answered answer)).state.setNode
      { node with
        answerText := some (intervention.answered answer).renderAnswer, status := .ready }) := by
  obtain ⟨row, named⟩ := session.state.node_mem _ there
  generalize made : ({ node with
    answerText := some (intervention.answered answer).renderAnswer
    status := .ready } : NodeState) = ready
  have same : ready.id = node.id ∧ ready.status = .ready ∧ ready.derived = node.derived ∧
      ready.assistRequestedBy = node.assistRequestedBy := by
    rw [← made]
    exact ⟨rfl, rfl, rfl, rfl⟩
  obtain ⟨sameId, goesOn, derived, requested⟩ := same
  -- whoever still waits for input is another node
  have apart : ∀ nodeId, (session.state.setNode ready).status? nodeId = some .inputRequired →
      nodeId ≠ node.id ∧ session.state.status? nodeId = some .inputRequired := by
    intro nodeId found
    rw [status_setNode, sameId] at found
    split at found
    · rw [goesOn] at found
      cases found
    · rename_i other
      exact ⟨other, found⟩
  refine ⟨fun nodeId found => (apart nodeId found).2, ?_, ?_⟩
  · rintro nodeId found ⟨question, listed, asks, rfl⟩
    obtain ⟨inside, pending⟩ := mem_pending.mp listed
    refine ⟨question, mem_pending.mpr
      ⟨(Table.mem_insert _ _ _).mpr (Or.inr ⟨inside, ?_⟩), pending⟩, asks, rfl⟩
    intro hit
    obtain rfl := Table.row_unique _ inside member hit
    exact (apart question.nodeId found).1 named.symm
  · intro nodeId helper listed unended
    obtain ⟨inside, help, asked⟩ := mem_helpersOf.mp listed
    -- the node may be a helper itself: it goes on and has not ended
    by_cases own : helper.id = node.id
    · obtain rfl := Table.row_unique _ inside row own
      refine ⟨ready, mem_helpersOf.mpr ⟨(mem_setNode _ _ _).mpr (Or.inl rfl), ?_, ?_⟩, ?_⟩
      · rw [derived, help]
      · rw [requested, asked]
      · rw [goesOn]
        decide
    · exact ⟨helper, mem_helpersOf.mpr
        ⟨(mem_setNode _ _ _).mpr (Or.inr ⟨inside, sameId ▸ own⟩), help, asked⟩, unended⟩

/-- With no node at work, a confirmation is only expired. -/
theorem answerIntervention_carries (response : QuestionResponse) (idle : session.state.Idle) :
    Carries session.state (session.answerIntervention response).1.state := by
  have still : ∀ {nodeId target}, session.state.node? nodeId = some target →
      target.status ∉ activeNodeStatuses := by
    intro nodeId target there
    exact idle nodeId target.status (by simp [status?, there])
  have answers := session.answers response
  generalize session.answerIntervention response = result at answers ⊢
  cases answers with
  | ignored => exact .refl _
  | @stale intervention awaited _ settled =>
      refine carries_set (Table.mem_of_find? awaited.found) rfl fun asks found => ?_
      obtain ⟨target, there, status⟩ := Option.map_eq_some_iff.mp found
      exact settled asks target there status
  | declined _ _ there active => exact absurd active (still there)
  | canceled _ _ there active => exact absurd active (still there)
  | continued awaited _ there => exact continued_carries (Table.mem_of_find? awaited.found) there

theorem answerAll_carries (responses : List QuestionResponse) (idle : session.state.Idle) :
    Carries session.state (session.answerAll responses).1.state := by
  induction responses generalizing session with
  | nil => exact .refl _
  | cons response rest ih =>
      have calm := Idle.enters idle (answerIntervention_enters session response) (by decide)
      exact (answerIntervention_carries response idle).trans (ih calm)

theorem recoverSession_carries (idle : session.state.Idle) :
    Carries session.state session.recoverSession.state := by
  have still : session.state.normalizeInterventions.recoverNodes =
      session.state.normalizeInterventions := by
    unfold recoverNodes
    rw [Table.map_unchanged]
    intro node member
    rw [if_neg]
    exact idle node.id node.status (session.state.status_of_mem member)
  have normalized : Carries session.state session.state.normalizeInterventions :=
    expireWhere_carries _
  show Carries session.state session.state.normalizeInterventions.recoverNodes
  rw [still]
  exact normalized

/-- A follow-up takes the id of no helper. -/
theorem spawnFollowup_carries (config : ExecutorConfig) (env : Env) (lineage : Lineage session.state)
    (text : String) (anchor : NodeState) (deps : List String) :
    Carries session.state (spawnFollowupNode config env session text anchor deps).state := by
  unfold spawnFollowupNode
  simp only [spawnDerivedNode]
  split
  · exact .refl _
  · refine ⟨?_, fun nodeId _ => id, ?_⟩
    · intro nodeId found
      have status := found
      erw [status_setNode] at status
      split at status
      · cases status
      · exact status
    · intro nodeId helper listed unended
      obtain ⟨inside, help, asked⟩ := mem_helpersOf.mp listed
      obtain ⟨_, kind, number, assists, named⟩ := lineage helper inside nodeId asked
      refine ⟨helper, mem_helpersOf.mpr ⟨(mem_setNode _ _ _).mpr (Or.inr ⟨inside, ?_⟩), help,
        asked⟩, unended⟩
      intro hit
      exact assists (derivedId_kind (named.symm.trans hit))

end Calm

end Session

namespace Runtime

/-- What keeps the run from waiting for nobody: where the dispatch block finds
nothing to do, a confirmation pending for a node that needs input leaves it a
helper that has not ended, and `plan_flow` waits for no helper that could run. -/
def Heeds (config : ExecutorConfig) (runtime : Runtime) : Event → Prop
  | .dispatch => runtime.nodeTasks = [] → runtime.settleTasks = [] →
      ∀ node ∈ (runtime.session.state.retryFailed config).inputRequiredNodes,
        runtime.session.state.Pends .confirmCancel node.id →
          (runtime.session.state.retryFailed config).hasActiveHelper node.id = true
  | .flow _ _ => runtime.session.state.nodes.rows.any (·.canRetry config.maxNodeAttempts) = false →
      runtime.session.state.HelpersWait
  | _ => True

instance (config : ExecutorConfig) (runtime : Runtime) :
    (event : Event) → Decidable (runtime.Heeds config event)
  | .dispatch => inferInstanceAs (Decidable (_ → _ → ∀ node ∈ _, _ → _))
  | .flow _ _ => inferInstanceAs (Decidable (_ → _))
  | .message _ _ _ | .clearWake | .collect | .start _ | .chunk _ _ _ | .outcome _ _ _ _ | .close _
  | .inspect _ | .resolve _ | .act _ _ _ | .cancel | .reload => .isTrue trivial

/-- What the dispatch block leaves for `plan_flow`. -/
def FlowCovered (runtime : Runtime) : Prop :=
  runtime.runner = .flow → runtime.settleTasks = [] ∧ Covered runtime.session.state

structure WaitInv (config : ExecutorConfig) (runtime : Runtime) : Prop where
  owned : OwnedInv config (fun _ => True) runtime
  lineage : Lineage runtime.session.state
  covered : runtime.FlowCovered

section Invariant

variable {config : ExecutorConfig} {runtime next : Runtime}

/-! ### The dispatch block -/

/-- The block goes on to `plan_flow` only if it has started nothing. -/
theorem dispatch_at_flow (atFlow : (runtime.dispatch config).runner = .flow) :
    runtime.nodeTasks = [] ∧ runtime.settleTasks = [] ∧
      runtime.unsettled (runtime.session.state.retryFailed config) = [] ∧
      (runtime.dispatch config).settleTasks = [] ∧
      (runtime.dispatch config).session.state = runtime.session.state.retryFailed config := by
  have nothing : runtime.nodeTasks ++ spawnTasks (runtime.nextTask + (spawnSettleTasks
        runtime.nextTask (runtime.unsettled (runtime.session.state.retryFailed config))).length)
        (runtime.nextUp config) = [] ∧
      runtime.settleTasks ++ spawnSettleTasks runtime.nextTask
        (runtime.unsettled (runtime.session.state.retryFailed config)) = [] := by
    by_contra some_task
    simp only [dispatch, if_neg some_task] at atFlow
    cases atFlow
  obtain ⟨unexecuted, started⟩ := List.append_eq_nil_iff.mp nothing.1
  obtain ⟨unsettling, settling⟩ := List.append_eq_nil_iff.mp nothing.2
  have batch : runtime.nextUp config = [] := by
    cases batch : runtime.nextUp config with
    | nil => rfl
    | cons node rest => simp [batch, spawnTasks] at started
  have settled : runtime.unsettled (runtime.session.state.retryFailed config) = [] := by
    cases left : runtime.unsettled (runtime.session.state.retryFailed config) with
    | nil => rfl
    | cons node rest => simp [left, spawnSettleTasks] at settling
  exact ⟨unexecuted, unsettling, settled, nothing.2, by simp [dispatch, batch, moveNodes_nil]⟩

/-- Where nothing is executed, an active helper is one that has not ended. -/
theorem helped_of_active {state : OrchestrationState} {nodeId : String} (idle : state.Idle)
    (active : state.hasActiveHelper nodeId = true) :
    ∃ helper ∈ state.helpersOf nodeId, helper.status ∈ openStatuses := by
  obtain ⟨helper, listed, found⟩ := List.any_eq_true.mp active
  have status := of_decide_eq_true found
  rw [List.append_assoc] at status
  refine ⟨helper, listed, (List.mem_append.mp status).resolve_left ?_⟩
  exact idle helper.id helper.status (state.status_of_mem (mem_helpersOf.mp listed).1)

/-- Where the block starts nothing, it has left each node that needs input to a
question or to a helper. -/
theorem dispatch_flow_covered (inv : WaitInv config runtime) (heeds : runtime.Heeds config .dispatch) :
    (runtime.dispatch config).FlowCovered := by
  intro atFlow
  obtain ⟨unexecuted, unsettling, settled, none, same⟩ := dispatch_at_flow atFlow
  refine ⟨none, ?_⟩
  rw [same]
  have idle : (runtime.session.state.retryFailed config).Idle :=
    Session.Idle.enters (fun nodeId => inv.owned.idle unexecuted nodeId trivial)
      (retryFailed_enters config runtime.session.state) (by decide)
  intro nodeId found
  obtain ⟨node, row, rfl, needs⟩ := OrchestrationState.status_eq_some _ nodeId found
  have waits := mem_inputRequired.mpr ⟨row, needs⟩
  by_cases active : (runtime.session.state.retryFailed config).hasActiveHelper node.id = true
  · exact Or.inr (helped_of_active idle active)
  · -- the node has not been given a settlement, so something is pending for it
    have pending : runtime.session.state.pendingInterventionFor node.id ≠ .none := by
      intro free
      have listed : node ∈ runtime.unsettled (runtime.session.state.retryFailed config) := by
        refine List.mem_filter.mpr ⟨waits, ?_⟩
        have free : (runtime.session.state.retryFailed config).pendingInterventionFor node.id =
          .none := free
        simp [unsettling, free, active]
      rw [settled] at listed
      cases listed
    obtain ⟨intervention, there⟩ := Option.ne_none_iff_exists'.mp pending
    have about := List.find?_some there
    simp only [decide_eq_true_eq] at about
    have listed := mem_pending.mpr ⟨List.mem_of_find?_eq_some there, about.2⟩
    cases kind : intervention.kind with
    | question => exact Or.inl ⟨intervention, listed, kind, about.1⟩
    | confirmCancel =>
        have confirmed : runtime.session.state.Pends .confirmCancel node.id :=
          ⟨intervention, listed, kind, about.1⟩
        exact absurd (heeds unexecuted unsettling node waits confirmed) active

/-! ### Messages -/

/-- Where the loop is at `plan_flow` already, the change carries the questions. -/
theorem FlowCovered.finish (held : runtime.FlowCovered) {session : Session}
    (carries : runtime.runner = .flow → Carries runtime.session.state session.state)
    (wake needsRunner : Bool) :
    (Runtime.finish { runtime with session, wake } needsRunner).FlowCovered := by
  have same : (Runtime.finish { runtime with session, wake } needsRunner).settleTasks =
      runtime.settleTasks := by
    unfold Runtime.finish startRunner
    split
    · split <;> rfl
    · rfl
  have began : (Runtime.finish { runtime with session, wake } needsRunner).runner = .flow →
      runtime.runner = .flow := by
    unfold Runtime.finish startRunner
    split
    · split
      · exact id
      · exact nofun
    · exact id
  intro atFlow
  obtain ⟨none, covered⟩ := held (began atFlow)
  rw [same, finish_session]
  exact ⟨none, covered.carry (carries (began atFlow))⟩

theorem planAndLaunch_flow_covered (held : runtime.FlowCovered) (env : Env)
    (drafts : List (Option (List PlanNodeDraft))) (mentions : List String) :
    (runtime.planAndLaunch config env drafts mentions).evicted = true ∨
      (runtime.planAndLaunch config env drafts mentions).FlowCovered := by
  refine (planAndLaunch_begins runtime config env drafts mentions).imp_right fun begins => ?_
  have kept : (runtime.planAndLaunch config env drafts mentions).runner = .flow →
      runtime.settleTasks = [] →
        (runtime.planAndLaunch config env drafts mentions).settleTasks = [] := by
    simp only [planAndLaunch]
    split
    · intro exits
      cases exits
    · intro exits
      cases exits
    · intro _ none
      unfold startRunner
      split <;> simp [startNewPlan, none]
  have began : (runtime.planAndLaunch config env drafts mentions).runner = .flow →
      runtime.runner = .flow := by
    simp only [planAndLaunch]
    split
    · intro exits
      cases exits
    · intro exits
      cases exits
    · unfold startRunner
      split
      · exact id
      · intro exits
        cases exits
  intro atFlow
  refine ⟨kept atFlow (held (began atFlow)).1, fun nodeId found => ?_⟩
  cases begins nodeId .inputRequired found

theorem handle_flow_covered (inv : WaitInv config runtime) (env : Env) (inbound : Inbound)
    (drafts : List (Option (List PlanNodeDraft))) {handler : Handler}
    (apt : Apt runtime.session.state handler) :
    (runtime.handle config env inbound drafts handler).evicted = true ∨
      (runtime.handle config env inbound drafts handler).FlowCovered := by
  have idle : runtime.runner = .flow → runtime.session.state.Idle := fun atFlow nodeId =>
    inv.owned.idle (inv.owned.unexecuted atFlow) nodeId trivial
  cases handler with
  | reject => exact Or.inr inv.covered
  | complete => exact Or.inl rfl
  | planAndLaunch => exact planAndLaunch_flow_covered inv.covered env drafts _
  | newPlan =>
      rcases planAndLaunch_flow_covered inv.covered env drafts [] with evicted | launched
      · left
        simp only [handle]
        unfold Runtime.finish startRunner
        split
        · split <;> exact evicted
        · exact evicted
      · exact Or.inr (launched.finish (fun _ => .refl _) _ _)
  | recover =>
      exact Or.inr (inv.covered.finish (fun atFlow => Session.recoverSession_carries (idle atFlow))
        runtime.wake true)
  | reemitQuestions =>
      exact Or.inr (inv.covered.finish (fun _ => Session.emitPendingQuestions_carries)
        runtime.wake false)
  | answers responses =>
      right
      have answered := fun atFlow => Session.answerAll_carries responses (idle atFlow)
      simp only [handle]
      split
      · exact inv.covered.finish
          (fun atFlow => (answered atFlow).trans Session.emitPendingQuestions_carries) true true
      · exact inv.covered.finish answered runtime.wake false
  | noop => exact Or.inr (inv.covered.finish (fun _ => .refl _) runtime.wake _)
  | enqueue target quoteId =>
      let state := runtime.session.state.enqueue target.id inbound.request quoteId env.now
      let session := { runtime.session with state }.persist
      have queued : Carries runtime.session.state session.state := .congr rfl fun _ _ => id
      exact Or.inr (inv.covered.finish (fun _ => queued) runtime.wake _)
  | spawnFollowup target =>
      exact Or.inr (inv.covered.finish
        (fun _ => Session.spawnFollowup_carries config env inv.lineage _ _ _) runtime.wake _)
  | interrupt target =>
      -- nothing is at work at `plan_flow`
      have active : runtime.runner ≠ .flow := fun atFlow =>
        idle atFlow target.id target.status (runtime.session.state.status_of_mem apt.1) apt.2
      exact Or.inr (inv.covered.finish (fun atFlow => absurd atFlow active) runtime.wake _)

/-! ### Steps of a session -/

/-- Neither executions nor settlements are under way at `plan_flow`. -/
theorem covered_of_tasks (inv : WaitInv config runtime)
    (busy : runtime.nodeTasks ≠ [] ∨ runtime.settleTasks ≠ [])
    (same : next.runner = runtime.runner) : next.FlowCovered := by
  intro atFlow
  have began := same.symm.trans atFlow
  rcases busy with executed | settling
  · exact absurd (inv.owned.unexecuted began) executed
  · exact absurd (inv.covered began).1 settling

theorem settling_of_task {taskId : Nat} {task : SettleTask}
    (found : runtime.settleTask? taskId = some task) : runtime.settleTasks ≠ [] :=
  List.ne_nil_of_mem (List.mem_of_find?_eq_some found)

theorem flow_runner (env : Env) (decision : Option PlanPatch) :
    (runtime.flow config env decision).runner ≠ .flow := by
  unfold flow
  dsimp only
  split <;> exact nofun

theorem inner_flow_covered {event : Event} (inv : WaitInv config runtime) (isInner : event.inner = true)
    (heeds : runtime.Heeds config event) (stepped : runtime.advance config event = some next) :
    next.FlowCovered := by
  cases advances stepped with
  | message | reload => cases isInner
  | clearWake =>
      intro exits
      cases exits
  | dispatch => exact dispatch_flow_covered inv heeds
  | collect =>
      intro exits
      cases exits
  | flow env decision => exact fun atFlow => absurd atFlow (flow_runner env decision)
  | start task found => exact covered_of_tasks inv (Or.inl (List.ne_nil_of_mem (task_found found).1)) rfl
  | chunk a2aTaskId submitted task found =>
      exact covered_of_tasks inv (Or.inl (List.ne_nil_of_mem (task_found found).1)) rfl
  | outcome env remote answered task found =>
      exact covered_of_tasks inv (Or.inl (List.ne_nil_of_mem (task_found found).1)) rfl
  | close task found => exact covered_of_tasks inv (Or.inl (List.ne_nil_of_mem (task_found found).1)) rfl
  | inspect task phase found => exact covered_of_tasks inv (Or.inr (settling_of_task found)) rfl
  | resolve task helper found => exact covered_of_tasks inv (Or.inr (settling_of_task found)) rfl
  | act env decision task found => exact covered_of_tasks inv (Or.inr (settling_of_task found)) rfl
  | cancel =>
      intro exits
      cases exits

/-- What a session in memory is, behind a step. -/
theorem inner_waits {event : Event} (inv : WaitInv config runtime)
    (stored : Lineage runtime.session.saved) (isInner : event.inner = true)
    (heeds : runtime.Heeds config event) (stepped : runtime.step config event = some next) :
    (next.evicted = true ∨ WaitInv config next) ∧ Lineage next.session.saved := by
  have lineage := inner_kept Edit.lineage isInner ⟨inv.lineage, stored⟩ stepped
  have covered := inner_flow_covered inv isInner heeds (step_inner isInner stepped).2
  exact ⟨(inner_owned inv.owned isInner stepped).imp_right fun owned =>
    ⟨owned, lineage.1, covered⟩, lineage.2⟩

theorem message_waits {inbound : Inbound} {env : Env}
    {drafts : List (Option (List PlanNodeDraft))} (inv : WaitInv config runtime)
    (stored : Lineage runtime.session.saved)
    (stepped : runtime.step config (.message inbound env drafts) = some next) :
    (next.evicted = true ∨ WaitInv config next) ∧ Lineage next.session.saved := by
  have lineage := message_kept Edit.lineage
    (fun _ nodes state _ planned => planned_lineage planned) ⟨inv.lineage, stored⟩ stepped
  have owned := message_owned inv.owned stepped
  refine ⟨?_, lineage.2⟩
  rw [step_message stepped] at owned lineage ⊢
  rcases handle_flow_covered inv env inbound drafts (runtime.classify_apt inbound) with
    evicted | covered
  · exact Or.inl evicted
  · exact owned.imp_right fun owned => ⟨owned, lineage.1, covered⟩

/-- The recovery starts a loop at its head. -/
theorem recover_waits {saved : OrchestrationState} {inbound : Inbound} {env : Env}
    {drafts : List (Option (List PlanNodeDraft))} (stored : Lineage saved)
    (restarts : inbound.recover = true)
    (stepped : (loaded saved).step config (.message inbound env drafts) = some next) :
    WaitInv config next ∧ Lineage next.session.saved := by
  have lineage := message_kept Edit.lineage
    (fun _ nodes state _ planned => planned_lineage planned) ⟨stored.restored, stored⟩ stepped
  refine ⟨⟨recover_owned restarts stepped, lineage.1, ?_⟩, lineage.2⟩
  rw [step_message stepped, classify, if_pos restarts]
  intro exits
  cases exits

theorem loaded_waits {saved : OrchestrationState} (stored : Lineage saved)
    (idle : saved.activeNodes = []) : WaitInv config (loaded saved) :=
  ⟨loaded_owned idle, stored.restored, nofun⟩

/-! ### The exit of the loop -/

/-- The loop exits with the session in memory only where some node needs input. -/
theorem flow_exits {env : Env} {decision : Option PlanPatch}
    (exits : (runtime.flow config env decision).runner = .exited)
    (stays : (runtime.flow config env decision).evicted = false) :
    runtime.session.state.nodes.rows.any (·.canRetry config.maxNodeAttempts) = false ∧
      runtime.session.state.inputRequiredNodes ≠ [] ∧
      (runtime.flow config env decision).session =
        runtime.session.persist.emitPendingQuestions := by
  unfold flow at exits stays ⊢
  cases outcome : (planFlow config env runtime.session runtime.busy decision).2 with
  | continued => simp [outcome] at exits
  | exitDone | exitFailed => simp [outcome] at stays
  | exitWait =>
      simp only [outcome]
      unfold planFlow at outcome ⊢
      dsimp only at outcome ⊢
      split at outcome
      · cases outcome
      · rename_i retried
        rw [if_neg retried]
        split at outcome
        · rename_i waits
          rw [if_pos waits]
          exact ⟨by simpa using retried, waits, rfl⟩
        · split at outcome
          · cases outcome
          · split at outcome
            · split at outcome
              · dsimp only at outcome
                split at outcome <;> cases outcome
              · cases outcome
            · split at outcome <;> cases outcome

theorem flow_waits {env : Env} {decision : Option PlanPatch} (inv : WaitInv config runtime)
    (atFlow : runtime.runner = .flow) (heeds : runtime.Heeds config (.flow env decision))
    (exits : (runtime.flow config env decision).runner = .exited)
    (stays : (runtime.flow config env decision).evicted = false) :
    (runtime.flow config env decision).session.state.WaitsForHuman ∧
      (runtime.flow config env decision).session.state.inputRequiredNodes ≠ [] := by
  obtain ⟨unretried, waits, session⟩ := flow_exits exits stays
  have quiet : Quiet runtime.session.state (runtime.flow config env decision).session.state := by
    rw [session]
    exact emitPendingQuestions_quiet runtime.session.persist
  have carries : Carries runtime.session.state
      (runtime.flow config env decision).session.state := by
    rw [session]
    exact @Session.emitPendingQuestions_carries runtime.session.persist
  have covered := (inv.covered atFlow).2.carry carries
  refine ⟨covered.asked (inv.lineage.quiet quiet) ((heeds unretried).quiet quiet), ?_⟩
  obtain ⟨_, _, same⟩ := quiet
  rw [same]
  exact waits

/-! ### Answers -/

/-- The pending question of the node can be answered. -/
def Asks (runtime : Runtime) (question : Intervention) : Prop :=
  question ∈ runtime.session.state.pendingInterventions ∧ question.kind = .question ∧
    runtime.session.state.status? question.nodeId = some .inputRequired

/-- There is a question, and every valid answer to one makes its node ready, with
a loop to run it. -/
structure GoesOn (config : ExecutorConfig) (runtime : Runtime) : Prop where
  asks : ∃ question, runtime.Asks question
  answered : ∀ question answer inbound env drafts, runtime.Asks question →
    validateAnswer question answer = none → inbound.recover = false →
    inbound.responses = .ok [⟨question.id, answer⟩] →
      ∃ resumed, runtime.step config (.message inbound env drafts) = some resumed ∧
        resumed.alive = true ∧
          resumed.session.state.status? question.nodeId = some .ready

theorem startRunner_alive (runtime : Runtime) : runtime.startRunner.alive = true := by
  unfold startRunner
  split
  · assumption
  · simp [alive]

/-- A chain of nodes that need input ends in one that is asked about. -/
theorem asks_of_asked {nodeId : String} (asked : runtime.session.state.Asked nodeId)
    (waits : runtime.session.state.status? nodeId = some .inputRequired) :
    ∃ question, runtime.Asks question := by
  unfold Asked at asked
  induction asked with
  | here pends =>
      obtain ⟨question, member, kind, rfl⟩ := pends
      exact ⟨question, member, kind, waits⟩
  | onward taken _ ih =>
      obtain ⟨helper, listed, rfl, needs⟩ := taken
      exact ih (needs ▸ runtime.session.state.status_of_mem (mem_helpersOf.mp listed).1)

theorem answer_resolves {session : Session} {question : Intervention} {answer : Answer}
    (member : question ∈ session.state.pendingInterventions) (asks : question.kind = .question)
    (waits : session.state.status? question.nodeId = some .inputRequired)
    (valid : validateAnswer question answer = none) :
    (session.answerIntervention ⟨question.id, answer⟩).2 = true ∧
      (session.answerIntervention ⟨question.id, answer⟩).1.state.status? question.nodeId =
        some .ready := by
  obtain ⟨row, pending⟩ := mem_pending.mp member
  obtain ⟨node, there, needs⟩ := Option.map_eq_some_iff.mp waits
  have named := (session.state.node_mem _ there).2
  have found : session.state.interventions.find? question.id = some question :=
    Table.find?_of_mem _ row
  have known : session.state.node? question.nodeId = some node := there
  simp only [Session.answerIntervention, found, pending, valid, asks, Session.answerQuestion,
    known, needs, ne_eq, not_true, ↓reduceIte, true_and]
  exact (OrchestrationState.status_setNode _ _ _).trans (by simp [named])

theorem goes_on (present : runtime.evicted = false)
    (waits : runtime.session.state.WaitsForHuman)
    (some_node : runtime.session.state.inputRequiredNodes ≠ []) : runtime.GoesOn config where
  asks := by
    obtain ⟨node, member⟩ := List.exists_mem_of_ne_nil _ some_node
    obtain ⟨row, needs⟩ := mem_inputRequired.mp member
    exact asks_of_asked (waits node member) (needs ▸ runtime.session.state.status_of_mem row)
  answered := by
    rintro question answer inbound env drafts ⟨member, asks, needs⟩ valid classified responses
    obtain ⟨resolved, ready⟩ := answer_resolves member asks needs valid
    have handler : runtime.classify inbound = .answers [⟨question.id, answer⟩] := by
      simp [classify, classifyInbound, classified, responses]
    refine ⟨runtime.handle config env inbound drafts (.answers [⟨question.id, answer⟩]),
      by simp [step, present, advance, handler], ?_⟩
    simp only [handle, Session.answerAll, resolved, Bool.true_or, ↓reduceIte]
    refine ⟨startRunner_alive _, ?_⟩
    rw [startRunner_session]
    have quiet := emitPendingQuestions_quiet
      (runtime.session.answerIntervention ⟨question.id, answer⟩).1
    rw [status?, node?, quiet.nodes]
    exact ready

end Invariant

end Runtime

/-! ### Conversations -/

namespace Conversation

/-- No step opens an active node that nobody executes, or has the run wait for
nobody. -/
def Heeds (config : ExecutorConfig) (conversation : Conversation) (event : ConversationEvent) :
    Prop :=
  conversation.OpensIdle event ∧
    match event with
    | .session event _ => conversation.runtime.Heeds config event
    | _ => True

instance (config : ExecutorConfig) (conversation : Conversation) :
    (event : ConversationEvent) → Decidable (conversation.Heeds config event)
  | .session event _ =>
      inferInstanceAs (Decidable (_ ∧ conversation.runtime.Heeds config event))
  | .message _ _ _ _ _ | .raise | .crash | .rewind _ => inferInstanceAs (Decidable (_ ∧ True))

/-- Where `run_plan` has exited to wait, what it waits for can be answered, and an
answer lets the run go on. -/
def WaitsAfter (config : ExecutorConfig) (next : Conversation) : ConversationEvent → Prop
  | .session (.flow _ _) _ => next.runtime.runner = .exited → next.runtime.evicted = false →
      next.runtime.session.state.WaitsForHuman ∧ next.runtime.GoesOn config
  | _ => True

structure WaitSession (config : ExecutorConfig) (conversation : Conversation) : Prop where
  present : conversation.runtime.evicted = true ∨ Runtime.WaitInv config conversation.runtime
  stores : conversation.Stores Lineage

section Runs

variable {config : ExecutorConfig} {conversation next : Conversation}

theorem message_waits {human : Bool} {inbound : Inbound} {env : Env}
    {drafts : List (Option (List PlanNodeDraft))} {stored : Bool} {runtime : Runtime}
    (inv : WaitSession config conversation)
    (idle : conversation.OpensIdle (.message human inbound env drafts stored))
    (stepped : conversation.runtime.ensureSession.step config (.message inbound env drafts) =
      some runtime) :
    (runtime.evicted = true ∨ Runtime.WaitInv config runtime) ∧ Lineage runtime.session.saved := by
  unfold Runtime.ensureSession at stepped
  split at stepped
  · rename_i evicted
    cases restarts : inbound.recover with
    | true => exact (Runtime.recover_waits inv.stores.saved restarts stepped).imp_left Or.inr
    | false =>
        have loaded : Runtime.WaitInv config (.loaded conversation.runtime.session.saved) :=
          Runtime.loaded_waits inv.stores.saved (idle restarts evicted)
        exact Runtime.message_waits loaded inv.stores.saved stepped
  · rename_i inMemory
    exact Runtime.message_waits (inv.present.resolve_left inMemory) inv.stores.saved
      stepped

theorem step_waits (config : ExecutorConfig) (conversation : Conversation)
    (event : ConversationEvent) (next : Conversation) (inv : WaitSession config conversation)
    (heeds : conversation.Heeds config event)
    (stepped : conversation.step config event = some next) : WaitSession config next := by
  have stores := fun saved => inv.stores.step lineage_empty Lineage.restored
    (fun present => (inv.present.resolve_left (by simp [present])).lineage) saved stepped
  rcases step_cases stepped with
    ⟨human, inbound, env, drafts, stored, rfl, taken⟩ | ⟨inner, stored, rfl, isInner, taken⟩ |
      ⟨passive, evicted⟩
  · have behind := message_waits inv heeds.1 taken
    exact ⟨behind.1, stores fun _ => behind.2⟩
  · have inMemory := (Runtime.step_inner isInner taken).1
    have behind := Runtime.inner_waits (inv.present.resolve_left (by simp [inMemory]))
      inv.stores.saved isInner heeds.2 taken
    exact ⟨behind.1, stores fun _ => behind.2⟩
  · exact ⟨Or.inl evicted, stores fun steps => by simp [passive] at steps⟩

theorem step_asks {event : ConversationEvent} (inv : WaitSession config conversation)
    (heeds : conversation.Heeds config event)
    (stepped : conversation.step config event = some next) : next.WaitsAfter config event := by
  cases event with
  | session inner stored =>
      cases inner with
      | flow env decision =>
          intro exits stays
          simp only [step, Event.inner, ↓reduceIte] at stepped
          obtain ⟨runtime, taken, recorded⟩ := Option.bind_eq_some_iff.mp stepped
          obtain ⟨inMemory, flowed⟩ := Runtime.step_inner rfl taken
          have waiting := inv.present.resolve_left (by simp [inMemory])
          rw [record_runtime recorded] at exits stays ⊢
          obtain ⟨atFlow, ⟨⟩⟩ := Option.ite_none_right_eq_some.mp flowed
          obtain ⟨waits, some_node⟩ := Runtime.flow_waits waiting atFlow heeds.2 exits stays
          exact ⟨waits, Runtime.goes_on stays waits some_node⟩
      | _ => trivial
  | _ => trivial

end Runs

end Conversation

section Helped

/-! A node needs input and has another agent asked, which needs input in its
turn and is asked about. An answer that comes before `plan_flow` makes the helper
ready, and the loop exits all the same. -/

def helpEnv : Env := ⟨["writer", "editor"], "now", fun drawn => toString drawn⟩

def asksHelper : List ConversationEvent := [
  .message true { taskId := "t1", text := "write" } helpEnv
    [some [⟨"n1", "first", "writer", .empty, []⟩]] true,
  .session .clearWake false, .session .dispatch true, .session (.start 0) false,
  .session (.outcome 0 helpEnv { ended := .inputRequired } none) true, .session (.close 0) true,
  .session .collect false, .session .clearWake false, .session .dispatch false,
  .session (.inspect 1) false,
  .session (.act 1 helpEnv (some { targetAgent := some "editor", instruction := "help" })) true,
  .session .collect false, .session .clearWake false, .session .dispatch true,
  .session (.start 2) false,
  .session (.outcome 2 helpEnv { ended := .inputRequired } none) true, .session (.close 2) true,
  .session .collect false, .session .clearWake false, .session .dispatch false,
  .session (.inspect 3) false, .session (.act 3 helpEnv none) true,
  .session .collect false, .session .clearWake false, .session .dispatch false]

def exitFlow : ConversationEvent := .session (.flow helpEnv none) true

def answerHelper : ConversationEvent :=
  .message true { taskId := "t2", responses := .ok [⟨"0", .text "short"⟩] } helpEnv [] true

end Helped

end Choirworks.Orchestration
