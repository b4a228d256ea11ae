import Choirworks.Orchestration.Exit
import Choirworks.Orchestration.Ownership

/-!
What the contexts store knows. Most operations store the session behind their
last change or change nothing. The exceptions are an execution that raised, whose
failure is noted at its collection, the count of a revision, a retry, and the
operations whose follow-up is refused: their change is stored by whatever is
stored next, if anything is.
-/

namespace Choirworks.Orchestration

open OrchestrationState

namespace OrchestrationState

@[simp] theorem restored_restored (state : OrchestrationState) :
    state.restored.restored = state.restored := by
  have cut : ∀ node : NodeState, truncate (truncate node.output) = truncate node.output := by
    intro node
    cases node.output with
    | none => rfl
    | some text => simp [truncate, List.take_take]
  simp [restored, Table.map, cut]

end OrchestrationState

namespace Session

/-- The snapshot encodes the state: loading it changes nothing but long outputs. -/
def Durable (session : Session) : Prop := session.saved.restored = session.state.restored

instance (session : Session) : Decidable session.Durable := inferInstanceAs (Decidable (_ = _))

/-- The snapshot lacks at most the count of a revision. -/
def Counted (session : Session) : Prop :=
  ∃ count, session.state = { session.saved with revisionCount := count }

/-- The session is left alone, or stored. -/
def Stores (session next : Session) : Prop := next = session ∨ next.saved = next.state

section Stores

variable {session next last : Session}

theorem Stores.refl (session : Session) : Stores session session := Or.inl rfl

theorem Stores.trans (first : Stores session next) (second : Stores next last) :
    Stores session last := by
  rcases second with rfl | stored
  · exact first
  · exact Or.inr stored

theorem durable_of_stored (stored : session.saved = session.state) : session.Durable :=
  congrArg OrchestrationState.restored stored

theorem Stores.durable (stores : Stores session next) (durable : session.Durable) :
    next.Durable := by
  rcases stores with rfl | stored
  · exact durable
  · exact durable_of_stored stored

/-- A stored count makes the snapshot complete. -/
theorem Counted.durable (counted : session.Counted)
    (same : session.saved.revisionCount = session.state.revisionCount) : session.Durable := by
  obtain ⟨count, state⟩ := counted
  apply durable_of_stored
  rw [state] at same ⊢
  obtain rfl : session.saved.revisionCount = count := same
  rfl

theorem emitPendingQuestions_stores (session : Session) :
    Stores session session.emitPendingQuestions := by
  rcases emitPendingQuestions_cases session with same | ⟨state, _, stored⟩
  · exact Or.inl same
  · right
    rw [stored]

theorem answerIntervention_stores (session : Session) (response : QuestionResponse) :
    Stores session (session.answerIntervention response).1 := by
  have answers := session.answers response
  generalize session.answerIntervention response = result at answers ⊢
  cases answers with
  | ignored => exact .refl _
  | stale | declined | canceled | continued => exact Or.inr rfl

theorem answerAll_stores (session : Session) (responses : List QuestionResponse) :
    Stores session (session.answerAll responses).1 := by
  induction responses generalizing session with
  | nil => exact .refl _
  | cons response rest ih => exact (answerIntervention_stores session response).trans (ih _)

end Stores

end Session

open Session

section Operations

variable (config : ExecutorConfig) (env : Env) (session : Session) (ref : NodeRef)

theorem spawnDerivedNode_stores (spawn : Spawn) :
    Stores session (spawnDerivedNode config env session spawn).1 := by
  rcases spawnDerivedNode_cases config env session spawn with
    ⟨_, refused⟩ | ⟨state, _, _, spawned⟩
  · rw [refused]
    exact .refl _
  · right
    rw [spawned]

theorem spawnDerivedNode_stored (spawn : Spawn)
    (room : session.state.derivedCount < config.maxDerivedNodes) :
    (spawnDerivedNode config env session spawn).1.saved =
      (spawnDerivedNode config env session spawn).1.state := by
  rcases spawnDerivedNode_cases config env session spawn with
    ⟨exhausted, _⟩ | ⟨state, _, _, spawned⟩
  · exact absurd room (Nat.not_lt.mpr exhausted)
  · rw [spawned]

/-- The words of an interrupt are stored with the follow-up. -/
theorem interrupt_stored (target : NodeState) (text : String)
    (room : session.state.derivedCount < config.maxDerivedNodes) :
    (session.interrupt config env target text).saved =
      (session.interrupt config env target text).state :=
  spawnDerivedNode_stored config env _ _ room

theorem requestHuman_stores (node : NodeState) (decision : Option AssistanceResult) :
    Stores session (requestHuman env session ref node decision).session := by
  unfold requestHuman
  dsimp only
  split
  · exact .refl _
  · have asked : ∀ session : Session, session.persist.emitPendingQuestions.saved =
        session.persist.emitPendingQuestions.state := by
      intro session
      rcases emitPendingQuestions_stores session.persist with same | stored
      · rw [same]
        rfl
      · exact stored
    exact Or.inr (asked _)

theorem actOnDecision_stores (decision : Option AssistanceResult) :
    Stores session (actOnDecision config env session ref decision).session := by
  unfold actOnDecision
  split
  · exact .refl _
  · rename_i node _
    split
    · exact .refl _
    · dsimp only
      split
      · exact requestHuman_stores env session ref node decision
      · have called := callSubagent_cases config env session node.id
          ((decision.bind (·.targetAgent)).getD "") ((decision.map (·.instruction)).getD "")
        split
        · rename_i result
          rw [result] at called
          rcases called with same | ⟨spawn, _, _, spawned⟩
          · exact Or.inl same
          · dsimp only at spawned ⊢
            rw [spawned]
            exact spawnDerivedNode_stores config env session spawn
        · rename_i result
          rw [callSubagent_refused config env session result]
          exact requestHuman_stores env session ref node decision

/-- A node that may become ready takes the answer of its helper, which is stored. -/
theorem resolveFromHelper_stored (helper : NodeState)
    (admits : ∀ node ∈ session.read ref, node.canTransition .ready = true) :
    (resolveFromHelper session ref helper).session.saved =
      (resolveFromHelper session ref helper).session.state := by
  have quiet : (session.transition ref
      (fun node =>
        { node with
          answerText := helper.output
          answerFrom := some helper.agentName
          adoptedHelpers := node.adoptedHelpers ++ [helper.id] })
      .ready).raised = none := by
    unfold Session.transition
    split
    · rfl
    · rename_i node found
      have allowed := admits node found
      simp only [NodeState.canTransition, decide_eq_true_eq] at allowed
      simp [NodeState.applyTransition, NodeState.canTransition, allowed]
  unfold resolveFromHelper
  simp only [quiet]
  rfl

theorem closeNode_stored (nodeId : String) :
    (closeNode session nodeId).saved = (closeNode session nodeId).state := by
  unfold closeNode
  rcases emitPendingQuestions_stores
    { session with state := session.state.expireNodeInterventions nodeId }.persist with
    same | stored
  · rw [same]
    rfl
  · exact stored

/-- A revision is stored before it is counted. -/
theorem revisePlan_stored (patch : PlanPatch) :
    (revisePlan env session patch).1.saved = (revisePlan env session patch).1.state ∨
      ((revisePlan env session patch).1.Counted ∧
        (revisePlan env session patch).2.changed = true) := by
  obtain ⟨state, _, stored⟩ := applyPatchLocked_cases env session patch
  unfold revisePlan
  dsimp only
  rw [stored]
  split
  · rename_i changed
    exact Or.inr ⟨⟨_, rfl⟩, changed⟩
  · exact Or.inl rfl

theorem repairPlan_stored (decision : Option PlanPatch) :
    Stores session (repairPlan env session decision).1 ∨
      ((repairPlan env session decision).1.Counted ∧
        (repairPlan env session decision).2 = true) := by
  unfold repairPlan
  split
  · exact Or.inl (.refl _)
  · exact Or.inl (.refl _)
  · exact (revisePlan_stored env session _).imp_left Or.inr

/-- Only a repair leaves something out: its own count. -/
theorem planFlow_stores (busy : Bool) (decision : Option PlanPatch) :
    Stores session (planFlow config env session busy decision).1 ∨
      ((planFlow config env session busy decision).1.Counted ∧
        (planFlow config env session busy decision).2 = .continued) := by
  unfold planFlow
  dsimp only
  split
  · exact Or.inl (.refl _)
  · split
    · left
      exact Stores.trans (Or.inr rfl) (emitPendingQuestions_stores session.persist)
    · split
      · exact Or.inl (.refl _)
      · split
        · split
          · rcases repairPlan_stored env session decision with stores | ⟨counted, changed⟩
            · exact Or.inl stores
            · exact Or.inr ⟨counted, if_pos changed⟩
          · exact Or.inl (.refl _)
        · split <;> exact Or.inl (.refl _)

end Operations

/-! ### The invariant -/

namespace Runtime

/-- No execution runs, and none has raised. -/
def Settled (runtime : Runtime) : Prop := ∀ task ∈ runtime.nodeTasks, task.phase = .done none

instance (runtime : Runtime) : Decidable runtime.Settled :=
  inferInstanceAs (Decidable (∀ task ∈ runtime.nodeTasks, _))

/-- Between a repair and the next dispatch block its count may be missing. -/
structure DurableInv (runtime : Runtime) : Prop where
  settled : runtime.Settled → runtime.session.Durable ∨
    (runtime.session.Counted ∧ runtime.runner ∈ [.head, .locking])
  live : runtime.nodeTasks ≠ [] → runtime.runner ∈ waitingRunners

def revisionSaved (runtime : Runtime) : Prop :=
  runtime.session.saved.revisionCount = runtime.session.state.revisionCount

instance (runtime : Runtime) : Decidable runtime.revisionSaved := inferInstanceAs (Decidable (_ = _))

section Invariant

variable {config : ExecutorConfig} {runtime next : Runtime}

theorem Settled.still (settled : runtime.Settled) : runtime.inFlight = [] := by
  apply List.filter_eq_nil_iff.mpr
  intro task member
  simp [NodeTask.done, settled task member]

theorem settled_of_idle (none : runtime.nodeTasks = []) : runtime.Settled := by
  simp [Settled, none]

theorem DurableInv.durable (inv : DurableInv runtime) (settled : runtime.Settled)
    (counted : runtime.revisionSaved) : runtime.session.Durable :=
  (inv.settled settled).elim id fun ahead => ahead.1.durable counted

theorem DurableInv.of_durable (live : next.nodeTasks ≠ [] → next.runner ∈ waitingRunners)
    (durable : next.Settled → next.session.Durable) : DurableInv next :=
  ⟨fun settled => Or.inl (durable settled), live⟩

theorem DurableInv.of_stored (live : next.nodeTasks ≠ [] → next.runner ∈ waitingRunners)
    (stored : next.session.saved = next.session.state) : DurableInv next :=
  .of_durable live fun _ => durable_of_stored stored

theorem loaded_durable (saved : OrchestrationState) : (loaded saved).session.Durable :=
  (restored_restored saved).symm

theorem loaded_durableInv (saved : OrchestrationState) : DurableInv (loaded saved) :=
  .of_durable (fun some_task => absurd rfl some_task) fun _ => loaded_durable saved

/-! ### Executions and settlements -/

theorem setTask_live (inv : DurableInv runtime) (task : NodeTask) (handled : Handled)
    (phase : TaskPhase) : (runtime.setTask task handled phase).nodeTasks ≠ [] →
      (runtime.setTask task handled phase).runner ∈ waitingRunners := by
  intro some_task
  apply inv.live
  intro none
  simp [setTask, none] at some_task

/-- An execution that goes on, or has raised, leaves the executions unsettled. -/
theorem setTask_unsettled {task : NodeTask} (member : task ∈ runtime.nodeTasks) (handled : Handled)
    {phase : TaskPhase} (open_phase : phase ≠ .done none) :
    ¬ (runtime.setTask task handled phase).Settled := by
  intro settled
  exact open_phase (settled { task with ref := handled.ref, phase }
    (List.mem_map.mpr ⟨task, member, by simp⟩))

theorem task_durable (inv : DurableInv runtime) {task : NodeTask}
    (member : task ∈ runtime.nodeTasks) (handled : Handled) {phase : TaskPhase}
    (open_phase : phase ≠ .done none) : DurableInv (runtime.setTask task handled phase) :=
  .of_durable (setTask_live inv task handled phase) fun settled =>
    absurd settled (setTask_unsettled member handled open_phase)

theorem finishPart_durable (inv : DurableInv runtime) {task : NodeTask}
    (member : task ∈ runtime.nodeTasks) (handled : Handled) {phase : TaskPhase}
    (open_phase : phase ≠ .done none) : DurableInv (runtime.finishPart task handled phase) := by
  apply task_durable inv member handled
  split
  · simp
  · exact open_phase

/-- A settlement leaves executions and loop alone. -/
theorem DurableInv.settle (inv : DurableInv runtime) (task : SettleTask) {session : Session}
    (ref : NodeRef) (phase : SettlePhase)
    (stores : runtime.Settled → Stores runtime.session session) :
    DurableInv (runtime.setSettleTask task session ref phase) where
  settled := by
    intro settled
    rcases stores settled with same | stored
    · subst same
      exact inv.settled settled
    · exact Or.inl (durable_of_stored stored)
  live := inv.live

/-! ### The loop -/

theorem retryFailed_unchanged {state : OrchestrationState} (ended : ¬ Retryable config state) :
    state.retryFailed config = state := by
  have rows : (state.retryFailed config).nodes = state.nodes := by
    refine Table.map_unchanged _ _ (fun node => by split <;> rfl) fun node member => ?_
    rw [if_neg]
    intro retry
    exact ended (List.any_eq_true.mpr ⟨node, member, retry⟩)
  exact congrArg (fun nodes => { state with nodes }) rows

/-- Without a node to retry or to start the block leaves the session alone. -/
theorem dispatch_unchanged (ended : ¬ Retryable config runtime.session.state)
    (nothing : runtime.nextUp config = []) :
    (runtime.dispatch config).session = runtime.session := by
  simp [dispatch, nothing, retryFailed_unchanged ended, moveNodes_nil]

theorem dispatch_durable (inv : DurableInv runtime)
    (starts : runtime.Settled →
      Retryable config runtime.session.state ∨ ¬ runtime.revisionSaved →
        runtime.nextUp config ≠ []) : DurableInv (runtime.dispatch config) := by
  have live : (runtime.dispatch config).nodeTasks ≠ [] →
      (runtime.dispatch config).runner ∈ waitingRunners := by
    intro some_task
    have busy : (runtime.dispatch config).runner = .waiting := by
      simp only [dispatch] at some_task ⊢
      rw [if_neg fun none => some_task none.1]
    rw [busy]
    decide
  refine .of_durable live fun settled => ?_
  have before : runtime.Settled := fun task member => settled task (List.mem_append_left _ member)
  have nothing : runtime.nextUp config = [] := by
    by_contra some_node
    obtain ⟨node, member⟩ := List.exists_mem_of_ne_nil _ some_node
    obtain ⟨task, inside, _, created⟩ := spawnTasks_owner
      (runtime.nextTask + (spawnSettleTasks runtime.nextTask
        (runtime.unsettled (runtime.session.state.retryFailed config))).length) member
    have isDone := settled task (List.mem_append_right _ inside)
    rw [created] at isDone
    cases isDone
  have quiet := mt (starts before) (not_not.mpr nothing)
  rw [not_or, not_not] at quiet
  rw [dispatch_unchanged quiet.1 nothing]
  exact inv.durable before quiet.2

theorem collect_unchanged (tasks : List NodeTask) (session : Session)
    (returned : ∀ task ∈ tasks, task.phase = .done none) :
    tasks.foldl collectTask session = session := by
  induction tasks with
  | nil => rfl
  | cons task rest ih =>
      have isDone := returned task List.mem_cons_self
      have alone : collectTask session task = session := by simp [collectTask, isDone]
      rw [List.foldl_cons, alone]
      exact ih fun other member => returned other (List.mem_cons_of_mem _ member)

theorem collect_durable (inv : DurableInv runtime) (waiting : runtime.runner = .waiting)
    (returned : runtime.inFlight = [] → runtime.Settled) : DurableInv runtime.collect := by
  refine .of_durable (fun _ => List.mem_cons_self) fun settled => ?_
  have still : runtime.inFlight = [] := by
    by_contra some_task
    obtain ⟨task, member⟩ := List.exists_mem_of_ne_nil _ some_task
    have isDone := settled task member
    have running := (List.mem_filter.mp member).2
    simp [NodeTask.done, isDone] at running
  have before := returned still
  have durable : runtime.session.Durable := by
    rcases inv.settled before with durable | ⟨_, apart⟩
    · exact durable
    · simp [waiting] at apart
  have same := collect_unchanged (runtime.nodeTasks.filter (·.done)) runtime.session
    fun task member => before task (List.mem_filter.mp member).1
  have collected : runtime.collect.session = runtime.session := same
  rw [collected]
  exact durable

/-- `plan_flow` starts from a stored session, so every exit leaves a stored one. -/
theorem flow_durable (inv : DurableInv runtime) (atFlow : runtime.runner = .flow) (env : Env)
    (decision : Option PlanPatch) :
    DurableInv (runtime.flow config env decision) ∧
      ((runtime.flow config env decision).runner = .exited →
        (runtime.flow config env decision).session.Durable) := by
  have none : runtime.nodeTasks = [] := by
    by_contra some_task
    have waits := inv.live some_task
    simp [atFlow, waitingRunners] at waits
  have durable : runtime.session.Durable := by
    rcases inv.settled (settled_of_idle none) with durable | ⟨_, apart⟩
    · exact durable
    · simp [atFlow] at apart
  have stores := planFlow_stores config env runtime.session runtime.busy decision
  unfold flow
  dsimp only
  split
  · refine ⟨⟨fun _ => ?_, fun some_task => absurd none some_task⟩, fun exits => by cases exits⟩
    rcases stores with stores | ⟨counted, _⟩
    · exact Or.inl (stores.durable durable)
    · exact Or.inr ⟨counted, List.mem_cons_self⟩
  all_goals
    rename_i outcome
    have ended := (stores.resolve_right fun counted => by
      rw [outcome] at counted
      cases counted.2).durable durable
    exact ⟨.of_durable (fun some_task => absurd rfl some_task) fun _ => ended, fun _ => ended⟩

/-! ### Messages -/

/-- A stored change, or one of a session that is complete. -/
theorem DurableInv.finish (inv : DurableInv runtime) {session : Session}
    (durable : runtime.inFlight = [] → session.Durable) (wake needsRunner : Bool) :
    DurableInv (Runtime.finish { runtime with session, wake } needsRunner) ∧
      ((Runtime.finish { runtime with session, wake } needsRunner).inFlight = [] →
        (Runtime.finish { runtime with session, wake } needsRunner).session.Durable) := by
  have tasks : (Runtime.finish { runtime with session, wake } needsRunner).nodeTasks =
      runtime.nodeTasks := by
    unfold Runtime.finish startRunner
    split
    · split <;> rfl
    · rfl
  have kept : (Runtime.finish { runtime with session, wake } needsRunner).inFlight = [] →
      (Runtime.finish { runtime with session, wake } needsRunner).session.Durable := by
    intro still
    rw [finish_session]
    exact durable (by rwa [inFlight, tasks] at still)
  refine ⟨.of_durable ?_ fun settled => kept settled.still, kept⟩
  rw [tasks]
  exact fun some_task => finish_waiting { runtime with session, wake } needsRunner
    (inv.live some_task)

/-- A new plan is stored, as is that there is none. -/
theorem planAndLaunch_durable (config : ExecutorConfig) (inv : DurableInv runtime) (env : Env)
    (drafts : List (Option (List PlanNodeDraft))) (mentions : List String) :
    DurableInv (runtime.planAndLaunch config env drafts mentions) ∧
      (runtime.planAndLaunch config env drafts mentions).session.Durable := by
  simp only [planAndLaunch]
  split
  · exact ⟨.of_stored (fun some_task => absurd rfl some_task) rfl, rfl⟩
  · exact ⟨.of_stored (fun some_task => absurd rfl some_task) rfl, rfl⟩
  · have stored : ∀ runtime : Runtime, runtime.session.saved = runtime.session.state →
        runtime.startRunner.session.saved = runtime.startRunner.session.state := by
      intro runtime stored
      rwa [startRunner_session]
    refine ⟨.of_stored (fun some_task => ?_) (stored _ rfl), durable_of_stored (stored _ rfl)⟩
    apply startRunner_waiting
    apply inv.live
    intro none
    apply some_task
    unfold startRunner
    split <;> simp [startNewPlan, none]

/-- Only a session without a loop is completed. -/
theorem complete_idle (inv : DurableInv runtime) {inbound : Inbound}
    (classified : runtime.classify inbound = .complete) : runtime.inFlight = [] := by
  have room := runtime.classifyRoom_inRoom inbound
  have asleep : runtime.alive ≠ true := by
    intro alive
    unfold classify classifyInbound at classified
    split at classified
    · cases classified
    · split at classified
      · cases classified
      · cases classified
      · split at classified
        · cases classified
        · rw [classified] at room
          cases room
  have none : runtime.nodeTasks = [] := by
    by_contra some_task
    exact asleep (alive_of_waiting (inv.live some_task))
  simp [inFlight, none]

end Invariant

end Runtime

/-! ### The conditions of the steps -/

def Handler.interrupts : Handler → Bool
  | .interrupt _ => true
  | _ => false

namespace Runtime

/-- What keeps unsaved changes away from the exits. A message that comes while
nothing is executed finds no execution that raised and no uncounted revision,
and an interrupt finds room for its follow-up. The last executions that are
collected have not raised. A dispatch block that retries a node, or comes behind
a repair, starts one. A helper's answer is taken by a node that may be ready. -/
def Saving (config : ExecutorConfig) (runtime : Runtime) : Event → Prop
  | .message inbound _ _ => runtime.inFlight = [] → runtime.Settled ∧ runtime.revisionSaved ∧
      ((runtime.classify inbound).interrupts = true →
        runtime.session.state.derivedCount < config.maxDerivedNodes)
  | .collect => runtime.inFlight = [] → runtime.Settled
  | .dispatch => runtime.Settled →
      Retryable config runtime.session.state ∨ ¬ runtime.revisionSaved →
        runtime.nextUp config ≠ []
  | .resolve taskId => runtime.Settled → ∀ task ∈ runtime.settleTask? taskId,
      ∀ node ∈ runtime.session.read task.ref, node.canTransition .ready = true
  | _ => True

instance (config : ExecutorConfig) (runtime : Runtime) :
    (event : Event) → Decidable (runtime.Saving config event)
  | .message _ _ _ => inferInstanceAs (Decidable (_ → _ ∧ _ ∧ (_ → _)))
  | .collect => inferInstanceAs (Decidable (_ → _))
  | .dispatch => inferInstanceAs (Decidable (_ → _ ∨ _ → _))
  | .resolve taskId =>
      inferInstanceAs (Decidable (_ → ∀ task ∈ runtime.settleTask? taskId,
        ∀ node ∈ runtime.session.read task.ref, _))
  | .clearWake | .flow _ _ | .start _ | .chunk _ _ _ | .outcome _ _ _ _ | .close _ | .inspect _
  | .act _ _ _ | .cancel | .reload => .isTrue trivial

section Steps

variable {config : ExecutorConfig} {runtime next : Runtime}

theorem message_durable (inv : DurableInv runtime)
    {inbound : Inbound} {env : Env} {drafts : List (Option (List PlanNodeDraft))}
    (saving : runtime.Saving config (.message inbound env drafts))
    (stepped : runtime.step config (.message inbound env drafts) = some next) :
    DurableInv next ∧ (next.inFlight = [] → next.session.Durable) := by
  rw [step_message stepped]
  -- where nothing is in flight, the message finds everything stored
  have kept : runtime.inFlight = [] → runtime.session.Durable := by
    intro still
    obtain ⟨settled, counted, _⟩ := saving still
    exact inv.durable settled counted
  have stores : ∀ session, Stores runtime.session session →
      runtime.inFlight = [] → session.Durable :=
    fun session stores still => stores.durable (kept still)
  generalize classified : runtime.classify inbound = handler
  cases handler with
  | reject => exact ⟨inv, kept⟩
  | complete =>
      have durable := kept (complete_idle inv classified)
      exact ⟨.of_durable (fun some_task => absurd rfl some_task) fun _ => durable,
        fun _ => durable⟩
  | reemitQuestions =>
      exact inv.finish (stores _ (emitPendingQuestions_stores _)) runtime.wake false
  | noop => exact inv.finish kept runtime.wake _
  | recover => exact inv.finish (fun _ => durable_of_stored rfl) runtime.wake true
  | enqueue target quoteId =>
      let state := runtime.session.state.enqueue target.id inbound.request quoteId env.now
      let session := { runtime.session with state }.persist
      have durable : session.Durable := durable_of_stored rfl
      exact inv.finish (fun _ => durable) runtime.wake _
  | spawnFollowup target =>
      exact inv.finish (stores _ (spawnDerivedNode_stores config env _ _)) runtime.wake _
  | interrupt target =>
      refine inv.finish (fun still => durable_of_stored ?_) runtime.wake _
      apply interrupt_stored
      exact (saving still).2.2 (by rw [classified]; rfl)
  | answers responses =>
      have answered := answerAll_stores runtime.session responses
      simp only [handle]
      split
      · exact inv.finish (stores _ (answered.trans (emitPendingQuestions_stores _))) true true
      · exact inv.finish (stores _ answered) runtime.wake false
  | planAndLaunch =>
      have launched := planAndLaunch_durable config inv env drafts inbound.allMentions
      exact ⟨launched.1, fun _ => launched.2⟩
  | newPlan =>
      have launched := planAndLaunch_durable config inv env drafts []
      exact launched.1.finish (fun _ => launched.2) _ _

theorem inner_durable {event : Event} (inv : DurableInv runtime) (isInner : event.inner = true)
    (saving : runtime.Saving config event) (stepped : runtime.step config event = some next) :
    DurableInv next := by
  obtain ⟨_, stepped⟩ := step_inner isInner stepped
  cases advances stepped with
  | message | reload => cases isInner
  | clearWake =>
      refine ⟨fun settled => ?_, fun _ => by simp [waitingRunners]⟩
      exact (inv.settled settled).imp_right fun ahead =>
        ⟨ahead.1, List.mem_cons_of_mem _ List.mem_cons_self⟩
  | dispatch => exact dispatch_durable inv saving
  | collect waiting => exact collect_durable inv waiting saving
  | flow env decision atFlow => exact (flow_durable inv atFlow env decision).1
  | start task found => exact finishPart_durable inv (task_found found).1 _ (by simp)
  | chunk a2aTaskId submitted task found => exact task_durable inv (task_found found).1 _ (by simp)
  | outcome env remote answered task found =>
      exact finishPart_durable inv (task_found found).1 _ (by simp)
  | close task => exact .of_stored (setTask_live inv task _ _) (closeNode_stored runtime.session _)
  | inspect => exact inv.settle _ _ _ fun _ => .refl _
  | resolve task helper found =>
      exact inv.settle _ _ _ fun settled =>
        Or.inr (resolveFromHelper_stored _ _ _ (saving settled task found))
  | act env decision => exact inv.settle _ _ _ fun _ => actOnDecision_stores config env _ _ decision
  | cancel => exact .of_stored (fun some_task => absurd rfl some_task) rfl

end Steps

end Runtime

/-! ### Conversations -/

namespace Conversation

/-- Behind a message with nothing executed, and at every exit of the loop, the
snapshot encodes the state. -/
def KeepsDurable (event : ConversationEvent) (next : Conversation) : Prop :=
  match event with
  | .message _ _ _ _ _ => next.runtime.inFlight = [] → next.runtime.session.Durable
  | .session (.flow _ _) _ => next.runtime.runner = .exited → next.runtime.session.Durable
  | .raise => next.runtime.session.Durable
  | _ => True

def Saving (config : ExecutorConfig) (conversation : Conversation) : ConversationEvent → Prop
  | .message _ inbound env drafts _ =>
      conversation.runtime.ensureSession.Saving config (.message inbound env drafts)
  | .session event _ => conversation.runtime.Saving config event
  | _ => True

instance (config : ExecutorConfig) (conversation : Conversation) :
    (event : ConversationEvent) → Decidable (conversation.Saving config event)
  | .message _ inbound env drafts _ =>
      inferInstanceAs (Decidable (conversation.runtime.ensureSession.Saving config
        (.message inbound env drafts)))
  | .session event _ => inferInstanceAs (Decidable (conversation.runtime.Saving config event))
  | .raise | .crash | .rewind _ => .isTrue trivial

def DurableSession (conversation : Conversation) : Prop :=
  conversation.runtime.evicted = true ∨ Runtime.DurableInv conversation.runtime

section Runs

variable {config : ExecutorConfig} {conversation next : Conversation}

/-- A session that a message opens is complete. -/
theorem ensureSession_durable (inv : DurableSession conversation) :
    Runtime.DurableInv conversation.runtime.ensureSession := by
  unfold Runtime.ensureSession
  split
  · exact Runtime.loaded_durableInv _
  · rename_i inMemory
    exact inv.resolve_left inMemory

theorem step_saving (config : ExecutorConfig) (conversation : Conversation)
    (event : ConversationEvent) (next : Conversation) (inv : DurableSession conversation)
    (saving : conversation.Saving config event)
    (stepped : conversation.step config event = some next) : DurableSession next := by
  rcases step_cases stepped with
    ⟨human, inbound, env, drafts, stored, rfl, taken⟩ | ⟨inner, stored, rfl, isInner, taken⟩ |
      ⟨_, evicted⟩
  · exact Or.inr (Runtime.message_durable (ensureSession_durable inv) saving taken).1
  · have inMemory := (Runtime.step_inner isInner taken).1
    exact Or.inr (Runtime.inner_durable (inv.resolve_left (by simp [inMemory])) isInner saving
      taken)
  · exact Or.inl evicted

theorem step_keeps_durable {event : ConversationEvent} (inv : DurableSession conversation)
    (saving : conversation.Saving config event)
    (stepped : conversation.step config event = some next) : KeepsDurable event next := by
  cases event with
  | message human inbound env drafts stored =>
      simp only [step] at stepped
      split at stepped
      · cases stepped
      · obtain ⟨runtime, taken, recorded⟩ := Option.bind_eq_some_iff.mp stepped
        simp only [KeepsDurable]
        rw [record_runtime recorded]
        exact (Runtime.message_durable (ensureSession_durable inv) saving taken).2
  | session inner stored =>
      cases inner with
      | flow env decision =>
          simp only [step, Event.inner, ↓reduceIte] at stepped
          obtain ⟨runtime, taken, recorded⟩ := Option.bind_eq_some_iff.mp stepped
          obtain ⟨present, advanced⟩ := Runtime.step_inner rfl taken
          obtain ⟨atFlow, ⟨⟩⟩ := Option.ite_none_right_eq_some.mp advanced
          simp only [KeepsDurable]
          rw [record_runtime recorded]
          exact (Runtime.flow_durable (inv.resolve_left (by simp [present])) atFlow env
            decision).2
      | _ => trivial
  | raise =>
      simp only [step] at stepped
      split at stepped
      · simp only [KeepsDurable]
        rw [record_runtime stepped]
        exact Session.durable_of_stored rfl
      · cases stepped
  | crash => trivial
  | rewind taskId => trivial

end Runs

end Conversation

section Unsaved

/-! A plan of one node. In the first run it completes; in the second it fails
twice, and the repair only takes it out. -/

def soloEnv : Env := ⟨["writer"], "now", fun drawn => toString drawn⟩

def soloPlan : ConversationEvent :=
  .message true { taskId := "t1", text := "write" } soloEnv
    [some [⟨"n1", "first", "writer", .empty, []⟩]] true

/-- One execution, from its dispatch to its collection. -/
def execution (taskId : Nat) (remote : Remote) : List ConversationEvent :=
  [.session .clearWake false, .session .dispatch true, .session (.start taskId) false,
    .session (.outcome taskId soloEnv remote none) false, .session (.close taskId) true,
    .session .collect false]

def toFlow : List ConversationEvent :=
  [.session .clearWake false, .session .dispatch false]

def soloExit : ConversationEvent :=
  .session (.flow soloEnv none) false

def completes : List ConversationEvent :=
  soloPlan :: execution 0 { ended := .completed } ++ toFlow

def repairedAway : List ConversationEvent :=
  soloPlan :: execution 0 { ended := .stopped } ++ execution 1 { ended := .stopped } ++ toFlow ++
    [.session (.flow soloEnv (some {})) true] ++ toFlow

end Unsaved

end Choirworks.Orchestration
