import Choirworks.Library.Runs
import Choirworks.Orchestration.Message
import Choirworks.Orchestration.Patch

/-!
The end of `run_plan`. Between the dispatch block and `plan_flow` the loop does
not hold the lock, and a message may make a node ready there without starting a
runner, since the old one is alive. `plan_flow` looks for ready nodes only where
it would call the plan stalled; the exits in front of that do not.
-/

namespace Choirworks.Orchestration

/-! ### Operations that leave the nodes alone -/

theorem readyNodes_of_nodes {state other : OrchestrationState} (same : other.nodes = state.nodes) :
    other.readyNodes = state.readyNodes := by
  simp [OrchestrationState.readyNodes, OrchestrationState.status?, OrchestrationState.node?, same]

/-- A rejected answer changes no node. -/
theorem answerIntervention_rejected {session : Session} {response : QuestionResponse}
    (rejected : (session.answerIntervention response).2 = false) :
    (session.answerIntervention response).1.state.nodes = session.state.nodes := by
  have answers := session.answers response
  generalize session.answerIntervention response = result at answers rejected ⊢
  cases answers with
  | ignored | stale => rfl
  | declined | canceled | continued => cases rejected

theorem answerAll_rejected {session : Session} {responses : List QuestionResponse}
    (rejected : (session.answerAll responses).2 = false) :
    (session.answerAll responses).1.state.nodes = session.state.nodes := by
  induction responses generalizing session with
  | nil => rfl
  | cons response rest ih =>
      simp only [Session.answerAll, Bool.or_eq_false_iff] at rejected ⊢
      rw [ih rejected.2]
      exact answerIntervention_rejected rejected.1

/-! ### States without ready nodes -/

namespace OrchestrationState

variable {state : OrchestrationState}

theorem readyNodes_nil_of_status
    (none : ∀ node ∈ state.nodes.rows, node.status ∉ pendingNodeStatuses) :
    state.readyNodes = [] := by
  apply List.filter_eq_nil_iff.mpr
  intro node member
  simp [none node member]

theorem readyNodes_nil_of_allCompleted (all : state.allCompleted = true) :
    state.readyNodes = [] := by
  apply readyNodes_nil_of_status
  intro node member pending
  simp only [allCompleted, Bool.and_eq_true, List.all_eq_true, List.mem_filter] at all
  have settled := all.2 node
  revert settled pending
  cases node.status <;> simp [member, pendingNodeStatuses]

theorem readyNodes_nil_of_no_work (none : state.hasPendingWork = false) :
    state.readyNodes = [] := by
  apply readyNodes_nil_of_status
  intro node member pending
  simp only [hasPendingWork, List.any_eq_false] at none
  exact none node member (by simp [pending])

end OrchestrationState

/-! ### The exits of `plan_flow` -/

theorem revisePlan_result (env : Env) (session : Session) (patch : PlanPatch) :
    (revisePlan env session patch).2 = (applyPatch session.state patch env.agents).result := by
  unfold revisePlan
  dsimp only
  split <;> rfl

/-- The failed nodes are invalidated, so a repair decision always changes the plan. -/
theorem repairPlan_changes {env : Env} {session : Session}
    (failed : session.state.hasFailures = true) (agents : env.agents ≠ []) (patch : PlanPatch) :
    (repairPlan env session (some patch)).2 = true := by
  obtain ⟨node, member, status⟩ := List.any_eq_true.mp failed
  simp only [decide_eq_true_eq] at status
  obtain ⟨agent, others, listed⟩ := List.exists_cons_of_ne_nil agents
  have failedId : node.id ∈ session.state.failedNodes.map (·.id) :=
    List.mem_map_of_mem (List.mem_filter.mpr ⟨member, by simp [status]⟩)
  simp only [repairPlan, listed, revisePlan_result]
  apply applyPatch_changed
    ((mem_fromKeys [] _ _).mpr (Or.inr (List.mem_append_right _ failedId)))
    (session.state.status_of_mem member)
  simp [status, invalidatableStatuses]

/-- What `repair_plan` needs to change the plan. -/
def Repairs (config : ExecutorConfig) (env : Env) (state : OrchestrationState)
    (decision : Option PlanPatch) : Prop :=
  mayRepair config state = true ∧ env.agents ≠ [] ∧ decision.isSome = true

instance (config : ExecutorConfig) (env : Env) (state : OrchestrationState)
    (decision : Option PlanPatch) : Decidable (Repairs config env state decision) :=
  inferInstanceAs (Decidable (_ ∧ _ ∧ _))

def Retryable (config : ExecutorConfig) (state : OrchestrationState) : Prop :=
  state.nodes.rows.any (·.canRetry config.maxNodeAttempts) = true

instance (config : ExecutorConfig) (state : OrchestrationState) :
    Decidable (Retryable config state) :=
  inferInstanceAs (Decidable (_ = true))

/-- Nothing is ready, or `plan_flow` goes on: it has a node to retry, or no node
waits for input and a failure is repaired. -/
def SafeToExit (config : ExecutorConfig) (env : Env) (state : OrchestrationState)
    (decision : Option PlanPatch) : Prop :=
  state.readyNodes = [] ∨ Retryable config state ∨
    (state.inputRequiredNodes = [] ∧
      (state.hasFailures = false ∨ Repairs config env state decision))

instance (config : ExecutorConfig) (env : Env) (state : OrchestrationState)
    (decision : Option PlanPatch) : Decidable (SafeToExit config env state decision) :=
  inferInstanceAs (Decidable (_ ∨ _ ∨ _))

section PlanFlow

variable {config : ExecutorConfig} {env : Env} {session : Session} {busy : Bool}
  {decision : Option PlanPatch}

theorem repairPlan_fails (cannot : ¬ (env.agents ≠ [] ∧ decision.isSome = true)) :
    repairPlan env session decision = (session, false) := by
  unfold repairPlan
  split
  · rfl
  · rfl
  · rename_i patch some_agents
    exact absurd ⟨some_agents, rfl⟩ cannot

/-- `plan_flow` goes on, or leaves the nodes as they are. -/
theorem planFlow_nodes (ended : (planFlow config env session busy decision).2 ≠ .continued) :
    (planFlow config env session busy decision).1.state.nodes = session.state.nodes := by
  unfold planFlow at ended ⊢
  by_cases retry : session.state.nodes.rows.any (·.canRetry config.maxNodeAttempts) = true
  · simp [retry]
  · by_cases waiting : session.state.inputRequiredNodes = []
    · by_cases all : session.state.allCompleted = true
      · simp [retry, waiting, all]
      · by_cases failed : session.state.hasFailures = true
        · by_cases may : mayRepair config session.state = true
          · by_cases can : env.agents ≠ [] ∧ decision.isSome = true
            · obtain ⟨patch, rfl⟩ := Option.isSome_iff_exists.mp can.2
              have changes := repairPlan_changes failed can.1 patch
              simp [retry, waiting, all, failed, may, changes] at ended
            · simp [retry, waiting, all, failed, may, repairPlan_fails can]
          · simp [retry, waiting, all, failed, may]
        · simp only [retry, waiting, all, failed, ne_eq, not_true_eq_false, ↓reduceIte,
            Bool.false_eq_true]
          split <;> rfl
    · simp [retry, waiting]

theorem planFlow_continues_iff (some_ready : session.state.readyNodes ≠ []) :
    (planFlow config env session busy decision).2 = .continued ↔
      SafeToExit config env session.state decision := by
  have some_work : session.state.hasPendingWork = true := by
    by_contra none
    exact some_ready (OrchestrationState.readyNodes_nil_of_no_work (by simpa using none))
  have unfinished : session.state.allCompleted = false := by
    by_contra all
    exact some_ready (OrchestrationState.readyNodes_nil_of_allCompleted (by simpa using all))
  unfold planFlow SafeToExit Retryable
  simp only [some_ready, unfinished, some_work, false_or]
  by_cases retry : session.state.nodes.rows.any (·.canRetry config.maxNodeAttempts) = true
  · simp [retry]
  · by_cases waiting : session.state.inputRequiredNodes = []
    · by_cases failed : session.state.hasFailures = true
      · by_cases may : mayRepair config session.state = true
        · by_cases can : env.agents ≠ [] ∧ decision.isSome = true
          · obtain ⟨patch, rfl⟩ := Option.isSome_iff_exists.mp can.2
            simp [retry, waiting, failed, may, Repairs, can, repairPlan_changes failed can.1]
          · simp [retry, waiting, failed, may, Repairs, can, repairPlan_fails can]
        · simp [retry, waiting, failed, may, Repairs]
      · simp [retry, waiting, failed, some_ready]
    · simp [retry, waiting]

end PlanFlow

/-! ### Exited sessions -/

namespace Runtime

/-- The loop has exited and left nothing to dispatch. -/
def NoneLeft (runtime : Runtime) : Prop :=
  runtime.runner = .exited → runtime.session.state.readyNodes = []

instance (runtime : Runtime) : Decidable runtime.NoneLeft := inferInstanceAs (Decidable (_ → _))

structure Exited (runtime : Runtime) : Prop where
  idle : runtime.nodeTasks = [] ∧ runtime.settleTasks = []
  none : runtime.session.state.readyNodes = []

def ExitInv (runtime : Runtime) : Prop := runtime.runner = .exited → Exited runtime

theorem startRunner_running (runtime : Runtime) : runtime.startRunner.runner ≠ .exited := by
  unfold startRunner alive
  split
  · rename_i alive
    intro exited
    simp [exited] at alive
  · simp

theorem finish_running (runtime : Runtime) {needsRunner : Bool}
    (running : runtime.alive = true ∨ needsRunner = true) :
    (runtime.finish needsRunner).runner ≠ .exited := by
  unfold finish
  split
  · exact runtime.startRunner_running
  · rename_i no_need
    rcases running with alive | need
    · intro exited
      simp [Runtime.alive, exited] at alive
    · exact absurd need no_need

theorem planAndLaunch_running (config : ExecutorConfig) (env : Env) (runtime : Runtime)
    (drafts : List (Option (List PlanNodeDraft))) (mentions : List String) :
    (runtime.planAndLaunch config env drafts mentions).runner ≠ .exited := by
  simp only [planAndLaunch]
  split
  · simp [evict]
  · simp [evict]
  · exact startRunner_running _

/-- Without a live runner the room route is taken only if one has to start. -/
theorem classify_room (runtime : Runtime) (inbound : Inbound) {handler : Handler}
    (classified : runtime.classify inbound = handler) (room : handler.inRoom = true) :
    runtime.alive = true ∨ runtime.needsRunner = true := by
  subst classified
  unfold classify classifyInbound at room
  unfold needsRunner
  split at room
  · cases room
  · split at room
    · cases room
    · cases room
    · split at room
      · cases room
      · split at room
        · rename_i alive
          exact Or.inl alive
        · rename_i dead
          split at room
          · rename_i work
            exact Or.inr (by simp [dead, work])
          · split at room <;> cases room

/-- A message that leaves the loop exited starts no runner and changes no node. -/
theorem handle_exited (config : ExecutorConfig) (env : Env) (runtime : Runtime)
    (inbound : Inbound) (drafts : List (Option (List PlanNodeDraft)))
    (exited : (runtime.handle config env inbound drafts (runtime.classify inbound)).runner =
      .exited) :
    let next := runtime.handle config env inbound drafts (runtime.classify inbound)
    runtime.runner = .exited ∧ next.nodeTasks = runtime.nodeTasks ∧
      next.settleTasks = runtime.settleTasks ∧
      next.session.state.nodes = runtime.session.state.nodes := by
  have room := runtime.classify_room inbound rfl
  generalize runtime.classify inbound = handler at exited room ⊢
  cases handler with
  | recover => exact absurd exited (startRunner_running _)
  | reject => exact ⟨exited, rfl, rfl, rfl⟩
  | answers responses =>
      simp only [handle] at exited ⊢
      split at exited
      · exact absurd exited (startRunner_running _)
      · rename_i rejected
        simp only [rejected]
        exact ⟨exited, rfl, rfl, answerAll_rejected (by simpa using rejected)⟩
  | reemitQuestions => exact ⟨exited, rfl, rfl, Session.emitPendingQuestions_nodes _⟩
  | complete => cases exited
  | planAndLaunch => exact absurd exited (planAndLaunch_running config env runtime drafts _)
  | noop => exact absurd exited (finish_running _ (room rfl))
  | enqueue target quoteId => exact absurd exited (finish_running _ (room rfl))
  | spawnFollowup target => exact absurd exited (finish_running _ (room rfl))
  | interrupt target => exact absurd exited (finish_running _ (room rfl))
  | newPlan =>
      simp only [handle, finish] at exited
      split at exited
      · exact absurd exited (startRunner_running _)
      · exact absurd exited (planAndLaunch_running config env runtime drafts _)

theorem flow_exited {config : ExecutorConfig} {env : Env} {runtime : Runtime}
    {decision : Option PlanPatch}
    (exited : (runtime.flow config env decision).runner = .exited) :
    (planFlow config env runtime.session runtime.busy decision).2 ≠ .continued ∧
      (runtime.flow config env decision).nodeTasks = [] ∧
      (runtime.flow config env decision).settleTasks = [] ∧
      (runtime.flow config env decision).session =
        (planFlow config env runtime.session runtime.busy decision).1 := by
  unfold flow at exited ⊢
  dsimp only at exited ⊢
  split at exited
  · cases exited
  all_goals
    rename_i outcome
    simp [outcome]

theorem flow_ends {config : ExecutorConfig} {env : Env} {runtime : Runtime}
    {decision : Option PlanPatch}
    (ended : (planFlow config env runtime.session runtime.busy decision).2 ≠
      .continued) : (runtime.flow config env decision).runner = .exited := by
  unfold flow
  dsimp only
  split
  · rename_i continued
    exact absurd continued ended
  all_goals rfl

/-! ### Runs -/

def ExitsEmpty (config : ExecutorConfig) (runtime : Runtime) : Event → Prop
  | .flow env decision => runtime.evicted = false → runtime.runner = .flow →
      SafeToExit config env runtime.session.state decision
  | _ => True

theorem advance_exit (config : ExecutorConfig) {runtime next : Runtime} (event : Event)
    (inv : ExitInv runtime) (present : runtime.evicted = false)
    (safe : ExitsEmpty config runtime event)
    (stepped : runtime.advance config event = some next) : ExitInv next := by
  intro exited
  -- behind an exit no task is left that could step
  have idle : runtime.runner = .exited → ∀ taskId phase, runtime.task? taskId phase = none := by
    intro was taskId phase
    simp [task?, (inv was).idle.1]
  have settled : runtime.runner = .exited → ∀ taskId, runtime.settleTask? taskId = none := by
    intro was taskId
    simp [settleTask?, (inv was).idle.2]
  cases advances stepped with
  | message inbound env drafts =>
      obtain ⟨was, tasks, settling, nodes⟩ :=
        handle_exited config env runtime inbound drafts exited
      have before := inv was
      exact ⟨⟨tasks.trans before.idle.1, settling.trans before.idle.2⟩,
        (readyNodes_of_nodes nodes).trans before.none⟩
  | clearWake => cases exited
  | dispatch =>
      simp only [dispatch] at exited
      split at exited <;> cases exited
  | collect => cases exited
  | flow env decision atFlow =>
      obtain ⟨ended, tasks, settling, session⟩ := flow_exited exited
      refine ⟨⟨tasks, settling⟩, ?_⟩
      rw [session, readyNodes_of_nodes (planFlow_nodes ended)]
      by_contra some_ready
      exact ended ((planFlow_continues_iff some_ready).mpr (safe present atFlow))
  | start task found => cases (idle exited _ _).symm.trans found
  | chunk a2aTaskId submitted task found => cases (idle exited _ _).symm.trans found
  | outcome env remote answered task found => cases (idle exited _ _).symm.trans found
  | close task found => cases (idle exited _ _).symm.trans found
  | inspect task phase found => cases (settled exited _).symm.trans found
  | resolve task helper found => cases (settled exited _).symm.trans found
  | act env decision task found => cases (settled exited _).symm.trans found
  | cancel => cases exited
  | reload => cases exited

theorem step_exit (config : ExecutorConfig) (runtime : Runtime) (event : Event) (next : Runtime)
    (inv : ExitInv runtime) (safe : ExitsEmpty config runtime event)
    (stepped : runtime.step config event = some next) : ExitInv next := by
  rcases step_cases stepped with rfl | ⟨present, stepped⟩
  · intro exited
    cases exited
  · exact advance_exit config event inv present safe stepped

/-- An unsafe exit leaves ready nodes behind. -/
theorem exits_empty_of_none_left (config : ExecutorConfig) (runtime : Runtime) (event : Event)
    (left : ∀ next, runtime.step config event = some next → NoneLeft next) :
    ExitsEmpty config runtime event := by
  cases event
  case flow env decision =>
    intro present atFlow
    by_contra unsafe_exit
    have some_ready : runtime.session.state.readyNodes ≠ [] := fun none => unsafe_exit (Or.inl none)
    have ended : (planFlow config env runtime.session runtime.busy decision).2 ≠ .continued :=
      mt (planFlow_continues_iff some_ready).mp unsafe_exit
    have exited := flow_ends ended
    have none := left (runtime.flow config env decision)
      (by simp [step, present, advance, atFlow]) exited
    rw [(flow_exited exited).2.2.2, readyNodes_of_nodes (planFlow_nodes ended)] at none
    exact some_ready none
  all_goals trivial

end Runtime

/-- In every run: whenever the loop has exited no node is ready, exactly if
every `plan_flow` of the run finds nothing ready or goes on. -/
theorem none_left_iff (config : ExecutorConfig) (saved : OrchestrationState)
    (events : List Event) :
    Runs.Guarded (Runtime.step config) (Runtime.ExitsEmpty config) (.loaded saved) events ↔
      ∀ front, front <+: events → ∀ reached,
        Runs.run (Runtime.step config) (.loaded saved) front = some reached → reached.NoneLeft :=
  Runs.guarded_iff_always Runtime.ExitInv Runtime.NoneLeft
    (fun _ inv exited => (inv exited).none) (Runtime.step_exit config)
    (fun runtime event _ => Runtime.exits_empty_of_none_left config runtime event) events _
    nofun

section Answered

/-! Two nodes wait for the human. The dispatch block finds nothing to do; the
first answer arrives before `plan_flow`, which then stops for the second. -/

def askEnv (lead : String) : Env := ⟨["writer"], "now", fun drawn => lead ++ toString drawn⟩

def twoQuestions : List PlanNodeDraft :=
  [⟨"n1", "first", "writer", .empty, []⟩, ⟨"n2", "second", "writer", .empty, []⟩]

def asked : Remote := { ended := .inputRequired, question := some "which?" }

def answeredLate : List Event := [
  .message { taskId := "t1", text := "write" } (askEnv "p") [some twoQuestions],
  .clearWake, .dispatch, .start 0, .start 1,
  .outcome 0 (askEnv "o") asked none, .close 0,
  .outcome 1 (askEnv "o") asked none, .close 1, .collect, .clearWake, .dispatch,
  .inspect 2, .inspect 3, .act 2 (askEnv "a") none, .act 3 (askEnv "b") none,
  .collect, .clearWake, .dispatch,
  .message { taskId := "t2", responses := .ok [⟨"a0", .text "this"⟩] } (askEnv "m") [],
  .flow (askEnv "f") none]

theorem answered_node_left_ready :
    ¬ ∀ (config : ExecutorConfig) (saved : OrchestrationState) (events : List Event)
      (reached : Runtime),
      Runs.run (Runtime.step config) (.loaded saved) events = some reached →
        reached.NoneLeft := by
  intro claim
  have ends : Runs.Ends (Runtime.step {}) (.loaded {}) answeredLate
      fun runtime => ¬ runtime.NoneLeft := by
    decide +kernel
  obtain ⟨reached, ran, left⟩ := ends
  exact left (claim {} {} answeredLate reached ran)

end Answered

end Choirworks.Orchestration
