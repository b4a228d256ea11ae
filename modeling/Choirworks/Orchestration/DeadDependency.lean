import Choirworks.Library.Runs
import Choirworks.Orchestration.Message
import Choirworks.Orchestration.Onward

/-!
No waiting node has a dead dependency, as long as every cancellation reaches
all the nodes that wait for it. `cancel_node` and `_do_interrupt` invalidate
what is blocked at once, but not what waits for the invalidated nodes; a node
that the remote agent cancels and the executor's `cancel` hand nothing on; and
`apply_patch` accepts drafts that depend on nodes which have died before.
-/

namespace Choirworks.Orchestration

open OrchestrationState
open Session (Sound)

namespace Runtime

/-! ### The invariant -/

/-- The nodes in memory and in the store are supported, and those of the
executions and settlements have what they depend on. -/
structure SupportInv (runtime : Runtime) : Prop where
  sound : runtime.session.Sound
  executing : ∀ task ∈ runtime.nodeTasks, Underway runtime.session.state task.ref
  settling : ∀ task ∈ runtime.settleTasks, Underway runtime.session.state task.ref

section Invariant

variable {runtime next : Runtime}

theorem SupportInv.onward (inv : SupportInv runtime)
    (onward : Session.Onward runtime.session next.session)
    (executing : ∀ task ∈ next.nodeTasks, task ∈ runtime.nodeTasks)
    (settling : ∀ task ∈ next.settleTasks, task ∈ runtime.settleTasks) : SupportInv next where
  sound := onward.sound
  executing task member := (inv.executing task (executing task member)).onward onward.extends_
  settling task member := (inv.settling task (settling task member)).onward onward.extends_

theorem SupportInv.session (inv : SupportInv runtime) {session : Session}
    (onward : Session.Onward runtime.session session) : SupportInv { runtime with session } :=
  inv.onward onward (fun _ => id) (fun _ => id)

theorem SupportInv.startRunner (inv : SupportInv runtime) : SupportInv runtime.startRunner := by
  unfold Runtime.startRunner
  split
  · exact inv
  · exact ⟨inv.sound, inv.executing, inv.settling⟩

theorem SupportInv.finish (inv : SupportInv runtime) (needsRunner : Bool) :
    SupportInv (runtime.finish needsRunner) := by
  unfold Runtime.finish
  split
  · exact inv.startRunner
  · exact inv

theorem SupportInv.evict (sound : runtime.session.Sound) : SupportInv runtime.evict :=
  ⟨sound, by simp [Runtime.evict], by simp [Runtime.evict]⟩

theorem SupportInv.loaded {saved : OrchestrationState} (supported : Supported [] saved) :
    SupportInv (Runtime.loaded saved) := by
  have rows : saved.restored.nodes.rows =
      saved.nodes.rows.map fun node => { node with output := truncate node.output } := rfl
  have restored : Supported [] saved.restored :=
    (supported.changed (by simp) rows rfl fun _ _ => .same_status rfl rfl rfl).1
  exact ⟨⟨restored, supported⟩, by simp [Runtime.loaded], by simp [Runtime.loaded]⟩

theorem SupportInv.setTask (inv : SupportInv runtime) (task : NodeTask) {handled : Handled}
    (onward : Handled.Onward runtime.session handled) (phase : TaskPhase) :
    SupportInv (runtime.setTask task handled phase) := by
  refine ⟨onward.session.sound, ?_, ?_⟩
  · intro other member
    obtain ⟨old, inside, rfl⟩ := List.mem_map.mp member
    split
    · exact onward.underway
    · exact (inv.executing old inside).onward onward.session.extends_
  · intro other member
    exact (inv.settling other member).onward onward.session.extends_

theorem SupportInv.setSettleTask (inv : SupportInv runtime) (task : SettleTask) {handled : Handled}
    (onward : Handled.Onward runtime.session handled) (phase : SettlePhase) :
    SupportInv (runtime.setSettleTask task handled.session handled.ref phase) := by
  refine ⟨onward.session.sound, ?_, ?_⟩
  · intro other member
    exact (inv.executing other member).onward onward.session.extends_
  · intro other member
    obtain ⟨old, inside, rfl⟩ := List.mem_map.mp member
    split
    · exact onward.underway
    · exact (inv.settling old inside).onward onward.session.extends_

/-- A new plan starts without nodes, and detaches what is under way. -/
theorem SupportInv.startNewPlan (inv : SupportInv runtime) (planId : String) :
    SupportInv (runtime.startNewPlan planId) := by
  have detached : ∀ ref, Underway runtime.session.state ref →
      Underway (runtime.startNewPlan planId).session.state (detach runtime.session ref) := by
    intro ref underway
    cases ref with
    | detached node => trivial
    | planned nodeId =>
        obtain ⟨node, found, _⟩ := underway
        simp only [detach, Option.mem_def.mp found]
        trivial
  refine ⟨⟨supported_empty rfl, inv.sound.saved⟩, ?_, ?_⟩
  · intro task member
    obtain ⟨old, inside, rfl⟩ := List.mem_map.mp member
    exact detached old.ref (inv.executing old inside)
  · intro task member
    obtain ⟨old, inside, rfl⟩ := List.mem_map.mp member
    exact detached old.ref (inv.settling old inside)

end Invariant

/-! ### Messages -/

/-- No id of the plan reads like the id of a derived node. -/
def UnderivedPlan (config : ExecutorConfig) (env : Env)
    (drafts : List (Option (List PlanNodeDraft))) : Prop :=
  ∀ nodes ∈ plan config env drafts, ∀ draft ∈ nodes, isDerivedId draft.id = false

instance (config : ExecutorConfig) (env : Env) (drafts : List (Option (List PlanNodeDraft))) :
    Decidable (UnderivedPlan config env drafts) :=
  inferInstanceAs (Decidable (∀ nodes ∈ plan config env drafts, ∀ draft ∈ nodes, _ = false))

/-- What keeps a handler from leaving dead dependencies. -/
def SparingHandler (config : ExecutorConfig) (env : Env) (session : Session)
    (drafts : List (Option (List PlanNodeDraft))) : Handler → Prop
  | .planAndLaunch | .newPlan => UnderivedPlan config env drafts
  | .answers responses => AnswersCut session responses
  | .interrupt target => session.state.CutsThrough target.id
  | _ => True

instance (config : ExecutorConfig) (env : Env) (session : Session)
    (drafts : List (Option (List PlanNodeDraft))) (handler : Handler) :
    Decidable (SparingHandler config env session drafts handler) := by
  unfold SparingHandler UnderivedPlan
  split <;> infer_instance

section Messages

variable {config : ExecutorConfig} {env : Env} {runtime : Runtime}
  {drafts : List (Option (List PlanNodeDraft))}

theorem planAndLaunch_support (inv : SupportInv runtime)
    (underived : UnderivedPlan config env drafts) (mentions : List String) :
    SupportInv (runtime.planAndLaunch config env drafts mentions) := by
  have started := inv.startNewPlan (planId env)
  have stored := (Session.Onward.refl started.sound).persist
  simp only [planAndLaunch]
  split
  · exact .evict stored.sound
  · exact .evict stored.sound
  · rename_i nodes _ planned
    let empty := (runtime.startNewPlan (planId env)).session.state
    have created : Supported [] (createPlan env empty nodes) :=
      createPlan_supported rfl (plan_valid planned) (underived nodes planned)
    have joined := joinMembers_quiet env (createPlan env empty nodes) mentions "human_mention"
    have onto : Extends empty (createPlan env empty nodes) := fun node member => nomatch member
    have launched := Session.Onward.moved started.sound
      ⟨created.congr joined.nodes joined.derivedCount, onto.trans (.congr joined.nodes)⟩
    exact (started.session launched.persist).startRunner

theorem handle_support (inv : SupportInv runtime) (inbound : Inbound) {handler : Handler}
    (apt : Apt runtime.session.state handler)
    (sparing : SparingHandler config env runtime.session drafts handler) :
    SupportInv (runtime.handle config env inbound drafts handler) := by
  have sound := inv.sound
  cases handler with
  | recover => exact (inv.session (recoverSession_onward sound)).startRunner
  | reject => exact inv
  | answers responses =>
      have answered := answerAll_onward responses sound sparing
      simp only [handle]
      split
      · have emitted := answered.emit
        apply SupportInv.startRunner
        exact inv.onward emitted (fun _ => id) (fun _ => id)
      · exact inv.session answered
  | reemitQuestions => exact inv.session (Session.Onward.refl sound).emit
  | complete => exact .evict sound
  | planAndLaunch => exact planAndLaunch_support inv sparing _
  | noop => exact inv.finish _
  | enqueue target quoteId =>
      let queued := runtime.session.state.enqueue target.id inbound.request quoteId env.now
      have onward : Supported [] queued ∧ Extends runtime.session.state queued :=
        ⟨sound.state.congr rfl rfl, .congr rfl⟩
      exact (inv.session (Session.Onward.moved sound onward).persist).finish _
  | spawnFollowup target =>
      refine SupportInv.finish (inv.session ?_) _
      apply spawnFollowupNode_onward config env sound
      intro dep depends
      rw [List.mem_singleton.mp depends]
      exact alive_of_completed (apt.2 ▸ status_of_mem _ apt.1)
  | interrupt target =>
      exact (inv.session (interrupt_onward config env sound apt.1 apt.2 sparing _)).finish _
  | newPlan => exact (planAndLaunch_support inv sparing []).finish _

end Messages

/-! ### The loop -/

section Loop

variable {config : ExecutorConfig} {runtime : Runtime}

theorem spawnTasks_refs {first : Nat} {nodes : List NodeState} {task : NodeTask}
    (member : task ∈ spawnTasks first nodes) : ∃ node ∈ nodes, task.ref = .planned node.id := by
  induction nodes generalizing first with
  | nil => simp [spawnTasks] at member
  | cons node rest ih =>
      rcases List.mem_cons.mp member with rfl | later
      · exact ⟨node, List.mem_cons_self, rfl⟩
      · obtain ⟨other, inside, same⟩ := ih later
        exact ⟨other, List.mem_cons_of_mem _ inside, same⟩

theorem spawnSettleTasks_refs {first : Nat} {nodes : List NodeState} {task : SettleTask}
    (member : task ∈ spawnSettleTasks first nodes) :
    ∃ node ∈ nodes, task.ref = .planned node.id := by
  induction nodes generalizing first with
  | nil => simp [spawnSettleTasks] at member
  | cons node rest ih =>
      rcases List.mem_cons.mp member with rfl | later
      · exact ⟨node, List.mem_cons_self, rfl⟩
      · obtain ⟨other, inside, same⟩ := ih later
        exact ⟨other, List.mem_cons_of_mem _ inside, same⟩

/-- What the dispatch block starts has what it depends on. -/
theorem dispatch_support (inv : SupportInv runtime) : SupportInv (runtime.dispatch config) := by
  let retried := runtime.session.state.retryFailed config
  let batch := runtime.nextUp config
  let submitted := (batch.filter fun node => node.status ≠ .recover).map (·.id)
  obtain ⟨supported, first⟩ := retryFailed_onward config inv.sound.state
  have up : ∀ node ∈ batch, node ∈ retried.readyNodes := fun _ => List.mem_of_mem_take
  -- what is submitted is ready in the state behind the retries
  have ready : ∀ nodeId ∈ submitted, ∃ node ∈ retried.readyNodes, node.id = nodeId := by
    intro nodeId member
    obtain ⟨node, inside, rfl⟩ := List.mem_map.mp member
    exact ⟨node, up node (List.mem_filter.mp inside).1, rfl⟩
  obtain ⟨moved, second⟩ := submit_onward supported ready
  have onward : Session.Onward runtime.session (runtime.dispatch config).session := by
    refine .stored inv.sound ?_ ?_
    all_goals
      simp only [dispatch]
      split
    · exact ⟨moved, first.trans second⟩
    · exact ⟨moved, first.trans second⟩
    · exact Or.inl rfl
    · exact Or.inr rfl
  have reached : Extends retried (runtime.dispatch config).session.state := by
    simp only [dispatch]
    split <;> exact second
  refine ⟨onward.sound, ?_, ?_⟩
  · intro task member
    rcases List.mem_append.mp member with old | new
    · exact (inv.executing task old).onward onward.extends_
    · obtain ⟨node, inside, same⟩ := spawnTasks_refs new
      obtain ⟨row, may⟩ := List.mem_filter.mp (up node inside)
      simp only [Bool.decide_and, Bool.and_eq_true, decide_eq_true_eq] at may
      have underway : Underway retried task.ref := by
        rw [same]
        exact ⟨node, retried.node_of_mem row, may.2⟩
      exact underway.onward reached
  · intro task member
    rcases List.mem_append.mp member with old | new
    · exact (inv.settling task old).onward onward.extends_
    · obtain ⟨node, inside, same⟩ := spawnSettleTasks_refs new
      obtain ⟨row, waits⟩ := List.mem_filter.mp (List.mem_filter.mp inside).1
      have begun : node.status ∈ begunStatuses := by
        revert waits
        cases node.status <;> simp [inputNodeStatuses, begunStatuses]
      have underway : Underway retried task.ref := by
        rw [same]
        exact ⟨node, retried.node_of_mem row, supported.begun node row begun⟩
      exact underway.onward reached

theorem collect_support (inv : SupportInv runtime) : SupportInv runtime.collect := by
  have collected : ∀ tasks : List NodeTask, (∀ task ∈ tasks, task ∈ runtime.nodeTasks) →
      ∀ session, Session.Onward runtime.session session →
        Session.Onward runtime.session (tasks.foldl collectTask session) := by
    intro tasks
    induction tasks with
    | nil => exact fun _ _ onward => onward
    | cons task rest ih =>
        intro inside session onward
        apply ih fun other later => inside other (List.mem_cons_of_mem _ later)
        have underway := (inv.executing task (inside task List.mem_cons_self)).onward
          onward.extends_
        exact onward.trans (collectTask_onward onward.sound underway)
  have onward := collected (runtime.nodeTasks.filter (·.done))
    (fun _ member => (List.mem_filter.mp member).1) runtime.session (.refl inv.sound)
  exact inv.onward onward (fun _ member => (List.mem_filter.mp member).1)
    (fun _ member => (List.mem_filter.mp member).1)

theorem flow_support (inv : SupportInv runtime) {env : Env} {decision : Option PlanPatch}
    (living : runtime.session.state.hasFailures = true →
      mayRepair config runtime.session.state = true →
        ∀ patch ∈ decision, LivingDrafts env.agents runtime.session.state patch) :
    SupportInv (runtime.flow config env decision) := by
  have onward := planFlow_onward config env inv.sound runtime.busy living
  simp only [flow]
  split
  · exact inv.onward onward (fun _ => id) (fun _ => id)
  · exact inv.onward onward (by simp) (by simp)
  all_goals exact inv.onward onward (by simp) (by simp)

end Loop

/-! ### Runs -/

/-- The condition on a step that keeps it from leaving dead dependencies. -/
def SparesWaiting (config : ExecutorConfig) (runtime : Runtime) : Event → Prop
  | .message inbound env drafts =>
      SparingHandler config env runtime.session drafts (runtime.classify inbound)
  | .flow env decision =>
      runtime.session.state.hasFailures = true → mayRepair config runtime.session.state = true →
        ∀ patch ∈ decision, LivingDrafts env.agents runtime.session.state patch
  | .outcome taskId env remote answered => ∀ task ∈ runtime.task? taskId .remote,
      SparingOutcome config env runtime.session.state task.ref remote answered
  | .act taskId _ _ => ∀ task ∈ runtime.settleTask? taskId,
      SparingQuestion runtime.session.state task.ref
  | .cancel => ∀ node ∈ runtime.session.state.nodes.rows,
      node.status ∈ activeNodeStatuses ++ [.ready] → Unwaited runtime.session.state node.id
  | _ => True

instance (config : ExecutorConfig) (runtime : Runtime) (event : Event) :
    Decidable (SparesWaiting config runtime event) := by
  unfold SparesWaiting
  split <;> infer_instance

theorem advance_support {config : ExecutorConfig} {runtime next : Runtime} {event : Event}
    (inv : SupportInv runtime) (sparing : SparesWaiting config runtime event)
    (stepped : runtime.advance config event = some next) : SupportInv next := by
  cases advances stepped with
  | message inbound env drafts => exact handle_support inv inbound (runtime.classify_apt inbound) sparing
  | clearWake => exact ⟨inv.sound, inv.executing, inv.settling⟩
  | dispatch => exact dispatch_support inv
  | collect => exact collect_support inv
  | flow env decision => exact flow_support inv sparing
  | start task found =>
      have member := List.mem_of_find?_eq_some found
      exact inv.setTask task (startNode_onward inv.sound (inv.executing task member) _) _
  | chunk a2aTaskId submitted task found =>
      have member := List.mem_of_find?_eq_some found
      exact inv.setTask task (chunkNode_onward inv.sound (inv.executing task member) _ _) _
  | outcome env remote answered task found =>
      have member := List.mem_of_find?_eq_some found
      exact inv.setTask task (interpretRemote_onward config env inv.sound
        (inv.executing task member) (sparing task found)) _
  | close task found =>
      have member := List.mem_of_find?_eq_some found
      have closed := closeNode_onward inv.sound task.ref.nodeId
      exact inv.setTask task ⟨closed, (inv.executing task member).onward closed.extends_⟩ _
  | inspect task phase found =>
      have member := List.mem_of_find?_eq_some found
      have kept : Handled.Onward runtime.session ⟨runtime.session, task.ref, none⟩ :=
        ⟨.refl inv.sound, inv.settling task member⟩
      exact inv.setSettleTask task kept _
  | resolve task helper found =>
      have member := List.mem_of_find?_eq_some found
      exact inv.setSettleTask task
        (resolveFromHelper_onward inv.sound (inv.settling task member) _) _
  | act env decision task found =>
      have member := List.mem_of_find?_eq_some found
      exact inv.setSettleTask task (actOnDecision_onward config env inv.sound
        (inv.settling task member) (sparing task found) decision) _
  | cancel => exact .evict (cancelAll_onward inv.sound sparing).sound
  | reload => exact .loaded inv.sound.saved

theorem step_support (config : ExecutorConfig) (runtime : Runtime) (event : Event)
    (next : Runtime) (inv : SupportInv runtime) (sparing : SparesWaiting config runtime event)
    (stepped : runtime.step config event = some next) : SupportInv next := by
  rcases step_cases stepped with rfl | ⟨_, stepped⟩
  · exact .loaded inv.sound.saved
  · exact advance_support inv sparing stepped

end Runtime

/-- In every run from a fresh session whose steps all spare the waiting nodes, no
state has a dead dependency. -/
theorem no_dead_dependency (config : ExecutorConfig) (events : List Event) (reached : Runtime)
    (guarded : Runs.Guarded (Runtime.step config) (Runtime.SparesWaiting config) (.loaded {})
      events)
    (ran : Runs.run (Runtime.step config) (.loaded {}) events = some reached) :
    reached.session.state.NoDeadDependency :=
  (Runs.run_invariant Runtime.SupportInv (Runtime.step_support config) events _ reached
    (.loaded (supported_empty rfl)) guarded ran).sound.state.none_dead

section Chain

/-! A chain of nodes whose first is interrupted at work: the second is
invalidated, and the third goes on waiting for it. -/

def chainEnv : Env := ⟨["writer"], "now", fun drawn => toString drawn⟩

def chain : List PlanNodeDraft :=
  [⟨"n1", "first", "writer", .empty, []⟩, ⟨"n2", "second", "writer", .empty, ["n1"]⟩,
    ⟨"n3", "third", "writer", .empty, ["n2"]⟩]

/-- The nodes are planned, the first is at work and the human interrupts it. -/
def interrupted (drafts : List PlanNodeDraft) : List Event := [
  .message { taskId := "t1", text := "write" } chainEnv [some drafts],
  .clearWake, .dispatch, .start 0,
  .message { taskId := "t2", text := "stop", interrupt := true } chainEnv []]

/-- Without the third node the interrupt reaches all that waits. -/
theorem short_chain_cut :
    Runs.Ends (Runtime.step {}) (.loaded {}) (interrupted (chain.take 2)) fun runtime =>
      runtime.session.state.NoDeadDependency := by
  have guarded : Runs.Guarded (Runtime.step {}) (Runtime.SparesWaiting {}) (.loaded {})
      (interrupted (chain.take 2)) := by
    decide +kernel
  have ends : Runs.Ends (Runtime.step {}) (.loaded {}) (interrupted (chain.take 2))
      fun _ => True := by
    decide +kernel
  obtain ⟨reached, ran, _⟩ := ends
  exact ⟨reached, ran, no_dead_dependency {} _ reached guarded ran⟩

theorem interrupted_chain_waits :
    ¬ ∀ (config : ExecutorConfig) (events : List Event) (reached : Runtime),
      Runs.run (Runtime.step config) (.loaded {}) events = some reached →
        reached.session.state.NoDeadDependency := by
  intro claim
  have ends : Runs.Ends (Runtime.step {}) (.loaded {}) (interrupted chain)
      fun runtime => ¬ runtime.session.state.NoDeadDependency := by
    decide +kernel
  obtain ⟨reached, ran, dead⟩ := ends
  exact dead (claim {} (interrupted chain) reached ran)

end Chain

end Choirworks.Orchestration
