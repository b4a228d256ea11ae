import Choirworks.Orchestration.Conversation
import Choirworks.Orchestration.InFlight
import Choirworks.Orchestration.Restart
import Choirworks.Orchestration.Statuses

/-!
Who executes the active nodes. Statuses are stored and executions are not, so a
session in memory and a session that was just loaded differ: in memory every
active node has an execution, whatever the session does, while a loaded state
has none. The recovery resets what was in flight; no other way back does.
-/

namespace Choirworks.Orchestration

open OrchestrationState

/-! ### What an execution does to its node -/

/-- Until the outcome of its remote call, and when it has raised, an execution
accounts for its node. -/
def TaskPhase.holds : TaskPhase → Bool
  | .created | .remote | .done (some _) => true
  | .closing | .done none => false

section Parts

variable (config : ExecutorConfig) (env : Env) (session : Session) (ref : NodeRef)
  {nodeId : String} {fields : NodeState → NodeState}

theorem write_others {node later : NodeState} (found : session.read ref = some node)
    (same : later.id = node.id) (other : ref ≠ .planned nodeId) :
    (session.write ref later).1.state.status? nodeId = session.state.status? nodeId := by
  cases ref with
  | detached own => rfl
  | planned ownId =>
      have own : later.id = ownId := same.trans (read_nodeId found)
      have apart : nodeId ≠ later.id := fun hit => other (by rw [hit, own])
      simp [Session.write, apart]

theorem transition_others (keeps : ∀ node, (fields node).id = node.id) (target : NodeStatus)
    (other : ref ≠ .planned nodeId) :
    (session.transition ref fields target).session.state.status? nodeId =
      session.state.status? nodeId := by
  unfold Session.transition
  split
  · rfl
  · rename_i node found
    split
    · exact write_others session ref found (keeps node) other
    · rename_i moved allowed
      obtain ⟨_, rfl⟩ := NodeState.apply_transition_ok allowed
      exact write_others session ref found (keeps node) other

theorem change_others (keeps : ∀ node, (fields node).id = node.id)
    (other : ref ≠ .planned nodeId) :
    (session.change ref fields).session.state.status? nodeId = session.state.status? nodeId := by
  unfold Session.change
  split
  · rfl
  · rename_i node found
    exact write_others session ref found (keeps node) other

theorem change_planned : (session.change (.planned nodeId) fields).ref = .planned nodeId := by
  unfold Session.change
  split <;> rfl

/-- The start of an execution touches its own node only. -/
theorem startNode_others (mode : Mode) (other : ref ≠ .planned nodeId) :
    (startNode session ref mode).session.state.status? nodeId = session.state.status? nodeId := by
  cases mode with
  | recover => exact transition_others session ref (fun _ => rfl) .recover other
  | continuation =>
      exact change_others session ref (fun node => takeAnswer_id (countAttempt node)) other
  | dispatch =>
      have begun := transition_others session ref countAttempt_keeps.nodeId .submitted other
      have still : (session.transition ref countAttempt .submitted).ref ≠ .planned nodeId :=
        fun planned => other (planned_of_transition planned)
      simp only [startNode]
      split
      · exact begun
      · exact (change_others _ _ takeAnswer_id still).trans begun

theorem startNode_planned (mode : Mode) :
    (startNode session (.planned nodeId) mode).ref = .planned nodeId := by
  cases mode with
  | recover => exact transition_planned nodeId
  | continuation => exact change_planned session
  | dispatch =>
      simp only [startNode]
      split
      · exact transition_planned nodeId
      · rw [transition_planned]
        exact change_planned _

theorem chunkNode_others (a2aTaskId : Option String) (submitted : Bool)
    (other : ref ≠ .planned nodeId) :
    (chunkNode session ref a2aTaskId submitted).session.state.status? nodeId =
      session.state.status? nodeId := by
  unfold chunkNode
  split
  · apply transition_others session ref _ _ other
    exact fun _ => rfl
  · apply change_others session ref _ other
    exact fun _ => rfl

theorem chunkNode_planned (a2aTaskId : Option String) (submitted : Bool) :
    (chunkNode session (.planned nodeId) a2aTaskId submitted).ref = .planned nodeId := by
  unfold chunkNode
  split
  · exact transition_planned nodeId
  · exact change_planned session

theorem markDelivered_planned :
    (markDelivered config env session (.planned nodeId)).ref = .planned nodeId := by
  simp only [markDelivered]
  split <;> exact transition_planned nodeId

theorem interpretRemote_planned (remote : Remote) (answered : Option OutcomeResult) :
    (interpretRemote config env session (.planned nodeId) remote answered).ref =
      .planned nodeId := by
  simp only [interpretRemote]
  split
  · split
    · rfl
    · simp only [outcomeFlow, Session.write]
      split
      · exact transition_planned nodeId
      · exact markDelivered_planned config env _
      · exact markDelivered_planned config env _
  all_goals exact transition_planned nodeId

variable {session}

/-- A transition that did not raise gives its node the status. -/
theorem transition_reaches {target : NodeStatus}
    (quiet : (session.transition (.planned nodeId) fields target).raised = none)
    (keeps : ∀ node, (fields node).id = node.id) :
    ∀ status ∈ (session.transition (.planned nodeId) fields target).session.state.status? nodeId,
      status = target := by
  intro status found
  obtain ⟨node, there, same⟩ := Option.map_eq_some_iff.mp found
  rw [← same]
  apply transition_status keeps quiet
  rwa [transition_planned]

/-- What the end of a remote call leaves its own node with, unless it raised. -/
theorem markDelivered_over
    (quiet : (markDelivered config env session (.planned nodeId)).raised = none) :
    ∀ status ∈ (markDelivered config env session (.planned nodeId)).session.state.status? nodeId,
      status ∉ activeNodeStatuses := by
  have settled : ∀ status ∈ [NodeStatus.completed, .pending], status ∉ activeNodeStatuses := by
    decide
  have moved : (session.transition (.planned nodeId) id .completed).raised = none := by
    simp only [markDelivered] at quiet
    split at quiet <;> exact quiet
  have reached := transition_reaches moved (fun _ => rfl)
  intro status found
  simp only [markDelivered] at found
  split at found
  · rename_i node _ _
    have helped := arbitrateMentions_enters config env
      (session.transition (.planned nodeId) id .completed).session node
    have drained := deliverQueued_enters config env
      (arbitrateMentions config env (session.transition (.planned nodeId) id .completed).session
        node) node
    rcases (helped.trans drained) nodeId status found with before | listed
    · exact settled status (by rw [reached status before]; exact List.mem_cons_self)
    · exact settled status (List.mem_cons_of_mem _ listed)
  · exact settled status (by rw [reached status found]; exact List.mem_cons_self)

theorem outcomeFlow_over (answered : Option OutcomeResult)
    (quiet : (outcomeFlow config env session (.planned nodeId) answered).raised = none) :
    ∀ status ∈ (outcomeFlow config env session (.planned nodeId)
      answered).session.state.status? nodeId, status ∉ activeNodeStatuses := by
  intro status found
  simp only [outcomeFlow] at quiet found
  split at quiet <;> rename_i intent <;> simp only [intent] at found
  · rw [transition_reaches quiet (fun _ => rfl) status found]
    decide
  · exact markDelivered_over config env quiet status found
  · exact markDelivered_over config env quiet status found

theorem interpretRemote_over (remote : Remote) (answered : Option OutcomeResult)
    (quiet : (interpretRemote config env session (.planned nodeId) remote answered).raised = none) :
    ∀ status ∈ (interpretRemote config env session (.planned nodeId) remote
      answered).session.state.status? nodeId, status ∉ activeNodeStatuses := by
  intro status found
  cases ended : remote.ended with
  | completed =>
      cases there : session.read (.planned nodeId) with
      | none =>
          simp only [interpretRemote, ended, there] at found
          rw [status?, show session.state.node? nodeId = none from there] at found
          cases found
      | some node =>
          simp only [interpretRemote, ended, there, Session.write] at quiet found
          exact outcomeFlow_over config env answered quiet status found
  | canceled =>
      simp only [interpretRemote, ended] at quiet found
      rw [transition_reaches quiet (fun _ => rfl) status found]
      decide
  | inputRequired =>
      simp only [interpretRemote, ended] at quiet found
      rw [transition_reaches quiet (fun _ => rfl) status found]
      decide
  | stopped =>
      simp only [interpretRemote, ended] at quiet found
      rw [transition_reaches quiet (fun _ => rfl) status found]
      decide

end Parts

/-! ### The invariant -/

namespace Runtime

/-- Every active node has an execution that runs, or is over and collected by a
live loop. -/
def Owned (runtime : Runtime) : Prop :=
  ∀ node ∈ runtime.session.state.activeNodes, ∃ task ∈ runtime.nodeTasks,
    task.ref = .planned node.id ∧ (task.done = false ∨ runtime.alive = true)

instance (runtime : Runtime) : Decidable runtime.Owned :=
  inferInstanceAs (Decidable (∀ node ∈ _, ∃ task ∈ _, _))

def waitingRunners : List Runner := [.head, .locking, .waiting]

/-- What a session in memory keeps, of the nodes concerned. -/
structure OwnedInv (config : ExecutorConfig) (concerned : String → Prop) (runtime : Runtime) :
    Prop where
  tasks : TaskInv config runtime
  owners : ∀ nodeId, concerned nodeId → ∀ status ∈ runtime.session.state.status? nodeId,
    status ∈ activeNodeStatuses →
      ∃ task ∈ runtime.nodeTasks, task.ref = .planned nodeId ∧ task.phase.holds = true
  live : runtime.nodeTasks ≠ [] → runtime.runner ∈ waitingRunners

section Invariant

variable {config : ExecutorConfig} {concerned : String → Prop} {runtime next : Runtime}
  {entered : List NodeStatus}

theorem alive_of_waiting (waits : runtime.runner ∈ waitingRunners) : runtime.alive = true := by
  simp only [waitingRunners, List.mem_cons, List.not_mem_nil, or_false] at waits
  rcases waits with same | same | same <;> simp [alive, same]

theorem OwnedInv.owned (inv : OwnedInv config (fun _ => True) runtime) : runtime.Owned := by
  intro node member
  obtain ⟨row, active⟩ := List.mem_filter.mp member
  obtain ⟨task, inside, ref, _⟩ := inv.owners node.id trivial node.status
    (runtime.session.state.status_of_mem row) (of_decide_eq_true active)
  exact ⟨task, inside, ref,
    Or.inr (alive_of_waiting (inv.live (List.ne_nil_of_mem inside)))⟩

theorem OwnedInv.mono {fewer : String → Prop} (inv : OwnedInv config concerned runtime)
    (all : ∀ nodeId, fewer nodeId → concerned nodeId) : OwnedInv config fewer runtime :=
  ⟨inv.tasks, fun nodeId concerns => inv.owners nodeId (all nodeId concerns), inv.live⟩

/-- Nothing is active without an execution. -/
theorem OwnedInv.idle (inv : OwnedInv config concerned runtime) (none : runtime.nodeTasks = []) :
    ∀ nodeId, concerned nodeId → ∀ status ∈ runtime.session.state.status? nodeId,
      status ∉ activeNodeStatuses := by
  intro nodeId concerns status found active
  obtain ⟨task, inside, _⟩ := inv.owners nodeId concerns status found active
  rw [none] at inside
  cases inside

theorem OwnedInv.of_idle (tasks : TaskInv config next)
    (idle : ∀ nodeId, concerned nodeId → ∀ status ∈ next.session.state.status? nodeId,
      status ∉ activeNodeStatuses)
    (live : next.nodeTasks ≠ [] → next.runner ∈ waitingRunners) : OwnedInv config concerned next :=
  ⟨tasks, fun nodeId concerns status found active =>
    absurd active (idle nodeId concerns status found), live⟩

/-- A step that makes no node active and leaves the executions alone. -/
theorem OwnedInv.calm (inv : OwnedInv config concerned runtime)
    (effect : Enters entered runtime.session.state next.session.state)
    (calm : ∀ status ∈ entered, status ∉ activeNodeStatuses)
    (counter : next.nextTask = runtime.nextTask) (same : next.nodeTasks = runtime.nodeTasks)
    (live : runtime.runner ∈ waitingRunners → next.runner ∈ waitingRunners) :
    OwnedInv config concerned next where
  tasks := (Inherits.unchanged counter same).inv inv.tasks
  owners := by
    intro nodeId concerns status found active
    have before := effect.absent (fun listed => calm status listed active) found
    rw [same]
    exact inv.owners nodeId concerns status before active
  live := by
    rw [same]
    exact fun some_task => live (inv.live some_task)

theorem loaded_owned_of_idle {saved : OrchestrationState}
    (idle : ∀ nodeId, concerned nodeId → ∀ status ∈ saved.status? nodeId,
      status ∉ activeNodeStatuses) : OwnedInv config concerned (loaded saved) := by
  refine .of_idle (loaded_tasks config saved) ?_ (fun some_task => absurd rfl some_task)
  intro nodeId concerns status found
  exact idle nodeId concerns status ((saved.status_restored nodeId).symm.trans found)

theorem loaded_owned {saved : OrchestrationState} (none : saved.activeNodes = []) :
    OwnedInv config concerned (loaded saved) := by
  apply loaded_owned_of_idle
  intro nodeId _ status stored active
  obtain ⟨node, member, _, rfl⟩ := saved.status_eq_some nodeId stored
  have listed : node ∈ saved.activeNodes := List.mem_filter.mpr ⟨member, by simpa using active⟩
  rw [none] at listed
  cases listed

theorem loaded_owned_iff (saved : OrchestrationState) :
    (loaded saved).Owned ↔ saved.activeNodes = [] := by
  constructor
  · intro owned
    by_contra some_active
    obtain ⟨node, member⟩ := List.exists_mem_of_ne_nil _ some_active
    obtain ⟨row, active⟩ := List.mem_filter.mp member
    have restored : { node with output := truncate node.output } ∈
        (loaded saved).session.state.activeNodes :=
      List.mem_filter.mpr ⟨List.mem_map_of_mem row, active⟩
    obtain ⟨task, inside, _⟩ := owned _ restored
    cases inside
  · intro none
    have inv : OwnedInv {} (fun _ => True) (loaded saved) := loaded_owned none
    exact inv.owned

/-! ### The steps of an execution -/

/-- An active node behind a part of an execution was active and is not its
business, or is the one that the execution goes on to hold. -/
theorem OwnedInv.setTask (inv : OwnedInv config concerned runtime) {task : NodeTask}
    (member : task ∈ runtime.nodeTasks) (underway : task.done = false) {handled : Handled}
    {phase : TaskPhase} (same : handled.ref.nodeId = task.ref.nodeId)
    (effect : ∀ nodeId, ∀ status ∈ handled.session.state.status? nodeId,
      status ∈ activeNodeStatuses →
        (runtime.session.state.status? nodeId = some status ∧
          (task.ref = .planned nodeId → task.phase.holds = false)) ∨
          (handled.ref = .planned nodeId ∧ phase.holds = true)) :
    OwnedInv config concerned (runtime.setTask task handled phase) where
  tasks := (setTask_inherits inv.tasks.unique member underway same phase).inv inv.tasks
  owners := by
    intro nodeId concerns status found active
    rcases effect nodeId status found active with ⟨before, apart⟩ | ⟨ref, holds⟩
    · obtain ⟨owner, inside, ref, holds⟩ := inv.owners nodeId concerns status before active
      have other : owner.id ≠ task.id := by
        intro hit
        obtain rfl := List.inj_on_of_nodup_map inv.tasks.unique inside member hit
        simp [apart ref] at holds
      exact ⟨owner, List.mem_map.mpr ⟨owner, inside, by simp [other]⟩, ref, holds⟩
    · exact ⟨{ task with ref := handled.ref, phase },
        List.mem_map.mpr ⟨task, member, by simp⟩, ref, holds⟩
  live := by
    intro some_task
    apply inv.live
    intro none
    simp [Runtime.setTask, none] at some_task

theorem start_owned (inv : OwnedInv config concerned runtime) {taskId : Nat}
    (stepped : runtime.start taskId = some next) : OwnedInv config concerned next := by
  obtain ⟨task, found, rfl⟩ := Option.map_eq_some_iff.mp stepped
  obtain ⟨member, created⟩ := task_found found
  apply inv.setTask member (by simp [NodeTask.done, created]) (startNode_nodeId _ _ _)
  intro nodeId status now active
  by_cases own : task.ref = .planned nodeId
  · right
    rw [own, startNode_planned]
    refine ⟨rfl, ?_⟩
    split <;> rfl
  · left
    rw [startNode_others _ _ _ own] at now
    exact ⟨now, fun ref => absurd ref own⟩

theorem chunk_owned (inv : OwnedInv config concerned runtime) {taskId : Nat} {a2aTaskId : Option String}
    {submitted : Bool} (stepped : runtime.chunk taskId a2aTaskId submitted = some next) :
    OwnedInv config concerned next := by
  unfold chunk at stepped
  split at stepped
  · cases stepped
  · rename_i task found
    obtain ⟨member, remote⟩ := task_found found
    dsimp only at stepped
    split at stepped
    · cases stepped
      apply inv.setTask member (by simp [NodeTask.done, remote]) (chunkNode_nodeId _ _ _ _)
      intro nodeId status now active
      by_cases own : task.ref = .planned nodeId
      · right
        rw [own, chunkNode_planned]
        exact ⟨rfl, rfl⟩
      · left
        rw [chunkNode_others _ _ _ _ own] at now
        exact ⟨now, fun ref => absurd ref own⟩
    · cases stepped

/-- The outcome ends the activity of its node, or raises. -/
theorem outcome_owned (inv : OwnedInv config concerned runtime) {taskId : Nat} {env : Env} {remote : Remote}
    {answered : Option OutcomeResult}
    (stepped : runtime.outcome config taskId env remote answered = some next) :
    OwnedInv config concerned next := by
  obtain ⟨task, found, rfl⟩ := Option.map_eq_some_iff.mp stepped
  obtain ⟨member, underway⟩ := task_found found
  apply inv.setTask member (by simp [NodeTask.done, underway])
    (interpretRemote_nodeId _ _ _ _ _ _)
  intro nodeId status now active
  by_cases own : task.ref = .planned nodeId
  · right
    rw [own] at now ⊢
    refine ⟨interpretRemote_planned config env _ remote answered, ?_⟩
    cases raised : (interpretRemote config env runtime.session (.planned nodeId) remote
        answered).raised with
    | some text => rfl
    | none => exact absurd active (interpretRemote_over config env remote answered raised status now)
  · left
    have effect := interpretRemote_enters config env runtime.session task.ref remote answered
    have settled : status ∉ [NodeStatus.completed, .inputRequired, .canceled, .failed, .pending,
        .invalidated] := by
      revert active
      cases status <;> decide
    exact ⟨effect.absent settled now, fun ref => absurd ref own⟩

theorem close_owned (inv : OwnedInv config concerned runtime) {taskId : Nat}
    (stepped : runtime.close taskId = some next) : OwnedInv config concerned next := by
  obtain ⟨task, found, rfl⟩ := Option.map_eq_some_iff.mp stepped
  obtain ⟨member, closing⟩ := task_found found
  apply inv.setTask member (by simp [NodeTask.done, closing]) rfl
  intro nodeId status now _
  left
  exact ⟨(closeNode_enters runtime.session _).absent List.not_mem_nil now,
    fun _ => by rw [closing]; rfl⟩

theorem settle_owned (inv : OwnedInv config concerned runtime) {taskId : Nat}
    (stepped : runtime.inspect taskId = some next ∨ runtime.resolve taskId = some next ∨
      ∃ env decision, runtime.act config taskId env decision = some next) :
    OwnedInv config concerned next := by
  rcases stepped with stepped | stepped | ⟨env, decision, stepped⟩
  · unfold inspect at stepped
    split at stepped
    · cases stepped
    · split at stepped
      · cases stepped
        exact inv.calm (.refl [] _) (by simp) rfl rfl id
      · cases stepped
  · unfold resolve at stepped
    split at stepped
    · cases stepped
    · split at stepped
      · cases stepped
        exact inv.calm (resolveFromHelper_enters _ _ _) (by decide) rfl rfl id
      · cases stepped
  · unfold act at stepped
    split at stepped
    · cases stepped
    · split at stepped
      · cases stepped
        exact inv.calm (actOnDecision_enters config env _ _ decision) (by decide) rfl rfl id
      · cases stepped

/-! ### The loop -/

/-- The collection of an execution that raised ends the activity of its node. -/
theorem collectTask_over (session : Session) {task : NodeTask} {nodeId text : String}
    (ref : task.ref = .planned nodeId) (raised : task.phase = .done (some text)) :
    ∀ status ∈ (collectTask session task).state.status? nodeId, status ∉ activeNodeStatuses := by
  intro status found
  unfold collectTask at found
  simp only [raised, ref] at found
  cases there : session.state.node? nodeId with
  | none =>
      simp only [there] at found
      rw [status?, there] at found
      cases found
  | some node =>
      obtain rfl := (session.state.node_mem nodeId there).2
      simp only [there] at found
      split at found
      · simp only [status_setNode, ↓reduceIte, Option.mem_some_iff] at found
        subst found
        decide
      · rename_i stays
        simp only [status_setNode, ↓reduceIte, Option.mem_some_iff] at found
        subst found
        revert stays
        unfold NodeState.canTransition
        cases node.status <;> decide

theorem collect_enters (tasks : List NodeTask) (session : Session) :
    Enters [.failed] session.state (tasks.foldl collectTask session).state := by
  induction tasks generalizing session with
  | nil => exact .refl _ _
  | cons task rest ih => exact (collectTask_enters session task).trans (ih _)

theorem collected_over (tasks : List NodeTask) (session : Session) {task : NodeTask}
    {nodeId : String} (member : task ∈ tasks) (ref : task.ref = .planned nodeId)
    (holds : task.phase.holds = true) (isDone : task.done = true) :
    ∀ status ∈ (tasks.foldl collectTask session).state.status? nodeId,
      status ∉ activeNodeStatuses := by
  obtain ⟨front, rest, rfl⟩ := List.append_of_mem member
  obtain ⟨text, raised⟩ : ∃ text, task.phase = .done (some text) := by
    unfold NodeTask.done at isDone
    unfold TaskPhase.holds at holds
    cases phase : task.phase with
    | done exception =>
        cases exception with
        | some text => exact ⟨text, rfl⟩
        | none => simp [phase] at holds
    | _ => simp [phase] at isDone
  rw [List.foldl_append, List.foldl_cons]
  intro status found
  rcases collect_enters rest _ nodeId status found with before | listed
  · exact collectTask_over _ ref raised status before
  · rw [List.mem_singleton.mp listed]
    decide

theorem collect_owned (inv : OwnedInv config concerned runtime) : OwnedInv config concerned runtime.collect where
  tasks := runtime.collect_inherits.inv inv.tasks
  owners := by
    intro nodeId concerns status found active
    have failed : status ∉ [NodeStatus.failed] := by
      revert active
      cases status <;> decide
    have before := (collect_enters _ _).absent failed found
    obtain ⟨owner, inside, ref, holds⟩ := inv.owners nodeId concerns status before active
    cases isDone : owner.done with
    | false => exact ⟨owner, List.mem_filter.mpr ⟨inside, by simp [isDone]⟩, ref, holds⟩
    | true =>
        have collected := List.mem_filter.mpr ⟨inside, isDone⟩
        exact absurd active (collected_over _ _ collected ref holds isDone status found)
  live := fun _ => List.mem_cons_self

theorem spawnTasks_owner (first : Nat) {nodes : List NodeState} {node : NodeState}
    (member : node ∈ nodes) :
    ∃ task ∈ spawnTasks first nodes, task.ref = .planned node.id ∧ task.phase = .created := by
  induction nodes generalizing first with
  | nil => cases member
  | cons head rest ih =>
      rcases List.mem_cons.mp member with rfl | later
      · exact ⟨_, List.mem_cons_self, rfl, rfl⟩
      · obtain ⟨task, inside, owns⟩ := ih (first + 1) later
        exact ⟨task, List.mem_cons_of_mem _ inside, owns⟩

/-- The block makes only nodes active that it starts an execution for. -/
theorem dispatch_owned (inv : OwnedInv config concerned runtime) :
    OwnedInv config concerned (runtime.dispatch config) where
  tasks := dispatch_inv inv.tasks
  owners := by
    intro nodeId concerns status found active
    have unpersisted : (runtime.dispatch config).session.state =
        (runtime.session.state.retryFailed config).moveNodes
          (((runtime.nextUp config).filter fun node => node.status ≠ .recover).map (·.id))
          .submitted := by
      simp only [dispatch]
      split <;> rfl
    rw [unpersisted, status_moveNodes, Option.mem_def, Option.map_eq_some_iff] at found
    obtain ⟨before, known, same⟩ := found
    split at same
    · rename_i started
      obtain ⟨node, picked, rfl⟩ := List.mem_map.mp started
      obtain ⟨task, inside, ref, created⟩ :=
        spawnTasks_owner (runtime.nextTask + (spawnSettleTasks runtime.nextTask
          (runtime.unsettled (runtime.session.state.retryFailed config))).length)
          (List.mem_filter.mp picked).1
      exact ⟨task, List.mem_append_right _ inside, ref, by rw [created]; rfl⟩
    · subst same
      have pending : before ∉ [NodeStatus.pending] := by
        revert active
        cases before <;> decide
      have stood := (retryFailed_enters config runtime.session.state).absent pending known
      obtain ⟨owner, inside, owns⟩ := inv.owners nodeId concerns before stood active
      exact ⟨owner, List.mem_append_left _ inside, owns⟩
  live := by
    intro some_task
    have busy : (runtime.dispatch config).runner = .waiting := by
      simp only [dispatch] at some_task ⊢
      rw [if_neg fun none => some_task none.1]
    rw [busy]
    decide

/-- Nothing is executed at `plan_flow`. -/
theorem OwnedInv.unexecuted (inv : OwnedInv config concerned runtime)
    (atFlow : runtime.runner = .flow) : runtime.nodeTasks = [] := by
  by_contra some_task
  have waits := inv.live some_task
  rw [atFlow] at waits
  revert waits
  decide

/-- At `plan_flow` nothing is executed, so nothing is active. -/
theorem flow_owned (inv : OwnedInv config concerned runtime) (atFlow : runtime.runner = .flow) (env : Env)
    (decision : Option PlanPatch) : OwnedInv config concerned (runtime.flow config env decision) := by
  have none := inv.unexecuted atFlow
  have idle := inv.idle none
  have after : ∀ nodeId, concerned nodeId →
      ∀ status ∈ (planFlow config env runtime.session runtime.busy decision).1.state.status? nodeId,
        status ∉ activeNodeStatuses := by
    intro nodeId concerns status found
    rcases planFlow_enters config env runtime.session runtime.busy decision nodeId status found
      with before | listed
    · exact idle nodeId concerns status before
    · revert listed
      cases status <;> decide
  have tasks : TaskInv config (runtime.flow config env decision) :=
    (runtime.flow_inherits config env decision).inv inv.tasks
  unfold flow at tasks ⊢
  dsimp only at tasks ⊢
  split at tasks
  · exact .of_idle tasks after fun some_task => absurd none some_task
  all_goals exact .of_idle tasks after fun some_task => absurd rfl some_task

/-! ### Messages -/

theorem startRunner_waiting (waits : runtime.runner ∈ waitingRunners) :
    runtime.startRunner.runner ∈ waitingRunners := by
  unfold startRunner
  split
  · exact waits
  · exact List.mem_cons_self

theorem finish_waiting (runtime : Runtime) (needsRunner : Bool)
    (waits : runtime.runner ∈ waitingRunners) :
    (runtime.finish needsRunner).runner ∈ waitingRunners := by
  unfold finish
  split
  · exact startRunner_waiting waits
  · exact waits

/-- A change of the session, behind which the runner may be started. -/
theorem OwnedInv.finish (inv : OwnedInv config concerned runtime) {session : Session}
    (effect : Enters entered runtime.session.state session.state)
    (calm : ∀ status ∈ entered, status ∉ activeNodeStatuses) (wake needsRunner : Bool) :
    OwnedInv config concerned (Runtime.finish { runtime with session, wake } needsRunner) := by
  have same : (Runtime.finish { runtime with session, wake } needsRunner).nextTask =
      runtime.nextTask ∧ (Runtime.finish { runtime with session, wake } needsRunner).nodeTasks =
        runtime.nodeTasks := by
    unfold Runtime.finish startRunner
    split
    · split <;> exact ⟨rfl, rfl⟩
    · exact ⟨rfl, rfl⟩
  have changed : Enters entered runtime.session.state
      (Runtime.finish { runtime with session, wake } needsRunner).session.state := by
    rw [finish_session]
    exact effect
  exact inv.calm changed calm same.1 same.2 fun waits =>
    finish_waiting { runtime with session, wake } needsRunner waits

/-- The nodes of a new plan have not begun. -/
theorem planAndLaunch_begins (runtime : Runtime) (config : ExecutorConfig) (env : Env)
    (drafts : List (Option (List PlanNodeDraft))) (mentions : List String) :
    (runtime.planAndLaunch config env drafts mentions).evicted = true ∨
      ∀ nodeId, ∀ status ∈
        (runtime.planAndLaunch config env drafts mentions).session.state.status? nodeId,
        status = .pending := by
  simp only [planAndLaunch]
  split
  · exact Or.inl rfl
  · exact Or.inl rfl
  · rename_i nodes _ _
    right
    intro nodeId status found
    rw [startRunner_session] at found
    have created := createPlan_enters env
      (runtime.startNewPlan (planId env)).session.state nodes
    rcases (created.trans (.quiet (joinMembers_quiet env _ mentions "human_mention"))) nodeId
      status found with before | listed
    · cases before
    · exact List.mem_singleton.mp listed

theorem planAndLaunch_owned (inv : OwnedInv config concerned runtime) (env : Env)
    (drafts : List (Option (List PlanNodeDraft))) (mentions : List String) :
    (runtime.planAndLaunch config env drafts mentions).evicted = true ∨
      OwnedInv config concerned (runtime.planAndLaunch config env drafts mentions) := by
  refine (planAndLaunch_begins runtime config env drafts mentions).imp_right fun begins => ?_
  have tasks := (runtime.planAndLaunch_inherits config env drafts mentions).inv inv.tasks
  refine .of_idle tasks (fun nodeId _ status found => ?_) ?_
  · rw [begins nodeId status found]
    decide
  · simp only [planAndLaunch]
    split
    · exact fun some_task => absurd rfl some_task
    · exact fun some_task => absurd rfl some_task
    · intro some_task
      apply startRunner_waiting
      apply inv.live
      intro none
      apply some_task
      simp [startNewPlan, none]

theorem handle_owned (inv : OwnedInv config concerned runtime) (env : Env) (inbound : Inbound)
    (drafts : List (Option (List PlanNodeDraft))) (handler : Handler) :
    (runtime.handle config env inbound drafts handler).evicted = true ∨
      OwnedInv config concerned (runtime.handle config env inbound drafts handler) := by
  cases handler with
  | reject => exact Or.inr inv
  | complete => exact Or.inl rfl
  | reemitQuestions =>
      exact Or.inr (inv.calm (emitPendingQuestions_enters _) (by simp) rfl rfl id)
  | noop => exact Or.inr (inv.finish (.refl [] _) (by simp) runtime.wake _)
  | recover =>
      exact Or.inr (inv.finish (recoverSession_enters runtime.session) (by decide) runtime.wake true)
  | enqueue target quoteId =>
      let state := runtime.session.state.enqueue target.id inbound.request quoteId env.now
      let session := { runtime.session with state }.persist
      have queued : Enters [] runtime.session.state session.state := .congr rfl
      exact Or.inr (inv.finish queued (by simp) runtime.wake _)
  | spawnFollowup target =>
      exact Or.inr
        (inv.finish (spawnDerivedNode_enters config env _ _) (by decide) runtime.wake _)
  | interrupt target =>
      exact Or.inr (inv.finish (interrupt_enters config env _ target inbound.request) (by decide)
        runtime.wake _)
  | answers responses =>
      right
      have answered := answerAll_enters runtime.session responses
      simp only [handle]
      split
      · exact inv.finish (answered.trans ((emitPendingQuestions_enters _).mono (by simp)))
          (by decide) true true
      · exact inv.calm answered (by decide) rfl rfl id
  | planAndLaunch => exact planAndLaunch_owned inv env drafts _
  | newPlan =>
      simp only [handle]
      rcases planAndLaunch_owned inv env drafts [] with evicted | launched
      · left
        unfold Runtime.finish startRunner
        split
        · split <;> exact evicted
        · exact evicted
      · right
        exact launched.finish (.refl [] _) (by simp) _ runtime.needsRunner

theorem message_owned (inv : OwnedInv config concerned runtime)
    {inbound : Inbound} {env : Env} {drafts : List (Option (List PlanNodeDraft))}
    (stepped : runtime.step config (.message inbound env drafts) = some next) :
    next.evicted = true ∨ OwnedInv config concerned next := by
  rw [step_message stepped]
  exact handle_owned inv env inbound drafts _

/-- The recovery owes nothing to what was loaded. -/
theorem recover_owned {saved : OrchestrationState} {inbound : Inbound} {env : Env}
    {drafts : List (Option (List PlanNodeDraft))} (restarts : inbound.recover = true)
    (stepped : (loaded saved).step config (.message inbound env drafts) = some next) :
    OwnedInv config concerned next := by
  obtain ⟨other, taken, state⟩ := recover_run config saved inbound env drafts restarts
  obtain rfl : other = next := Option.some.inj (taken.symm.trans stepped)
  have tasks := step_tasks config _ _ _ (loaded_tasks config saved) stepped
  have none : other.nodeTasks = [] := by
    rw [step_message stepped, classify, if_pos restarts]
    rfl
  refine .of_idle tasks ?_ fun some_task => absurd none some_task
  rw [state]
  exact fun nodeId _ => saved.recovered_inactive nodeId

theorem inner_owned {event : Event} (inv : OwnedInv config concerned runtime) (isInner : event.inner = true)
    (stepped : runtime.step config event = some next) :
    next.evicted = true ∨ OwnedInv config concerned next := by
  obtain ⟨_, stepped⟩ := step_inner isInner stepped
  cases advances stepped with
  | message | reload => cases isInner
  | clearWake =>
      exact Or.inr (inv.calm (.refl [] _) (by simp) rfl rfl fun _ => by simp [waitingRunners])
  | dispatch => exact Or.inr (dispatch_owned inv)
  | collect => exact Or.inr (collect_owned inv)
  | flow env decision atFlow => exact Or.inr (flow_owned inv atFlow env decision)
  | start => exact Or.inr (start_owned inv stepped)
  | chunk => exact Or.inr (chunk_owned inv stepped)
  | outcome => exact Or.inr (outcome_owned inv stepped)
  | close => exact Or.inr (close_owned inv stepped)
  | inspect => exact Or.inr (settle_owned inv (Or.inl stepped))
  | resolve => exact Or.inr (settle_owned inv (Or.inr (Or.inl stepped)))
  | act env decision =>
      exact Or.inr (settle_owned inv (Or.inr (Or.inr ⟨env, decision, stepped⟩)))
  | cancel => exact Or.inl rfl

end Invariant

end Runtime

/-! ### Conversations -/

namespace Conversation

/-- A message that opens the session finds no active node in its stored state,
unless it is the recovery. -/
def OpensIdle (conversation : Conversation) : ConversationEvent → Prop
  | .message _ inbound _ _ _ => inbound.recover = false → conversation.runtime.evicted = true →
      conversation.runtime.session.saved.activeNodes = []
  | _ => True

instance (conversation : Conversation) :
    (event : ConversationEvent) → Decidable (conversation.OpensIdle event)
  | .message _ _ _ _ _ => inferInstanceAs (Decidable (_ → _ → _))
  | .session _ _ | .raise | .crash | .rewind _ => .isTrue trivial

/-- Where the step decides, every active node is owned. -/
def DecidesOwned (conversation : Conversation) (event : ConversationEvent) : Prop :=
  ∀ runtime ∈ conversation.decidesIn event, runtime.Owned

instance (conversation : Conversation) (event : ConversationEvent) :
    Decidable (conversation.DecidesOwned event) :=
  inferInstanceAs (Decidable (∀ runtime ∈ conversation.decidesIn event, _))

def SessionInv (config : ExecutorConfig) (conversation : Conversation) : Prop :=
  conversation.runtime.evicted = true ∨ Runtime.OwnedInv config (fun _ => True) conversation.runtime

section Runs

variable {config : ExecutorConfig} {conversation next : Conversation}

theorem opens_idle_iff (event : ConversationEvent) (inv : SessionInv config conversation) :
    conversation.OpensIdle event ↔ conversation.DecidesOwned event := by
  have present : conversation.runtime.evicted = false → conversation.runtime.Owned :=
    fun present => (inv.resolve_left (by simp [present])).owned
  cases event with
  | message human inbound env drafts stored =>
      unfold OpensIdle DecidesOwned
      simp only [decidesIn, Runtime.ensureSession]
      cases inbound.recover with
      | true => simp
      | false =>
          cases evicted : conversation.runtime.evicted with
          | true =>
              -- what the session is loaded from decides
              simpa using (Runtime.loaded_owned_iff conversation.runtime.session.saved).symm
          | false => simpa using present evicted
  | session event stored =>
      refine ⟨fun _ runtime decides => ?_, fun _ => trivial⟩
      have here : runtime = conversation.runtime ∧ conversation.runtime.evicted = false := by
        cases event with
        | dispatch | flow =>
            simp only [decidesIn, Option.mem_def] at decides
            split at decides
            · rename_i decided
              cases decides
              exact ⟨rfl, by simpa using decided.1⟩
            · cases decides
        | _ => cases decides
      rw [here.1]
      exact present here.2
  | raise | crash | rewind taskId =>
      refine ⟨fun _ runtime decides => ?_, fun _ => trivial⟩
      cases decides

theorem step_owned (config : ExecutorConfig) (conversation : Conversation)
    (event : ConversationEvent) (next : Conversation) (inv : SessionInv config conversation)
    (idle : conversation.OpensIdle event)
    (stepped : conversation.step config event = some next) : SessionInv config next := by
  rcases step_cases stepped with
    ⟨human, inbound, env, drafts, stored, rfl, taken⟩ | ⟨inner, stored, rfl, isInner, taken⟩ |
      ⟨_, evicted⟩
  · unfold Runtime.ensureSession at taken
    split at taken
    · rename_i evicted
      cases restarts : inbound.recover with
      | true => exact Or.inr (Runtime.recover_owned restarts taken)
      | false => exact Runtime.message_owned (Runtime.loaded_owned (idle restarts evicted)) taken
    · rename_i inMemory
      exact Runtime.message_owned (inv.resolve_left inMemory) taken
  · have inMemory := (Runtime.step_inner isInner taken).1
    exact Runtime.inner_owned (inv.resolve_left (by simp [inMemory])) isInner taken
  · exact Or.inl evicted

end Runs

end Conversation

section Rewound

/-! The last snapshot of the first turn has its node submitted, since the second
message comes while the node is at work. The plan completes, the conversation is
taken back to the second message, and the next one finds a node that nobody
executes. -/

def turnEnv : Env := ⟨["writer"], "now", fun drawn => toString drawn⟩

def say (taskId text : String) (drafts : List (Option (List PlanNodeDraft))) : ConversationEvent :=
  .message true { taskId, text } turnEnv drafts true

def takenBack : List ConversationEvent := [
  say "t1" "write" [some [⟨"n1", "first", "writer", .empty, []⟩]],
  .session .clearWake false, .session .dispatch true, .session (.start 0) false,
  say "t2" "shorter" [],
  .session (.outcome 0 turnEnv { ended := .completed } none) true, .session (.close 0) true,
  .session .collect false, .session .clearWake false, .session .dispatch true,
  .session (.start 1) false,
  .session (.outcome 1 turnEnv { ended := .completed } none) true, .session (.close 1) true,
  .session .collect false, .session .clearWake false, .session .dispatch false,
  .session (.flow turnEnv none) false, .rewind "t2"]

end Rewound

end Choirworks.Orchestration
