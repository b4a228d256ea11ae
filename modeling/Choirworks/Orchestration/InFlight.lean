import Choirworks.Library.Runs
import Choirworks.Orchestration.Frame
import Choirworks.Orchestration.Message

/-!
Executions in flight. Only the dispatch block creates them, from the free slots,
so their number is bounded in every run. It asks `ready_nodes` whom to start,
which does not know the executions: there is one for each node exactly if no
dispatch block finds a node that is up next in flight already.
-/

namespace Choirworks.Orchestration

/-! ### References keep their node id -/

section Parts

variable (config : ExecutorConfig) (env : Env) (session : Session) (ref : NodeRef)

theorem startNode_nodeId (mode : Mode) : (startNode session ref mode).ref.nodeId = ref.nodeId := by
  cases mode with
  | recover => exact transition_nodeId session ref _ (fun _ => rfl) _
  | continuation => exact change_nodeId session ref _ fun node => takeAnswer_id (countAttempt node)
  | dispatch =>
      have begun := transition_nodeId session ref countAttempt (fun _ => rfl) .submitted
      simp only [startNode]
      split
      · exact begun
      · rw [change_nodeId _ _ _ takeAnswer_id, begun]

theorem chunkNode_nodeId (a2aTaskId : Option String) (submitted : Bool) :
    (chunkNode session ref a2aTaskId submitted).ref.nodeId = ref.nodeId := by
  unfold chunkNode
  split
  · apply transition_nodeId
    exact fun _ => rfl
  · exact change_nodeId session ref _ fun _ => rfl

theorem markDelivered_nodeId : (markDelivered config env session ref).ref.nodeId = ref.nodeId := by
  have moved := transition_nodeId session ref id (fun _ => rfl) .completed
  simp only [markDelivered]
  split <;> exact moved

theorem outcomeFlow_nodeId (answered : Option OutcomeResult) :
    (outcomeFlow config env session ref answered).ref.nodeId = ref.nodeId := by
  simp only [outcomeFlow]
  split
  · apply transition_nodeId
    exact fun _ => rfl
  · exact markDelivered_nodeId config env _ ref
  · exact markDelivered_nodeId config env _ ref

theorem interpretRemote_nodeId (remote : Remote) (answered : Option OutcomeResult) :
    (interpretRemote config env session ref remote answered).ref.nodeId = ref.nodeId := by
  simp only [interpretRemote]
  split
  · split
    · rfl
    · rename_i node found
      rw [outcomeFlow_nodeId]
      exact write_nodeId session ref node found (remote.fields node) rfl
  all_goals
    apply transition_nodeId
    exact fun _ => rfl

theorem detach_nodeId : (Runtime.detach session ref).nodeId = ref.nodeId := by
  unfold Runtime.detach
  split
  · rename_i nodeId
    split
    · rename_i node found
      exact (session.state.node_mem nodeId found).2
    · rfl
  · rfl

end Parts

/-! ### What a step does to the tasks -/

namespace Runtime

/-- Some tasks are dropped, the others keep their id and node and stay done. -/
structure Inherits (runtime next : Runtime) : Prop where
  counter : next.nextTask = runtime.nextTask
  tasks : ∃ (keep : NodeTask → Bool) (change : NodeTask → NodeTask),
    next.nodeTasks = (runtime.nodeTasks.filter keep).map change ∧
      ∀ task ∈ runtime.nodeTasks, (change task).id = task.id ∧
        (change task).ref.nodeId = task.ref.nodeId ∧ (task.done = true → (change task).done = true)

section Inherit

variable {runtime next : Runtime}

theorem Inherits.unchanged (counter : next.nextTask = runtime.nextTask)
    (same : next.nodeTasks = runtime.nodeTasks) : Inherits runtime next :=
  ⟨counter, fun _ => true, id, by simp [same], by simp⟩

theorem Inherits.dropped (counter : next.nextTask = runtime.nextTask)
    (none : next.nodeTasks = []) : Inherits runtime next :=
  ⟨counter, fun _ => false, id, by simp [none], by simp⟩

theorem Inherits.mapped (counter : next.nextTask = runtime.nextTask)
    {change : NodeTask → NodeTask} (same : next.nodeTasks = runtime.nodeTasks.map change)
    (keeps : ∀ task ∈ runtime.nodeTasks, (change task).id = task.id ∧
      (change task).ref.nodeId = task.ref.nodeId ∧
        (task.done = true → (change task).done = true)) : Inherits runtime next :=
  ⟨counter, fun _ => true, change, by simp [same], keeps⟩

theorem Inherits.trans {last : Runtime} (first : Inherits runtime next)
    (counter : last.nextTask = next.nextTask) (same : last.nodeTasks = next.nodeTasks) :
    Inherits runtime last :=
  ⟨counter.trans first.counter, by rw [same]; exact first.tasks⟩

theorem startNewPlan_inherits (runtime : Runtime) (planId : String) :
    Inherits runtime (runtime.startNewPlan planId) := by
  refine .mapped rfl rfl fun task _ => ?_
  exact ⟨rfl, detach_nodeId runtime.session task.ref, id⟩

theorem planAndLaunch_inherits (config : ExecutorConfig) (env : Env) (runtime : Runtime)
    (drafts : List (Option (List PlanNodeDraft))) (mentions : List String) :
    Inherits runtime (runtime.planAndLaunch config env drafts mentions) := by
  have started := runtime.startNewPlan_inherits (planId env)
  simp only [planAndLaunch]
  split
  · exact .dropped started.counter rfl
  · exact .dropped started.counter rfl
  · unfold startRunner
    split <;> exact started.trans rfl rfl

theorem handle_inherits (config : ExecutorConfig) (env : Env) (runtime : Runtime)
    (inbound : Inbound) (drafts : List (Option (List PlanNodeDraft))) (handler : Handler) :
    Inherits runtime (runtime.handle config env inbound drafts handler) := by
  have session : ∀ (other : Session) (wake needsRunner : Bool),
      Inherits runtime (finish { runtime with session := other, wake } needsRunner) := by
    intro other wake needsRunner
    unfold finish startRunner
    split
    · split <;> exact .unchanged rfl rfl
    · exact .unchanged rfl rfl
  cases handler with
  | reject => exact .unchanged rfl rfl
  | complete => exact .dropped rfl rfl
  | reemitQuestions => exact .unchanged rfl rfl
  | noop => exact session runtime.session runtime.wake _
  | recover => exact session _ runtime.wake true
  | enqueue target quoteId => exact session _ runtime.wake _
  | spawnFollowup target => exact session _ runtime.wake _
  | interrupt target => exact session _ runtime.wake _
  | answers responses =>
      simp only [handle]
      split
      · exact session _ true true
      · exact .unchanged rfl rfl
  | planAndLaunch => exact runtime.planAndLaunch_inherits config env drafts _
  | newPlan =>
      have launched := runtime.planAndLaunch_inherits config env drafts []
      simp only [handle, finish]
      split
      · unfold startRunner
        split <;> exact launched.trans rfl rfl
      · exact launched

end Inherit

/-! ### The invariant -/

/-- At most one execution for each node id, and no more than configured. -/
def SingleFlight (config : ExecutorConfig) (runtime : Runtime) : Prop :=
  (runtime.inFlight.map (·.ref.nodeId)).Nodup ∧ runtime.inFlight.length ≤ config.maxParallel

/-- What every run keeps. -/
structure TaskInv (config : ExecutorConfig) (runtime : Runtime) : Prop where
  unique : (runtime.nodeTasks.map (·.id)).Nodup
  below : ∀ task ∈ runtime.nodeTasks, task.id < runtime.nextTask
  bounded : runtime.nodeTasks.length ≤ config.maxParallel

def FlightInv (config : ExecutorConfig) (runtime : Runtime) : Prop :=
  TaskInv config runtime ∧ (runtime.inFlight.map (·.ref.nodeId)).Nodup

theorem TaskInv.few {config : ExecutorConfig} {runtime : Runtime} (inv : TaskInv config runtime) :
    runtime.inFlight.length ≤ config.maxParallel :=
  Nat.le_trans (List.length_filter_le _ _) inv.bounded

theorem loaded_tasks (config : ExecutorConfig) (saved : OrchestrationState) :
    TaskInv config (loaded saved) where
  unique := List.nodup_nil
  below := by simp [loaded]
  bounded := Nat.zero_le _

/-- Dropping tasks and ending them leaves a part of the executions. -/
theorem flight_sublist (keep : NodeTask → Bool) (change : NodeTask → NodeTask)
    (tasks : List NodeTask)
    (keeps : ∀ task ∈ tasks, (change task).id = task.id ∧
      (change task).ref.nodeId = task.ref.nodeId ∧ (task.done = true → (change task).done = true)) :
    List.Sublist
      ((((tasks.filter keep).map change).filter fun task => !task.done).map (·.ref.nodeId))
      ((tasks.filter fun task => !task.done).map (·.ref.nodeId)) := by
  induction tasks with
  | nil => exact List.Sublist.refl _
  | cons task rest ih =>
      have later := ih fun other member => keeps other (List.mem_cons_of_mem _ member)
      obtain ⟨_, sameNode, stays⟩ := keeps task List.mem_cons_self
      cases isDone : task.done with
      | true =>
          have changed := stays isDone
          by_cases kept : keep task = true <;> simpa [kept, isDone, changed] using later
      | false =>
          by_cases kept : keep task = true
          · cases ended : (change task).done with
            | true => simpa [kept, isDone, ended] using later.cons _
            | false => simpa [kept, isDone, ended, sameNode] using later
          · simpa [kept, isDone] using later.cons _

theorem Inherits.single {runtime next : Runtime} (inherits : Inherits runtime next)
    (single : (runtime.inFlight.map (·.ref.nodeId)).Nodup) :
    (next.inFlight.map (·.ref.nodeId)).Nodup := by
  obtain ⟨_, keep, change, tasks, keeps⟩ := inherits
  rw [inFlight, tasks]
  exact (flight_sublist keep change _ keeps).nodup single

theorem Inherits.inv {config : ExecutorConfig} {runtime next : Runtime}
    (inherits : Inherits runtime next) (inv : TaskInv config runtime) : TaskInv config next := by
  obtain ⟨counter, keep, change, tasks, keeps⟩ := inherits
  have ids : (next.nodeTasks.map (·.id)).Sublist (runtime.nodeTasks.map (·.id)) := by
    rw [tasks, List.map_map]
    have same : (runtime.nodeTasks.filter keep).map ((·.id) ∘ change) =
        (runtime.nodeTasks.filter keep).map (·.id) :=
      List.map_congr_left fun task member => (keeps task (List.mem_filter.mp member).1).1
    rw [same]
    exact List.filter_sublist.map _
  constructor
  case unique => exact ids.nodup inv.unique
  case below =>
    intro task member
    rw [tasks] at member
    obtain ⟨old, kept, rfl⟩ := List.mem_map.mp member
    have inside := (List.mem_filter.mp kept).1
    rw [counter, (keeps old inside).1]
    exact inv.below old inside
  case bounded =>
    rw [tasks, List.length_map]
    exact Nat.le_trans (List.length_filter_le _ _) inv.bounded

/-! ### The dispatch block -/

theorem spawnTasks_ids (first : Nat) (nodes : List NodeState) :
    (spawnTasks first nodes).map (·.id) = List.range' first nodes.length := by
  induction nodes generalizing first with
  | nil => rfl
  | cons node rest ih => simp [spawnTasks, ih, List.range'_succ]

theorem spawnTasks_nodes (first : Nat) (nodes : List NodeState) :
    (spawnTasks first nodes).map (·.ref.nodeId) = nodes.map (·.id) := by
  induction nodes generalizing first with
  | nil => rfl
  | cons node rest ih =>
      simp only [spawnTasks, List.map_cons, ih]
      rfl

theorem spawnTasks_length (first : Nat) (nodes : List NodeState) :
    (spawnTasks first nodes).length = nodes.length := by
  simpa using congrArg List.length (spawnTasks_nodes first nodes)

theorem spawnTasks_range {first : Nat} {nodes : List NodeState} {task : NodeTask}
    (member : task ∈ spawnTasks first nodes) : first ≤ task.id ∧ task.id < first + nodes.length := by
  have listed : task.id ∈ (spawnTasks first nodes).map (·.id) := List.mem_map_of_mem member
  rw [spawnTasks_ids] at listed
  exact List.mem_range'_1.mp listed

theorem spawnTasks_created (first : Nat) (nodes : List NodeState) :
    ∀ task ∈ spawnTasks first nodes, task.phase = .created := by
  induction nodes generalizing first with
  | nil => simp [spawnTasks]
  | cons node rest ih => simpa [spawnTasks] using ih (first + 1)

theorem nextUp_unique (config : ExecutorConfig) (runtime : Runtime) :
    ((runtime.nextUp config).map (·.id)).Nodup :=
  (((List.take_sublist _ _).trans List.filter_sublist).map _).nodup
    (runtime.session.state.retryFailed config).nodes.unique

theorem dispatch_inFlight (config : ExecutorConfig) (runtime : Runtime) :
    ((runtime.dispatch config).inFlight.map (·.ref.nodeId)) =
      runtime.inFlight.map (·.ref.nodeId) ++ (runtime.nextUp config).map (·.id) := by
  simp only [inFlight, dispatch, List.filter_append, List.map_append]
  congr 1
  rw [List.filter_eq_self.mpr, spawnTasks_nodes]
  intro task member
  simp [NodeTask.done, spawnTasks_created _ _ task member]

theorem dispatch_inv {config : ExecutorConfig} {runtime : Runtime}
    (inv : TaskInv config runtime) : TaskInv config (runtime.dispatch config) := by
  constructor
  case unique =>
    simp only [dispatch, List.map_append, spawnTasks_ids]
    apply List.Nodup.append inv.unique List.nodup_range'
    intro taskId old new
    obtain ⟨task, member, rfl⟩ := List.mem_map.mp old
    have small := inv.below task member
    have large := (List.mem_range'_1.mp new).1
    omega
  case below =>
    intro task member
    simp only [dispatch, List.mem_append] at member ⊢
    rcases member with old | new
    · have small := inv.below task old
      omega
    · have large := (spawnTasks_range new).2
      rw [spawnTasks_length]
      omega
  case bounded =>
    have slots : (runtime.nextUp config).length ≤ config.maxParallel - runtime.nodeTasks.length :=
      List.length_take_le _ _
    have room := inv.bounded
    simp only [dispatch, List.length_append, spawnTasks_length]
    omega

theorem dispatch_single {config : ExecutorConfig} {runtime : Runtime}
    (single : (runtime.inFlight.map (·.ref.nodeId)).Nodup)
    (idle : ∀ node ∈ runtime.nextUp config, node.id ∉ runtime.inFlight.map (·.ref.nodeId)) :
    ((runtime.dispatch config).inFlight.map (·.ref.nodeId)).Nodup := by
  rw [dispatch_inFlight]
  apply List.Nodup.append single (nextUp_unique config runtime)
  intro nodeId flies starts
  obtain ⟨node, up, rfl⟩ := List.mem_map.mp starts
  exact idle node up flies

/-! ### The steps of one task -/

section Task

variable {config : ExecutorConfig} {runtime next : Runtime}

theorem setTask_inherits (unique : (runtime.nodeTasks.map (·.id)).Nodup) {task : NodeTask}
    (member : task ∈ runtime.nodeTasks) (underway : task.done = false) {handled : Handled}
    (same : handled.ref.nodeId = task.ref.nodeId) (phase : TaskPhase) :
    Inherits runtime (runtime.setTask task handled phase) := by
  refine .mapped rfl rfl fun other inside => ?_
  by_cases hit : other.id = task.id
  · have itself : other = task := List.inj_on_of_nodup_map unique inside member hit
    simp [itself, same, underway]
  · simp [hit]

theorem task_found {taskId : Nat} {phase : TaskPhase} {task : NodeTask}
    (found : runtime.task? taskId phase = some task) :
    task ∈ runtime.nodeTasks ∧ task.phase = phase := by
  have named := List.find?_some found
  simp only [Bool.decide_and, Bool.and_eq_true, decide_eq_true_eq] at named
  exact ⟨List.mem_of_find?_eq_some found, named.2⟩

theorem finishPart_inherits (inv : TaskInv config runtime) {taskId : Nat} {before : TaskPhase}
    {task : NodeTask} (found : runtime.task? taskId before = some task)
    (underway : before ≠ .done none ∧ ∀ text, before ≠ .done (some text)) {handled : Handled}
    (same : handled.ref.nodeId = task.ref.nodeId) (phase : TaskPhase) :
    Inherits runtime (runtime.setTask task handled phase) := by
  obtain ⟨member, at_phase⟩ := task_found found
  apply setTask_inherits inv.unique member ?_ same phase
  subst at_phase
  unfold NodeTask.done
  split
  · rename_i exception ended
    cases exception with
    | none => exact absurd ended underway.1
    | some text => exact absurd ended (underway.2 text)
  · rfl

theorem start_inherits (inv : TaskInv config runtime) {taskId : Nat}
    (stepped : runtime.start taskId = some next) : Inherits runtime next := by
  obtain ⟨task, found, rfl⟩ := Option.map_eq_some_iff.mp stepped
  exact finishPart_inherits inv found (by simp) (startNode_nodeId _ _ _) _

theorem chunk_inherits (inv : TaskInv config runtime) {taskId : Nat}
    {a2aTaskId : Option String} {submitted : Bool}
    (stepped : runtime.chunk taskId a2aTaskId submitted = some next) : Inherits runtime next := by
  unfold chunk at stepped
  split at stepped
  · cases stepped
  · rename_i task found
    dsimp only at stepped
    split at stepped
    · cases stepped
      exact finishPart_inherits inv found (by simp) (chunkNode_nodeId _ _ _ _) _
    · cases stepped

theorem outcome_inherits (inv : TaskInv config runtime) {taskId : Nat} {env : Env}
    {remote : Remote} {answered : Option OutcomeResult}
    (stepped : runtime.outcome config taskId env remote answered = some next) :
    Inherits runtime next := by
  obtain ⟨task, found, rfl⟩ := Option.map_eq_some_iff.mp stepped
  exact finishPart_inherits inv found (by simp) (interpretRemote_nodeId _ _ _ _ _ _) _

theorem close_inherits (inv : TaskInv config runtime) {taskId : Nat}
    (stepped : runtime.close taskId = some next) : Inherits runtime next := by
  obtain ⟨task, found, rfl⟩ := Option.map_eq_some_iff.mp stepped
  exact finishPart_inherits inv found (by simp) rfl _

theorem flow_inherits (config : ExecutorConfig) (env : Env) (runtime : Runtime)
    (decision : Option PlanPatch) : Inherits runtime (runtime.flow config env decision) := by
  simp only [flow]
  split
  · exact .unchanged rfl rfl
  · exact .dropped rfl rfl
  · exact .dropped rfl rfl
  · exact .dropped rfl rfl

theorem collect_inherits (runtime : Runtime) : Inherits runtime runtime.collect :=
  ⟨rfl, fun task => !task.done, id, by simp [collect, inFlight], by simp⟩

theorem settle_inherits (config : ExecutorConfig) {taskId : Nat}
    (stepped : runtime.inspect taskId = some next ∨ runtime.resolve taskId = some next ∨
      ∃ env decision, runtime.act config taskId env decision = some next) :
    Inherits runtime next := by
  have kept : ∀ task session ref phase,
      Inherits runtime (runtime.setSettleTask task session ref phase) :=
    fun _ _ _ _ => .unchanged rfl rfl
  rcases stepped with stepped | stepped | ⟨env, decision, stepped⟩
  · unfold inspect at stepped
    split at stepped
    · cases stepped
    · split at stepped
      · cases stepped
        exact kept _ _ _ _
      · cases stepped
  · unfold resolve at stepped
    split at stepped
    · cases stepped
    · split at stepped
      · cases stepped
        exact kept _ _ _ _
      · cases stepped
  · unfold act at stepped
    split at stepped
    · cases stepped
    · split at stepped
      · cases stepped
        exact kept _ _ _ _
      · cases stepped

end Task

/-! ### Runs -/

/-- A dispatch block finds no node that it starts in flight. -/
def StartsIdleNodes (config : ExecutorConfig) (runtime : Runtime) : Event → Prop
  | .dispatch => runtime.evicted = false → runtime.runner = .locking →
      ∀ node ∈ runtime.nextUp config, node.id ∉ runtime.inFlight.map (·.ref.nodeId)
  | _ => True

/-- Every step but the dispatch block only inherits executions. -/
theorem advance_cases {config : ExecutorConfig} {runtime next : Runtime} {event : Event}
    (inv : TaskInv config runtime) (stepped : runtime.advance config event = some next) :
    Inherits runtime next ∨ next = loaded runtime.session.saved ∨
      (event = .dispatch ∧ runtime.runner = .locking ∧ next = runtime.dispatch config) := by
  cases advances stepped with
  | message inbound env drafts => exact Or.inl (runtime.handle_inherits config env inbound drafts _)
  | clearWake => exact Or.inl (.unchanged rfl rfl)
  | dispatch locking => exact Or.inr (Or.inr ⟨rfl, locking, rfl⟩)
  | collect => exact Or.inl runtime.collect_inherits
  | flow env decision => exact Or.inl (runtime.flow_inherits config env decision)
  | start => exact Or.inl (start_inherits inv stepped)
  | chunk => exact Or.inl (chunk_inherits inv stepped)
  | outcome => exact Or.inl (outcome_inherits inv stepped)
  | close => exact Or.inl (close_inherits inv stepped)
  | inspect => exact Or.inl (settle_inherits config (Or.inl stepped))
  | resolve => exact Or.inl (settle_inherits config (Or.inr (Or.inl stepped)))
  | act env decision =>
      exact Or.inl (settle_inherits config (Or.inr (Or.inr ⟨env, decision, stepped⟩)))
  | cancel => exact Or.inl (.dropped rfl rfl)
  | reload => exact Or.inr (Or.inl rfl)

theorem step_tasks (config : ExecutorConfig) (runtime : Runtime) (event : Event) (next : Runtime)
    (inv : TaskInv config runtime) (stepped : runtime.step config event = some next) :
    TaskInv config next := by
  rcases step_cases stepped with rfl | ⟨_, stepped⟩
  · exact loaded_tasks config _
  · rcases advance_cases inv stepped with inherits | rfl | ⟨_, _, rfl⟩
    · exact inherits.inv inv
    · exact loaded_tasks config _
    · exact dispatch_inv inv

theorem step_flight (config : ExecutorConfig) (runtime : Runtime) (event : Event)
    (next : Runtime) (inv : FlightInv config runtime)
    (idle : StartsIdleNodes config runtime event)
    (stepped : runtime.step config event = some next) : FlightInv config next := by
  refine ⟨step_tasks config runtime event next inv.1 stepped, ?_⟩
  rcases step_cases stepped with rfl | ⟨present, stepped⟩
  · exact List.nodup_nil
  · rcases advance_cases inv.1 stepped with inherits | rfl | ⟨rfl, locking, rfl⟩
    · exact inherits.single inv.2
    · exact List.nodup_nil
    · exact dispatch_single inv.2 (idle present locking)

/-- A dispatch block that starts a node in flight doubles its executions. -/
theorem starts_idle_of_flight (config : ExecutorConfig) (runtime : Runtime) (event : Event)
    (flight : ∀ next, runtime.step config event = some next → SingleFlight config next) :
    StartsIdleNodes config runtime event := by
  cases event
  case dispatch =>
    intro present locking node up flies
    have single := (flight (runtime.dispatch config)
      (by simp [step, present, advance, locking])).1
    rw [dispatch_inFlight] at single
    exact List.disjoint_of_nodup_append single flies (List.mem_map_of_mem up)
  all_goals trivial

end Runtime

/-- No run has more executions than configured. -/
theorem flight_bounded (config : ExecutorConfig) (saved : OrchestrationState)
    (events : List Event) (reached : Runtime)
    (ran : Runs.run (Runtime.step config) (.loaded saved) events = some reached) :
    reached.inFlight.length ≤ config.maxParallel :=
  (Runs.run_invariant_of_step (Runtime.TaskInv config) (Runtime.step_tasks config) events _ reached
    (Runtime.loaded_tasks config saved) ran).few

section Twice

/-! Two nodes are in flight when the process restarts. The recovery follows
both; when the first is done, the second, still marked for recovery, is
followed once more. -/

def writerEnv : Env := ⟨["writer"], "now", fun drawn => toString drawn⟩

def twoDrafts : List PlanNodeDraft :=
  [⟨"n1", "first", "writer", .empty, []⟩, ⟨"n2", "second", "writer", .empty, []⟩]

def restarted : List Event := [
  .message { taskId := "t1", text := "write" } writerEnv [some twoDrafts],
  .clearWake, .dispatch, .start 0, .start 1,
  .chunk 0 (some "r1") false, .chunk 1 (some "r2") false,
  .message { taskId := "t2", text := "shorter" } writerEnv [],
  .reload, .message { taskId := "t1", recover := true } writerEnv [],
  .clearWake, .dispatch, .start 0, .start 1]

def followedTwice : List Event :=
  restarted ++ [
    .outcome 0 writerEnv { ended := .completed } none, .close 0, .collect, .clearWake, .dispatch]

end Twice

end Choirworks.Orchestration
