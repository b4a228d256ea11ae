import Choirworks.Dag.Acts

/-!
The workflow of the orchestrator: planner, executor and helper take turns along
the edges of `build_workflow`, and the run ends in `Done` or with an error. A
task may finish at any time. The journal lists the acts of the run in order; it
leads from the start to the state that the runtime is in, and all its acts are
proper. An abort shuts the runtime down behind its last act, and an error ends
the run.
-/

namespace Choirworks.Dag

open DagRuntime

namespace DagRuntime

/-! ### The acts of an invocation -/

def planActs : Option DagPlan → List Act
  | none => []
  | some plan => [.applyPlan plan]

def collectActs (runtime : DagRuntime) : List Act :=
  (runtime.runningTasks.rows.filter (·.2.done)).map fun row => .collect row.1 row.2

def popActs (judgable : String → Bool) : List CompletionRecord → List Act
  | [] => []
  | record :: rest =>
      if judgable record.nodeId then [.route record] else .skip record :: popActs judgable rest

def finishActs (wave : Wave) : List Act := wave.map fun ended => .finish ended.1 ended.2

def waitActs (runtime : DagRuntime) (waves : List Wave) : List Act :=
  if runtime.runningTasks.rows = [] ∨ ∃ row ∈ runtime.runningTasks.rows, row.2.done = true then []
  else
    match waves with
    | [] => []
    | wave :: rest => finishActs wave ++ waitActs (runtime.finish wave) rest

def drainActs : Nat → DagRuntime → List Wave → List Act
  | 0, _, _ => []
  | fuel + 1, runtime, waves =>
      if runtime.runningTasks.rows = [] then []
      else match runtime.waitOne waves with
        | none => []
        | some (waited, rest) =>
            runtime.waitActs waves ++ waited.collectActs ++ drainActs fuel waited.collectDone rest

/-- An unknown agent stops the dispatch where it stands. -/
def dispatchActs : List String → DagRuntime → List Act
  | [], _ => []
  | nodeId :: rest, runtime =>
      match runtime.dispatchNode nodeId with
      | .error _ => []
      | .ok next => .dispatch nodeId :: dispatchActs rest next

def routeActs (runtime : DagRuntime) : List Act :=
  match runtime.failedCompletion with
  | some _ => []
  | none => popActs runtime.judgable runtime.completions

def waitAndRouteActs (dispatched : DagRuntime) (waves : List Wave) : List Act :=
  if dispatched.hasWork = false then []
  else match dispatched.waitOne waves with
    | none => []
    | some (waited, _) =>
        dispatched.waitActs waves ++ waited.collectActs ++ waited.collectDone.routeActs

def dispatchAndWaitActs (runtime : DagRuntime) (waves : List Wave) : List Act :=
  dispatchActs runtime.dispatchable runtime ++
    match runtime.dispatchReady with
    | .error _ => []
    | .ok dispatched => dispatched.waitAndRouteActs waves

def proceedActs (runtime : DagRuntime) (waves : List Wave) : List Act :=
  if runtime.doneRequested then drainActs runtime.runningTasks.rows.length runtime waves
  else
    match runtime.failedCompletion with
    | some _ => []
    | none =>
        popActs runtime.judgable runtime.completions ++
          match runtime.popCompletion with
          | (some _, _) => []
          | (none, rest) => rest.dispatchAndWaitActs waves

def invocationActs (runtime : DagRuntime) (input : Option DagPlan) (waves : List Wave) : List Act :=
  match runtime.applyPlanInput input with
  | .error _ => []
  | .ok planned => planActs input ++ planned.collectActs ++ planned.collectDone.proceedActs waves

def assistActs (runtime : DagRuntime) (nodeId : String) : List Act :=
  (Helper.assists runtime nodeId).map fun mention => .addAssist nodeId mention.1 mention.2

end DagRuntime

/-! ### The workflow -/

/-- The workflow node whose turn it is, with what it is handed. -/
inductive Stage where
  | planner
  | executor (input : Option DagPlan)
  | helper (nodeId : String)
  | done
  | failed (error : String)
deriving DecidableEq

structure Loop where
  runtime : DagRuntime
  stage : Stage
  journal : List Act

inductive LoopEvent where
  | plan (plan : DagPlan)
  | invoke (waves : List Wave)
  | judge
  | finish (wave : Wave)

namespace Loop

def start (agents : Dict String AgentInfo) (userTask : String) : Loop :=
  ⟨.start agents userTask, .planner, []⟩

def ended (outcome : Outcome) : Stage :=
  match outcome with
  | .judge nodeId => .helper nodeId
  | .default => .done
  | .raised error => .failed error

def invoke (loop : Loop) (input : Option DagPlan) (waves : List Wave) : Option Loop :=
  (loop.runtime.runImpl input waves).map fun (outcome, runtime) =>
    { runtime
      stage := ended outcome
      journal := loop.journal ++ loop.runtime.invocationActs input waves }

/-- The helper hands over to the executor if it has added an assist, and to the
planner otherwise. -/
def judge (loop : Loop) (nodeId : String) : Loop where
  runtime := Helper.runImpl loop.runtime nodeId
  stage := if Helper.assists loop.runtime nodeId = [] then .planner else .executor none
  journal := loop.journal ++ .judge nodeId :: loop.runtime.assistActs nodeId

def step (loop : Loop) : LoopEvent → Option Loop
  | .plan plan =>
      if loop.stage = .planner ∧ KnownAgents loop.runtime.agents plan then
        some { loop with stage := .executor (some plan) }
      else none
  | .invoke waves =>
      match loop.stage with
      | .executor input => loop.invoke input waves
      | _ => none
  | .judge =>
      match loop.stage with
      | .helper nodeId => some (loop.judge nodeId)
      | _ => none
  | .finish wave =>
      match loop.stage with
      | .failed _ => none
      | _ => some { loop with
          runtime := loop.runtime.finish wave
          journal := loop.journal ++ finishActs wave }

/-- The assists that the helper is about to add. -/
def assistActs (loop : Loop) : List Act :=
  match loop.stage with
  | .helper nodeId => loop.runtime.assistActs nodeId
  | _ => []

/-- Every assist meets the condition when it is added. -/
def Heeds (guard : DagRuntime → Act → Prop) (loop : Loop) : LoopEvent → Prop
  | .judge => Runs.Guarded perform guard loop.runtime loop.assistActs
  | .plan _ | .invoke _ | .finish _ => True

instance (guard : DagRuntime → Act → Prop) [∀ runtime act, Decidable (guard runtime act)]
    (loop : Loop) : (event : LoopEvent) → Decidable (loop.Heeds guard event)
  | .judge => inferInstanceAs (Decidable (Runs.Guarded _ _ _ _))
  | .plan _ | .invoke _ | .finish _ => .isTrue trivial

end Loop

/-! ### What keeps between two acts -/

/-- Node ids are unique, a task runs exactly for each running node, and no node
that is queued has one. Behind an empty plan nothing is queued. -/
structure Tracks (runtime : DagRuntime) : Prop where
  once : runtime.plan.ids.Nodup
  running : ∀ nodeId, nodeId ∈ runtime.runningTasks.keys ↔ runtime.status nodeId = some .running
  queued : ∀ record ∈ runtime.completions, record.nodeId ∉ runtime.runningTasks.keys
  ended : runtime.doneRequested = true → runtime.plan.nodes = [] ∧ runtime.completions = []

section Tracks

variable {runtime next : DagRuntime}

theorem start_tracks (agents : Dict String AgentInfo) (userTask : String) :
    Tracks (.start agents userTask) where
  once := List.nodup_nil
  running := by simp [start, status]
  queued := by simp [start]
  ended := by simp [start]

theorem Tracks.apply_plan (tracks : Tracks runtime) {plan : DagPlan}
    (applied : runtime.applyPlan plan = .ok next) : Tracks next := by
  have ids := apply_plan_ids applied
  obtain ⟨valid, rfl⟩ := apply_plan_ok applied
  constructor
  case once =>
    rw [ids]
    exact valid.unique
  case running =>
    intro nodeId
    refine (tracks.running nodeId).trans ⟨fun now => add_statuses_kept now (by decide) _, ?_⟩
    exact fun now => add_statuses_back now (by decide)
  case queued =>
    intro record member
    dsimp only at member
    split at member
    · cases member
    · exact tracks.queued record member
  case ended =>
    intro empty
    have none : plan.nodes = [] := by simpa using empty
    simp [none]

theorem Tracks.dispatch (tracks : Tracks runtime) {nodeId : String}
    (nothing : runtime.completions = []) (ran : runtime.dispatchNode nodeId = .ok next) :
    Tracks next := by
  obtain ⟨node, rfl⟩ := dispatch_node_ok ran
  constructor
  case once => exact tracks.once
  case running =>
    intro other
    by_cases same : other = nodeId
    · simp [same, status]
    · simpa [same, status] using tracks.running other
  case queued =>
    intro record member
    rw [show ({ runtime with .. } : DagRuntime).completions = [] from nothing] at member
    cases member
  case ended => exact tracks.ended

theorem Tracks.finish_task (tracks : Tracks runtime) (nodeId : String)
    (result : Except String String) : Tracks (runtime.finishTask (nodeId, result)) := by
  have keys := finish_task_keys runtime nodeId result
  have frame := finish_task_frame runtime nodeId result
  generalize runtime.finishTask (nodeId, result) = next at *
  rw [frame]
  exact ⟨tracks.once, fun other => (keys other).trans (tracks.running other),
    fun record member tracked => tracks.queued record member ((keys _).mp tracked), tracks.ended⟩

/-- The status and the queue behind the collection of a finished task. -/
theorem collect_task_done (runtime : DagRuntime) (nodeId : String) {task : NodeTask}
    (done : task.done = true) :
    ∃ status record, status ≠ .running ∧ record.nodeId = nodeId ∧
      runtime.collectTask (nodeId, task) = { runtime with
        runningTasks := runtime.runningTasks.erase nodeId
        nodeStatus := runtime.nodeStatus.set nodeId status
        nodeOutputs := (runtime.collectTask (nodeId, task)).nodeOutputs
        completions :=
          if runtime.judgable nodeId then runtime.completions ++ [record]
          else runtime.completions } := by
  cases task with
  | running message => cases done
  | finished output => exact ⟨.completed, ⟨nodeId, output, none⟩, by decide, rfl, rfl⟩
  | raised error => exact ⟨.failed, ⟨nodeId, "", some error⟩, by decide, rfl, rfl⟩

theorem Tracks.collect (tracks : Tracks runtime) (nodeId : String) {task : NodeTask}
    (done : task.done = true) : Tracks (runtime.collectTask (nodeId, task)) := by
  obtain ⟨status, record, idle, named, same⟩ := collect_task_done runtime nodeId done
  rw [same]
  constructor
  case once => exact tracks.once
  case running =>
    intro other
    by_cases hit : other = nodeId
    · simp [hit, DagRuntime.status, idle]
    · simpa [hit, DagRuntime.status] using tracks.running other
  case queued =>
    intro other member
    dsimp only at member ⊢
    rw [Table.mem_keys_erase]
    have inside : other ∈ runtime.completions ∨ other = record := by
      split at member
      · simpa using member
      · exact Or.inl member
    rcases inside with old | rfl
    · exact fun both => tracks.queued other old both.1
    · exact fun both => both.2 named
  case ended =>
    intro asked
    obtain ⟨empty, idle⟩ := tracks.ended asked
    have unjudged : runtime.judgable nodeId = false := by simp [judgable, show runtime.doneRequested = true from asked]
    exact ⟨empty, by simp [unjudged, idle]⟩

theorem Tracks.take (tracks : Tracks runtime) {record : CompletionRecord}
    (taken : runtime.takeRecord record = some next) :
    Tracks next ∧ record.nodeId ∉ next.runningTasks.keys := by
  obtain ⟨rest, queue, rfl⟩ := take_record_some taken
  have kept : ∀ other ∈ rest, other ∈ runtime.completions := by
    rw [queue]
    exact fun other later => List.mem_cons_of_mem _ later
  refine ⟨⟨tracks.once, tracks.running, fun other later => tracks.queued other (kept other later),
    fun asked => ?_⟩, tracks.queued record (by rw [queue]; exact List.mem_cons_self)⟩
  have idle := (tracks.ended asked).2
  rw [queue] at idle
  cases idle

theorem Tracks.add_assist (tracks : Tracks runtime) {parentId : String}
    (agentName instruction : String) (planned : runtime.inPlan parentId = true)
    (idle : parentId ∉ runtime.runningTasks.keys)
    (unplanned : runtime.nextAssist parentId ∉ runtime.plan.ids)
    (untracked : runtime.nextAssist parentId ∉ runtime.runningTasks.keys) :
    Tracks (runtime.addAssist parentId agentName instruction) where
  once := by
    rw [add_assist_ids, List.nodup_append]
    refine ⟨tracks.once, List.nodup_singleton _, ?_⟩
    rintro nodeId inside _ (_ | ⟨_, ⟨⟩⟩) rfl
    exact unplanned inside
  running := by
    intro nodeId
    rw [add_assist_status]
    refine Iff.trans (b := nodeId ∈ runtime.runningTasks.keys) Iff.rfl ?_
    split
    · rename_i same
      simp [same, idle]
    · split
      · rename_i same
        exact iff_of_false (same ▸ untracked) (by simp)
      · exact tracks.running nodeId
  queued := tracks.queued
  ended := by
    intro asked
    have empty := (tracks.ended asked).1
    simp [inPlan, empty] at planned

/-- Proper acts keep it, as long as assists get vacant ids. -/
theorem Tracks.performed (tracks : Tracks runtime) {act : Act} (proper : runtime.Proper act)
    (vacant : runtime.Vacant act) (performed : runtime.perform act = some next) : Tracks next := by
  cases act with
  | applyPlan plan => exact tracks.apply_plan (to_option_some performed)
  | dispatch nodeId => exact tracks.dispatch proper.1 (to_option_some performed)
  | finish nodeId result =>
      cases performed
      exact tracks.finish_task nodeId result
  | collect nodeId task =>
      cases performed
      exact tracks.collect nodeId proper.2
  | skip record | route record => exact (tracks.take performed).1
  | judge nodeId =>
      cases performed
      exact tracks
  | addAssist parentId agentName instruction =>
      simp only [perform] at performed
      split at performed
      · rename_i planned
        cases performed
        obtain ⟨unplanned, untracked⟩ := vacant planned
        exact tracks.add_assist agentName instruction planned proper unplanned untracked
      · cases performed

end Tracks

end Choirworks.Dag
