import Choirworks.Dag.Invariant

/-!
Whether an executor invocation gets somewhere. Under the invariant a waiting
invocation always has a task to wait for. What decides is whether the tasks
that finish first still belong to the plan: a node that a new plan dropped
keeps running, its completion is not queued, and the invocation then finds
nothing to route.
-/

namespace Choirworks.Dag

open DagRuntime

/-- The good ends of an invocation: a completed node of the plan goes to the
judge, or nothing is left to do. -/
def Progress : Outcome → DagRuntime → Prop
  | .judge nodeId, runtime =>
      nodeId ∈ runtime.plan.ids ∧ runtime.status nodeId = some .completed
  | .default, runtime =>
      runtime.doneRequested = true ∨ ∀ nodeId ∈ runtime.plan.ids,
        runtime.status nodeId ≠ some .pending ∧ runtime.status nodeId ≠ some .waitingAssist ∧
          runtime.status nodeId ≠ some .running
  | .raised _, _ => False

/-- The state in which an invocation decides: the new plan is applied and the
finished tasks are collected. -/
def settled (runtime : DagRuntime) (input : Option DagPlan) : DagRuntime :=
  match runtime.applyPlanInput input with
  | .error _ => runtime
  | .ok planned => planned.collectDone

/-- Nothing of the plan is queued, so the invocation has to dispatch. -/
def NothingQueued (runtime : DagRuntime) : Prop :=
  runtime.doneRequested = false ∧
    ∀ record ∈ runtime.completions, runtime.inPlan record.nodeId = false

/-- What runs once the ready nodes are dispatched. -/
def tracked (runtime : DagRuntime) : List String :=
  runtime.runningTasks.keys ++ runtime.dispatchable

/-- Among the first tasks to finish is one of a node of the plan. -/
def FirstInPlan (runtime : DagRuntime) (waves : List Wave) : Prop :=
  ∀ hit ∈ firstHit (tracked runtime) waves,
    ∃ ended ∈ hit.1, ended.1 ∈ tracked runtime ∧ runtime.inPlan ended.1 = true

instance (runtime : DagRuntime) (waves : List Wave) : Decidable (FirstInPlan runtime waves) :=
  inferInstanceAs (Decidable (∀ hit ∈ firstHit (tracked runtime) waves,
    ∃ ended ∈ hit.1, ended.1 ∈ tracked runtime ∧ runtime.inPlan ended.1 = true))

section Liveness

variable {runtime : DagRuntime}

/-- With nothing running, a node that still has to run can be dispatched: the
one of least rank has no unfinished dependency. -/
theorem Wf.dispatchable_of_idle (wf : Wf runtime) (idle : runtime.runningTasks.keys = [])
    {nodeId : String} (planned : nodeId ∈ runtime.plan.ids)
    (waiting : runtime.status nodeId = some .pending ∨
      runtime.status nodeId = some .waitingAssist) : runtime.dispatchable ≠ [] := by
  obtain ⟨rank, ranked⟩ := wf.ranked
  have ready : ∀ node ∈ runtime.plan.nodes, (∀ dep ∈ node.deps, runtime.hasOutput dep) →
      (runtime.status node.id = some .pending ∨
        runtime.status node.id = some .waitingAssist) → runtime.dispatchable ≠ [] := by
    intro node member answered status
    suffices dispatched : node.id ∈ runtime.dispatchable from List.ne_nil_of_mem dispatched
    apply List.mem_map_of_mem
    apply List.mem_filter.mpr
    refine ⟨member, ?_⟩
    simp only [canDispatch, Bool.and_eq_true, Bool.or_eq_true, decide_eq_true_eq, List.all_eq_true]
    exact ⟨status, answered⟩
  -- an unanswered dependency is a pending node of the plan
  have unanswered : ∀ node ∈ runtime.plan.nodes, ∀ dep ∈ node.deps, ¬ runtime.hasOutput dep →
      ∃ other ∈ runtime.plan.nodes, other.id = dep ∧ runtime.status other.id = some .pending := by
    intro node member dep depends missing
    have inside := (wf.deps node member dep depends).resolve_right missing
    obtain ⟨other, planned, named⟩ := DagPlan.mem_ids.mp inside
    refine ⟨other, planned, named, ?_⟩
    subst named
    obtain ⟨status, known⟩ := wf.statuses other.id inside
    cases status with
    | pending => exact known
    | running =>
        have running := wf.running other.id known
        rw [idle] at running
        cases running
    | waitingAssist => exact absurd (wf.outputs other.id (Or.inr known)) missing
    | completed => exact absurd (wf.outputs other.id (Or.inl known)) missing
    | failed => exact absurd known (wf.noFailure other.id).1
    | cancelled => exact absurd known (wf.noFailure other.id).2
  -- induction on the rank of a pending node without output
  have pending : ∀ bound, ∀ node ∈ runtime.plan.nodes, rank node.id < bound →
      runtime.status node.id = some .pending → ¬ runtime.hasOutput node.id →
      runtime.dispatchable ≠ [] := by
    intro bound
    induction bound with
    | zero => omega
    | succ bound ih =>
        intro node member below status missing
        by_cases answered : ∀ dep ∈ node.deps, runtime.hasOutput dep
        · exact ready node member answered (Or.inl status)
        · push Not at answered
          obtain ⟨dep, depends, unfinished⟩ := answered
          obtain ⟨other, planned, named, otherStatus⟩ := unanswered node member dep depends unfinished
          have less := ranked node member missing dep depends
          subst named
          exact ih other planned (by omega) otherStatus unfinished
  obtain ⟨node, member, rfl⟩ := DagPlan.mem_ids.mp planned
  by_cases answered : ∀ dep ∈ node.deps, runtime.hasOutput dep
  · exact ready node member answered waiting
  · push Not at answered
    obtain ⟨dep, depends, unfinished⟩ := answered
    obtain ⟨other, planned, named, status⟩ := unanswered node member dep depends unfinished
    subst named
    exact pending (rank other.id + 1) other planned (by omega) status unfinished

/-- After a wave is collected with an empty queue, the queue holds a record
exactly if a task of the plan was in the wave. -/
theorem Wf.route_hit (wf : Wf runtime) (undone : runtime.Undone)
    (empty : runtime.completions = []) (judges : runtime.doneRequested = false) (wave : Wave)
    (succeeds : Succeeds wave) :
    Progress (runtime.finish wave).collectDone.routeWaited.1
        (runtime.finish wave).collectDone.routeWaited.2 ↔
      ∃ ended ∈ wave, ended.1 ∈ runtime.runningTasks.keys ∧ runtime.inPlan ended.1 = true := by
  have wfFinished := wf.of_result wave succeeds
  have wfCollected := wfFinished.collect_done
  have plan : (runtime.finish wave).collectDone.plan = runtime.plan := by
    rw [collect_done_plan, finish_frame]
  have judged : ∀ nodeId, (runtime.finish wave).judgable nodeId = runtime.inPlan nodeId := by
    intro nodeId
    rw [finish_frame]
    simp [judgable, inPlan, judges]
  have queue : (runtime.finish wave).collectDone.completions =
      (runtime.finish wave).runningTasks.rows.filterMap
        (runtime.finish wave).collectedRecord := by
    rw [collect_done_completions, finish_frame]
    simp [empty]
  -- the records are those of the tasks of the wave that belong to the plan
  have hit : (∃ record, record ∈ (runtime.finish wave).collectDone.completions) ↔
      ∃ ended ∈ wave, ended.1 ∈ runtime.runningTasks.keys ∧ runtime.inPlan ended.1 = true := by
    rw [queue]
    constructor
    · rintro ⟨record, member⟩
      obtain ⟨_, planned, output, known⟩ := collected_records wfFinished member
      rw [judged] at planned
      rw [finish_task] at known
      cases before : runtime.task? record.nodeId with
      | none => simp [before] at known
      | some task =>
          have isRunning := undone _ task before
          cases task with
          | finished text => cases isRunning
          | raised text => cases isRunning
          | running message =>
              cases found : ending wave record.nodeId with
              | none => simp [before, found] at known
              | some result =>
                  obtain ⟨ended, first, _⟩ := Option.map_eq_some_iff.mp found
                  have named : ended.1 = record.nodeId := by simpa using List.find?_some first
                  refine ⟨ended, List.mem_of_find?_eq_some first, ?_, named ▸ planned⟩
                  rw [named]
                  exact mem_running_iff.mpr ⟨_, before⟩
    · rintro ⟨ended, member, running, planned⟩
      obtain ⟨task, before⟩ := mem_running_iff.mp running
      have isRunning := undone _ task before
      cases task with
      | finished text => cases isRunning
      | raised text => cases isRunning
      | running message =>
          obtain ⟨result, _, found⟩ := ending_some (List.mem_map_of_mem member)
          have now : (runtime.finish wave).task? ended.1 = some (.ofResult result) := by
            rw [finish_task, before, found]
          cases result with
          | error text => exact absurd now (wfFinished.noRaise ended.1 text)
          | ok output =>
              refine ⟨⟨ended.1, output, none⟩, List.mem_filterMap.mpr
                ⟨(ended.1, .finished output), (Dict.get?_eq_some_iff _ _ _).mp now, ?_⟩⟩
              simp [collectedRecord, judged, planned]
  rw [← hit]
  unfold routeWaited
  rw [wfCollected.failed_completion]
  dsimp only
  cases popped : (runtime.finish wave).collectDone.popCompletion with
  | mk found next =>
      cases found with
      | none =>
          obtain ⟨_, none⟩ := pop_nothing popped
          constructor
          · intro raised
            cases raised
          · rintro ⟨record, member⟩
            have isJudged := none record member
            rw [queue] at member
            have judgedBefore := (collected_records wfFinished member).2.1
            simp only [judgable, collect_done_done_requested, inPlan, collect_done_plan]
              at isJudged judgedBefore
            rw [isJudged] at judgedBefore
            cases judgedBefore
      | some record =>
          obtain ⟨_, routed, planned⟩ := wfCollected.pop_completion popped
          constructor
          · intro _
            unfold popCompletion at popped
            split at popped
            · rename_i first rest inside
              cases popped
              exact ⟨record, (pop_judgable_some inside).2.subset List.mem_cons_self⟩
            · cases popped
          · intro _
            exact ⟨inPlan_iff.mp planned, routed.1⟩

theorem DagRuntime.Started.tracked {next : DagRuntime} (effect : Started runtime.dispatchable runtime next)
    (nodeId : String) : nodeId ∈ next.runningTasks.keys ↔ nodeId ∈ tracked runtime := by
  rw [Dag.tracked, List.mem_append]
  by_cases started : nodeId ∈ runtime.dispatchable
  · obtain ⟨message, task⟩ := effect.spawned nodeId started
    simp [started, mem_running_iff, task]
  · simp [started, mem_running_iff, effect.tasks nodeId started]

theorem DagRuntime.Started.undone {next : DagRuntime} (effect : Started runtime.dispatchable runtime next)
    (undone : runtime.Undone) : next.Undone := by
  intro nodeId task known
  by_cases started : nodeId ∈ runtime.dispatchable
  · obtain ⟨message, spawned⟩ := effect.spawned nodeId started
    rw [spawned] at known
    cases known
    rfl
  · rw [effect.tasks nodeId started] at known
    exact undone nodeId task known

theorem has_work_false (runtime : DagRuntime) :
    runtime.hasWork = false ↔ runtime.runningTasks.rows = [] ∧ ∀ nodeId ∈ runtime.plan.ids,
      runtime.status nodeId ≠ some .pending ∧ runtime.status nodeId ≠ some .waitingAssist := by
  simp [hasWork, DagPlan.ids]

/-- An invocation with an empty queue ends, and well exactly if a node of the
plan is among the first to finish. -/
theorem Wf.dispatch_progress (wf : Wf runtime) (undone : runtime.Undone)
    (empty : runtime.completions = []) (judges : runtime.doneRequested = false)
    (waves : List Wave) (succeed : ∀ wave ∈ waves, Succeeds wave)
    (covers : Covers (tracked runtime) waves) :
    ∃ outcome next, runtime.dispatchAndWait waves = some (outcome, next) ∧
      (Progress outcome next ↔ FirstInPlan runtime waves) := by
  obtain ⟨dispatched, ran, effect, wfDispatched⟩ := wf.dispatch_ready
  have sameKeys := effect.tracked
  have sameHit := first_hit_congr sameKeys waves
  have plan : dispatched.plan = runtime.plan := by rw [effect.frame]
  simp only [dispatchAndWait, ran]
  by_cases work : dispatched.hasWork = false
  · refine ⟨.default, dispatched, if_pos work, ?_⟩
    obtain ⟨idle, waiting⟩ := (has_work_false dispatched).mp work
    have noTasks := (keys_eq_nil dispatched).mpr idle
    have good : Progress .default dispatched := by
      refine Or.inr fun nodeId planned =>
        ⟨(waiting nodeId planned).1, (waiting nodeId planned).2, ?_⟩
      intro running
      have tracks := wfDispatched.running nodeId running
      rw [noTasks] at tracks
      cases tracks
    have first : FirstInPlan runtime waves := by
      rintro ⟨wave, rest⟩ hit
      obtain ⟨_, _, _, ended, _, tracks⟩ := first_hit_spec hit
      rw [← sameKeys, noTasks] at tracks
      cases tracks
    exact iff_of_true good first
  · rw [if_neg work]
    have busy : dispatched.runningTasks.rows ≠ [] := by
      intro idle
      have noTasks := (keys_eq_nil dispatched).mpr idle
      apply work
      rw [has_work_false]
      refine ⟨idle, ?_⟩
      -- a waiting node would have been dispatched
      have none : ∀ nodeId, nodeId ∉ tracked runtime := by
        intro nodeId tracks
        rw [← sameKeys, noTasks] at tracks
        cases tracks
      have notStarted : runtime.dispatchable = [] :=
        List.eq_nil_iff_forall_not_mem.mpr fun nodeId started =>
          none nodeId (List.mem_append_right _ started)
      have notRunning : runtime.runningTasks.keys = [] :=
        List.eq_nil_iff_forall_not_mem.mpr fun nodeId running =>
          none nodeId (List.mem_append_left _ running)
      intro nodeId planned
      have same : dispatched.status nodeId = runtime.status nodeId := by
        rw [effect.statuses, notStarted]
        simp
      rw [plan] at planned
      rw [same]
      have stuck := fun waiting =>
        wf.dispatchable_of_idle notRunning planned waiting notStarted
      exact ⟨fun pending => stuck (Or.inl pending), fun assisted => stuck (Or.inr assisted)⟩
    have someTracked : tracked runtime ≠ [] := by
      intro none
      apply busy
      apply (keys_eq_nil dispatched).mp
      apply List.eq_nil_iff_forall_not_mem.mpr
      intro nodeId tracks
      rw [sameKeys, none] at tracks
      cases tracks
    obtain ⟨wave, rest, hit⟩ := first_hit_covered covers someTracked
    have member : wave ∈ waves := by
      obtain ⟨before, split, _⟩ := first_hit_spec hit
      simp [split]
    have waited : dispatched.waitOne waves = some (dispatched.finish wave, rest) := by
      rw [wait_one_eq dispatched (effect.undone undone) busy, sameHit, hit]
      rfl
    rw [waited]
    refine ⟨_, _, rfl, ?_⟩
    have route := wfDispatched.route_hit (effect.undone undone) (by rw [effect.frame, empty])
      (by rw [effect.frame, judges]) wave (succeed wave member)
    refine route.trans ?_
    have planned : ∀ nodeId, dispatched.inPlan nodeId = runtime.inPlan nodeId := by
      intro nodeId
      simp only [inPlan, plan]
    simp only [FirstInPlan, hit, Option.mem_def, Option.some.injEq, forall_eq', sameKeys, planned]

theorem Wf.proceed_progress (wf : Wf runtime) (undone : runtime.Undone) (waves : List Wave)
    (succeed : ∀ wave ∈ waves, Succeeds wave) (covers : Covers (tracked runtime) waves) :
    ∃ outcome next, runtime.proceed waves = some (outcome, next) ∧
      (Progress outcome next ↔ (NothingQueued runtime → FirstInPlan runtime waves)) := by
  unfold DagRuntime.proceed
  rw [wf.failed_completion]
  cases judges : runtime.doneRequested with
  | true =>
      have coversTasks : Covers runtime.runningTasks.keys waves :=
        fun nodeId running => covers nodeId (List.mem_append_left _ running)
      obtain ⟨drained, ran, same⟩ := drain_ends _ runtime undone (Nat.le_refl _) waves coversTasks
      refine ⟨.default, drained, by simp [ran], ?_⟩
      -- behind an empty plan the end of the tasks is all there is to reach
      refine iff_of_true (Or.inl (same.trans judges)) ?_
      rintro ⟨open_, _⟩
      cases judges.symm.trans open_
  | false =>
      dsimp only
      cases popped : runtime.popCompletion with
      | mk found next =>
          cases found with
          | some record =>
              obtain ⟨_, routed, planned⟩ := wf.pop_completion popped
              refine ⟨.judge record.nodeId, next, rfl, ?_⟩
              refine iff_of_true ⟨inPlan_iff.mp planned, routed.1⟩ ?_
              rintro ⟨_, none⟩
              unfold popCompletion at popped
              split at popped
              · rename_i first rest inside
                cases popped
                obtain ⟨judged, fewer⟩ := pop_judgable_some inside
                have absent := none record (fewer.subset List.mem_cons_self)
                simp [judgable, absent] at judged
              · cases popped
          | none =>
              -- with nothing to judge, nodes are dispatched
              obtain ⟨rfl, none⟩ := pop_nothing popped
              have queued : NothingQueued runtime := by
                refine ⟨judges, fun record member => ?_⟩
                simpa [judgable, judges] using none record member
              obtain ⟨outcome, next, ran, progress⟩ :=
                (wf.drop_records (List.nil_sublist _)).dispatch_progress undone rfl judges waves
                  succeed covers
              refine ⟨outcome, next, ran, progress.trans ?_⟩
              exact ⟨fun first _ => first, fun first => first queued⟩

end Liveness

/-- In a clean run an executor invocation ends as soon as its tasks have, and
makes progress exactly if it has something queued or the tasks that finish
first include one of the plan. -/
theorem invocation_progress_iff (agents : Dict String AgentInfo) (userTask : String)
    (events : List Event) (system : Orchestrator)
    (clean : Runs.Guarded Orchestrator.step Clean (.start agents userTask) events)
    (ran : Runs.run Orchestrator.step (.start agents userTask) events = some system)
    (input : Option DagPlan)
    (acceptable : ∀ plan ∈ input, Acceptable system.runtime.agents plan)
    (waves : List Wave) (succeed : ∀ wave ∈ waves, Succeeds wave)
    (covers : Covers (tracked (settled system.runtime input)) waves) :
    ∃ outcome next, system.runtime.runImpl input waves = some (outcome, next) ∧
      (Progress outcome next ↔
        (NothingQueued (settled system.runtime input) →
          FirstInPlan (settled system.runtime input) waves)) := by
  have wf := (run_inv agents userTask events system clean ran).1
  have applied : ∃ planned, system.runtime.applyPlanInput input = .ok planned ∧ Wf planned := by
    cases input with
    | none => exact ⟨_, rfl, wf⟩
    | some plan =>
        obtain ⟨passed, known⟩ := acceptable plan rfl
        cases result : system.runtime.applyPlan plan with
        | error text => simp [applyPlan, passed] at result
        | ok planned => exact ⟨planned, result, wf.apply_plan known result⟩
  obtain ⟨planned, applied, wfPlanned⟩ := applied
  simp only [settled, applied, runImpl] at covers ⊢
  exact wfPlanned.collect_done.proceed_progress (undone_collect_done planned) waves succeed covers

section Dropped

/-! A node that a new plan dropped: both nodes of a plan run, the first one
ends and is judged, and the planner answers with a plan without the second. -/

def dropAgents : Dict String AgentInfo := Dict.set .empty "writer" ⟨"writer", "", ""⟩

def dropNode (nodeId : String) (deps : List String) : PlanNode :=
  ⟨nodeId, nodeId, "writer", "work", deps, none⟩

def dropEvents : List Event := [
  .invoke (some ⟨[dropNode "a" [], dropNode "b" []]⟩) [[("a", .ok "first")]],
  .judge,
  .applyPlan ⟨[dropNode "a" [], dropNode "c" ["a"]]⟩]

def droppedFirst : List Wave := [[("b", .ok "late")], [("c", .ok "next")]]

def plannedFirst : List Wave := [[("c", .ok "next")], [("b", .ok "late")]]

/-- If the dropped node finishes first, the invocation raises. -/
theorem dropped_node_stalls :
    ¬ ∀ (agents : Dict String AgentInfo) (userTask : String) (events : List Event)
      (system : Orchestrator),
      Runs.Guarded Orchestrator.step (fun _ event => Succeeding event) (.start agents userTask)
        events →
      Runs.run Orchestrator.step (.start agents userTask) events = some system →
      ∀ input : Option DagPlan, (∀ plan ∈ input, Acceptable system.runtime.agents plan) →
      ∀ waves : List Wave, (∀ wave ∈ waves, Succeeds wave) →
      Covers (tracked (settled system.runtime input)) waves →
      ∃ outcome next, system.runtime.runImpl input waves = some (outcome, next) ∧
        Progress outcome next := by
  intro claim
  have stalls : Runs.Ends Orchestrator.step (.start dropAgents "task") dropEvents fun system =>
      Covers (tracked (settled system.runtime none)) droppedFirst ∧
        (system.runtime.runImpl none droppedFirst).map Prod.fst =
          some (.raised noProgressText) := by
    decide +kernel
  obtain ⟨system, ran, covered, raised⟩ := stalls
  obtain ⟨outcome, next, ended, progress⟩ := claim dropAgents "task" dropEvents system
    (by decide +kernel) ran none (by simp) droppedFirst (by decide +kernel) covered
  rw [ended] at raised
  cases raised
  exact progress

/-- If a node of the plan finishes first, it makes progress. -/
theorem planned_node_first :
    Runs.Ends Orchestrator.step (.start dropAgents "task") dropEvents fun system =>
      ∃ outcome next, system.runtime.runImpl none plannedFirst = some (outcome, next) ∧
        Progress outcome next := by
  have covers : Runs.Ends Orchestrator.step (.start dropAgents "task") dropEvents fun system =>
      Covers (tracked (settled system.runtime none)) plannedFirst ∧
        FirstInPlan (settled system.runtime none) plannedFirst := by
    decide +kernel
  obtain ⟨system, ran, covered, first⟩ := covers
  obtain ⟨outcome, next, ended, progress⟩ := invocation_progress_iff dropAgents "task" dropEvents
    system (by decide +kernel) ran none (by simp) plannedFirst (by decide +kernel) covered
  exact ⟨system, ran, outcome, next, ended, progress.mpr fun _ => first⟩

end Dropped

end Choirworks.Dag
