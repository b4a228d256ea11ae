import Choirworks.Dag.Journal

/-!
`Done` behind a plan with nodes: every node has completed. A failure is noticed
through the queue of completions only, which keeps the failures of the nodes
that are in the plan when they are collected. So a plan that brings a failed
node back goes unnoticed; without one, a failed node of the plan has ended the
run.
-/

namespace Choirworks.Dag

open DagRuntime

namespace DagRuntime

/-- Every node of the plan has a status, and none is cancelled. -/
def Known (runtime : DagRuntime) : Prop :=
  ∀ nodeId ∈ runtime.plan.ids, ∃ status, runtime.status nodeId = some status ∧ status ≠ .cancelled

/-- No node of the plan has failed. -/
def Unfailed (runtime : DagRuntime) : Prop :=
  ∀ nodeId ∈ runtime.plan.ids, runtime.status nodeId ≠ some .failed

/-- For every failed node of the plan a failure is queued. -/
def Alarmed (runtime : DagRuntime) : Prop :=
  ∀ nodeId ∈ runtime.plan.ids, runtime.status nodeId = some .failed →
    ∃ record ∈ runtime.completions, record.nodeId = nodeId ∧ record.ok = false

/-- The plan brings no failed node back. -/
def Unspoiled (runtime : DagRuntime) (plan : DagPlan) : Prop :=
  ∀ node ∈ plan.nodes, runtime.inPlan node.id = false → runtime.status node.id ≠ some .failed

instance (runtime : DagRuntime) (plan : DagPlan) : Decidable (runtime.Unspoiled plan) :=
  inferInstanceAs (Decidable (∀ node ∈ plan.nodes, _ → _))

variable {runtime next : DagRuntime}

theorem Unfailed.alarmed (unfailed : Unfailed runtime) : Alarmed runtime :=
  fun nodeId planned failed => absurd failed (unfailed nodeId planned)

/-- Where the queue raises no alarm, no node of the plan has failed. -/
theorem Alarmed.unfailed (alarmed : Alarmed runtime) (live : runtime.doneRequested = false)
    (fine : runtime.failedCompletion = none) : Unfailed runtime := by
  intro nodeId planned failed
  obtain ⟨record, queued, rfl, bad⟩ := alarmed nodeId planned failed
  have judgable : runtime.judgable record.nodeId = true := by
    simp [judgable, live, inPlan_iff.mpr planned]
  rw [failed_completion_none.mp fine record queued judgable] at bad
  cases bad

/-! ### What the phases of an invocation keep -/

/-- No node of the plan has failed or lacks a status. -/
structure Healthy (runtime : DagRuntime) : Prop where
  unfailed : Unfailed runtime
  known : Known runtime

theorem Healthy.apply_plan (healthy : Healthy runtime) {plan : DagPlan}
    (unspoiled : runtime.Unspoiled plan) (applied : runtime.applyPlan plan = .ok next) :
    Healthy next := by
  have ids := apply_plan_ids applied
  obtain ⟨_, rfl⟩ := apply_plan_ok applied
  constructor
  case unfailed =>
    intro nodeId planned failed
    have before : runtime.status nodeId = some .failed := add_statuses_back failed (by decide)
    rw [ids] at planned
    cases old : runtime.inPlan nodeId with
    | true => exact healthy.unfailed nodeId (inPlan_iff.mp old) before
    | false =>
        obtain ⟨node, member, rfl⟩ := DagPlan.mem_ids.mp planned
        exact unspoiled node member old before
  case known =>
    intro nodeId planned
    rw [ids] at planned
    cases old : runtime.inPlan nodeId with
    | true =>
        obtain ⟨found, same, alive⟩ := healthy.known nodeId (inPlan_iff.mp old)
        exact ⟨found, add_statuses_kept same alive _, alive⟩
    | false =>
        refine ⟨addedStatus (runtime.status nodeId), ?_, ?_⟩
        · rw [status, add_statuses_status]
          exact if_pos ⟨planned, old⟩
        · rcases runtime.status nodeId with _ | ⟨_⟩ | ⟨_⟩ <;> simp [addedStatus]

theorem Known.collect_done (known : Known runtime) : Known runtime.collectDone := by
  intro nodeId planned
  rw [collect_done_plan] at planned
  rw [collect_done_status]
  split
  · exact ⟨.completed, rfl, by decide⟩
  · exact ⟨.failed, rfl, by decide⟩
  · exact known nodeId planned

/-- A failure of a node of the plan is queued when it is collected. -/
theorem Alarmed.collect_done (alarmed : Alarmed runtime) (live : runtime.doneRequested = false) :
    Alarmed runtime.collectDone := by
  intro nodeId planned failed
  rw [collect_done_plan] at planned
  rw [collect_done_status] at failed
  rw [collect_done_completions]
  split at failed
  · cases failed
  · rename_i error task
    have row : (nodeId, .raised error) ∈ runtime.runningTasks.rows :=
      (Dict.get?_eq_some_iff _ _ _).mp task
    have made : runtime.collectedRecord (nodeId, .raised error) = some ⟨nodeId, "", some error⟩ := by
      simp [collectedRecord, judgable, live, inPlan_iff.mpr planned]
    exact ⟨⟨nodeId, "", some error⟩,
      List.mem_append_right _ (List.mem_filterMap.mpr ⟨_, row, made⟩), rfl, rfl⟩
  · obtain ⟨record, queued, named, bad⟩ := alarmed nodeId planned failed
    exact ⟨record, List.mem_append_left _ queued, named, bad⟩

theorem Healthy.started {started : List String} (healthy : Healthy runtime)
    (effect : Started started runtime next) : Healthy next := by
  obtain ⟨frame, statuses, _, _⟩ := effect
  have plan : next.plan = runtime.plan := by rw [frame]
  constructor
  case unfailed =>
    intro nodeId planned
    rw [plan] at planned
    rw [statuses]
    split
    · simp
    · exact healthy.unfailed nodeId planned
  case known =>
    intro nodeId planned
    rw [plan] at planned
    rw [statuses]
    split
    · exact ⟨.running, rfl, by decide⟩
    · exact healthy.known nodeId planned

theorem Healthy.dispatch_nodes (healthy : Healthy runtime) (nodeIds : List String) :
    Healthy (dispatched (dispatchNodes nodeIds runtime)) := by
  induction nodeIds generalizing runtime with
  | nil => exact healthy
  | cons nodeId rest ih =>
      rw [dispatchNodes]
      cases ran : runtime.dispatchNode nodeId with
      | error raised =>
          show Healthy raised.2
          rw [dispatch_node_error ran]
          exact healthy
      | ok next =>
          have effect : Started [nodeId] runtime next := by
            apply dispatch_nodes_ok
            simp [dispatchNodes, ran]
          exact ih (healthy.started effect)

theorem failed_completion_some {failed : CompletionRecord}
    (found : runtime.failedCompletion = some failed) :
    failed.ok = false ∧ runtime.inPlan failed.nodeId = true := by
  have hit := List.find?_some found
  simp only [judgable, Bool.and_eq_true, Bool.not_eq_true'] at hit
  exact ⟨hit.1, hit.2.2⟩

/-! ### How an invocation ends -/

/-- Without an error the plan is healthy, and `Done` has no work left. Where a
node of the plan has failed, the error says so. -/
def Verdict (ended : Outcome × DagRuntime) : Prop :=
  match ended.1 with
  | .judge _ => Healthy ended.2
  | .default => Healthy ended.2 ∧ (ended.2.doneRequested = false → ended.2.hasWork = false)
  | .raised error => Unfailed ended.2 ∨
      ∃ record, error = abortText record ∧ record.ok = false ∧ ended.2.inPlan record.nodeId = true

theorem abort_verdict {failed : CompletionRecord} (found : runtime.failedCompletion = some failed) :
    Verdict (.raised (abortText failed), runtime.shutdown) :=
  Or.inr ⟨failed, rfl, failed_completion_some found⟩

theorem Healthy.pop (healthy : Healthy runtime) : Healthy runtime.popCompletion.2 := by
  rw [pop_plan]
  exact ⟨healthy.unfailed, healthy.known⟩

theorem route_verdict (alarmed : Alarmed runtime) (known : Known runtime)
    (live : runtime.doneRequested = false) {ended : Outcome × DagRuntime}
    (routed : RouteEnds runtime ended) : Verdict ended := by
  have popped : runtime.failedCompletion = none → Healthy runtime.popCompletion.2 :=
    fun fine => Healthy.pop ⟨alarmed.unfailed live fine, known⟩
  cases routed with
  | abort found => exact abort_verdict found
  | judge fine taken =>
      have healthy := popped fine
      rw [taken] at healthy
      exact healthy
  | stuck fine taken =>
      have healthy := popped fine
      rw [taken] at healthy
      exact Or.inl healthy.unfailed

theorem dispatch_and_wait_verdict (healthy : Healthy runtime) (live : runtime.doneRequested = false)
    {waves : List Wave} {ended : Outcome × DagRuntime}
    (ran : runtime.dispatchAndWait waves = some ended) : Verdict ended := by
  have healthyThen : Healthy (dispatched runtime.dispatchReady) := healthy.dispatch_nodes _
  cases dispatch_and_wait_ends ran with
  | unknown ready =>
      rw [ready] at healthyThen
      exact Or.inl healthyThen.unfailed
  | idle ready idle =>
      rw [ready] at healthyThen
      exact ⟨healthyThen, fun _ => idle⟩
  | @waited next waited rest _ ready busy waits routed =>
      rw [ready] at healthyThen
      have frame := wait_one_frame waits
      -- waiting only ends tasks: the plan and its statuses are those dispatched
      have liveWaited : waited.doneRequested = false := by
        rw [frame, (dispatch_nodes_ok ready).frame]
        exact live
      have alarmed : Alarmed waited := by
        rw [frame]
        exact healthyThen.unfailed.alarmed
      have known : Known waited := by
        rw [frame]
        exact healthyThen.known
      exact route_verdict (alarmed.collect_done liveWaited) known.collect_done
        (by rw [collect_done_done_requested]; exact liveWaited) routed

theorem proceed_verdict (alarmed : Alarmed runtime) (known : Known runtime)
    (empty : runtime.doneRequested = true → runtime.plan.nodes = []) {waves : List Wave}
    {ended : Outcome × DagRuntime} (ran : runtime.proceed waves = some ended) : Verdict ended := by
  have popped : ¬runtime.doneRequested = true → runtime.failedCompletion = none →
      Healthy runtime.popCompletion.2 := fun unasked fine =>
    Healthy.pop ⟨alarmed.unfailed (by simpa using unasked) fine, known⟩
  cases proceed_ends ran with
  | @drained last asked drained =>
      -- the plan is empty, and stays so
      obtain ⟨plan, done, _⟩ := drain_frame _ drained
      have unplanned : ∀ nodeId, nodeId ∉ last.plan.ids := by simp [plan, DagPlan.ids, empty asked]
      refine ⟨⟨fun nodeId planned => absurd planned (unplanned nodeId),
        fun nodeId planned => absurd planned (unplanned nodeId)⟩, fun live => ?_⟩
      rw [done, asked] at live
      cases live
  | abort unasked found => exact abort_verdict found
  | judge unasked fine taken =>
      have healthy := popped unasked fine
      rw [taken] at healthy
      exact healthy
  | dispatch unasked fine taken later =>
      have healthy := popped unasked fine
      have frame := pop_plan runtime
      rw [taken] at healthy frame
      have live : runtime.doneRequested = false := by simpa using unasked
      exact dispatch_and_wait_verdict healthy ((congrArg doneRequested frame).trans live) later

theorem run_impl_verdict (healthy : Healthy runtime) (tracks : Tracks runtime)
    {input : Option DagPlan} (unspoiled : ∀ plan, input = some plan → runtime.Unspoiled plan)
    {waves : List Wave} {ended : Outcome × DagRuntime}
    (ran : runtime.runImpl input waves = some ended) : Verdict ended := by
  cases run_impl_ends ran with
  | refused applied => exact Or.inl healthy.unfailed
  | @proceeded planned _ applied later =>
      obtain ⟨healthyThen, tracksThen⟩ : Healthy planned ∧ Tracks planned := by
        cases input with
        | none =>
            cases applied
            exact ⟨healthy, tracks⟩
        | some plan => exact ⟨healthy.apply_plan (unspoiled plan rfl) applied, tracks.apply_plan applied⟩
      have empty : planned.doneRequested = true → planned.plan.nodes = [] :=
        fun asked => (tracksThen.ended asked).1
      cases asked : planned.doneRequested with
      | true =>
          -- no node is left to fail
          have unplanned : ∀ nodeId, nodeId ∉ planned.collectDone.plan.ids := by
            simp [DagPlan.ids, empty asked]
          exact proceed_verdict (fun nodeId member => absurd member (unplanned nodeId))
            (fun nodeId member => absurd member (unplanned nodeId)) (by simpa using empty) later
      | false =>
          exact proceed_verdict (healthyThen.unfailed.alarmed.collect_done asked)
            healthyThen.known.collect_done (by simpa using empty) later

/-! ### What the helper keeps -/

theorem Healthy.add_assist (healthy : Healthy runtime) (parentId agentName instruction : String) :
    Healthy (runtime.addAssist parentId agentName instruction) := by
  have planned : ∀ nodeId ∈ (runtime.addAssist parentId agentName instruction).plan.ids,
      nodeId ∈ runtime.plan.ids ∨ nodeId = runtime.nextAssist parentId := by
    rw [add_assist_ids]
    simp [nextAssist]
  constructor
  case unfailed =>
    intro nodeId member
    rw [add_assist_status]
    split
    · simp
    · split
      · simp
      · rename_i other
        exact healthy.unfailed nodeId ((planned nodeId member).resolve_right other)
  case known =>
    intro nodeId member
    rw [add_assist_status]
    split
    · exact ⟨.waitingAssist, rfl, by decide⟩
    · split
      · exact ⟨.pending, rfl, by decide⟩
      · rename_i other
        exact healthy.known nodeId ((planned nodeId member).resolve_right other)

theorem Healthy.judge (healthy : Healthy runtime) (nodeId : String) :
    Healthy (Helper.runImpl runtime nodeId) := by
  unfold Helper.runImpl
  generalize Helper.assists runtime nodeId = mentions
  induction mentions generalizing runtime with
  | nil => exact healthy
  | cons mention rest ih => exact ih (healthy.add_assist nodeId mention.1 mention.2)

theorem Healthy.finish (healthy : Healthy runtime) (wave : Wave) : Healthy (runtime.finish wave) := by
  rw [finish_frame]
  exact ⟨healthy.unfailed, healthy.known⟩

end DagRuntime

/-! ### Runs of the workflow -/

section Workflow

/-- `Done` behind a plan with nodes means that all of them have completed, and a
failed node of the plan has ended the run. -/
structure Sound (loop : Loop) : Prop where
  done : loop.stage = .done → loop.runtime.doneRequested = false →
    loop.runtime.runningTasks.keys = [] ∧
      ∀ nodeId ∈ loop.runtime.plan.ids, loop.runtime.status nodeId = some .completed
  failing : ∀ nodeId ∈ loop.runtime.plan.ids, loop.runtime.status nodeId = some .failed →
    ∃ record, loop.stage = .failed (abortText record) ∧ record.ok = false ∧
      loop.runtime.inPlan record.nodeId = true

namespace Loop

/-- The plan that the executor is handed. -/
def handed (loop : Loop) : LoopEvent → Option DagPlan
  | .invoke _ =>
      match loop.stage with
      | .executor input => input
      | _ => none
  | .plan _ | .judge | .finish _ => none

/-- The plan handed to the executor brings no failed node back, and an assist
gets a vacant id. -/
def Watched (loop : Loop) (event : LoopEvent) : Prop :=
  loop.Heeds Vacant event ∧ ∀ plan ∈ loop.handed event, loop.runtime.Unspoiled plan

instance (loop : Loop) (event : LoopEvent) : Decidable (loop.Watched event) :=
  inferInstanceAs (Decidable (_ ∧ ∀ plan ∈ loop.handed event, _))

end Loop

theorem vacant_guard : AssistGuard Vacant where
  free := by
    intro runtime act other
    cases act with
    | addAssist parentId agentName instruction => exact absurd rfl (other _ _ _)
    | _ => trivial
  vacant := fun _ _ _ vacant => vacant

/-- Until an error ends the run. -/
def Lively (loop : Loop) : Prop := (∀ error, loop.stage ≠ .failed error) → Healthy loop.runtime

variable {start : DagRuntime} {loop after : Loop}

/-- Nothing is left to do and nothing has failed: everything has completed. -/
theorem completed_of_idle {runtime : DagRuntime} (healthy : Healthy runtime) (tracks : Tracks runtime)
    (idle : runtime.hasWork = false) : runtime.runningTasks.keys = [] ∧
      ∀ nodeId ∈ runtime.plan.ids, runtime.status nodeId = some .completed := by
  simp only [hasWork, Bool.or_eq_false_iff, Bool.not_eq_false', List.isEmpty_iff] at idle
  have untracked := (keys_eq_nil runtime).mpr idle.1
  refine ⟨untracked, fun nodeId planned => ?_⟩
  obtain ⟨found, same, alive⟩ := healthy.known nodeId planned
  obtain ⟨node, member, rfl⟩ := DagPlan.mem_ids.mp planned
  have still := List.any_eq_false.mp idle.2 node member
  cases found with
  | completed => exact same
  | pending => simp [same] at still
  | waitingAssist => simp [same] at still
  | running =>
      have tracked := (tracks.running _).mpr same
      rw [untracked] at tracked
      cases tracked
  | failed => exact absurd same (healthy.unfailed _ planned)
  | cancelled => exact absurd rfl alive

theorem Coherent.tracks (coherent : Coherent Vacant start loop) (begun : Tracks start)
    (live : ∀ error, loop.stage ≠ .failed error) : Tracks loop.runtime := by
  obtain ⟨moment, steps, guarded, here⟩ := coherent.led
  rw [here.of_live live]
  exact steps.tracks vacant_guard begun guarded

/-- A healthy runtime is sound at any stage but `Done`. -/
theorem sound_of_unfailed (unfailed : Unfailed loop.runtime) (going : loop.stage ≠ .done) :
    Sound loop where
  done := fun stage => absurd stage going
  failing := fun nodeId planned failed => absurd failed (unfailed nodeId planned)

theorem invoke_sound (begun : Tracks start) (lively : Lively loop)
    (coherent : Coherent Vacant start loop) {input : Option DagPlan} {waves : List Wave}
    (turn : loop.stage = .executor input) (watched : loop.Watched (.invoke waves))
    (stepped : loop.step (.invoke waves) = some after) : Lively after ∧ Sound after := by
  have live : ∀ error, loop.stage ≠ .failed error := by simp [turn]
  have coherentThen := coherent.step vacant_guard begun watched.1 stepped
  have ran := stepped
  simp only [Loop.step, turn, Loop.invoke, Option.map_eq_some_iff] at ran
  obtain ⟨⟨outcome, runtime⟩, invoked, rfl⟩ := ran
  have unspoiled : ∀ plan, input = some plan → loop.runtime.Unspoiled plan := by
    rintro plan rfl
    exact watched.2 plan (by simp [Loop.handed, turn])
  have verdict := run_impl_verdict (lively live) (coherent.tracks begun live) unspoiled invoked
  cases outcome with
  | judge nodeId =>
      have healthy : Healthy runtime := verdict
      exact ⟨fun _ => healthy, sound_of_unfailed healthy.unfailed (by simp [Loop.ended])⟩
  | default =>
      obtain ⟨healthy, idle⟩ : Healthy runtime ∧ _ := verdict
      refine ⟨fun _ => healthy, fun _ undone => ?_, fun nodeId planned failed =>
        absurd failed (healthy.unfailed nodeId planned)⟩
      exact completed_of_idle healthy (coherentThen.tracks begun (by simp [Loop.ended])) (idle undone)
  | raised error =>
      refine ⟨fun alive => absurd rfl (alive error), ?_⟩
      rcases verdict with unfailed | ⟨record, rfl, bad, planned⟩
      · exact sound_of_unfailed unfailed (by simp [Loop.ended])
      · exact ⟨fun stage => absurd stage (by simp [Loop.ended]),
          fun _ _ _ => ⟨record, rfl, bad, planned⟩⟩

theorem step_sound (begun : Tracks start) (lively : Lively loop) (sound : Sound loop)
    (coherent : Coherent Vacant start loop) {event : LoopEvent} (watched : loop.Watched event)
    (stepped : loop.step event = some after) : Lively after ∧ Sound after := by
  cases event with
  | plan plan =>
      simp only [Loop.step] at stepped
      split at stepped
      · rename_i turn
        cases stepped
        have healthy := lively (by simp [turn.1])
        exact ⟨fun _ => healthy, sound_of_unfailed healthy.unfailed (by simp)⟩
      · cases stepped
  | invoke waves =>
      have ran := stepped
      simp only [Loop.step] at ran
      split at ran
      · rename_i input turn
        exact invoke_sound begun lively coherent turn watched stepped
      · cases ran
  | judge =>
      simp only [Loop.step] at stepped
      split at stepped
      · rename_i nodeId turn
        cases stepped
        have healthy := (lively (by simp [turn])).judge nodeId
        refine ⟨fun _ => healthy, sound_of_unfailed healthy.unfailed ?_⟩
        simp only [Loop.judge]
        split <;> simp
      · cases stepped
  | finish wave =>
      simp only [Loop.step] at stepped
      split at stepped
      · cases stepped
      · rename_i live
        cases stepped
        have healthy := (lively live).finish wave
        refine ⟨fun _ => healthy, fun stage undone => ?_, fun nodeId planned failed =>
          absurd failed (healthy.unfailed nodeId planned)⟩
        have frame := finish_frame loop.runtime wave
        -- behind `Done` no task is left that the wave could end
        have before := sound.done stage (by rw [frame] at undone; exact undone)
        constructor
        · apply List.eq_nil_iff_forall_not_mem.mpr
          intro nodeId tracked
          rw [finish_keys, before.1] at tracked
          cases tracked
        · rw [frame]
          exact before.2

/-- In a run in which no plan brings a failed node back and assists get vacant
ids, `Done` is sound. -/
theorem done_sound_of_watched (agents : Dict String AgentInfo) (userTask : String)
    (events : List LoopEvent) (loop : Loop)
    (watched : Runs.Guarded Loop.step Loop.Watched (.start agents userTask) events)
    (ran : Runs.run Loop.step (.start agents userTask) events = some loop) : Sound loop := by
  let start := DagRuntime.start agents userTask
  have begun : Tracks start := start_tracks agents userTask
  have healthy : Healthy start := ⟨by simp [Unfailed, start, DagRuntime.start, DagPlan.ids, DagPlan.empty],
    by simp [Known, start, DagRuntime.start, DagPlan.ids, DagPlan.empty]⟩
  have kept : ∀ loop event after, Coherent Vacant start loop ∧ Lively loop ∧ Sound loop →
      loop.Watched event → loop.step event = some after →
        Coherent Vacant start after ∧ Lively after ∧ Sound after := by
    rintro loop event after ⟨coherent, lively, sound⟩ heeds stepped
    exact ⟨coherent.step vacant_guard begun heeds.1 stepped,
      step_sound begun lively sound coherent heeds stepped⟩
  exact (Runs.run_invariant _ kept events (.start agents userTask) loop
    ⟨start_coherent Vacant agents userTask, fun _ => healthy,
      sound_of_unfailed healthy.unfailed (by simp [Loop.start])⟩ watched ran).2.2

theorem assisted_run_sound :
    ∃ loop, Runs.run Loop.step (.start pairAgents "task") assistedRun = some loop ∧
      loop.stage = .done ∧ Sound loop := by
  have ends : Runs.Ends Loop.step (.start pairAgents "task") assistedRun
      fun loop => loop.stage = .done := by
    decide +kernel
  obtain ⟨loop, ran, done⟩ := ends
  exact ⟨loop, ran, done,
    done_sound_of_watched pairAgents "task" assistedRun loop (by decide +kernel) ran⟩

def planOf (names : List String) : DagPlan :=
  ⟨names.map fun name => ⟨name, name, "writer", "write", [], none⟩⟩

/-- The second node fails while it is out of the plan, and comes back. -/
def broughtBackRun : List LoopEvent :=
  [.plan (planOf ["a", "b"]), .invoke [[("a", .ok "done")]], .judge, .plan (planOf ["a", "c"]),
    .invoke [[("b", .error "boom"), ("c", .ok "done")]], .judge, .plan (planOf ["a", "b", "c"]),
    .invoke []]

theorem failed_node_brought_back :
    ¬ ∀ (agents : Dict String AgentInfo) (userTask : String) (events : List LoopEvent) (loop : Loop),
      Runs.run Loop.step (.start agents userTask) events = some loop → Sound loop := by
  intro claim
  have ends : Runs.Ends Loop.step (.start pairAgents "task") broughtBackRun fun loop =>
      loop.stage = .done ∧ "b" ∈ loop.runtime.plan.ids ∧
        loop.runtime.status "b" = some .failed := by
    decide +kernel
  obtain ⟨loop, ran, done, planned, failed⟩ := ends
  obtain ⟨record, ended, _⟩ :=
    (claim pairAgents "task" broughtBackRun loop ran).failing "b" planned failed
  rw [done] at ended
  cases ended

end Workflow

end Choirworks.Dag
