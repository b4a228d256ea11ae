import Choirworks.Dag.Loop

/-!
Each phase of an invocation takes its acts one after the other, and all of them
are proper. An invocation that hands a record to the helper takes it from the
queue with its last act. What it returns is the state behind its acts, or that
state shut down.
-/

namespace Choirworks.Dag

namespace DagRuntime

/-! ### Acts one after the other -/

/-- The acts lead to that state, and all of them are proper. -/
def Steps (runtime : DagRuntime) (acts : List Act) (next : DagRuntime) : Prop :=
  Runs.run perform runtime acts = some next ∧ Runs.Guarded perform Proper runtime acts

variable {runtime middle next : DagRuntime} {acts others : List Act}

theorem Steps.nil (runtime : DagRuntime) : Steps runtime [] runtime := ⟨rfl, trivial⟩

theorem Steps.cons {act : Act} (proper : runtime.Proper act)
    (performed : runtime.perform act = some middle) (later : Steps middle acts next) :
    Steps runtime (act :: acts) next := by
  constructor
  · simpa only [Runs.run, performed] using later.1
  · simpa only [Runs.Guarded, performed] using ⟨proper, later.2⟩

theorem Steps.append (first : Steps runtime acts middle) (later : Steps middle others next) :
    Steps runtime (acts ++ others) next := by
  constructor
  · simpa [Runs.run_append, first.1] using later.1
  · rw [Runs.guarded_append]
    refine ⟨first.2, fun reached ran => ?_⟩
    cases first.1.symm.trans ran
    exact later.2

/-! ### Collecting, finishing and waiting -/

theorem collect_task_other (runtime : DagRuntime) (nodeId : String) (task : NodeTask)
    {other : String} (different : other ≠ nodeId) :
    (runtime.collectTask (nodeId, task)).task? other = runtime.task? other := by
  cases task <;> simp [collectTask, task?, recordCompletion, recordFailure, different]

theorem collect_rows_steps (rows : List (String × NodeTask)) (runtime : DagRuntime)
    (once : (rows.map Prod.fst).Nodup)
    (known : ∀ row ∈ rows, runtime.task? row.1 = some row.2) :
    Steps runtime ((rows.filter (·.2.done)).map fun row => .collect row.1 row.2)
      (rows.foldl collectTask runtime) := by
  induction rows generalizing runtime with
  | nil => exact Steps.nil runtime
  | cons row rest ih =>
      obtain ⟨nodeId, task⟩ := row
      obtain ⟨apart, once⟩ := List.nodup_cons.mp once
      have now : runtime.task? nodeId = some task := known _ List.mem_cons_self
      have later := ih (runtime.collectTask (nodeId, task)) once (by
        intro row member
        have different : row.1 ≠ nodeId := fun same =>
          apart (List.mem_map.mpr ⟨row, member, same⟩)
        rw [collect_task_other _ _ _ different]
        exact known row (List.mem_cons_of_mem _ member))
      cases task with
      | running message => exact later
      | finished output => exact Steps.cons ⟨now, rfl⟩ rfl later
      | raised error => exact Steps.cons ⟨now, rfl⟩ rfl later

theorem collect_steps (runtime : DagRuntime) :
    Steps runtime runtime.collectActs runtime.collectDone := by
  apply collect_rows_steps _ _ runtime.runningTasks.keys_nodup
  intro row member
  exact (Dict.get?_eq_some_iff _ _ _).mpr member

theorem finish_steps (wave : Wave) (runtime : DagRuntime) :
    Steps runtime (finishActs wave) (runtime.finish wave) := by
  induction wave generalizing runtime with
  | nil => exact Steps.nil runtime
  | cons ended rest ih => exact Steps.cons trivial rfl (ih _)

theorem wait_steps {waves rest : List Wave} (ended : runtime.waitOne waves = some (next, rest)) :
    Steps runtime (runtime.waitActs waves) next := by
  induction waves generalizing runtime with
  | nil =>
      unfold waitOne at ended
      unfold waitActs
      split at ended
      · rename_i idle
        cases ended
        rw [if_pos idle]
        exact Steps.nil _
      · cases ended
  | cons wave waves ih =>
      unfold waitOne at ended
      unfold waitActs
      split at ended
      · rename_i idle
        cases ended
        rw [if_pos idle]
        exact Steps.nil _
      · rename_i busy
        rw [if_neg busy]
        exact (finish_steps wave runtime).append (ih ended)

theorem drain_steps (fuel : Nat) {waves : List Wave} (ended : drain fuel runtime waves = some next) :
    Steps runtime (drainActs fuel runtime waves) next := by
  induction fuel generalizing runtime waves with
  | zero =>
      unfold drain at ended
      split at ended
      · cases ended
        exact Steps.nil _
      · cases ended
  | succ fuel ih =>
      unfold drain at ended
      unfold drainActs
      split at ended
      · rename_i idle
        cases ended
        rw [if_pos idle]
        exact Steps.nil _
      · rename_i busy
        rw [if_neg busy]
        cases waiting : runtime.waitOne waves with
        | none => simp [waiting] at ended
        | some waited =>
            simp only [waiting] at ended ⊢
            exact ((wait_steps waiting).append (collect_steps waited.1)).append (ih ended)

/-! ### Dispatching -/

/-- The state in which a dispatch stops, ended or raised. -/
def dispatched : Except (String × DagRuntime) DagRuntime → DagRuntime
  | .error raised => raised.2
  | .ok next => next

theorem dispatch_node_dispatchable {nodeId other : String}
    (ran : runtime.dispatchNode nodeId = .ok next) (different : other ≠ nodeId)
    (ready : other ∈ runtime.dispatchable) : other ∈ next.dispatchable := by
  obtain ⟨node, member, rfl⟩ := List.mem_map.mp ready
  obtain ⟨inside, can⟩ := List.mem_filter.mp member
  have same : next.status node.id = runtime.status node.id := by
    obtain ⟨task, rfl⟩ := dispatch_node_ok ran
    simp [status, different]
  obtain ⟨task, rfl⟩ := dispatch_node_ok ran
  refine List.mem_map.mpr ⟨node, List.mem_filter.mpr ⟨inside, ?_⟩, rfl⟩
  rw [canDispatch, same]
  exact can

/-- An unknown agent changes nothing. -/
theorem dispatch_node_error {nodeId : String} {raised : String × DagRuntime}
    (ran : runtime.dispatchNode nodeId = .error raised) : raised.2 = runtime := by
  unfold dispatchNode at ran
  split at ran
  · cases ran
    rfl
  · split at ran <;> cases ran
    rfl

theorem dispatch_nodes_steps (nodeIds : List String) (runtime : DagRuntime) (once : nodeIds.Nodup)
    (nothing : runtime.completions = []) (ready : ∀ nodeId ∈ nodeIds, nodeId ∈ runtime.dispatchable) :
    Steps runtime (dispatchActs nodeIds runtime) (dispatched (dispatchNodes nodeIds runtime)) := by
  induction nodeIds generalizing runtime with
  | nil => exact Steps.nil runtime
  | cons nodeId rest ih =>
      obtain ⟨apart, once⟩ := List.nodup_cons.mp once
      have now := ready nodeId List.mem_cons_self
      rw [dispatchActs, dispatchNodes]
      cases ran : runtime.dispatchNode nodeId with
      | error raised =>
          exact dispatch_node_error ran ▸ Steps.nil runtime
      | ok middle =>
          have idle : middle.completions = [] := by
            obtain ⟨node, rfl⟩ := dispatch_node_ok ran
            exact nothing
          have performed : runtime.perform (.dispatch nodeId) = some middle := by
            simp [perform, ran, Except.toOption]
          refine Steps.cons ⟨nothing, now⟩ performed ?_
          apply ih middle once idle
          intro other member
          have different : other ≠ nodeId := by
            rintro rfl
            exact apart member
          exact dispatch_node_dispatchable ran different (ready other (List.mem_cons_of_mem _ member))

theorem dispatch_steps (once : runtime.plan.ids.Nodup) (nothing : runtime.completions = []) :
    Steps runtime (dispatchActs runtime.dispatchable runtime) (dispatched runtime.dispatchReady) := by
  have sublist : runtime.dispatchable.Sublist runtime.plan.ids :=
    List.Sublist.map _ List.filter_sublist
  exact dispatch_nodes_steps _ runtime (sublist.nodup once) nothing fun _ member => member

/-! ### Taking from the queue -/

theorem take_head {record : CompletionRecord} {rest : List CompletionRecord}
    (listed : runtime.completions = record :: rest) :
    runtime.takeRecord record = some { runtime with completions := rest } := by
  simp [takeRecord, listed]

theorem pop_acts_steps (judged : String → Bool) (queue : List CompletionRecord)
    (runtime : DagRuntime) (same : runtime.judgable = judged) (listed : runtime.completions = queue)
    (fine : ∀ record ∈ queue, judged record.nodeId = true → record.ok = true) :
    Steps runtime (popActs judged queue)
      { runtime with completions := ((popJudgable judged queue).map Prod.snd).getD [] } := by
  induction queue generalizing runtime with
  | nil =>
      have unchanged : { runtime with completions := [] } = runtime := by rw [← listed]
      exact unchanged.symm ▸ Steps.nil runtime
  | cons record rest ih =>
      have taken := take_head listed
      cases hit : judged record.nodeId with
      | true =>
          simp only [popActs, popJudgable, hit, if_true]
          refine Steps.cons ⟨same ▸ hit, ?_⟩ taken (Steps.nil _)
          rw [listed, same]
          exact fine
      | false =>
          simp only [popActs, popJudgable, hit, Bool.false_eq_true, if_false]
          have unjudged : runtime.Proper (.skip record) := by simpa [Proper, same] using hit
          exact Steps.cons unjudged taken
            (ih _ same rfl fun other member => fine other (List.mem_cons_of_mem _ member))

theorem failed_completion_none :
    runtime.failedCompletion = none ↔
      ∀ record ∈ runtime.completions, runtime.judgable record.nodeId = true → record.ok = true := by
  simp only [failedCompletion, List.find?_eq_none, Bool.and_eq_true, Bool.not_eq_true', not_and]
  refine forall_congr' fun record => forall_congr' fun _ => ?_
  cases record.ok <;> simp

theorem pop_steps (fine : runtime.failedCompletion = none) :
    Steps runtime (popActs runtime.judgable runtime.completions) runtime.popCompletion.2 := by
  have steps := pop_acts_steps _ _ runtime rfl rfl (failed_completion_none.mp fine)
  unfold popCompletion
  cases popped : popJudgable runtime.judgable runtime.completions with
  | none => simpa [popped] using steps
  | some found => simpa [popped] using steps

/-! ### What an invocation is -/

/-- No act hands over to the helper or is the helper's own. -/
def Quiet (acts : List Act) : Prop := ∀ act ∈ acts, act.quiet = true

theorem Quiet.nil : Quiet [] := by simp [Quiet]

theorem Quiet.append (left : Quiet acts) (right : Quiet others) : Quiet (acts ++ others) :=
  fun act member => (List.mem_append.mp member).elim (left act) (right act)

theorem plan_acts_quiet (input : Option DagPlan) : Quiet (planActs input) := by
  cases input <;> simp [planActs, Quiet, Act.quiet]

theorem collect_acts_quiet (runtime : DagRuntime) : Quiet runtime.collectActs := by
  intro act member
  obtain ⟨row, _, rfl⟩ := List.mem_map.mp member
  rfl

theorem finish_acts_quiet (wave : Wave) : Quiet (finishActs wave) := by
  intro act member
  obtain ⟨ended, _, rfl⟩ := List.mem_map.mp member
  rfl

theorem wait_acts_quiet (waves : List Wave) (runtime : DagRuntime) :
    Quiet (runtime.waitActs waves) := by
  induction waves generalizing runtime with
  | nil =>
      unfold waitActs
      split <;> exact Quiet.nil
  | cons wave rest ih =>
      unfold waitActs
      split
      · exact Quiet.nil
      · exact (finish_acts_quiet wave).append (ih _)

theorem drain_acts_quiet (fuel : Nat) (runtime : DagRuntime) (waves : List Wave) :
    Quiet (drainActs fuel runtime waves) := by
  induction fuel generalizing runtime waves with
  | zero => exact Quiet.nil
  | succ fuel ih =>
      unfold drainActs
      split
      · exact Quiet.nil
      · cases runtime.waitOne waves with
        | none => exact Quiet.nil
        | some waited =>
            exact ((wait_acts_quiet waves runtime).append (collect_acts_quiet _)).append (ih _ _)

theorem dispatch_acts_quiet (nodeIds : List String) (runtime : DagRuntime) :
    Quiet (dispatchActs nodeIds runtime) := by
  induction nodeIds generalizing runtime with
  | nil => exact Quiet.nil
  | cons nodeId rest ih =>
      unfold dispatchActs
      cases runtime.dispatchNode nodeId with
      | error raised => exact Quiet.nil
      | ok next => exact List.forall_mem_cons.mpr ⟨rfl, ih next⟩

/-- A record that goes to the helper is taken with the last act. -/
def Routes (acts : List Act) : Outcome → Prop
  | .judge nodeId =>
      ∃ front record, Quiet front ∧ record.nodeId = nodeId ∧ acts = front ++ [.route record]
  | .default | .raised _ => Quiet acts

/-- Only an error shuts the runtime down. -/
def Leaves (moment next : DagRuntime) : Outcome → Prop
  | .judge _ | .default => next = moment
  | .raised _ => next = moment ∨ next = moment.shutdown

def Invoked (runtime : DagRuntime) (acts : List Act) (ended : Outcome × DagRuntime) : Prop :=
  ∃ moment, Steps runtime acts moment ∧ Routes acts ended.1 ∧ Leaves moment ended.2 ended.1

theorem Routes.append {outcome : Outcome} (quiet : Quiet acts) (routes : Routes others outcome) :
    Routes (acts ++ others) outcome := by
  cases outcome with
  | judge nodeId =>
      obtain ⟨front, record, calm, named, rfl⟩ := routes
      exact ⟨acts ++ front, record, quiet.append calm, named, by simp⟩
  | default => exact quiet.append routes
  | raised error => exact quiet.append routes

theorem Invoked.after {ended : Outcome × DagRuntime} (first : Steps runtime acts middle)
    (quiet : Quiet acts) (later : Invoked middle others ended) :
    Invoked runtime (acts ++ others) ended := by
  obtain ⟨moment, steps, routes, leaves⟩ := later
  exact ⟨moment, first.append steps, routes.append quiet, leaves⟩

theorem Invoked.aborted (runtime : DagRuntime) (error : String) :
    Invoked runtime [] (.raised error, runtime.shutdown) :=
  ⟨runtime, Steps.nil runtime, Quiet.nil, Or.inr rfl⟩

theorem pop_acts_routes (judged : String → Bool) (queue : List CompletionRecord) :
    match popJudgable judged queue with
    | none => Quiet (popActs judged queue)
    | some (record, _) => Routes (popActs judged queue) (.judge record.nodeId) := by
  induction queue with
  | nil => exact Quiet.nil
  | cons record rest ih =>
      unfold popJudgable popActs
      cases hit : judged record.nodeId with
      | true => exact ⟨[], record, Quiet.nil, rfl, rfl⟩
      | false =>
          have skipped : Quiet [.skip record] := by simp [Quiet, Act.quiet]
          simp only [Bool.false_eq_true, if_false]
          split
          · rename_i missing
            simp only [missing] at ih
            exact skipped.append ih
          · rename_i found later popped
            simp only [popped] at ih
            exact Routes.append skipped ih

/-- The queue has a record to judge: it is the last act. -/
theorem pop_invoked (fine : runtime.failedCompletion = none) {record : CompletionRecord}
    (popped : runtime.popCompletion = (some record, next)) :
    Invoked runtime (popActs runtime.judgable runtime.completions) (.judge record.nodeId, next) := by
  have steps := pop_steps fine
  have routes := pop_acts_routes runtime.judgable runtime.completions
  rw [popped] at steps
  refine ⟨next, steps, ?_, rfl⟩
  unfold popCompletion at popped
  cases found : popJudgable runtime.judgable runtime.completions with
  | none => simp [found] at popped
  | some pair =>
      simp only [found, Prod.mk.injEq, Option.some.injEq] at popped
      simpa [found, popped.1] using routes

/-- The queue has none: all its records are skipped. -/
theorem pop_nothing_steps (fine : runtime.failedCompletion = none)
    (popped : runtime.popCompletion = (none, next)) :
    Steps runtime (popActs runtime.judgable runtime.completions) next ∧
      Quiet (popActs runtime.judgable runtime.completions) := by
  have steps := pop_steps fine
  have routes := pop_acts_routes runtime.judgable runtime.completions
  rw [popped] at steps
  refine ⟨steps, ?_⟩
  unfold popCompletion at popped
  cases found : popJudgable runtime.judgable runtime.completions with
  | none => simpa [found] using routes
  | some pair => simp [found] at popped

theorem route_invoked {ended : Outcome × DagRuntime} (routed : RouteEnds runtime ended) :
    Invoked runtime runtime.routeActs ended := by
  unfold routeActs
  cases routed with
  | abort found =>
      rw [found]
      exact Invoked.aborted runtime _
  | judge fine popped =>
      rw [fine]
      exact pop_invoked fine popped
  | stuck fine popped =>
      rw [fine]
      obtain ⟨steps, quiet⟩ := pop_nothing_steps fine popped
      exact ⟨_, steps, quiet, Or.inl rfl⟩

theorem dispatch_and_wait_invoked (once : runtime.plan.ids.Nodup) (nothing : runtime.completions = [])
    {waves : List Wave} {ended : Outcome × DagRuntime}
    (ran : runtime.dispatchAndWait waves = some ended) :
    Invoked runtime (runtime.dispatchAndWaitActs waves) ended := by
  have steps := dispatch_steps once nothing
  have quiet := dispatch_acts_quiet runtime.dispatchable runtime
  unfold dispatchAndWaitActs
  cases dispatch_and_wait_ends ran with
  | unknown ready =>
      rw [ready] at steps ⊢
      exact Invoked.after steps quiet ⟨_, Steps.nil _, Quiet.nil, Or.inl rfl⟩
  | idle ready idle =>
      rw [ready] at steps ⊢
      apply Invoked.after steps quiet
      simp only [waitAndRouteActs, if_pos idle]
      exact ⟨_, Steps.nil _, Quiet.nil, rfl⟩
  | @waited next waited rest _ ready busy waits routed =>
      rw [ready] at steps ⊢
      apply Invoked.after steps quiet
      simp only [waitAndRouteActs, if_neg busy, waits]
      exact Invoked.after ((wait_steps waits).append (collect_steps waited))
        ((wait_acts_quiet waves next).append (collect_acts_quiet waited))
        (route_invoked routed)

theorem proceed_invoked (once : runtime.plan.ids.Nodup) {waves : List Wave}
    {ended : Outcome × DagRuntime} (ran : runtime.proceed waves = some ended) :
    Invoked runtime (runtime.proceedActs waves) ended := by
  unfold proceedActs
  cases proceed_ends ran with
  | drained asked drained =>
      rw [if_pos asked]
      exact ⟨_, drain_steps _ drained, drain_acts_quiet _ runtime waves, rfl⟩
  | abort unasked found =>
      rw [if_neg unasked, found]
      exact Invoked.aborted runtime _
  | judge unasked fine popped =>
      rw [if_neg unasked, fine]
      simpa [popped] using pop_invoked fine popped
  | @dispatch next _ unasked fine popped later =>
      rw [if_neg unasked, fine]
      obtain ⟨steps, quiet⟩ := pop_nothing_steps fine popped
      have emptied := (pop_nothing popped).1
      have onceThen : next.plan.ids.Nodup := by
        rw [emptied]
        exact once
      have invoked := dispatch_and_wait_invoked onceThen (by rw [emptied]) later
      simp only [popped]
      exact Invoked.after steps quiet invoked

theorem apply_plan_input_steps {input : Option DagPlan}
    (applied : runtime.applyPlanInput input = .ok next) : Steps runtime (planActs input) next := by
  cases input with
  | none =>
      cases applied
      exact Steps.nil runtime
  | some plan =>
      have performed : runtime.perform (.applyPlan plan) = some next := by
        simp [perform, show runtime.applyPlan plan = .ok next from applied, Except.toOption]
      exact Steps.cons trivial performed (Steps.nil next)

/-- An invocation of the executor is its acts, one after the other. -/
theorem run_impl_invoked (once : runtime.plan.ids.Nodup) {input : Option DagPlan}
    {waves : List Wave} {ended : Outcome × DagRuntime}
    (ran : runtime.runImpl input waves = some ended) :
    Invoked runtime (runtime.invocationActs input waves) ended := by
  unfold invocationActs
  cases run_impl_ends ran with
  | refused applied =>
      rw [applied]
      exact ⟨runtime, Steps.nil runtime, Quiet.nil, Or.inl rfl⟩
  | @proceeded planned _ applied later =>
      rw [applied]
      have onceThen : planned.collectDone.plan.ids.Nodup := by
        rw [collect_done_plan]
        cases input with
        | none =>
            cases applied
            exact once
        | some plan =>
            rw [apply_plan_ids applied]
            exact (apply_plan_ok applied).1.unique
      exact Invoked.after ((apply_plan_input_steps applied).append (collect_steps planned))
        ((plan_acts_quiet input).append (collect_acts_quiet planned))
        (proceed_invoked onceThen later)

/-! ### The helper -/

/-- The assists of a node that has no task. -/
theorem assists_steps (nodeId : String) (mentions : List (String × String)) (runtime : DagRuntime)
    (planned : runtime.inPlan nodeId = true) (idle : nodeId ∉ runtime.runningTasks.keys) :
    Steps runtime (mentions.map fun mention => .addAssist nodeId mention.1 mention.2)
      (mentions.foldl (fun current mention => current.addAssist nodeId mention.1 mention.2)
        runtime) := by
  induction mentions generalizing runtime with
  | nil => exact Steps.nil runtime
  | cons mention rest ih =>
      exact Steps.cons idle (if_pos planned)
        (ih _ (add_assist_inPlan nodeId mention.1 mention.2 planned) idle)

theorem judge_steps (nodeId : String) (idle : nodeId ∉ runtime.runningTasks.keys) :
    Steps runtime (.judge nodeId :: runtime.assistActs nodeId) (Helper.runImpl runtime nodeId) := by
  refine Steps.cons trivial rfl ?_
  unfold assistActs Helper.runImpl
  cases found : runtime.plan.find? nodeId with
  | none =>
      have nothing : Helper.assists runtime nodeId = [] := by simp [Helper.assists, found]
      rw [nothing]
      exact Steps.nil runtime
  | some node =>
      have member : node ∈ runtime.plan.nodes := List.mem_of_find?_eq_some found
      have named := List.find?_some (show List.find? _ runtime.plan.nodes = some node from found)
      apply assists_steps nodeId _ runtime _ idle
      exact inPlan_iff.mpr (DagPlan.mem_ids.mpr ⟨node, member, of_decide_eq_true named⟩)

end DagRuntime

end Choirworks.Dag
