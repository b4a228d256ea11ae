import Choirworks.Dag.Invariant

/-!
Which results a dispatched node gets. A node is ready as soon as each of its
dependencies has an output, and the first output of a node that asked for help
stays in the registry while the node waits for its assists and continues.
Dependents see the final result only if nothing that is still to run depends
on such a node, neither when the assists are added nor in a later plan.
-/

namespace Choirworks.Dag

open DagRuntime

/-! ### The dispatches of an invocation -/

namespace DagRuntime

/-- The state in which an invocation dispatches, if it comes to that. -/
def dispatching (runtime : DagRuntime) (input : Option DagPlan) : Option DagRuntime :=
  match runtime.applyPlanInput input with
  | .error _ => none
  | .ok planned =>
      let settled := planned.collectDone
      if settled.doneRequested then none
      else match settled.failedCompletion with
        | some _ => none
        | none =>
            match settled.popCompletion with
            | (some _, _) => none
            | (none, rest) => some rest

theorem run_impl_dispatching {runtime ready : DagRuntime} {input : Option DagPlan}
    (reached : runtime.dispatching input = some ready) (waves : List Wave) :
    runtime.runImpl input waves = ready.dispatchAndWait waves := by
  cases applied : runtime.applyPlanInput input with
  | error failure => simp [dispatching, applied] at reached
  | ok planned =>
      simp only [dispatching, applied] at reached
      simp only [runImpl, applied, DagRuntime.proceed]
      by_cases judges : planned.collectDone.doneRequested = true
      · rw [if_pos judges] at reached
        cases reached
      · rw [if_neg judges] at reached ⊢
        cases noFailure : planned.collectDone.failedCompletion with
        | some failure => simp [noFailure] at reached
        | none =>
            simp only [noFailure] at reached ⊢
            cases popped : planned.collectDone.popCompletion with
            | mk found rest =>
                simp only [popped] at reached ⊢
                cases found with
                | some completion => cases reached
                | none => exact congrArg (·.dispatchAndWait waves) (Option.some.inj reached)

/-- An invocation dispatches the node; `moment` is the state right before. -/
def Dispatches (runtime : DagRuntime) (input : Option DagPlan) (node : PlanNode)
    (moment : DagRuntime) : Prop :=
  ∃ ready before after, runtime.dispatching input = some ready ∧
    ready.dispatchable = before ++ node.id :: after ∧
    dispatchNodes before ready = .ok moment ∧
    moment.plan.find? node.id = some node

end DagRuntime

/-! ### Final results -/

/-- A node of a plan with that status is still to be run. -/
def awaits : Option NodeStatus → Bool
  | none | some .pending | some .cancelled | some .waitingAssist => true
  | some .running | some .completed | some .failed => false

/-- The node has succeeded and is only to be collected. -/
def delivered : Option NodeTask → Bool
  | some (.finished _) => true
  | _ => false

theorem delivered_iff {task : Option NodeTask} :
    delivered task = true ↔ ∃ output, task = some (.finished output) := by
  rcases task with _ | ⟨_⟩ | ⟨_⟩ | ⟨_⟩ <;> simp [delivered]

/-- If the dependency has an output, the node has completed, so that no other
output will follow. -/
def Final (runtime : DagRuntime) (dep : String) : Prop :=
  runtime.hasOutput dep →
    runtime.status dep = some .completed ∨ delivered (runtime.task? dep) = true

instance (runtime : DagRuntime) (dep : String) : Decidable (Final runtime dep) :=
  inferInstanceAs (Decidable (runtime.hasOutput dep → _ ∨ _))

/-- What the dispatch of final results rests on. -/
structure Rested (runtime : DagRuntime) : Prop where
  once : runtime.plan.ids.Nodup
  busy : ∀ nodeId task, runtime.task? nodeId = some task →
    runtime.status nodeId ≠ some .completed
  final : ∀ node ∈ runtime.plan.nodes, awaits (runtime.status node.id) = true →
    ∀ dep ∈ node.deps, Final runtime dep

theorem start_rested (agents : Dict String AgentInfo) (userTask : String) :
    Rested (.start agents userTask) where
  once := by simp [start, DagPlan.ids, DagPlan.empty]
  busy := by simp [task?, start]
  final := by simp [start, DagPlan.empty]

/-- Nothing in the plan that is still to run depends on an output that may
still change. -/
def PlanRests (runtime : DagRuntime) (plan : DagPlan) : Prop :=
  ∀ node ∈ plan.nodes, awaits (runtime.status node.id) = true →
    ∀ dep ∈ node.deps, Final runtime dep

/-- No node that is still to run depends on the one that asks for help, and
its own dependencies are final. -/
def Helpable (runtime : DagRuntime) (parentId : String) : Prop :=
  ∀ node ∈ runtime.plan.nodes,
    (awaits (runtime.status node.id) = true ∨ node.id = parentId → parentId ∉ node.deps) ∧
    (node.id = parentId → ∀ dep ∈ node.deps, Final runtime dep)

def Unused (runtime : DagRuntime) (nodeId : String) : Prop :=
  nodeId ∉ runtime.plan.ids ∧ ¬ runtime.hasOutput nodeId

/-- The condition on one event. -/
def HelpRests (system : Orchestrator) : Event → Prop
  | .applyPlan plan => PlanRests system.runtime plan
  | .invoke input _ => ∀ plan ∈ input, PlanRests system.runtime plan
  | .judge => ∀ nodeId ∈ system.routed, Helper.assists system.runtime nodeId ≠ [] →
      Helpable system.runtime nodeId ∧
        ∀ assist ∈ generatedIds system.runtime nodeId, Unused system.runtime assist
  | .finish _ => True

instance (runtime : DagRuntime) (plan : DagPlan) : Decidable (PlanRests runtime plan) :=
  inferInstanceAs (Decidable (∀ node ∈ plan.nodes, awaits (runtime.status node.id) = true →
    ∀ dep ∈ node.deps, Final runtime dep))

instance (runtime : DagRuntime) (parentId : String) : Decidable (Helpable runtime parentId) :=
  inferInstanceAs (Decidable (∀ node ∈ runtime.plan.nodes,
    (awaits (runtime.status node.id) = true ∨ node.id = parentId → parentId ∉ node.deps) ∧
    (node.id = parentId → ∀ dep ∈ node.deps, Final runtime dep)))

instance (runtime : DagRuntime) (nodeId : String) : Decidable (Unused runtime nodeId) :=
  inferInstanceAs (Decidable (_ ∧ ¬ _))

instance (system : Orchestrator) : (event : Event) → Decidable (HelpRests system event)
  | .applyPlan plan => inferInstanceAs (Decidable (PlanRests system.runtime plan))
  | .invoke input _ => inferInstanceAs (Decidable (∀ plan ∈ input, PlanRests system.runtime plan))
  | .judge => inferInstanceAs (Decidable (∀ nodeId ∈ system.routed,
      Helper.assists system.runtime nodeId ≠ [] → Helpable system.runtime nodeId ∧
        ∀ assist ∈ generatedIds system.runtime nodeId, Unused system.runtime assist))
  | .finish _ => .isTrue trivial

/-! ### The invariant under each operation -/

section Keep

variable {runtime next : DagRuntime}

theorem merge_deps_subset (reachable : String → Bool) (deps oldDeps : List String) :
    mergeDeps reachable deps oldDeps ⊆ deps ++ oldDeps := by
  have fold : ∀ (rest merged : List String),
      rest.foldl (fun merged dep =>
        if dep ∉ merged ∧ reachable dep then merged ++ [dep] else merged) merged ⊆
      merged ++ rest := by
    intro rest
    induction rest with
    | nil => simp
    | cons first rest ih =>
        intro merged
        rw [List.foldl_cons]
        refine List.Subset.trans (ih _) ?_
        split
        · simp
        · exact List.append_subset.mpr ⟨List.subset_append_left _ _,
            List.subset_append_of_subset_right _ (List.subset_cons_self _ _)⟩
  exact fold (deps ++ oldDeps) []

/-- Dependencies of an adopted node come from the new plan or, while it waits
for an assist, from the old one. -/
theorem adopt_node_deps_from {newIds : List String} {node : PlanNode} {dep : String}
    (depends : dep ∈ (runtime.adoptNode newIds node).deps) :
    dep ∈ node.deps ∨ (runtime.status node.id = some .waitingAssist ∧
      ∃ old ∈ runtime.plan.nodes, old.id = node.id ∧ dep ∈ old.deps) := by
  unfold adoptNode at depends
  split at depends
  · exact Or.inl depends
  · rename_i old found
    dsimp only at depends
    split at depends
    · rename_i waiting
      rcases List.mem_append.mp (merge_deps_subset _ _ _ depends) with new | kept
      · exact Or.inl new
      · have known := List.mem_of_find?_eq_some found
        have named := List.find?_some found
        exact Or.inr ⟨waiting, old, by simpa using known, by simpa using named, kept⟩
    · exact Or.inl depends

theorem add_statuses_awaits {nodes : List PlanNode} {nodeId : String}
    (waits : awaits ((runtime.addStatuses nodes).get? nodeId) = true) :
    awaits (runtime.status nodeId) = true := by
  rw [add_statuses_status] at waits
  split at waits
  · generalize runtime.status nodeId = old at waits ⊢
    rcases old with _ | old
    · rfl
    · cases old <;> first | rfl | exact waits
  · exact waits

theorem Rested.apply_plan (rested : Rested runtime) {newPlan : DagPlan}
    (rests : PlanRests runtime newPlan) (applied : runtime.applyPlan newPlan = .ok next) :
    Rested next := by
  have ids := apply_plan_ids applied
  obtain ⟨valid, rfl⟩ := apply_plan_ok applied
  constructor
  case once =>
    rw [ids]
    exact valid.unique
  case busy =>
    intro nodeId task known completed
    exact rested.busy nodeId task known (add_statuses_back completed (by simp))
  case final =>
    intro node member waits dep depends has
    obtain ⟨source, inside, rfl⟩ := List.mem_map.mp member
    rw [adopt_node_id] at waits
    have waited : awaits (runtime.status source.id) = true := add_statuses_awaits waits
    have before : Final runtime dep := by
      rcases adopt_node_deps_from depends with new | ⟨_, old, planned, named, kept⟩
      · exact rests source inside waited dep new
      · exact rested.final old planned (named ▸ waited) dep kept
    rcases before has with completed | delivers
    · exact Or.inl (add_statuses_kept completed (by simp) _)
    · exact Or.inr delivers

theorem Rested.of_result (rested : Rested runtime) (wave : Wave) :
    Rested (runtime.finish wave) := by
  have frame := finish_frame runtime wave
  have tasks := finish_task runtime wave
  have keys := finish_keys runtime wave
  generalize runtime.finish wave = next at *
  rw [frame] at *
  refine ⟨rested.once, ?_, ?_⟩
  · intro nodeId task known
    obtain ⟨old, before⟩ := mem_running_iff.mp ((keys nodeId).mp (mem_running_iff.mpr ⟨_, known⟩))
    exact rested.busy nodeId old before
  · intro node member waits dep depends has
    refine (rested.final node member waits dep depends has).imp_right ?_
    intro delivers
    rw [tasks]
    -- a task that has finished is not touched
    obtain ⟨output, known⟩ := delivered_iff.mp delivers
    rw [known]
    rfl

theorem Rested.collect_done (rested : Rested runtime) : Rested runtime.collectDone := by
  have statusOf := collect_done_status runtime
  have outputOf := collect_done_output runtime
  have taskOf := collect_done_task runtime
  constructor
  case once => simpa using rested.once
  case busy =>
    intro nodeId task known
    rw [taskOf] at known
    rw [statusOf]
    cases before : runtime.task? nodeId with
    | none => simp [before] at known
    | some old =>
        cases old with
        | running message => exact rested.busy nodeId _ before
        | finished output => simp [before] at known
        | raised error => simp [before] at known
  case final =>
    rw [collect_done_plan]
    intro node member waits dep depends has
    -- a node that still waits had no result to be collected
    have waited : awaits (runtime.status node.id) = true := by
      rw [statusOf] at waits
      rcases known : runtime.task? node.id with _ | ⟨_⟩ | ⟨_⟩ | ⟨_⟩
      all_goals simp only [known] at waits
      · exact waits
      · exact waits
      · cases waits
      · cases waits
    left
    rw [statusOf]
    rw [hasOutput_iff, outputOf] at has
    have before := rested.final node member waited dep depends
    rw [Final, hasOutput_iff] at before
    -- an output is there from before or from the task just collected
    cases known : runtime.task? dep with
    | none =>
        rw [known] at has before
        simpa [delivered] using before has
    | some task =>
        cases task with
        | finished output => rfl
        | running message =>
            rw [known] at has before
            exact absurd (by simpa [delivered] using before has) (rested.busy dep _ known)
        | raised error =>
            rw [known] at has before
            exact absurd (by simpa [delivered] using before has) (rested.busy dep _ known)

/-- Dispatched nodes no longer wait; they were not completed, so final results stay. -/
theorem Rested.started (rested : Rested runtime) (undone : runtime.Undone) {started : List String}
    (effect : Started started runtime next)
    (ready : ∀ nodeId ∈ started, runtime.status nodeId = some .pending ∨
      runtime.status nodeId = some .waitingAssist) : Rested next := by
  obtain ⟨frame, statuses, tasks, spawned⟩ := effect
  have plan : next.plan = runtime.plan := by rw [frame]
  constructor
  case once =>
    rw [plan]
    exact rested.once
  case busy =>
    intro nodeId task known
    rw [statuses]
    split
    · simp
    · rename_i outside
      rw [tasks nodeId outside] at known
      exact rested.busy nodeId task known
  case final =>
    rw [plan]
    intro node member waits dep depends has
    have waited : awaits (runtime.status node.id) = true := by
      rw [statuses] at waits
      split at waits
      · cases waits
      · exact waits
    rw [frame] at has
    rcases rested.final node member waited dep depends has with completed | delivers
    · left
      rw [statuses, if_neg, completed]
      intro inside
      rcases ready dep inside with same | same <;> simp [completed] at same
    · obtain ⟨output, known⟩ := delivered_iff.mp delivers
      -- when nodes are dispatched all results are collected
      have running := undone dep _ known
      cases running

/-- The entries of the plan behind `add_assist`. -/
theorem add_assist_mem {parentId agentName instruction : String} {node : PlanNode}
    (member : node ∈ (runtime.addAssist parentId agentName instruction).plan.nodes) :
    (∃ old ∈ runtime.plan.nodes, node.id = old.id ∧
      (node.deps = old.deps ∨ (old.id = parentId ∧ ∀ dep ∈ node.deps, dep ∈ old.deps ∨
        dep = assistId parentId (runtime.assistSeq + 1)))) ∨
    (node.id = assistId parentId (runtime.assistSeq + 1) ∧ node.deps = []) := by
  rcases List.mem_append.mp member with wired | added
  · obtain ⟨old, inside, named, _, deps⟩ := wire_parent_mem wired
    exact Or.inl ⟨old, inside, named, deps⟩
  · rw [List.mem_singleton.mp added]
    exact Or.inr ⟨rfl, rfl⟩

theorem Rested.add_assist (rested : Rested runtime) {parentId : String}
    (agentName instruction : String) (helpable : Helpable runtime parentId)
    (unused : Unused runtime (assistId parentId (runtime.assistSeq + 1))) :
    Rested (runtime.addAssist parentId agentName instruction) ∧
      Helpable (runtime.addAssist parentId agentName instruction) parentId := by
  have ids := add_assist_ids runtime parentId agentName instruction
  have statusOf := add_assist_status runtime parentId agentName instruction
  have entries : ∀ node ∈ (runtime.addAssist parentId agentName instruction).plan.nodes, _ :=
    fun _ member => add_assist_mem member
  have other : assistId parentId (runtime.assistSeq + 1) ≠ parentId := assist_id_ne _ _
  generalize made : runtime.addAssist parentId agentName instruction = next at *
  generalize assistId parentId (runtime.assistSeq + 1) = assist at *
  have outputs : ∀ nodeId, next.hasOutput nodeId ↔ runtime.hasOutput nodeId := by
    intro nodeId
    rw [← made]
    exact Iff.rfl
  have tasks : ∀ nodeId, next.task? nodeId = runtime.task? nodeId := by
    intro nodeId
    rw [← made]
    rfl
  have planned : ∀ old ∈ runtime.plan.nodes, old.id ≠ assist := by
    rintro old inside rfl
    exact unused.1 (DagPlan.mem_ids.mpr ⟨old, inside, rfl⟩)
  -- only the output of the parent may change again
  have kept : ∀ dep, dep ≠ parentId → Final runtime dep → Final next dep := by
    intro dep different final has
    have notAssist : dep ≠ assist := by
      rintro rfl
      exact unused.2 ((outputs dep).mp has)
    rw [statusOf, if_neg different, if_neg notAssist, tasks]
    exact final ((outputs dep).mp has)
  have vacuous : Final next assist := fun has => absurd ((outputs assist).mp has) unused.2
  have parentDeps : ∀ node ∈ next.plan.nodes, node.id = parentId →
      parentId ∉ node.deps ∧ ∀ dep ∈ node.deps, Final next dep := by
    intro node member named
    rcases entries node member with ⟨old, inside, same, deps⟩ | ⟨same, none⟩
    · have outside := (helpable old inside).1 (Or.inr (same.symm.trans named))
      have finals := (helpable old inside).2 (same.symm.trans named)
      have origin : ∀ dep ∈ node.deps, dep ∈ old.deps ∨ dep = assist := by
        rcases deps with equal | ⟨_, wired⟩
        · exact fun dep depends => Or.inl (equal ▸ depends)
        · exact wired
      refine ⟨?_, ?_⟩
      · intro itself
        rcases origin parentId itself with old | new
        · exact outside old
        · exact other new.symm
      · intro dep depends
        rcases origin dep depends with old | rfl
        · exact kept dep (fun equal => outside (equal ▸ old)) (finals dep old)
        · exact vacuous
    · exact absurd (same.symm.trans named) other
  -- the other nodes wait as before
  have rest : ∀ node ∈ next.plan.nodes, node.id ≠ parentId →
      awaits (next.status node.id) = true →
      parentId ∉ node.deps ∧ ∀ dep ∈ node.deps, Final next dep := by
    intro node member different waits
    rcases entries node member with ⟨old, inside, same, deps⟩ | ⟨_, none⟩
    · rw [statusOf, if_neg different, same, if_neg (planned old inside)] at waits
      have equal : node.deps = old.deps := by
        rcases deps with equal | ⟨parent, _⟩
        · exact equal
        · exact absurd (same.trans parent) different
      rw [equal]
      have outside := (helpable old inside).1 (Or.inl waits)
      exact ⟨outside, fun dep depends => kept dep (fun equal => outside (equal ▸ depends))
        (rested.final old inside waits dep depends)⟩
    · simp [none]
  refine ⟨⟨?_, ?_, ?_⟩, ?_⟩
  · rw [ids]
    exact rested.once.append (by simp) (by simpa using unused.1)
  · intro nodeId task known
    rw [statusOf]
    rw [tasks] at known
    split
    · simp
    · split
      · simp
      · exact rested.busy nodeId task known
  · intro node member waits
    by_cases parent : node.id = parentId
    · exact (parentDeps node member parent).2
    · exact (rest node member parent waits).2
  · intro node member
    refine ⟨?_, fun parent => (parentDeps node member parent).2⟩
    intro concerned
    by_cases parent : node.id = parentId
    · exact (parentDeps node member parent).1
    · exact (rest node member parent (concerned.resolve_right parent)).1

theorem assist_id_injective {parentId : String} {left right : Nat}
    (same : assistId parentId left = assistId parentId right) : left = right := by
  apply Text.toString_nat_injective
  have letters := congrArg String.toList same
  simp only [assistId, String.toList_append, List.append_cancel_left_eq] at letters
  exact String.toList_inj.mp letters

theorem Rested.add_assists (rested : Rested runtime) {parentId : String}
    (mentions : List (String × String)) (helpable : Helpable runtime parentId)
    (unused : ∀ count < mentions.length,
      Unused runtime (assistId parentId (runtime.assistSeq + count + 1))) :
    Rested (mentions.foldl (fun current mention =>
      current.addAssist parentId mention.1 mention.2) runtime) := by
  induction mentions generalizing runtime with
  | nil => exact rested
  | cons mention rest ih =>
      obtain ⟨first, helps⟩ := rested.add_assist mention.1 mention.2 helpable (unused 0 (by simp))
      apply ih first helps
      intro count bound
      obtain ⟨fresh, empty⟩ := unused (count + 1) (by simpa using bound)
      have same : (runtime.addAssist parentId mention.1 mention.2).assistSeq + count + 1 =
          runtime.assistSeq + (count + 1) + 1 := by
        simp only [addAssist]
        omega
      rw [same]
      refine ⟨?_, empty⟩
      rw [add_assist_ids, List.mem_append, List.mem_singleton, not_or]
      refine ⟨fresh, fun equal => ?_⟩
      have apart := assist_id_injective equal
      omega

theorem Rested.judge (rested : Rested runtime) {nodeId : String}
    (safe : Helper.assists runtime nodeId ≠ [] → Helpable runtime nodeId ∧
      ∀ assist ∈ generatedIds runtime nodeId, Unused runtime assist) :
    Rested (Helper.runImpl runtime nodeId) := by
  by_cases asks : Helper.assists runtime nodeId = []
  · rw [Helper.runImpl, asks]
    exact rested
  · obtain ⟨helpable, unused⟩ := safe asks
    apply rested.add_assists _ helpable
    intro count bound
    exact unused _ (List.mem_map.mpr ⟨count, List.mem_range.mpr bound, rfl⟩)

theorem Rested.wait_one (rested : Rested runtime) (waves : List Wave) {rest : List Wave}
    (ended : runtime.waitOne waves = some (next, rest)) : Rested next := by
  induction waves generalizing runtime with
  | nil =>
      unfold waitOne at ended
      split at ended
      · cases ended
        exact rested
      · cases ended
  | cons wave others ih =>
      unfold waitOne at ended
      split at ended
      · cases ended
        exact rested
      · exact ih (rested.of_result wave) ended

theorem Rested.drain (rested : Rested runtime) (fuel : Nat) (waves : List Wave)
    (ended : DagRuntime.drain fuel runtime waves = some next) : Rested next := by
  induction fuel generalizing runtime waves with
  | zero =>
      unfold DagRuntime.drain at ended
      split at ended
      · cases ended
        exact rested
      · cases ended
  | succ fuel ih =>
      unfold DagRuntime.drain at ended
      split at ended
      · cases ended
        exact rested
      · split at ended
        · cases ended
        · rename_i waited
          exact ih (rested.wait_one waves waited).collect_done _ ended

/-- Statuses, tasks, outputs and plan do not change with the queue. -/
theorem Rested.requeue (rested : Rested runtime) (records : List CompletionRecord) :
    Rested { runtime with completions := records } :=
  ⟨rested.once, rested.busy, rested.final⟩

theorem Rested.pop_completion (rested : Rested runtime) :
    Rested runtime.popCompletion.2 := by
  unfold popCompletion
  split
  · exact rested.requeue _
  · exact rested.requeue _

end Keep

/-! ### What an invocation dispatches -/

section Dispatch

variable {runtime ready : DagRuntime} {input : Option DagPlan}

theorem Rested.apply_plan_input (rested : Rested runtime)
    (rests : ∀ plan ∈ input, PlanRests runtime plan) {planned : DagRuntime}
    (applied : runtime.applyPlanInput input = .ok planned) : Rested planned := by
  cases input with
  | none =>
      cases applied
      exact rested
  | some plan => exact rested.apply_plan (rests plan rfl) applied

theorem Rested.dispatching (rested : Rested runtime)
    (rests : ∀ plan ∈ input, PlanRests runtime plan)
    (reached : runtime.dispatching input = some ready) : Rested ready ∧ ready.Undone := by
  unfold DagRuntime.dispatching at reached
  split at reached
  · cases reached
  · rename_i planned applied
    have collected := (rested.apply_plan_input rests applied).collect_done
    dsimp only at reached
    split at reached
    · cases reached
    · split at reached
      · cases reached
      · split at reached
        · cases reached
        · rename_i rest popped
          cases reached
          obtain ⟨rfl, _⟩ := pop_nothing popped
          exact ⟨collected.requeue [], undone_collect_done planned⟩

theorem Rested.dispatch_and_wait (rested : Rested runtime) (undone : runtime.Undone)
    (waves : List Wave) {outcome : Outcome} {next : DagRuntime}
    (ended : runtime.dispatchAndWait waves = some (outcome, next)) :
    (∃ error, outcome = .raised error) ∨ Rested next := by
  cases dispatch_and_wait_ends ended with
  | unknown ready => exact Or.inl ⟨_, rfl⟩
  | idle ready idle =>
      exact Or.inr (rested.started undone (dispatch_nodes_ok ready) (ready_dispatchable runtime))
  | @waited dispatched waited rest _ ready busy waits routed =>
      have restedNext := rested.started undone (dispatch_nodes_ok ready) (ready_dispatchable runtime)
      have collected := (restedNext.wait_one waves waits).collect_done
      have popped := collected.pop_completion
      cases routed with
      | abort found => exact Or.inl ⟨_, rfl⟩
      | judge fine taken =>
          rw [taken] at popped
          exact Or.inr popped
      | stuck fine taken => exact Or.inl ⟨_, rfl⟩

theorem Rested.run_impl (rested : Rested runtime)
    (rests : ∀ plan ∈ input, PlanRests runtime plan) (waves : List Wave) {outcome : Outcome}
    {next : DagRuntime} (ended : runtime.runImpl input waves = some (outcome, next)) :
    (∃ error, outcome = .raised error) ∨ Rested next := by
  cases run_impl_ends ended with
  | refused applied => exact Or.inl ⟨_, rfl⟩
  | @proceeded planned _ applied later =>
      have collected := (rested.apply_plan_input rests applied).collect_done
      have popped := collected.pop_completion
      cases proceed_ends later with
      | drained asked drained => exact Or.inr (collected.drain _ waves drained)
      | abort unasked found => exact Or.inl ⟨_, rfl⟩
      | judge unasked fine taken =>
          rw [taken] at popped
          exact Or.inr popped
      | dispatch unasked fine taken later =>
          obtain ⟨rfl, _⟩ := pop_nothing taken
          exact (collected.requeue []).dispatch_and_wait (undone_collect_done planned) waves later

/-- Right before a node is dispatched, what it depends on has completed. -/
theorem Rested.dispatched_final (rested : Rested runtime) (undone : runtime.Undone)
    {before after : List String} {node : PlanNode} {moment : DagRuntime}
    (split : runtime.dispatchable = before ++ node.id :: after)
    (ran : dispatchNodes before runtime = .ok moment)
    (found : moment.plan.find? node.id = some node) :
    ∀ dep ∈ node.deps, moment.status dep = some .completed := by
  have effect := dispatch_nodes_ok ran
  intro dep depends
  have plan : moment.plan = runtime.plan := by rw [effect.frame]
  rw [plan] at found
  have member := List.mem_of_find?_eq_some found
  have listed : node.id ∈ runtime.dispatchable := by simp [split]
  obtain ⟨entry, inside, named⟩ := List.mem_map.mp listed
  obtain ⟨planned, can⟩ := List.mem_filter.mp inside
  -- ids are unique, so the ready entry is the one that is looked up
  obtain rfl : entry = node := List.inj_on_of_nodup_map rested.once planned member named
  simp only [canDispatch, Bool.and_eq_true, Bool.or_eq_true, decide_eq_true_eq,
    List.all_eq_true] at can
  have waits : awaits (runtime.status entry.id) = true := by
    rcases can.1 with same | same <;> rw [same] <;> rfl
  have completed : runtime.status dep = some .completed := by
    rcases rested.final entry member waits dep depends (can.2 dep depends) with same | delivers
    · exact same
    · obtain ⟨output, known⟩ := delivered_iff.mp delivers
      cases undone dep _ known
  rw [effect.statuses, if_neg, completed]
  intro earlier
  rcases ready_dispatchable runtime dep (by simp [split, earlier]) with same | same <;>
    simp [completed] at same

end Dispatch

theorem step_rested (system : Orchestrator) (event : Event) (next : Orchestrator)
    (rested : Rested system.runtime) (rests : HelpRests system event)
    (stepped : system.step event = some next) : Rested next.runtime := by
  cases event with
  | applyPlan plan =>
      simp only [Orchestrator.step, Orchestrator.applyPlan] at stepped
      split at stepped
      · split at stepped
        · cases stepped
        · rename_i runtime applied
          cases stepped
          exact rested.apply_plan rests applied
      · cases stepped
  | invoke input waves =>
      simp only [Orchestrator.step, Orchestrator.invoke] at stepped
      split at stepped
      · cases ran : system.runtime.runImpl input waves with
        | none => simp [ran] at stepped
        | some ended =>
            obtain ⟨outcome, runtime⟩ := ended
            have kept := rested.run_impl rests waves ran
            rw [ran] at stepped
            cases outcome with
            | raised error => cases stepped
            | judge nodeId =>
                cases stepped
                exact kept.resolve_left (by simp)
            | default =>
                cases stepped
                exact kept.resolve_left (by simp)
      · cases stepped
  | judge =>
      simp only [Orchestrator.step, Orchestrator.judge] at stepped
      split at stepped
      · cases stepped
      · rename_i nodeId handed
        cases stepped
        exact rested.judge (rests nodeId handed)
  | finish wave =>
      cases stepped
      exact rested.of_result wave

/-- In a run that never asks for help for a node something waits for, and whose
plans wait for final results only, every dispatched node has completed
dependencies. -/
theorem dependents_wait (agents : Dict String AgentInfo) (userTask : String)
    (events : List Event) (system : Orchestrator)
    (rests : Runs.Guarded Orchestrator.step HelpRests (.start agents userTask) events)
    (ran : Runs.run Orchestrator.step (.start agents userTask) events = some system)
    (input : Option DagPlan) (waves : List Wave) (last : HelpRests system (.invoke input waves))
    (node : PlanNode) (moment : DagRuntime)
    (dispatches : Dispatches system.runtime input node moment) :
    ∀ dep ∈ node.deps, moment.status dep = some .completed := by
  have rested : Rested system.runtime :=
    Runs.run_invariant (fun system => Rested system.runtime) step_rested events _ system
      (start_rested agents userTask) rests ran
  obtain ⟨ready, before, after, reached, split, dispatched, found⟩ := dispatches
  obtain ⟨restedReady, undone⟩ := rested.dispatching last reached
  exact restedReady.dispatched_final undone split dispatched found

section Helped

/-! A writer that asks a helper: first with a reader of its output in the same
plan, then with a reader that a later plan adds. -/

def helpAgents : Dict String AgentInfo :=
  (Dict.set .empty "writer" ⟨"writer", "", ""⟩).set "helper" ⟨"helper", "", ""⟩

def writer (nodeId : String) (deps : List String) : PlanNode :=
  ⟨nodeId, nodeId, "writer", "work", deps, none⟩

def askedEarly : List Event := [
  .invoke (some ⟨[writer "a" [], writer "b" ["a"]]⟩) [[("a", .ok "@helper check this")]],
  .judge]

/-- The reader is dispatched with the help request as its input. -/
theorem reader_gets_request :
    ¬ ∀ (agents : Dict String AgentInfo) (userTask : String) (events : List Event)
      (system : Orchestrator),
      Runs.run Orchestrator.step (.start agents userTask) events = some system →
      ∀ (input : Option DagPlan) (node : PlanNode) (moment : DagRuntime),
      Dispatches system.runtime input node moment →
      ∀ dep ∈ node.deps, moment.status dep = some .completed := by
  intro claim
  have early : Runs.Ends Orchestrator.step (.start helpAgents "task") askedEarly fun system =>
      ∃ ready ∈ system.runtime.dispatching none,
        ready.dispatchable = ["b", "a-assist1"] ∧
        ready.plan.find? "b" = some (writer "b" ["a"]) ∧
        ready.status "a" = some .waitingAssist := by
    decide +kernel
  obtain ⟨system, ran, ready, reached, listed, found, waiting⟩ := early
  have completed := claim helpAgents "task" askedEarly system ran none (writer "b" ["a"]) ready
    ⟨ready, [], ["a-assist1"], reached, listed, rfl, found⟩ "a" (by simp [writer])
  rw [waiting] at completed
  cases completed

def askedAlone : List Event := [
  .invoke (some ⟨[writer "a" []]⟩) [[("a", .ok "@helper check this")]],
  .judge,
  .invoke none [[("a-assist1", .ok "fine")]],
  .judge,
  .invoke none [[("a", .ok "final")]],
  .judge]

def readerPlan : DagPlan := ⟨[writer "a" [], writer "b" ["a"]]⟩

theorem reader_gets_final :
    Runs.Ends Orchestrator.step (.start helpAgents "task") askedAlone fun system =>
      ∃ moment, Dispatches system.runtime (some readerPlan) (writer "b" ["a"]) moment ∧
        ∀ dep ∈ ["a"], moment.status dep = some .completed := by
  have late : Runs.Ends Orchestrator.step (.start helpAgents "task") askedAlone fun system =>
      HelpRests system (.invoke (some readerPlan) []) ∧
        ∃ ready ∈ system.runtime.dispatching (some readerPlan),
          ready.dispatchable = ["b"] ∧ ready.plan.find? "b" = some (writer "b" ["a"]) := by
    decide +kernel
  obtain ⟨system, ran, last, ready, reached, listed, found⟩ := late
  have dispatches : Dispatches system.runtime (some readerPlan) (writer "b" ["a"]) ready :=
    ⟨ready, [], [], reached, listed, rfl, found⟩
  exact ⟨system, ran, ready, dispatches, dependents_wait helpAgents "task" askedAlone system
    (by decide +kernel) ran _ [] last _ ready dispatches⟩

end Helped

end Choirworks.Dag
