import Choirworks.Dag.Acts
import Choirworks.Dag.Assisted

/-!
What a replan leaves of the wiring of a node that waits for its assists. The
merged dependencies are those the new plan or the output registry can answer;
an assist that the planner left out and that still runs is in neither, so that
its dependency is dropped and the node may go on without its answer.
-/

namespace Choirworks.Dag

open DagRuntime

theorem mem_merge_deps {reachable : String → Bool} {deps oldDeps : List String} {dep : String} :
    dep ∈ mergeDeps reachable deps oldDeps ↔
      (dep ∈ deps ∨ dep ∈ oldDeps) ∧ reachable dep = true := by
  have fold : ∀ rest merged : List String,
      dep ∈ rest.foldl (fun merged dep =>
        if dep ∉ merged ∧ reachable dep then merged ++ [dep] else merged) merged ↔
      dep ∈ merged ∨ (dep ∈ rest ∧ reachable dep = true) := by
    intro rest
    induction rest with
    | nil => simp
    | cons first rest ih =>
        intro merged
        rw [List.foldl_cons, ih]
        by_cases same : dep = first
        · subst same
          by_cases listed : dep ∈ merged <;> by_cases answered : reachable dep = true <;>
            simp [listed, answered]
        · split <;> simp [same]
  rw [mergeDeps, fold]
  simp

section Replan

variable {runtime next : DagRuntime} {plan : DagPlan} {old specified : PlanNode} {dep : String}

theorem adopt_waiting_deps {newIds : List String} (known : runtime.oldNode? specified.id = some old)
    (waiting : runtime.status specified.id = some .waitingAssist) :
    dep ∈ (runtime.adoptNode newIds specified).deps ↔
      (dep ∈ specified.deps ∨ dep ∈ old.deps) ∧ (dep ∈ newIds ∨ runtime.hasOutput dep) := by
  simp [adoptNode, known, waiting, mem_merge_deps]

theorem old_node_mem {nodeId : String} (known : runtime.oldNode? nodeId = some old) :
    old ∈ runtime.plan.nodes ∧ old.id = nodeId :=
  ⟨by simpa using List.mem_of_find?_eq_some known, by simpa using List.find?_some known⟩

theorem old_node_some {nodeId : String} (planned : nodeId ∈ runtime.plan.ids) :
    ∃ old, runtime.oldNode? nodeId = some old := by
  obtain ⟨node, member, named⟩ := DagPlan.mem_ids.mp planned
  cases found : runtime.oldNode? nodeId with
  | some old => exact ⟨old, rfl⟩
  | none =>
      have absent := List.find?_eq_none.mp found node (List.mem_reverse.mpr member)
      exact absurd named (by simpa using absent)

/-- The entry of an accepted plan is the adopted one of the plan that was handed over. -/
theorem kept_entry (applied : runtime.applyPlan plan = .ok next) (listed : specified ∈ plan.nodes)
    {kept : PlanNode} (member : kept ∈ next.plan.nodes) (named : kept.id = specified.id) :
    kept = runtime.adoptNode plan.ids specified := by
  obtain ⟨valid, rfl⟩ := apply_plan_ok applied
  obtain ⟨source, inside, rfl⟩ := List.mem_map.mp member
  rw [adopt_node_id] at named
  rw [List.inj_on_of_nodup_map valid.unique inside listed named]

/-- A waiting node is ready behind the plan if nothing it waits for and the
plan keeps is without an output. -/
theorem waiting_dispatchable_iff (applied : runtime.applyPlan plan = .ok next)
    (listed : specified ∈ plan.nodes) (known : runtime.oldNode? specified.id = some old)
    (waiting : runtime.status specified.id = some .waitingAssist) :
    specified.id ∈ next.dispatchable ↔
      ∀ dep, dep ∈ specified.deps ∨ dep ∈ old.deps → dep ∈ plan.ids → runtime.hasOutput dep := by
  have entry : ∀ kept ∈ next.plan.nodes, kept.id = specified.id →
      kept = runtime.adoptNode plan.ids specified := fun _ => kept_entry applied listed
  obtain ⟨valid, made⟩ := apply_plan_ok applied
  have here : runtime.adoptNode plan.ids specified ∈ next.plan.nodes := by
    rw [made]
    exact List.mem_map_of_mem listed
  have waits : next.status specified.id = some .waitingAssist := by
    rw [made]
    exact add_statuses_kept waiting (by decide) _
  have outputs : ∀ dep, next.hasOutput dep ↔ runtime.hasOutput dep := by
    intro dep
    rw [made]
    exact Iff.rfl
  have ready : next.canDispatch (runtime.adoptNode plan.ids specified) = true ↔
      ∀ dep, dep ∈ specified.deps ∨ dep ∈ old.deps → dep ∈ plan.ids → runtime.hasOutput dep := by
    simp only [canDispatch, adopt_node_id, waits, Bool.and_eq_true, Bool.or_eq_true,
      decide_eq_true_eq, List.all_eq_true, or_true, true_and, outputs,
      adopt_waiting_deps known waiting]
    constructor
    · exact fun answered dep depends planned => answered dep ⟨depends, Or.inl planned⟩
    · rintro answered dep ⟨depends, planned | has⟩
      · exact answered dep depends planned
      · exact has
  rw [← ready]
  constructor
  · intro member
    obtain ⟨kept, inside, named⟩ := List.mem_map.mp member
    obtain ⟨planned, can⟩ := List.mem_filter.mp inside
    rwa [← entry kept planned named]
  · intro can
    exact List.mem_map.mpr ⟨_, List.mem_filter.mpr ⟨here, can⟩, adopt_node_id _ _ _⟩

/-! ### One replan -/

/-- Behind the plan the node still depends on each of its old dependencies that
has completed, still runs or is kept by the plan. -/
def KeepsWiring (runtime next : DagRuntime) (plan : DagPlan) (nodeId : String) : Prop :=
  ∀ old, runtime.oldNode? nodeId = some old → ∀ kept ∈ next.plan.nodes, kept.id = nodeId →
    ∀ dep ∈ old.deps, runtime.status dep = some .completed ∨
      runtime.status dep = some .running ∨ dep ∈ plan.ids → dep ∈ kept.deps

/-- It is not ready while one of them is still at work. -/
def HoldsBack (runtime next : DagRuntime) (nodeId : String) : Prop :=
  nodeId ∈ next.dispatchable → ∀ old, runtime.oldNode? nodeId = some old →
    ∀ dep ∈ old.deps, next.status dep ≠ some .running

/-- The plan or the output registry answers what has completed or still runs,
and next to something that runs the plan keeps a dependency without an output. -/
def AnswersAssists (runtime : DagRuntime) (plan : DagPlan) (nodeId : String) : Prop :=
  ∀ old, runtime.oldNode? nodeId = some old → ∀ specified ∈ plan.nodes, specified.id = nodeId →
    (∀ dep ∈ old.deps, runtime.status dep = some .completed ∨ runtime.status dep = some .running →
      dep ∈ plan.ids ∨ runtime.hasOutput dep) ∧
    ((∃ dep ∈ old.deps, runtime.status dep = some .running) →
      ∃ dep ∈ specified.deps ++ old.deps, dep ∈ plan.ids ∧ ¬ runtime.hasOutput dep)

theorem keeps_wiring_iff (applied : runtime.applyPlan plan = .ok next)
    (listed : specified ∈ plan.nodes) (known : runtime.oldNode? specified.id = some old)
    (waiting : runtime.status specified.id = some .waitingAssist) :
    KeepsWiring runtime next plan specified.id ↔
      ∀ dep ∈ old.deps, runtime.status dep = some .completed ∨
        runtime.status dep = some .running → dep ∈ plan.ids ∨ runtime.hasOutput dep := by
  have here : runtime.adoptNode plan.ids specified ∈ next.plan.nodes := by
    obtain ⟨_, rfl⟩ := apply_plan_ok applied
    exact List.mem_map_of_mem listed
  constructor
  · intro keeps dep depends state
    have kept := keeps old known _ here (adopt_node_id _ _ _) dep depends (by tauto)
    exact ((adopt_waiting_deps known waiting).mp kept).2
  · intro answers other found kept member named dep depends state
    obtain rfl : old = other := Option.some.inj (known.symm.trans found)
    rw [kept_entry applied listed member named, adopt_waiting_deps known waiting]
    refine ⟨Or.inr depends, ?_⟩
    rcases state with completed | running | planned
    · exact answers dep depends (Or.inl completed)
    · exact answers dep depends (Or.inr running)
    · exact Or.inl planned

theorem holds_back_iff (applied : runtime.applyPlan plan = .ok next)
    (listed : specified ∈ plan.nodes) (known : runtime.oldNode? specified.id = some old)
    (waiting : runtime.status specified.id = some .waitingAssist) :
    HoldsBack runtime next specified.id ↔
      ((∃ dep ∈ old.deps, runtime.status dep = some .running) →
        ∃ dep ∈ specified.deps ++ old.deps, dep ∈ plan.ids ∧ ¬ runtime.hasOutput dep) := by
  have running : ∀ dep, next.status dep = some .running ↔ runtime.status dep = some .running := by
    obtain ⟨_, rfl⟩ := apply_plan_ok applied
    exact fun dep => ⟨fun now => add_statuses_back now (by decide),
      fun before => add_statuses_kept before (by decide) _⟩
  rw [HoldsBack, waiting_dispatchable_iff applied listed known waiting]
  constructor
  · rintro holds ⟨busy, depends, works⟩
    by_contra answered
    refine holds ?_ old known busy depends ((running busy).mpr works)
    intro dep waits planned
    by_contra none
    exact answered ⟨dep, by simpa using waits, planned, none⟩
  · intro silent answered other found dep depends works
    obtain rfl : old = other := Option.some.inj (known.symm.trans found)
    obtain ⟨waits, inside, planned, none⟩ := silent ⟨dep, depends, (running dep).mp works⟩
    exact none (answered waits (by simpa using inside) planned)

/-- What a plan does to a waiting node that it keeps. -/
theorem replan_iff (applied : runtime.applyPlan plan = .ok next) {nodeId : String}
    (kept : nodeId ∈ plan.ids) (waiting : runtime.status nodeId = some .waitingAssist) :
    KeepsWiring runtime next plan nodeId ∧ HoldsBack runtime next nodeId ↔
      AnswersAssists runtime plan nodeId := by
  obtain ⟨specified, listed, rfl⟩ := DagPlan.mem_ids.mp kept
  cases known : runtime.oldNode? specified.id with
  | none => simp [KeepsWiring, HoldsBack, AnswersAssists, known]
  | some old =>
      have unique : ∀ other ∈ plan.nodes, other.id = specified.id → other = specified :=
        fun other member named =>
          List.inj_on_of_nodup_map (apply_plan_ok applied).1.unique member listed named
      rw [keeps_wiring_iff applied listed known waiting, holds_back_iff applied listed known waiting]
      constructor
      · intro both other found entry member named
        obtain rfl : old = other := Option.some.inj (known.symm.trans found)
        rw [unique entry member named]
        exact both
      · exact fun answers => answers old known specified listed rfl

end Replan

/-! ### Runs -/

/-- Every entry of the node depends on `dep`, or `dep` has answered. -/
def Expects (nodeId dep : String) (runtime : DagRuntime) : Prop :=
  runtime.hasOutput dep ∨ ∀ node ∈ runtime.plan.nodes, node.id = nodeId → dep ∈ node.deps

/-- As long as `dep` has not answered, a plan with the node finds it waiting
and keeps `dep`. -/
def PlanAwaits (nodeId dep : String) (runtime : DagRuntime) (plan : DagPlan) : Prop :=
  runtime.hasOutput dep ∨ nodeId ∉ plan.ids ∨
    (nodeId ∈ runtime.plan.ids ∧ runtime.status nodeId = some .waitingAssist ∧ dep ∈ plan.ids)

/-- The condition on one event. No assist is drawn under the node's id. -/
def Awaited (nodeId dep : String) (system : Orchestrator) : Event → Prop
  | .applyPlan plan => PlanAwaits nodeId dep system.runtime plan
  | .invoke input _ => ∀ plan ∈ input, PlanAwaits nodeId dep system.runtime plan
  | .judge => ∀ routed ∈ system.routed, nodeId ∉ generatedIds system.runtime routed
  | .finish _ => True

instance (nodeId dep : String) (runtime : DagRuntime) : Decidable (Expects nodeId dep runtime) :=
  inferInstanceAs (Decidable (_ ∨ ∀ node ∈ runtime.plan.nodes, node.id = nodeId → dep ∈ node.deps))

instance (nodeId dep : String) (runtime : DagRuntime) (plan : DagPlan) :
    Decidable (PlanAwaits nodeId dep runtime plan) :=
  inferInstanceAs (Decidable (_ ∨ _ ∨ _))

instance (nodeId dep : String) (system : Orchestrator) :
    (event : Event) → Decidable (Awaited nodeId dep system event)
  | .applyPlan plan => inferInstanceAs (Decidable (PlanAwaits nodeId dep system.runtime plan))
  | .invoke input _ =>
      inferInstanceAs (Decidable (∀ plan ∈ input, PlanAwaits nodeId dep system.runtime plan))
  | .judge => inferInstanceAs (Decidable (∀ routed ∈ system.routed,
      nodeId ∉ generatedIds system.runtime routed))
  | .finish _ => .isTrue trivial

section Keep

variable {nodeId dep : String} {runtime next : DagRuntime}

/-- Operations that keep the plan and only add outputs. -/
theorem Expects.mono (expects : Expects nodeId dep runtime) (plan : next.plan = runtime.plan)
    (grows : ∀ other, runtime.hasOutput other → next.hasOutput other) :
    Expects nodeId dep next := by
  rcases expects with answered | wired
  · exact Or.inl (grows dep answered)
  · right
    rw [plan]
    exact wired

theorem Expects.apply_plan (expects : Expects nodeId dep runtime) {plan : DagPlan}
    (awaits : PlanAwaits nodeId dep runtime plan) (applied : runtime.applyPlan plan = .ok next) :
    Expects nodeId dep next := by
  have outputs : ∀ other, runtime.hasOutput other → next.hasOutput other := by
    obtain ⟨_, rfl⟩ := apply_plan_ok applied
    exact fun _ has => has
  rcases expects with answered | wired
  · exact Or.inl (outputs dep answered)
  · rcases awaits with answered | dropped | ⟨planned, waiting, kept⟩
    · exact Or.inl (outputs dep answered)
    · right
      intro node member named
      have listed : node.id ∈ next.plan.ids := List.mem_map_of_mem member
      rw [apply_plan_ids applied, named] at listed
      exact absurd listed dropped
    · right
      rintro node member rfl
      obtain ⟨old, known⟩ := old_node_some planned
      obtain ⟨inside, same⟩ := old_node_mem known
      have listed : node.id ∈ next.plan.ids := List.mem_map_of_mem member
      rw [apply_plan_ids applied] at listed
      obtain ⟨specified, entry, named⟩ := DagPlan.mem_ids.mp listed
      rw [kept_entry applied entry member named.symm]
      rw [← named] at known waiting
      exact (adopt_waiting_deps known waiting).mpr ⟨Or.inr (wired old inside same), Or.inl kept⟩

theorem Expects.of_result (expects : Expects nodeId dep runtime) (wave : Wave) :
    Expects nodeId dep (runtime.finish wave) := by
  rw [finish_frame]
  exact expects

theorem collect_done_grows (runtime : DagRuntime) (other : String)
    (has : runtime.hasOutput other) : runtime.collectDone.hasOutput other := by
  rw [hasOutput_iff, collect_done_output]
  split
  · exact ⟨_, rfl⟩
  · exact hasOutput_iff.mp has

theorem Expects.collect_done (expects : Expects nodeId dep runtime) :
    Expects nodeId dep runtime.collectDone :=
  expects.mono (collect_done_plan runtime) (collect_done_grows runtime)

theorem Expects.started (expects : Expects nodeId dep runtime) {started : List String}
    (effect : Started started runtime next) : Expects nodeId dep next := by
  rw [effect.frame]
  exact expects

theorem Expects.wait_one (expects : Expects nodeId dep runtime) {waves rest : List Wave}
    (waits : runtime.waitOne waves = some (next, rest)) : Expects nodeId dep next := by
  rw [wait_one_frame waits]
  exact expects

theorem Expects.drain (expects : Expects nodeId dep runtime) (fuel : Nat) {waves : List Wave}
    (ended : DagRuntime.drain fuel runtime waves = some next) : Expects nodeId dep next := by
  induction fuel generalizing runtime waves with
  | zero =>
      unfold DagRuntime.drain at ended
      split at ended <;> cases ended
      exact expects
  | succ fuel ih =>
      unfold DagRuntime.drain at ended
      split at ended
      · cases ended
        exact expects
      · split at ended
        · cases ended
        · rename_i waited
          exact ih (expects.wait_one waited).collect_done ended

theorem Expects.pop_completion (expects : Expects nodeId dep runtime) :
    Expects nodeId dep runtime.popCompletion.2 := by
  rw [pop_plan]
  exact expects

theorem Expects.apply_plan_input (expects : Expects nodeId dep runtime) {input : Option DagPlan}
    (awaits : ∀ plan ∈ input, PlanAwaits nodeId dep runtime plan)
    (applied : runtime.applyPlanInput input = .ok next) : Expects nodeId dep next := by
  cases input with
  | none =>
      cases applied
      exact expects
  | some plan => exact expects.apply_plan (awaits plan rfl) applied

theorem Expects.dispatch_and_wait (expects : Expects nodeId dep runtime) (waves : List Wave)
    {outcome : Outcome} (ended : runtime.dispatchAndWait waves = some (outcome, next)) :
    (∃ error, outcome = .raised error) ∨ Expects nodeId dep next := by
  cases dispatch_and_wait_ends ended with
  | unknown ready => exact Or.inl ⟨_, rfl⟩
  | idle ready idle => exact Or.inr (expects.started (dispatch_nodes_ok ready))
  | waited ready busy waits routed =>
      have collected := ((expects.started (dispatch_nodes_ok ready)).wait_one waits).collect_done
      have popped := collected.pop_completion
      cases routed with
      | abort found => exact Or.inl ⟨_, rfl⟩
      | judge fine taken =>
          rw [taken] at popped
          exact Or.inr popped
      | stuck fine taken => exact Or.inl ⟨_, rfl⟩

theorem Expects.run_impl (expects : Expects nodeId dep runtime) {input : Option DagPlan}
    (awaits : ∀ plan ∈ input, PlanAwaits nodeId dep runtime plan) (waves : List Wave)
    {outcome : Outcome} (ended : runtime.runImpl input waves = some (outcome, next)) :
    (∃ error, outcome = .raised error) ∨ Expects nodeId dep next := by
  cases run_impl_ends ended with
  | refused applied => exact Or.inl ⟨_, rfl⟩
  | proceeded applied later =>
      have collected := (expects.apply_plan_input awaits applied).collect_done
      have popped := collected.pop_completion
      cases proceed_ends later with
      | drained asked drained => exact Or.inr (collected.drain _ drained)
      | abort unasked found => exact Or.inl ⟨_, rfl⟩
      | judge unasked fine taken =>
          rw [taken] at popped
          exact Or.inr popped
      | dispatch unasked fine taken later =>
          rw [taken] at popped
          exact popped.dispatch_and_wait waves later

/-- Wiring an assist only adds to the dependencies of the parent. -/
theorem wire_parent_grows {parentId assist : String} {nodes : List PlanNode} {node : PlanNode}
    (member : node ∈ wireParent parentId assist nodes) :
    ∃ old ∈ nodes, old.id = node.id ∧ old.deps ⊆ node.deps := by
  induction nodes with
  | nil => simp [wireParent] at member
  | cons first rest ih =>
      by_cases hit : first.id = parentId
      · rw [wireParent, if_pos hit, List.mem_cons] at member
        rcases member with rfl | later
        · refine ⟨first, List.mem_cons_self, rfl, ?_⟩
          dsimp only
          split
          · exact fun _ inside => inside
          · exact List.subset_append_left _ _
        · exact ⟨node, List.mem_cons_of_mem _ later, rfl, fun _ inside => inside⟩
      · rw [wireParent, if_neg hit, List.mem_cons] at member
        rcases member with rfl | later
        · exact ⟨node, List.mem_cons_self, rfl, fun _ inside => inside⟩
        · obtain ⟨old, inside, grown⟩ := ih later
          exact ⟨old, List.mem_cons_of_mem _ inside, grown⟩

theorem Expects.add_assist (expects : Expects nodeId dep runtime) {parentId : String}
    (agentName instruction : String)
    (other : nodeId ≠ assistId parentId (runtime.assistSeq + 1)) :
    Expects nodeId dep (runtime.addAssist parentId agentName instruction) := by
  rcases expects with answered | wired
  · exact Or.inl answered
  · right
    intro node member named
    rcases List.mem_append.mp member with kept | added
    · obtain ⟨old, inside, same, grown⟩ := wire_parent_grows kept
      exact grown (wired old inside (same.trans named))
    · rw [List.mem_singleton.mp added] at named
      exact absurd named.symm other

theorem Expects.add_assists (expects : Expects nodeId dep runtime) {parentId : String}
    (mentions : List (String × String))
    (other : ∀ count < mentions.length,
      nodeId ≠ assistId parentId (runtime.assistSeq + count + 1)) :
    Expects nodeId dep (mentions.foldl (fun current mention =>
      current.addAssist parentId mention.1 mention.2) runtime) := by
  induction mentions generalizing runtime with
  | nil => exact expects
  | cons mention rest ih =>
      apply ih (expects.add_assist mention.1 mention.2 (other 0 (by simp)))
      intro count bound
      have later := other (count + 1) (by simpa using bound)
      have same : runtime.assistSeq + (count + 1) + 1 =
          (runtime.addAssist parentId mention.1 mention.2).assistSeq + count + 1 := by
        simp only [addAssist]
        omega
      rwa [same] at later

theorem Expects.judge (expects : Expects nodeId dep runtime) {routed : String}
    (other : nodeId ∉ generatedIds runtime routed) :
    Expects nodeId dep (Helper.runImpl runtime routed) := by
  apply expects.add_assists
  rintro count bound rfl
  exact other (List.mem_map.mpr ⟨count, List.mem_range.mpr bound, rfl⟩)

theorem step_expects (system : Orchestrator) (event : Event) (next : Orchestrator)
    (expects : Expects nodeId dep system.runtime) (awaits : Awaited nodeId dep system event)
    (stepped : system.step event = some next) : Expects nodeId dep next.runtime := by
  cases event with
  | applyPlan plan =>
      simp only [Orchestrator.step, Orchestrator.applyPlan] at stepped
      split at stepped
      · split at stepped
        · cases stepped
        · rename_i runtime applied
          cases stepped
          exact expects.apply_plan awaits applied
      · cases stepped
  | invoke input waves =>
      simp only [Orchestrator.step, Orchestrator.invoke] at stepped
      split at stepped
      · split at stepped
        · rename_i named runtime ran
          cases stepped
          exact (expects.run_impl awaits waves ran).resolve_left (by simp)
        · rename_i runtime ran
          cases stepped
          exact (expects.run_impl awaits waves ran).resolve_left (by simp)
        · cases stepped
        · cases stepped
      · cases stepped
  | judge =>
      simp only [Orchestrator.step, Orchestrator.judge] at stepped
      split at stepped
      · cases stepped
      · rename_i routed handed
        cases stepped
        exact expects.judge (awaits routed handed)
  | finish wave =>
      cases stepped
      exact expects.of_result wave

/-- A node that is dispatched has the outputs it depends on. -/
theorem dispatched_answered {input : Option DagPlan} {node : PlanNode} {moment : DagRuntime}
    (expects : Expects node.id dep runtime)
    (awaits : ∀ plan ∈ input, PlanAwaits node.id dep runtime plan)
    (dispatches : Dispatches runtime input node moment) : moment.hasOutput dep := by
  obtain ⟨ready, before, after, reached, split, dispatched, found⟩ := dispatches
  have here : Expects node.id dep ready := by
    unfold DagRuntime.dispatching at reached
    split at reached
    · cases reached
    · rename_i planned applied
      have popped := (expects.apply_plan_input awaits applied).collect_done.pop_completion
      dsimp only at reached
      split at reached
      · cases reached
      · split at reached
        · cases reached
        · split at reached
          · cases reached
          · rename_i rest taken
            cases reached
            rw [taken] at popped
            exact popped
  have effect := dispatch_nodes_ok dispatched
  rw [effect.frame]
  rcases here with answered | wired
  · exact answered
  · have listed : node.id ∈ ready.dispatchable := by simp [split]
    obtain ⟨entry, inside, named⟩ := List.mem_map.mp listed
    obtain ⟨planned, can⟩ := List.mem_filter.mp inside
    simp only [canDispatch, Bool.and_eq_true, List.all_eq_true, decide_eq_true_eq] at can
    exact can.2 dep (wired entry planned named)

end Keep

/-- A plan keeps the wiring of a waiting node, and holds the node back while
what it waits for is at work, exactly if the plan or an output answers each of
its assists. While no plan leaves out an assist that has not answered, the node
is not dispatched before the answer is there. -/
theorem kept_assist_wired (node : PlanNode) (dep : String) :
    (∀ (runtime next : DagRuntime) (plan : DagPlan),
      runtime.applyPlan plan = .ok next → node.id ∈ plan.ids →
      runtime.status node.id = some .waitingAssist →
      (KeepsWiring runtime next plan node.id ∧ HoldsBack runtime next node.id ↔
        AnswersAssists runtime plan node.id)) ∧
    ∀ (system last : Orchestrator) (events : List Event)
      (input : Option DagPlan) (waves : List Wave) (moment : DagRuntime),
      Expects node.id dep system.runtime →
      Runs.Guarded Orchestrator.step (Awaited node.id dep) system events →
      Runs.run Orchestrator.step system events = some last →
      Awaited node.id dep last (.invoke input waves) →
      Dispatches last.runtime input node moment → moment.hasOutput dep := by
  constructor
  · intro runtime next plan applied kept waiting
    exact replan_iff applied kept waiting
  · intro system last events input waves moment expects guarded ran awaits dispatches
    have here : Expects node.id dep last.runtime :=
      Runs.run_invariant (fun system => Expects node.id dep system.runtime) step_expects events _ _
        expects guarded ran
    exact dispatched_answered here awaits dispatches

section Replanned

/-! A writer waits for its helper while a second writer ends; the planner
answers with the two writers only. -/

def replannedWhileHelped : List Event := [
  .invoke (some ⟨[writer "a" [], writer "b" []]⟩) [[("a", .ok "@helper check this")]],
  .judge,
  .invoke none [[("b", .ok "done")]],
  .judge]

def writersOnly : DagPlan := ⟨[writer "a" [], writer "b" []]⟩

/-- The writer is ready again while the helper works. -/
theorem running_assist_dropped :
    ¬ ∀ (agents : Dict String AgentInfo) (userTask : String) (events : List Event)
      (system : Orchestrator) (plan : DagPlan) (next : DagRuntime) (nodeId : String),
      Runs.run Orchestrator.step (.start agents userTask) events = some system →
      system.runtime.applyPlan plan = .ok next → nodeId ∈ plan.ids →
      system.runtime.status nodeId = some .waitingAssist →
      KeepsWiring system.runtime next plan nodeId ∧ HoldsBack system.runtime next nodeId := by
  intro claim
  have dropped : Runs.Ends Orchestrator.step (.start helpAgents "task") replannedWhileHelped
      fun system => system.runtime.status "a" = some .waitingAssist ∧
        (system.runtime.oldNode? "a").map (·.deps) = some ["a-assist1"] ∧
        ∃ next ∈ (system.runtime.applyPlan writersOnly).toOption,
          next.dispatchable = ["a"] ∧ next.status "a-assist1" = some .running := by
    decide +kernel
  obtain ⟨system, ran, waiting, wired, next, applied, ready, running⟩ := dropped
  have accepted : system.runtime.applyPlan writersOnly = .ok next := to_option_some applied
  obtain ⟨old, known, deps⟩ := Option.map_eq_some_iff.mp wired
  have held := (claim helpAgents "task" replannedWhileHelped system writersOnly next "a" ran
    accepted (by decide) waiting).2
  exact held (by simp [ready]) old known "a-assist1" (by simp [deps]) running

def helperKept : DagPlan :=
  ⟨[writer "a" [], writer "b" [], ⟨"a-assist1", "help", "helper", "check", [], some "a"⟩]⟩

def answered : List Event := [.invoke (some helperKept) [[("a-assist1", .ok "fine")]], .judge]

/-- The planner keeps the helper: the writer waits for its answer. -/
theorem running_assist_kept :
    Runs.Ends Orchestrator.step (.start helpAgents "task") replannedWhileHelped fun system =>
      (∃ next, system.runtime.applyPlan helperKept = .ok next ∧
        (KeepsWiring system.runtime next helperKept "a" ∧ HoldsBack system.runtime next "a" ↔
          AnswersAssists system.runtime helperKept "a")) ∧
      ∃ last moment, Runs.run Orchestrator.step system answered = some last ∧
        Dispatches last.runtime none (writer "a" ["a-assist1"]) moment ∧
        moment.hasOutput "a-assist1" := by
  have kept : Runs.Ends Orchestrator.step (.start helpAgents "task") replannedWhileHelped
      fun system => system.runtime.status "a" = some .waitingAssist ∧
        Expects "a" "a-assist1" system.runtime ∧
        Runs.Guarded Orchestrator.step (Awaited "a" "a-assist1") system answered ∧
        (∃ next ∈ (system.runtime.applyPlan helperKept).toOption, next.doneRequested = false) ∧
        Runs.Ends Orchestrator.step system answered fun last =>
          ∃ ready ∈ last.runtime.dispatching none, ready.dispatchable = ["a"] ∧
            ready.plan.find? "a" = some (writer "a" ["a-assist1"]) := by
    decide +kernel
  obtain ⟨system, ran, waiting, expects, guarded, ⟨next, applied, _⟩, last, later, ready, reached,
    listed, found⟩ := kept
  have accepted : system.runtime.applyPlan helperKept = .ok next := to_option_some applied
  have dispatches : Dispatches last.runtime none (writer "a" ["a-assist1"]) ready :=
    ⟨ready, [], [], reached, listed, rfl, found⟩
  refine ⟨system, ran, ⟨next, accepted, ?_⟩, last, ready, later, dispatches, ?_⟩
  · exact (kept_assist_wired (writer "a" ["a-assist1"]) "a-assist1").1 system.runtime next
      helperKept accepted (by decide) waiting
  · exact (kept_assist_wired (writer "a" ["a-assist1"]) "a-assist1").2 system last answered none []
      ready expects guarded later (by simp [Awaited]) dispatches

end Replanned

end Choirworks.Dag
