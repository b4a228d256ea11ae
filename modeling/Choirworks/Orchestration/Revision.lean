import Choirworks.Library.Runs
import Choirworks.Orchestration.Message
import Choirworks.Orchestration.Patch

/-!
Which nodes a plan revision takes out: the listed ones that may be invalidated,
and what is behind them, as the least set closed under dependencies. An
execution in flight protects its node through the status alone, so a node that
is followed after a restart, which keeps `recover`, is taken out like one that
has not begun.
-/

namespace Choirworks.Orchestration

namespace OrchestrationState

theorem moveNodes_nil (state : OrchestrationState) (target : NodeStatus) :
    state.moveNodes [] target = state := by
  cases state
  simp [moveNodes, Table.map]

theorem moveNodes_append (state : OrchestrationState) (first second : List String)
    (target : NodeStatus) :
    (state.moveNodes first target).moveNodes second target =
      state.moveNodes (first ++ second) target := by
  have rows : ((state.moveNodes first target).moveNodes second target).nodes.rows =
      (state.moveNodes (first ++ second) target).nodes.rows := by
    simp only [moveNodes, Table.rows_map, List.map_map]
    apply List.map_congr_left
    intro node _
    by_cases early : node.id ∈ first <;> by_cases late : node.id ∈ second <;> simp [early, late]
  simp only [moveNodes, Table.map] at rows ⊢
  simp only [rows]

@[simp] theorem node_moveNodes (state : OrchestrationState) (nodeIds : List String)
    (target : NodeStatus) (nodeId : String) :
    (state.moveNodes nodeIds target).node? nodeId =
      (state.node? nodeId).map fun node =>
        if node.id ∈ nodeIds then { node with status := target } else node := by
  simp only [node?, moveNodes, Table.find?_map]

end OrchestrationState

open OrchestrationState

/-- The node is listed and may be invalidated, or may be and depends on one that is. -/
inductive Affected (state : OrchestrationState) (listed : List String) : NodeState → Prop
  | listed {node : NodeState} : node ∈ state.nodes.rows →
      node.status ∈ invalidatableStatuses → node.id ∈ listed → Affected state listed node
  | behind {node source : NodeState} : Affected state listed source →
      node ∈ state.nodes.rows → node.status ∈ invalidatableStatuses →
      source.id ∈ node.deps → Affected state listed node

theorem Affected.row {state : OrchestrationState} {listed : List String} {node : NodeState}
    (affected : Affected state listed node) :
    node ∈ state.nodes.rows ∧ node.status ∈ invalidatableStatuses := by
  cases affected with
  | listed row may _ => exact ⟨row, may⟩
  | behind _ row may _ => exact ⟨row, may⟩

/-- The plan with the nodes that the patch adds. -/
def withDrafts (state : OrchestrationState) (patch : PlanPatch) (knownAgents : List String) :
    OrchestrationState :=
  (patch.add.foldl (Patching.addDraft knownAgents) ⟨state, {}⟩).state

namespace Patching

/-! ### The cascade as a least closed set -/

/-- All that has happened to the plan is that affected nodes were invalidated. -/
structure Cut (base : OrchestrationState) (listed : List String) (patching : Patching) : Prop where
  state : patching.state = base.moveNodes patching.result.invalidated .invalidated
  sound : ∀ nodeId ∈ patching.result.invalidated,
    ∃ node, Affected base listed node ∧ node.id = nodeId

section Cut

variable {base : OrchestrationState} {listed : List String} {patching : Patching}

/-- What may still be invalidated has not been touched. -/
theorem Cut.untouched (cut : Cut base listed patching) {nodeId : String} {status : NodeStatus}
    (found : patching.state.status? nodeId = some status)
    (may : status ∈ invalidatableStatuses) :
    nodeId ∉ patching.result.invalidated ∧
      ∃ node ∈ base.nodes.rows, node.id = nodeId ∧ node.status = status := by
  rw [cut.state, status_moveNodes, Option.map_eq_some_iff] at found
  obtain ⟨before, known, same⟩ := found
  split at same
  · subst same
    simp [invalidatableStatuses] at may
  · rename_i outside
    subst same
    exact ⟨outside, base.status_eq_some nodeId known⟩

theorem Cut.kill (cut : Cut base listed patching) (next : Patching) {nodeIds : List String}
    (moved : next.state = patching.state.moveNodes nodeIds .invalidated)
    (recorded : next.result.invalidated = patching.result.invalidated ++ nodeIds)
    (affected : ∀ nodeId ∈ nodeIds, ∃ node, Affected base listed node ∧ node.id = nodeId) :
    Cut base listed next := by
  refine ⟨?_, ?_⟩
  · rw [moved, recorded, cut.state, moveNodes_append]
  · intro nodeId member
    rw [recorded] at member
    rcases List.mem_append.mp member with old | new
    · exact cut.sound nodeId old
    · exact affected nodeId new

/-- One listed node: it is invalidated if it may be. -/
theorem Cut.invalidateListed (cut : Cut base listed patching) {nodeId : String}
    (inside : nodeId ∈ listed) :
    Cut base listed (patching.invalidateListed nodeId) ∧
      ∀ node ∈ base.nodes.rows, node.id = nodeId → node.status ∈ invalidatableStatuses →
        nodeId ∈ (patching.invalidateListed nodeId).result.invalidated := by
  rcases invalidateListed_cases patching nodeId with ⟨same, none, mayNot⟩ | ⟨moved, more, may⟩
  · refine ⟨⟨?_, ?_⟩, ?_⟩
    · rw [same, none]
      exact cut.state
    · rw [none]
      exact cut.sound
    · rintro node row rfl may
      rw [none]
      by_contra outside
      apply mayNot node.status _ may
      rw [cut.state, status_moveNodes, base.status_of_mem row]
      simp [outside]
  · obtain ⟨status, found, allowed⟩ := may
    obtain ⟨_, node, row, named, same⟩ := cut.untouched found allowed
    refine ⟨cut.kill _ moved more ?_, ?_⟩
    · intro other single
      obtain rfl := List.mem_singleton.mp single
      exact ⟨node, .listed row (same ▸ allowed) (named ▸ inside), named⟩
    · intro _ _ _ _
      simp [more]

theorem Cut.invalidateAll (nodeIds : List String) (cut : Cut base listed patching)
    (inside : ∀ nodeId ∈ nodeIds, nodeId ∈ listed) :
    Cut base listed (nodeIds.foldl Patching.invalidateListed patching) ∧
      ∀ node ∈ base.nodes.rows, node.id ∈ nodeIds → node.status ∈ invalidatableStatuses →
        node.id ∈ (nodeIds.foldl Patching.invalidateListed patching).result.invalidated := by
  induction nodeIds generalizing patching with
  | nil => exact ⟨cut, by simp⟩
  | cons nodeId rest ih =>
      obtain ⟨first, recorded⟩ := cut.invalidateListed (inside nodeId List.mem_cons_self)
      obtain ⟨all, later⟩ := ih first fun other more => inside other (List.mem_cons_of_mem _ more)
      refine ⟨all, ?_⟩
      intro node row member may
      rcases List.mem_cons.mp member with same | behind
      · exact (invalidateAll_grows rest _).subset (same ▸ recorded node row same may)
      · exact later node row behind may

theorem Cut.cascade (fuel : Nat) (cut : Cut base listed patching) :
    Cut base listed (patching.cascade fuel) := by
  induction fuel generalizing patching with
  | zero => exact cut
  | succ fuel ih =>
      simp only [Patching.cascade]
      split
      · exact cut
      · apply ih
        refine cut.kill ⟨_, _⟩ rfl rfl ?_
        intro nodeId taken
        obtain ⟨node, member, rfl⟩ := List.mem_map.mp taken
        obtain ⟨row, blocks⟩ := List.mem_filter.mp member
        simp only [decide_eq_true_eq] at blocks
        obtain ⟨may, dep, depends, fallen⟩ := blocks
        obtain ⟨source, affected, rfl⟩ := cut.sound dep fallen
        rw [cut.state] at row
        rcases (mem_moveNodes _ _ _ _).mp row with ⟨_, _, _, rfl⟩ | ⟨before, _⟩
        · simp [invalidatableStatuses] at may
        · exact ⟨node, .behind affected before may depends, rfl⟩

/-- A cascade that finds nothing more has taken out everything behind the listed nodes. -/
theorem Cut.complete (cut : Cut base listed patching) (settled : patching.cascaded = [])
    (all : ∀ node ∈ base.nodes.rows, node.id ∈ listed → node.status ∈ invalidatableStatuses →
      node.id ∈ patching.result.invalidated)
    {node : NodeState} (affected : Affected base listed node) :
    node.id ∈ patching.result.invalidated := by
  induction affected with
  | listed row may inside => exact all _ row inside may
  | behind _ row may depends ih =>
      by_contra outside
      apply List.filter_eq_nil_iff.mp settled _ (cut.state ▸ (mem_moveNodes _ _ _ _).mpr
        (Or.inr ⟨row, outside⟩))
      simp only [decide_eq_true_eq]
      exact ⟨may, _, depends, ih⟩

end Cut

/-! ### Drafts and skipped nodes -/

theorem addDrafts_kept (knownAgents : List String) (drafts : List PatchNode) (patching : Patching) :
    (drafts.foldl (addDraft knownAgents) patching).result.invalidated =
        patching.result.invalidated ∧
      ∀ nodeId node, patching.state.node? nodeId = some node →
        (drafts.foldl (addDraft knownAgents) patching).state.node? nodeId = some node := by
  induction drafts generalizing patching with
  | nil => exact ⟨rfl, fun _ _ found => found⟩
  | cons draft rest ih =>
      obtain ⟨none, later⟩ := ih (patching.addDraft knownAgents draft)
      rw [List.foldl_cons]
      rcases addDraft_cases knownAgents patching draft with ⟨same, _, first⟩ | ⟨added, count, accepted⟩
      · exact ⟨none.trans first, fun nodeId node found => later nodeId node (same ▸ found)⟩
      · refine ⟨none.trans accepted.invalidated, ?_⟩
        intro nodeId node found
        apply later
        have different : nodeId ≠ added.id := by
          rintro rfl
          exact accepted.fresh ((Table.mem_keys_iff_find? _ _).mpr ⟨node, found⟩)
        rw [accepted.state]
        simpa [node?, setNode, different] using found

theorem addDraft_skipped (knownAgents : List String) (patching : Patching) (draft : PatchNode) :
    (patching.addDraft knownAgents draft).result.skippedInFlight =
      patching.result.skippedInFlight := by
  simp only [addDraft]
  split
  · rfl
  · split <;> rfl

theorem addDrafts_skipped (knownAgents : List String) (drafts : List PatchNode)
    (patching : Patching) :
    (drafts.foldl (addDraft knownAgents) patching).result.skippedInFlight =
      patching.result.skippedInFlight := by
  induction drafts generalizing patching with
  | nil => rfl
  | cons draft rest ih => exact (ih _).trans (addDraft_skipped knownAgents patching draft)

theorem invalidateListed_skipped (patching : Patching) (nodeId : String) :
    patching.result.skippedInFlight <+: (patching.invalidateListed nodeId).result.skippedInFlight := by
  simp only [invalidateListed]
  split
  · exact List.prefix_refl _
  · split
    · exact List.prefix_refl _
    · split
      · exact List.prefix_append _ _
      · exact List.prefix_refl _

theorem invalidateAll_skipped (nodeIds : List String) (patching : Patching) :
    patching.result.skippedInFlight <+:
      (nodeIds.foldl invalidateListed patching).result.skippedInFlight := by
  induction nodeIds generalizing patching with
  | nil => exact List.prefix_refl _
  | cons nodeId rest ih => exact (invalidateListed_skipped patching nodeId).trans (ih _)

theorem cascade_skipped (fuel : Nat) (patching : Patching) :
    (patching.cascade fuel).result.skippedInFlight = patching.result.skippedInFlight := by
  induction fuel generalizing patching with
  | zero => rfl
  | succ fuel ih =>
      simp only [cascade]
      split
      · rfl
      · exact ih _

/-- A listed node is set aside if it has begun and is not taken out. -/
theorem invalidateAll_offers {base : OrchestrationState} {listed nodeIds : List String}
    {patching : Patching} (cut : Cut base listed patching)
    (inside : ∀ nodeId ∈ nodeIds, nodeId ∈ listed) {node : NodeState}
    (row : node ∈ base.nodes.rows) (member : node.id ∈ nodeIds)
    (begun : node.status ∉ invalidatableStatuses) (alive : node.status ≠ .invalidated) :
    node.id ∈ (nodeIds.foldl invalidateListed patching).result.skippedInFlight := by
  induction nodeIds generalizing patching with
  | nil => cases member
  | cons nodeId rest ih =>
      have first := inside nodeId List.mem_cons_self
      by_cases same : node.id = nodeId
      · subst same
        apply (invalidateAll_skipped rest _).subset
        have untouched : node.id ∉ patching.result.invalidated := by
          intro taken
          obtain ⟨other, affected, named⟩ := cut.sound node.id taken
          obtain rfl : other = node := base.nodes.row_unique affected.row.1 row named
          exact begun affected.row.2
        have found : patching.state.node? node.id = some node := by
          rw [cut.state, node_moveNodes, base.node_of_mem row]
          simp [untouched]
        simp [invalidateListed, found, begun, alive]
      · apply ih (cut.invalidateListed first).1
          (fun other later => inside other (List.mem_cons_of_mem _ later))
        exact (List.mem_cons.mp member).resolve_left same

end Patching

section Applied

variable (state : OrchestrationState) (patch : PlanPatch) (knownAgents : List String)

/-- The three loops of `apply_patch`: drafts, listed nodes, cascade. -/
theorem applyPatch_phases :
    ∃ added listed : Patching, added.state = withDrafts state patch knownAgents ∧
      Patching.Cut added.state patch.invalidate added ∧
      listed = patch.invalidate.foldl Patching.invalidateListed added ∧
      applyPatch state patch knownAgents = listed.cascade (listed.state.nodes.rows.length + 1) ∧
      added.result.skippedInFlight = [] ∧ added.result.invalidated = [] := by
  let added := patch.add.foldl (Patching.addDraft knownAgents) ⟨state, {}⟩
  have none : added.result.invalidated = [] :=
    (Patching.addDrafts_kept knownAgents patch.add ⟨state, {}⟩).1
  refine ⟨added, _, rfl, ⟨?_, ?_⟩, rfl, rfl, ?_, none⟩
  · rw [none, moveNodes_nil]
  · simp [none]
  · exact Patching.addDrafts_skipped knownAgents patch.add ⟨state, {}⟩

/-- A patch invalidates exactly the affected nodes and changes no other. -/
theorem applyPatch_cut :
    (applyPatch state patch knownAgents).state =
        (withDrafts state patch knownAgents).moveNodes
          (applyPatch state patch knownAgents).result.invalidated .invalidated ∧
      ∀ nodeId, nodeId ∈ (applyPatch state patch knownAgents).result.invalidated ↔
        ∃ node, Affected (withDrafts state patch knownAgents) patch.invalidate node ∧
          node.id = nodeId := by
  obtain ⟨added, listed, base, begun, rfl, phases, _⟩ := applyPatch_phases state patch knownAgents
  obtain ⟨cut, all⟩ := begun.invalidateAll patch.invalidate fun _ member => member
  rw [phases, ← base]
  generalize patch.invalidate.foldl Patching.invalidateListed added = listed at *
  have final := cut.cascade (listed.state.nodes.rows.length + 1)
  refine ⟨final.state, fun nodeId => ⟨final.sound nodeId, ?_⟩⟩
  rintro ⟨node, affected, rfl⟩
  refine final.complete ?_ ?_ affected
  · apply Patching.cascade_settles
    exact Nat.lt_succ_of_le (List.length_filter_le _ _)
  · intro other row inside may
    exact (Patching.cascade_grows _ _).2.subset (all other row inside may)

theorem withDrafts_kept {nodeId : String} {node : NodeState}
    (found : state.node? nodeId = some node) :
    (withDrafts state patch knownAgents).node? nodeId = some node :=
  (Patching.addDrafts_kept knownAgents patch.add ⟨state, {}⟩).2 nodeId node found

theorem applyPatch_offers {node : NodeState} (row : node ∈ state.nodes.rows)
    (member : node.id ∈ patch.invalidate) (begun : node.status ∉ invalidatableStatuses)
    (alive : node.status ≠ .invalidated) :
    node.id ∈ (applyPatch state patch knownAgents).result.skippedInFlight := by
  obtain ⟨added, listed, base, first, rfl, phases, _⟩ := applyPatch_phases state patch knownAgents
  have kept := withDrafts_kept state patch knownAgents (state.node_of_mem row)
  rw [← base] at kept
  rw [phases, Patching.cascade_skipped]
  exact Patching.invalidateAll_offers first (fun _ listed => listed) (added.state.node_mem _ kept).1
    member begun alive

end Applied

/-! ### Work in progress -/

namespace Runtime

/-- An execution of the node is in flight. -/
def Executing (runtime : Runtime) (nodeId : String) : Prop :=
  ∃ task ∈ runtime.inFlight, task.ref = .planned nodeId

/-- The patch does not invalidate the node; if it lists the node, the node is
set aside for a confirmation; and the node may end as it could before. -/
structure Spared (state : OrchestrationState) (patch : PlanPatch) (knownAgents : List String)
    (node : NodeState) : Prop where
  kept : (applyPatch state patch knownAgents).state.status? node.id ≠ some .invalidated
  offered : node.id ∈ patch.invalidate →
    node.id ∈ (applyPatch state patch knownAgents).result.skippedInFlight
  ends : ∃ after ∈ (applyPatch state patch knownAgents).state.node? node.id,
    ∀ target, node.canTransition target = true → after.canTransition target = true

/-- No patch takes out work in progress. -/
def SparesWork (runtime : Runtime) (patch : PlanPatch) (knownAgents : List String) : Prop :=
  ∀ node ∈ runtime.session.state.nodes.rows, runtime.Executing node.id →
    node.status ≠ .invalidated → Spared runtime.session.state patch knownAgents node

theorem spared_iff (state : OrchestrationState) (patch : PlanPatch) (knownAgents : List String)
    {node : NodeState} (row : node ∈ state.nodes.rows) (alive : node.status ≠ .invalidated) :
    Spared state patch knownAgents node ↔
      ¬ Affected (withDrafts state patch knownAgents) patch.invalidate node := by
  obtain ⟨moved, taken⟩ := applyPatch_cut state patch knownAgents
  have kept := withDrafts_kept state patch knownAgents (state.node_of_mem row)
  have there := (node_mem _ _ kept).1
  have after := node_moveNodes (withDrafts state patch knownAgents)
    (applyPatch state patch knownAgents).result.invalidated .invalidated node.id
  rw [← moved, kept, Option.map_some] at after
  constructor
  · intro spared affected
    apply spared.kept
    rw [status?, after, if_pos ((taken node.id).mpr ⟨node, affected, rfl⟩)]
    rfl
  · intro unaffected
    have outside : node.id ∉ (applyPatch state patch knownAgents).result.invalidated := by
      intro cut
      obtain ⟨other, affected, named⟩ := (taken node.id).mp cut
      obtain rfl : other = node :=
        (withDrafts state patch knownAgents).nodes.row_unique affected.row.1 there named
      exact unaffected affected
    rw [if_neg outside] at after
    refine ⟨?_, ?_, node, after, fun _ moves => moves⟩
    · simpa [status?, after] using alive
    · intro member
      apply applyPatch_offers state patch knownAgents row member _ alive
      intro may
      exact unaffected (.listed there may member)

end Runtime

/-- A revision spares all work in progress exactly if no node in flight is
affected by it: listed or behind a listed node, with a status that counts as
not begun. -/
theorem revision_spares_iff (runtime : Runtime) (patch : PlanPatch) (knownAgents : List String) :
    runtime.SparesWork patch knownAgents ↔
      ∀ node ∈ runtime.session.state.nodes.rows, runtime.Executing node.id →
        ¬ Affected (withDrafts runtime.session.state patch knownAgents) patch.invalidate node := by
  constructor
  · intro spares node row executing affected
    have alive : node.status ≠ .invalidated := by
      intro same
      have may := affected.row.2
      rw [same] at may
      revert may
      decide
    exact (Runtime.spared_iff _ patch knownAgents row alive).mp
      (spares node row executing alive) affected
  · intro unaffected node row executing alive
    exact (Runtime.spared_iff _ patch knownAgents row alive).mpr (unaffected node row executing)

section Followed

/-! A node that is followed after a restart, and a patch that lists it. -/

def followEnv : Env := ⟨["writer"], "now", fun drawn => toString drawn⟩

def followed : List Event := [
  .message { taskId := "t1", text := "write" } followEnv
    [some [⟨"n1", "first", "writer", .empty, []⟩]],
  .clearWake, .dispatch, .start 0, .chunk 0 (some "r1") false,
  .message { taskId := "t2", text := "shorter" } followEnv [],
  .reload, .message { taskId := "t1", recover := true } followEnv [],
  .clearWake, .dispatch, .start 0]

/-- The node is invalidated while its remote task is followed. -/
theorem followed_node_invalidated :
    ¬ ∀ (config : ExecutorConfig) (events : List Event) (reached : Runtime),
      Runs.run (Runtime.step config) (.loaded {}) events = some reached →
      ∀ (patch : PlanPatch) (knownAgents : List String), reached.SparesWork patch knownAgents := by
  intro claim
  have ends : Runs.Ends (Runtime.step {}) (.loaded {}) followed fun runtime =>
      ∃ node ∈ runtime.session.state.nodes.rows,
        (∃ task ∈ runtime.inFlight, task.ref = .planned node.id) ∧
        node.status ≠ .invalidated ∧
        (applyPatch runtime.session.state { invalidate := ["n1"] } ["writer"]).state.status? node.id =
          some .invalidated := by
    decide +kernel
  obtain ⟨reached, ran, node, row, executing, alive, gone⟩ := ends
  exact (claim {} followed reached ran _ _ node row executing alive).kept gone

end Followed

end Choirworks.Orchestration
