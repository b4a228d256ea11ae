import Mathlib.Order.Bounds.Basic
import Choirworks.Library.Chains
import Choirworks.Orchestration.Revision

/-!
`apply_patch` as a whole: what it takes out is the least set closed under
dependencies, each node once; what it adds has new ids and waits for nodes of
the plan. Where the dependencies of the plan are in the plan, a patch closes no
cycle.
-/

namespace Choirworks.Orchestration

open OrchestrationState

/-- The set has the listed nodes that may be invalidated, and with a node those
behind it that may be. -/
structure TakesOut (state : OrchestrationState) (listed : List String) (taken : Set String) :
    Prop where
  listed : ∀ node ∈ state.nodes.rows, node.status ∈ invalidatableStatuses → node.id ∈ listed →
    node.id ∈ taken
  behind : ∀ node ∈ state.nodes.rows, node.status ∈ invalidatableStatuses →
    (∃ dep ∈ node.deps, dep ∈ taken) → node.id ∈ taken

def DependsOn (state : OrchestrationState) (nodeId dep : String) : Prop :=
  ∃ node ∈ state.nodes.rows, node.id = nodeId ∧ dep ∈ node.deps

def AcyclicPlan (state : OrchestrationState) : Prop := Chains.Acyclic (DependsOn state)

/-- Every dependency is a node of the plan. -/
def DepsPlanned (state : OrchestrationState) : Prop :=
  ∀ node ∈ state.nodes.rows, ∀ dep ∈ node.deps, dep ∈ state.nodes.keys

instance (state : OrchestrationState) : Decidable (DepsPlanned state) :=
  inferInstanceAs (Decidable (∀ node ∈ state.nodes.rows, ∀ dep ∈ node.deps,
    dep ∈ state.nodes.keys))

/-- The node that a draft becomes. -/
def PatchNode.node (draft : PatchNode) (count : Nat) : NodeState :=
  { id := Patching.patchNodeId count
    name := if draft.name = "" then draft.agentName else draft.name
    agentName := draft.agentName
    deps := draft.deps
    inputText := draft.instruction
    derived := true }

/-- A node behind a patch: it may have been taken out. -/
def NodeState.leftBy (node : NodeState) (result : PatchResult) : NodeState :=
  if node.id ∈ result.invalidated then { node with status := .invalidated } else node

/-- The added ids name accepted drafts, each waiting for nodes of the plan and
for earlier additions. `left` is what has become of the nodes since. -/
def Drafted (base : OrchestrationState) (patch : PlanPatch) (knownAgents : List String)
    (added : List String) (state : OrchestrationState) (left : NodeState → NodeState) : Prop :=
  ∀ before nodeId behind, added = before ++ nodeId :: behind →
    ∃ draft ∈ patch.add, ∃ count, draft.agentName ∈ knownAgents ∧
      nodeId = Patching.patchNodeId count ∧
      state.node? nodeId = some (left (draft.node count)) ∧
      ∀ dep ∈ draft.deps, dep ∈ base.nodes.keys ++ before

/-- What `apply_patch` does to the state. The cascade is settled: the loop ends
because it finds nothing more. -/
structure PatchApplied (state : OrchestrationState) (patch : PlanPatch) (knownAgents : List String)
    (applied : Patching) : Prop where
  settled : applied.cascaded = []
  least : IsLeast {taken | TakesOut (withDrafts state patch knownAgents) patch.invalidate taken}
    {nodeId | nodeId ∈ applied.result.invalidated}
  once : applied.result.invalidated.Nodup
  kept : ∀ nodeId node, state.node? nodeId = some node →
    applied.state.node? nodeId = some (node.leftBy applied.result)
  keys : applied.state.nodes.keys = state.nodes.keys ++ applied.result.added
  fresh : applied.result.added.Nodup ∧ ∀ nodeId ∈ applied.result.added, nodeId ∉ state.nodes.keys
  drafted : Drafted state patch knownAgents applied.result.added applied.state
    (NodeState.leftBy · applied.result)

namespace Patching

/-! ### Each node is reported once -/

section Once

variable {base : OrchestrationState} {listed : List String} {patching : Patching}

theorem Cut.once_listed (cut : Cut base listed patching) (once : patching.result.invalidated.Nodup)
    (nodeId : String) : (patching.invalidateListed nodeId).result.invalidated.Nodup := by
  rcases invalidateListed_cases patching nodeId with ⟨_, same, _⟩ | ⟨_, more, status, found, may⟩
  · rwa [same]
  · have outside := (cut.untouched found may).1
    rw [more]
    exact once.append (List.nodup_singleton nodeId) (by simpa using outside)

theorem Cut.once_all (nodeIds : List String) (cut : Cut base listed patching)
    (inside : ∀ nodeId ∈ nodeIds, nodeId ∈ listed) (once : patching.result.invalidated.Nodup) :
    (nodeIds.foldl Patching.invalidateListed patching).result.invalidated.Nodup := by
  induction nodeIds generalizing patching with
  | nil => exact once
  | cons nodeId rest ih =>
      have first := (cut.invalidateListed (inside nodeId List.mem_cons_self)).1
      exact ih first (fun other member => inside other (List.mem_cons_of_mem nodeId member))
        (cut.once_listed once nodeId)

/-- A round takes out nodes that are left, each once. -/
theorem Cut.once_cascade (fuel : Nat) (cut : Cut base listed patching)
    (once : patching.result.invalidated.Nodup) :
    (patching.cascade fuel).result.invalidated.Nodup := by
  induction fuel generalizing patching with
  | zero => exact once
  | succ fuel ih =>
      have round := cut.cascade 1
      simp only [Patching.cascade] at round ⊢
      split
      · exact once
      · rename_i some_left
        rw [if_neg some_left] at round
        refine ih round ?_
        have distinct : (patching.cascaded.map (·.id)).Nodup :=
          patching.state.nodes.keys_nodup.sublist (List.filter_sublist.map _)
        -- The nodes a round takes were pending rows, and a node already out is invalidated.
        refine once.append distinct ?_
        intro nodeId old taken
        obtain ⟨node, member, rfl⟩ := List.mem_map.mp taken
        obtain ⟨row, blocked⟩ := List.mem_filter.mp member
        simp only [decide_eq_true_eq] at blocked
        exact (cut.untouched (patching.state.status_of_mem row) blocked.1).1 old

end Once

/-! ### The additions -/

section Drafts

variable {base : OrchestrationState} {patch : PlanPatch} {knownAgents : List String}

theorem addDraft_node (knownAgents : List String) (patching : Patching) (draft : PatchNode) :
    ((patching.addDraft knownAgents draft).state = patching.state ∧
        (patching.addDraft knownAgents draft).result.added = patching.result.added) ∨
      (draft.agentName ∈ knownAgents ∧ (∀ dep ∈ draft.deps, dep ∈ patching.state.nodes.keys) ∧
        ∃ count, patchNodeId count ∉ patching.state.nodes.keys ∧
          (patching.addDraft knownAgents draft).state =
            { patching.state.setNode (draft.node count) with patchCount := count } ∧
          (patching.addDraft knownAgents draft).result.added =
            patching.result.added ++ [patchNodeId count]) := by
  by_cases agent : draft.agentName ∈ knownAgents
  · by_cases unknown : draft.deps.filter (· ∉ patching.state.nodes.keys) = []
    · right
      have known : ∀ dep ∈ draft.deps, dep ∈ patching.state.nodes.keys := by
        intro dep depends
        by_contra missing
        exact List.filter_eq_nil_iff.mp unknown dep depends (by simpa using missing)
      -- The search tries one id more than there are nodes, so one of them is free.
      have enough : patching.state.nodes.keys.length < patching.state.nodes.rows.length + 1 := by
        simp [Table.keys]
      have free := freePatchCount_free enough (patching.state.patchCount + 1)
      simp only [addDraft, agent, unknown, not_true_eq_false, ↓reduceIte, ne_eq]
      exact ⟨trivial, known, _, free, rfl, rfl⟩
    · left
      simp only [addDraft, agent, unknown, not_true_eq_false, ↓reduceIte, ne_eq, not_false_eq_true]
      exact ⟨trivial, trivial⟩
  · simp [addDraft, agent]

/-- All that has happened to the plan is that drafts were added. -/
structure Drawn (base : OrchestrationState) (patch : PlanPatch) (knownAgents : List String)
    (patching : Patching) : Prop where
  keys : patching.state.nodes.keys = base.nodes.keys ++ patching.result.added
  drafted : Drafted base patch knownAgents patching.result.added patching.state id

theorem Drawn.addDraft {patching : Patching} {draft : PatchNode}
    (drawn : Drawn base patch knownAgents patching) (member : draft ∈ patch.add) :
    Drawn base patch knownAgents (patching.addDraft knownAgents draft) := by
  rcases addDraft_node knownAgents patching draft with
    ⟨same, none⟩ | ⟨agent, known, count, free, moved, more⟩
  · constructor
    · rw [same, none]
      exact drawn.keys
    · rw [same, none]
      exact drawn.drafted
  · constructor
    · rw [moved, more, ← List.append_assoc, ← drawn.keys]
      exact Table.keys_insert_new _ _ free
    · rw [moved, more]
      intro before nodeId behind split
      rcases List.eq_nil_or_concat behind with rfl | ⟨behind, last, rfl⟩
      · -- The node is the one that has just been drawn.
        obtain ⟨rfl, same⟩ := List.append_inj' split rfl
        obtain rfl := List.head_eq_of_cons_eq same
        refine ⟨draft, member, count, agent, rfl, ?_, ?_⟩
        · simp [node?, setNode, PatchNode.node]
        · intro dep depends
          rw [← drawn.keys]
          exact known dep depends
      · have earlier : patching.result.added = before ++ nodeId :: behind := by
          have front := congrArg List.dropLast split
          rw [List.concat_eq_append, ← List.cons_append, ← List.append_assoc, List.dropLast_concat,
            List.dropLast_concat] at front
          exact front
        obtain ⟨other, listed, number, able, named, found, waits⟩ :=
          drawn.drafted before nodeId behind earlier
        refine ⟨other, listed, number, able, named, ?_, waits⟩
        have there : nodeId ∈ patching.state.nodes.keys := by
          rw [drawn.keys, earlier]
          simp
        have different : nodeId ≠ patchNodeId count := by
          rintro rfl
          exact free there
        rw [← found]
        simp [node?, setNode, PatchNode.node, different]

theorem Drawn.addDrafts (drafts : List PatchNode) {patching : Patching}
    (drawn : Drawn base patch knownAgents patching) (members : ∀ draft ∈ drafts, draft ∈ patch.add) :
    Drawn base patch knownAgents (drafts.foldl (Patching.addDraft knownAgents) patching) := by
  induction drafts generalizing patching with
  | nil => exact drawn
  | cons draft rest ih =>
      exact ih (drawn.addDraft (members draft List.mem_cons_self))
        fun other listed => members other (List.mem_cons_of_mem draft listed)

end Drafts

end Patching

section Applied

variable (state : OrchestrationState) (patch : PlanPatch) (knownAgents : List String)

/-- The affected nodes are the least set that a patch has to take out. -/
theorem affected_least :
    IsLeast {taken | TakesOut state patch.invalidate taken}
      {nodeId | ∃ node, Affected state patch.invalidate node ∧ node.id = nodeId} := by
  constructor
  · constructor
    · intro node row may listed
      exact ⟨node, .listed row may listed, rfl⟩
    · rintro node row may ⟨dep, depends, source, affected, rfl⟩
      exact ⟨node, .behind affected row may depends, rfl⟩
  · rintro taken closed nodeId ⟨node, affected, rfl⟩
    induction affected with
    | listed row may listed => exact closed.listed _ row may listed
    | behind _ row may depends ih => exact closed.behind _ row may ⟨_, depends, ih⟩

theorem withDrafts_drawn :
    ∃ added, Patching.Drawn state patch knownAgents added ∧
      added.state = withDrafts state patch knownAgents ∧
      (applyPatch state patch knownAgents).result.added = added.result.added := by
  have first : Patching.Drawn state patch knownAgents ⟨state, {}⟩ := by
    constructor
    · simp
    · intro before nodeId behind split
      simp at split
  refine ⟨_, first.addDrafts patch.add fun _ member => member, rfl, ?_⟩
  rw [applyPatch, (Patching.cascade_grows _ _).1, Patching.invalidateAll_added]

theorem applyPatch_applied :
    PatchApplied state patch knownAgents (applyPatch state patch knownAgents) := by
  obtain ⟨moved, taken⟩ := applyPatch_cut state patch knownAgents
  obtain ⟨added, drawn, base, sameAdded⟩ := withDrafts_drawn state patch knownAgents
  -- behind the drafts the patch only moves nodes
  have left : ∀ nodeId node, (withDrafts state patch knownAgents).node? nodeId = some node →
      (applyPatch state patch knownAgents).state.node? nodeId =
        some (node.leftBy (applyPatch state patch knownAgents).result) := by
    intro nodeId node found
    rw [moved, node_moveNodes, found]
    rfl
  have keys : (applyPatch state patch knownAgents).state.nodes.keys =
      state.nodes.keys ++ (applyPatch state patch knownAgents).result.added := by
    rw [sameAdded, ← drawn.keys, base, moved]
    simp [moveNodes]
  -- the ids of a table do not repeat, so the added ones are new
  have distinct := (applyPatch state patch knownAgents).state.nodes.keys_nodup
  rw [keys] at distinct
  obtain ⟨_, addedOnce, apart⟩ := List.nodup_append.mp distinct
  constructor
  case settled =>
    obtain ⟨_, listed, _, _, _, phases, _⟩ := applyPatch_phases state patch knownAgents
    rw [phases]
    apply Patching.cascade_settles
    exact Nat.lt_succ_of_le (List.length_filter_le _ _)
  case least =>
    have same : {nodeId | nodeId ∈ (applyPatch state patch knownAgents).result.invalidated} =
        {nodeId | ∃ node, Affected (withDrafts state patch knownAgents) patch.invalidate node ∧
          node.id = nodeId} := Set.ext taken
    rw [same]
    exact affected_least (withDrafts state patch knownAgents) patch
  case once =>
    obtain ⟨start, listed, _, begun, rfl, phases, _, none⟩ :=
      applyPatch_phases state patch knownAgents
    have cut := (begun.invalidateAll patch.invalidate fun _ member => member).1
    have begins : start.result.invalidated.Nodup := none ▸ List.nodup_nil
    rw [phases]
    exact cut.once_cascade _ (begun.once_all patch.invalidate (fun _ member => member) begins)
  case kept =>
    intro nodeId node found
    exact left nodeId node (withDrafts_kept state patch knownAgents found)
  case keys => exact keys
  case fresh => exact ⟨addedOnce, fun nodeId new old => apart nodeId old nodeId new rfl⟩
  case drafted =>
    rw [sameAdded]
    intro before nodeId behind split
    obtain ⟨draft, listed, count, able, named, found, waits⟩ :=
      drawn.drafted before nodeId behind split
    exact ⟨draft, listed, count, able, named, left nodeId _ (base ▸ found), waits⟩

/-! ### No cycle is closed -/

theorem leftBy_deps (node : NodeState) (result : PatchResult) :
    (node.leftBy result).deps = node.deps := by
  unfold NodeState.leftBy
  split <;> rfl

theorem applyPatch_grown (planned : DepsPlanned state) :
    Chains.Grown (DependsOn state) (DependsOn (applyPatch state patch knownAgents).state)
      (· ∈ state.nodes.keys)
      ((applyPatch state patch knownAgents).result.added.idxOf ·) := by
  have applied := applyPatch_applied state patch knownAgents
  constructor
  · rintro nodeId dep old ⟨node, row, rfl, depends⟩
    obtain ⟨before, found⟩ := (Table.mem_keys_iff_find? _ _).mp old
    have now := (applied.kept node.id before found).symm.trans (node_of_mem _ row)
    obtain rfl := Option.some.inj now
    rw [leftBy_deps] at depends
    obtain ⟨there, named⟩ := state.node_mem _ found
    exact ⟨planned before there dep depends, before, there, named, depends⟩
  · rintro nodeId dep new ⟨node, row, rfl, depends⟩
    have member : node.id ∈ (applyPatch state patch knownAgents).result.added := by
      have inside := Table.key_mem_keys _ row
      rw [applied.keys] at inside
      exact (List.mem_append.mp inside).resolve_left new
    -- A drafted node waits for old nodes and for nodes added in front of it.
    obtain ⟨before, behind, split⟩ := List.append_of_mem member
    obtain ⟨draft, _, count, _, _, found, waits⟩ := applied.drafted before node.id behind split
    have same := Option.some.inj (found.symm.trans (node_of_mem _ row))
    rw [← same, leftBy_deps] at depends
    rcases List.mem_append.mp (waits dep depends) with old | earlier
    · exact Or.inl old
    · right
      have distinct := applied.fresh.1
      rw [split] at distinct ⊢
      have unlisted : node.id ∉ before := by
        intro listed
        exact (List.nodup_append.mp distinct).2.2 node.id listed node.id List.mem_cons_self rfl
      rw [List.idxOf_append_of_mem earlier, List.idxOf_append_of_notMem unlisted,
        List.idxOf_cons_self]
      exact List.idxOf_lt_length_of_mem earlier

/-- A patch does what it says, to every state; and it closes no cycle in a plan
whose dependencies are planned. -/
theorem apply_patch_exact :
    PatchApplied state patch knownAgents (applyPatch state patch knownAgents) ∧
      (DepsPlanned state → AcyclicPlan state →
        AcyclicPlan (applyPatch state patch knownAgents).state) :=
  ⟨applyPatch_applied state patch knownAgents, fun planned acyclic =>
    (applyPatch_grown state patch knownAgents planned).acyclic acyclic⟩

end Applied

/-! A plan whose only node names a dependency that is not planned, and a patch
that adds a node with this id behind it. -/

def danglingState : OrchestrationState :=
  { nodes := .ofList NodeState.id [{ id := "n1", name := "", agentName := "w", deps := ["x1"] }] }

def closingPatch : PlanPatch := { add := [{ agentName := "w", instruction := "go", deps := ["n1"] }] }

/-- A plan with dependencies on one id only, which is none of its own. -/
theorem acyclic_of_one {state : OrchestrationState} {source target : String}
    (different : source ≠ target)
    (only : ∀ nodeId dep, DependsOn state nodeId dep → nodeId = source ∧ dep = target) :
    AcyclicPlan state := by
  intro item cycle
  obtain ⟨_, first, _⟩ := Relation.TransGen.head'_iff.mp cycle
  obtain ⟨_, _, last⟩ := Relation.TransGen.tail'_iff.mp cycle
  exact different ((only _ _ first).1.symm.trans (only _ _ last).2)

theorem dangling_acyclic : AcyclicPlan danglingState := by
  have apart : "n1" ≠ "x1" := by decide
  refine acyclic_of_one apart ?_
  rintro nodeId dep ⟨node, row, rfl, depends⟩
  obtain rfl := List.mem_singleton.mp row
  exact ⟨rfl, List.mem_singleton.mp depends⟩

theorem dangling_closed : ¬AcyclicPlan (applyPatch danglingState closingPatch ["w"]).state := by
  intro acyclic
  have forth : DependsOn (applyPatch danglingState closingPatch ["w"]).state "n1" "x1" := by
    refine ⟨{ id := "n1", name := "", agentName := "w", deps := ["x1"] }, ?_, rfl, ?_⟩ <;> decide
  have back : DependsOn (applyPatch danglingState closingPatch ["w"]).state "x1" "n1" := by
    refine ⟨PatchNode.node { agentName := "w", instruction := "go", deps := ["n1"] } 1, ?_, rfl, ?_⟩ <;>
      decide
  exact acyclic "n1" ((Relation.TransGen.single forth).tail back)

theorem unplanned_dependency_closes_cycle :
    ¬ ∀ (state : OrchestrationState) (patch : PlanPatch) (knownAgents : List String),
      AcyclicPlan state →
        PatchApplied state patch knownAgents (applyPatch state patch knownAgents) ∧
          AcyclicPlan (applyPatch state patch knownAgents).state := fun claim =>
  dangling_closed (claim danglingState closingPatch ["w"] dangling_acyclic).2

/-- Two nodes in a row. -/
def chainState : OrchestrationState :=
  { nodes := .ofList NodeState.id
      [{ id := "n1", name := "", agentName := "w" },
        { id := "n2", name := "", agentName := "w", deps := ["n1"] }] }

/-- Taking out the first takes out the second, and the node that is added behind it. -/
def chainPatch : PlanPatch :=
  { add := [{ agentName := "w", instruction := "go", deps := ["n2"] }], invalidate := ["n1"] }

theorem chain_patch_exact :
    PatchApplied chainState chainPatch ["w"] (applyPatch chainState chainPatch ["w"]) ∧
      AcyclicPlan (applyPatch chainState chainPatch ["w"]).state := by
  obtain ⟨applied, acyclic⟩ := apply_patch_exact chainState chainPatch ["w"]
  have planned : DepsPlanned chainState := by decide
  have apart : "n2" ≠ "n1" := by decide
  refine ⟨applied, acyclic planned (acyclic_of_one apart ?_)⟩
  rintro nodeId dep ⟨node, row, rfl, depends⟩
  rcases List.mem_cons.mp row with rfl | row
  · cases depends
  · obtain rfl := List.mem_singleton.mp row
    exact ⟨rfl, List.mem_singleton.mp depends⟩

example : (applyPatch chainState chainPatch ["w"]).result.invalidated = ["n1", "n2", "x1"] := by
  decide

end Choirworks.Orchestration
