import Choirworks.Orchestration.Planning

/-!
What `apply_patch` does. Each of its loops either leaves the state alone or
records in its result what it did to it.
-/

namespace Choirworks.Orchestration

namespace Patching

/-! ### Drawn ids are free -/

theorem freePatchCount_cases (taken : List String) (fuel count : Nat) :
    patchNodeId (freePatchCount taken fuel count) ∉ taken ∨
      ∀ offset < fuel, patchNodeId (count + offset) ∈ taken := by
  induction fuel generalizing count with
  | zero => exact Or.inr (by simp)
  | succ fuel ih =>
      by_cases used : patchNodeId count ∈ taken
      · simp only [freePatchCount, used, ↓reduceIte]
        rcases ih (count + 1) with free | all
        · exact Or.inl free
        · right
          intro offset small
          cases offset with
          | zero => exact used
          | succ offset =>
              have later := all offset (by omega)
              rwa [Nat.add_assoc, Nat.add_comm 1] at later
      · exact Or.inl (by simp [freePatchCount, used])

/-- More tries than there are ids in use find a free one. -/
theorem freePatchCount_free {taken : List String} {fuel : Nat} (enough : taken.length < fuel)
    (count : Nat) : patchNodeId (freePatchCount taken fuel count) ∉ taken := by
  rcases freePatchCount_cases taken fuel count with free | all
  · exact free
  · exfalso
    let tried := (List.range fuel).map fun offset => patchNodeId (count + offset)
    have distinct : tried.Nodup := by
      refine List.Nodup.map ?_ List.nodup_range
      intro left right same
      have numbers := Text.toString_nat_injective ((String.append_right_inj "x").mp same)
      omega
    have inside : tried ⊆ taken := by
      intro nodeId member
      obtain ⟨offset, small, rfl⟩ := List.mem_map.mp member
      exact all offset (List.mem_range.mp small)
    have few := (List.subperm_of_subset distinct inside).length_le
    simp only [tried, List.length_map, List.length_range] at few
    omega

/-! ### Every change is recorded -/

/-- The draft was accepted: its node is new and waits for nodes of the plan. -/
structure Accepted (knownAgents : List String) (patching : Patching) (draft : PatchNode)
    (next : Patching) (node : NodeState) (count : Nat) : Prop where
  state : next.state = { patching.state.setNode node with patchCount := count }
  added : next.result.added = patching.result.added ++ [node.id]
  invalidated : next.result.invalidated = patching.result.invalidated
  id : node.id = patchNodeId count
  fresh : node.id ∉ patching.state.nodes.keys
  waits : node.status = .pending
  deps : node.deps = draft.deps
  agent : draft.agentName ∈ knownAgents
  known : ∀ dep ∈ draft.deps, dep ∈ patching.state.nodes.keys

theorem addDraft_cases (knownAgents : List String) (patching : Patching) (draft : PatchNode) :
    ((patching.addDraft knownAgents draft).state = patching.state ∧
        (patching.addDraft knownAgents draft).result.added = patching.result.added ∧
        (patching.addDraft knownAgents draft).result.invalidated =
          patching.result.invalidated) ∨
      ∃ node count, Accepted knownAgents patching draft (patching.addDraft knownAgents draft)
        node count := by
  by_cases agent : draft.agentName ∈ knownAgents
  · by_cases unknown : draft.deps.filter (· ∉ patching.state.nodes.keys) = []
    · right
      simp only [addDraft, agent, unknown, not_true_eq_false, ↓reduceIte, ne_eq]
      refine ⟨_, _, rfl, rfl, rfl, rfl, ?_, rfl, rfl, agent, ?_⟩
      · exact freePatchCount_free (by simp [Table.keys]) _
      · intro dep depends
        by_contra missing
        exact List.filter_eq_nil_iff.mp unknown dep depends (by simpa using missing)
    · left
      simp only [addDraft, agent, unknown, not_true_eq_false, ↓reduceIte, ne_eq, not_false_eq_true]
      exact ⟨trivial, trivial, trivial⟩
  · simp [addDraft, agent]

theorem addDraft_added (knownAgents : List String) (patching : Patching) (draft : PatchNode) :
    patching.result.added <+: (patching.addDraft knownAgents draft).result.added := by
  rcases addDraft_cases knownAgents patching draft with ⟨_, same, _⟩ | ⟨node, count, accepted⟩
  · exact same ▸ List.prefix_refl _
  · exact accepted.added ▸ List.prefix_append _ _

theorem addDrafts_unchanged (knownAgents : List String) (drafts : List PatchNode)
    (patching : Patching)
    (none : (drafts.foldl (addDraft knownAgents) patching).result.added = []) :
    (drafts.foldl (addDraft knownAgents) patching).state = patching.state := by
  have grows : ∀ (rest : List PatchNode) (start : Patching),
      start.result.added <+: (rest.foldl (addDraft knownAgents) start).result.added := by
    intro rest
    induction rest with
    | nil => exact fun start => List.prefix_refl _
    | cons draft rest ih =>
        exact fun start => (addDraft_added knownAgents start draft).trans (ih _)
  induction drafts generalizing patching with
  | nil => rfl
  | cons draft rest ih =>
      rw [List.foldl_cons] at none ⊢
      rw [ih _ none]
      rcases addDraft_cases knownAgents patching draft with ⟨same, _⟩ | ⟨node, count, accepted⟩
      · exact same
      · have kept := grows rest (patching.addDraft knownAgents draft)
        rw [none, List.prefix_nil, accepted.added] at kept
        simp at kept

theorem invalidateListed_cases (patching : Patching) (nodeId : String) :
    ((patching.invalidateListed nodeId).state = patching.state ∧
        (patching.invalidateListed nodeId).result.invalidated = patching.result.invalidated ∧
        ∀ status ∈ patching.state.status? nodeId, status ∉ invalidatableStatuses) ∨
      ((patching.invalidateListed nodeId).state = patching.state.moveNodes [nodeId] .invalidated ∧
        (patching.invalidateListed nodeId).result.invalidated =
          patching.result.invalidated ++ [nodeId] ∧
        ∃ status ∈ patching.state.status? nodeId, status ∈ invalidatableStatuses) := by
  simp only [invalidateListed, OrchestrationState.status?]
  cases found : patching.state.node? nodeId with
  | none => exact Or.inl ⟨rfl, rfl, by simp⟩
  | some node =>
      dsimp only
      split
      · rename_i may
        exact Or.inr ⟨rfl, rfl, by simpa using may⟩
      · rename_i mayNot
        split <;> exact Or.inl ⟨rfl, rfl, by simpa using mayNot⟩

theorem invalidateListed_added (patching : Patching) (nodeId : String) :
    (patching.invalidateListed nodeId).result.added = patching.result.added := by
  simp only [invalidateListed]
  split
  · rfl
  · split
    · rfl
    · split <;> rfl

theorem invalidateAll_added (nodeIds : List String) (patching : Patching) :
    (nodeIds.foldl invalidateListed patching).result.added = patching.result.added := by
  induction nodeIds generalizing patching with
  | nil => rfl
  | cons nodeId rest ih =>
      rw [List.foldl_cons, ih]
      exact invalidateListed_added patching nodeId

theorem invalidateListed_grows (patching : Patching) (nodeId : String) :
    patching.result.invalidated <+: (patching.invalidateListed nodeId).result.invalidated := by
  rcases invalidateListed_cases patching nodeId with ⟨_, same, _⟩ | ⟨_, more, _⟩
  · exact same ▸ List.prefix_refl _
  · exact more ▸ List.prefix_append _ _

theorem invalidateAll_grows (nodeIds : List String) (patching : Patching) :
    patching.result.invalidated <+:
      (nodeIds.foldl invalidateListed patching).result.invalidated := by
  induction nodeIds generalizing patching with
  | nil => exact List.prefix_refl _
  | cons nodeId rest ih => exact (invalidateListed_grows patching nodeId).trans (ih _)

/-- A listed node that may be invalidated is, so something is recorded. -/
theorem invalidateAll_records {nodeIds : List String} {patching : Patching} {nodeId : String}
    (listed : nodeId ∈ nodeIds) {status : NodeStatus}
    (found : patching.state.status? nodeId = some status) (may : status ∈ invalidatableStatuses) :
    (nodeIds.foldl invalidateListed patching).result.invalidated ≠ [] := by
  induction nodeIds generalizing patching with
  | nil => simp at listed
  | cons first rest ih =>
      rw [List.foldl_cons]
      rcases invalidateListed_cases patching first with ⟨same, _, mayNot⟩ | ⟨_, more, _⟩
      · have later : nodeId ∈ rest := by
          rcases List.mem_cons.mp listed with rfl | later
          · exact absurd may (mayNot status found)
          · exact later
        exact ih later (same ▸ found)
      · have some_recorded : (patching.invalidateListed first).result.invalidated ≠ [] := by
          simp [more]
        intro none
        exact some_recorded (List.prefix_nil.mp (none ▸ invalidateAll_grows rest _))

theorem cascade_grows (fuel : Nat) (patching : Patching) :
    (patching.cascade fuel).result.added = patching.result.added ∧
      patching.result.invalidated <+: (patching.cascade fuel).result.invalidated := by
  induction fuel generalizing patching with
  | zero => exact ⟨rfl, List.prefix_refl _⟩
  | succ fuel ih =>
      simp only [cascade]
      split
      · exact ⟨rfl, List.prefix_refl _⟩
      · obtain ⟨added, grows⟩ := ih
          { state := patching.state.moveNodes (patching.cascaded.map (·.id)) .invalidated
            result := { patching.result with
              invalidated := patching.result.invalidated ++ patching.cascaded.map (·.id) } }
        exact ⟨added, (List.prefix_append _ _).trans grows⟩

/-! ### The cascade ends at a fixed point -/

def invalidatable (state : OrchestrationState) : List NodeState :=
  state.nodes.rows.filter fun node => node.status ∈ invalidatableStatuses

theorem invalidatable_moveNodes (state : OrchestrationState) (nodeIds : List String) :
    (invalidatable (state.moveNodes nodeIds .invalidated)).length =
      ((invalidatable state).filter fun node => node.id ∉ nodeIds).length := by
  simp only [invalidatable, OrchestrationState.moveNodes, Table.rows_map, List.filter_map,
    List.length_map, List.filter_filter]
  congr 1
  apply List.filter_congr
  intro node _
  by_cases moved : node.id ∈ nodeIds <;> simp [moved, invalidatableStatuses]

/-- Every round takes a node out of those that may be invalidated, so with more
rounds than such nodes the last one finds nothing. -/
theorem cascade_settles (fuel : Nat) (patching : Patching)
    (enough : (invalidatable patching.state).length < fuel) :
    (patching.cascade fuel).cascaded = [] := by
  induction fuel generalizing patching with
  | zero => omega
  | succ fuel ih =>
      simp only [cascade]
      split
      · rename_i none
        exact List.map_eq_nil_iff.mp none
      · rename_i some_left
        apply ih
        obtain ⟨node, rest, first⟩ := List.exists_cons_of_ne_nil (mt List.map_eq_nil_iff.mpr some_left)
        have taken : node ∈ patching.cascaded := first ▸ List.mem_cons_self
        obtain ⟨row, may⟩ := List.mem_filter.mp taken
        simp only [decide_eq_true_eq] at may
        have shrinks : ((invalidatable patching.state).filter fun other =>
            other.id ∉ patching.cascaded.map (·.id)).length <
              (invalidatable patching.state).length := by
          apply List.length_filter_lt_length_iff_exists.mpr
          refine ⟨node, List.mem_filter.mpr ⟨row, by simp [may.1]⟩, ?_⟩
          simpa using ⟨node, taken, rfl⟩
        rw [invalidatable_moveNodes]
        omega

end Patching

/-- A patch that lists a node which may be invalidated changes the plan. -/
theorem applyPatch_changed {state : OrchestrationState} {patch : PlanPatch}
    {knownAgents : List String} {nodeId : String} (listed : nodeId ∈ patch.invalidate)
    {status : NodeStatus} (found : state.status? nodeId = some status)
    (may : status ∈ invalidatableStatuses) :
    (applyPatch state patch knownAgents).result.changed = true := by
  let added := patch.add.foldl (Patching.addDraft knownAgents) ⟨state, {}⟩
  let invalidated := patch.invalidate.foldl Patching.invalidateListed added
  obtain ⟨same, grows⟩ :=
    invalidated.cascade_grows (invalidated.state.nodes.rows.length + 1)
  have result : applyPatch state patch knownAgents =
      invalidated.cascade (invalidated.state.nodes.rows.length + 1) := rfl
  rw [result, PatchResult.changed, same, Patching.invalidateAll_added]
  by_cases none : added.result.added = []
  · have unchanged : added.state = state := Patching.addDrafts_unchanged _ _ _ none
    have recorded : invalidated.result.invalidated ≠ [] :=
      Patching.invalidateAll_records listed (unchanged ▸ found) may
    have kept : (invalidated.cascade
        (invalidated.state.nodes.rows.length + 1)).result.invalidated ≠ [] := by
      intro empty
      exact recorded (List.prefix_nil.mp (empty ▸ grows))
    simp [kept]
  · simp [added, none]

end Choirworks.Orchestration
