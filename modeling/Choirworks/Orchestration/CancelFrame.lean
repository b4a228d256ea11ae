import Choirworks.Orchestration.Deltas
import Choirworks.Orchestration.PatchEffect

/-!
Which other nodes a cancellation changes. The nodes to invalidate are found by
the statuses of all dependencies in the plan, and a completed dependency counts
as ended, so a waiting node that has nothing to do with the canceled one may be
taken out.
-/

namespace Choirworks.Orchestration

open OrchestrationState

/-- The node depends on the id, directly or through other nodes. -/
def Behind (state : OrchestrationState) (nodeId : String) (other : NodeState) : Prop :=
  Relation.TransGen (DependsOn state) other.id nodeId

/-- Of the other nodes only waiting ones behind the node change their status. -/
def TouchesDependents (state next : OrchestrationState) (node : NodeState) : Prop :=
  ∀ other ∈ state.nodes.rows, other.id ≠ node.id → next.status? other.id ≠ some other.status →
    other.status = .pending ∧ Behind state node.id other

/-- The waiting nodes with an ended dependency are behind the node. -/
def EndedBehind (state : OrchestrationState) (node other : NodeState) : Prop :=
  other.status = .pending → state.depEnded other = true → Behind state node.id other

section Canceled

variable {state : OrchestrationState} {node canceled other : NodeState}

/-- With the node canceled, what waits for it has an ended dependency. -/
theorem depEnded_canceled (same : canceled.id = node.id) (ended : canceled.status = .canceled) :
    (state.setNode canceled).depEnded other = true ↔
      node.id ∈ other.deps ∨ state.depEnded other = true := by
  have status : ∀ dep, (state.setNode canceled).status? dep =
      if dep = node.id then some .canceled else state.status? dep := by
    intro dep
    rw [status_setNode, same, ended]
  simp only [depEnded, List.any_eq_true, status]
  constructor
  · rintro ⟨dep, depends, closed⟩
    by_cases here : dep = node.id
    · exact Or.inl (here ▸ depends)
    · rw [if_neg here] at closed
      exact Or.inr ⟨dep, depends, closed⟩
  · rintro (depends | ⟨dep, depends, closed⟩)
    · exact ⟨node.id, depends, by simp [terminalNodeStatuses]⟩
    · refine ⟨dep, depends, ?_⟩
      by_cases here : dep = node.id
      · simp [here, terminalNodeStatuses]
      · rwa [if_neg here]

/-- The status of another node behind a cancellation. -/
theorem canceled_status (row : other ∈ state.nodes.rows) (apart : other.id ≠ canceled.id) :
    (state.setNode canceled).invalidateBlocked.status? other.id =
      some (if other.status = .pending ∧ (state.setNode canceled).depEnded other = true then
        .invalidated else other.status) := by
  have there : other ∈ (state.setNode canceled).nodes.rows :=
    (mem_setNode _ _ _).mpr (Or.inr ⟨row, apart⟩)
  have blocked : other.id ∈ (state.setNode canceled).blockedNodes.map (·.id) ↔
      other.status = .pending ∧ (state.setNode canceled).depEnded other = true := by
    constructor
    · intro listed
      obtain ⟨found, inside, same⟩ := List.mem_map.mp listed
      obtain ⟨foundRow, waits⟩ := List.mem_filter.mp inside
      obtain rfl := Table.row_unique _ foundRow there same
      exact of_decide_eq_true waits
    · intro waits
      exact List.mem_map_of_mem (List.mem_filter.mpr ⟨there, decide_eq_true waits⟩)
  rw [invalidateBlocked, status_moveNodes, status_of_mem _ there, Option.map_some]
  simp only [blocked]

/-- What a cancellation changes is behind the node exactly if the waiting nodes
with an ended dependency are. -/
theorem canceled_touches_iff (same : canceled.id = node.id) (ended : canceled.status = .canceled)
    (row : other ∈ state.nodes.rows) (apart : other.id ≠ node.id) :
    ((state.setNode canceled).invalidateBlocked.status? other.id ≠ some other.status →
        other.status = .pending ∧ Behind state node.id other) ↔ EndedBehind state node other := by
  rw [canceled_status row (same ▸ apart)]
  simp only [depEnded_canceled same ended]
  have direct : node.id ∈ other.deps → Behind state node.id other := fun depends =>
    .single ⟨other, row, rfl, depends⟩
  constructor
  · intro touches waits closed
    apply (touches ?_).2
    simp [waits, closed]
  · intro behind changed
    by_cases blocked : other.status = .pending ∧
        (node.id ∈ other.deps ∨ state.depEnded other = true)
    · exact ⟨blocked.1, blocked.2.elim direct (behind blocked.1)⟩
    · rw [if_neg blocked] at changed
      exact absurd rfl changed

end Canceled

section Frame

variable (config : ExecutorConfig) (env : Env) (session : Session) (node : NodeState) (text : String)

/-- The follow-up of an interrupt takes the place of the other node. -/
def Displaces (other : NodeState) : Prop :=
  session.state.derivedCount < config.maxDerivedNodes ∧
    other.id = derivedId node.id .followup (session.state.derivedCount + 1)

theorem cancelNode_touches_iff :
    TouchesDependents session.state (session.cancelNode node).state node ↔
      ∀ other ∈ session.state.nodes.rows, other.id ≠ node.id →
        EndedBehind session.state node other := by
  refine forall₃_congr fun other row apart => ?_
  rw [status_of_nodes _ other.id (cancelNode_nodes session node)]
  exact canceled_touches_iff rfl rfl row apart

/-- The state of an interrupt before the follow-up is drawn. -/
theorem interrupt_status (nodeId : String) :
    (session.interrupt config env node text).state.status? nodeId =
      if session.state.derivedCount < config.maxDerivedNodes ∧
          nodeId = derivedId node.id .followup (session.state.derivedCount + 1) then
        some .pending
      else (session.state.setNode { node with status := .canceled }).invalidateBlocked.status?
        nodeId := by
  let state := (session.state.setNode { node with status := .canceled }).invalidateBlocked
  have count : state.derivedCount = session.state.derivedCount := rfl
  rcases spawnDerivedNode_cases config env { session with state }
      { kind := .followup, parentId := node.id, agentName := node.agentName, inputText := text,
        deps := [] } with ⟨used, same⟩ | ⟨spawned, room, quiet, same⟩
  · have left : (session.interrupt config env node text).state = state := congrArg (·.1.state) same
    rw [left, if_neg (fun taken => absurd taken.1 (Nat.not_lt.mpr used))]
  · have left : (session.interrupt config env node text).state = spawned :=
      congrArg (·.1.state) same
    rw [left, status_of_nodes _ nodeId quiet.nodes]
    simp only [count] at room ⊢
    have drawn := status_setNode state nodeId (Spawn.node
      { kind := .followup, parentId := node.id, agentName := node.agentName, inputText := text,
        deps := [] } (session.state.derivedCount + 1))
    simp only [room, true_and]
    exact drawn

theorem interrupt_touches_iff :
    TouchesDependents session.state (session.interrupt config env node text).state node ↔
      ∀ other ∈ session.state.nodes.rows, other.id ≠ node.id →
        (Displaces config session node other → other.status = .pending) ∧
          (¬Displaces config session node other → EndedBehind session.state node other) := by
  refine forall₃_congr fun other row apart => ?_
  rw [interrupt_status]
  by_cases displaced : Displaces config session node other
  · have taken := displaced
    unfold Displaces at taken
    simp only [taken, and_self, ↓reduceIte, displaced, true_implies, not_true_eq_false,
      false_implies, and_true]
    constructor
    · -- The follow-up is written pending, so a row that had begun would be touched as well.
      intro touches
      by_contra begun
      exact begun (touches fun same => begun (Option.some.inj same).symm).1
    · intro waits changed
      exact absurd (congrArg some waits.symm) changed
  · have left := displaced
    unfold Displaces at left
    simp only [left, ↓reduceIte, displaced, false_implies, not_false_eq_true, true_implies, true_and]
    exact canceled_touches_iff rfl rfl row apart

/-- A cancellation touches waiting nodes behind the canceled one alone exactly
if every waiting node with an ended dependency is behind it, and an interrupt if
its follow-up also takes the place of a waiting node only. -/
theorem cancellation_frame_iff :
    (TouchesDependents session.state (session.cancelNode node).state node ↔
      ∀ other ∈ session.state.nodes.rows, other.id ≠ node.id →
        EndedBehind session.state node other) ∧
    (TouchesDependents session.state (session.interrupt config env node text).state node ↔
      ∀ other ∈ session.state.nodes.rows, other.id ≠ node.id →
        (Displaces config session node other → other.status = .pending) ∧
          (¬Displaces config session node other → EndedBehind session.state node other)) :=
  ⟨cancelNode_touches_iff session node, interrupt_touches_iff config env session node text⟩

end Frame

/-! A node that waits for other work, with one dependency completed. -/

def branchesState : OrchestrationState :=
  { nodes := .ofList NodeState.id
      [{ id := "n1", name := "", agentName := "a", status := .completed },
        { id := "n2", name := "", agentName := "b", status := .working },
        { id := "n3", name := "", agentName := "c", status := .working },
        { id := "n4", name := "", agentName := "d", deps := ["n1", "n2"] }] }

theorem unrelated_node_invalidated :
    ¬ ∀ (session : Session) (node : NodeState), node ∈ session.state.nodes.rows →
      node.status ∈ activeNodeStatuses →
        TouchesDependents session.state (session.cancelNode node).state node ∧
        ∀ config env text,
          TouchesDependents session.state (session.interrupt config env node text).state node := by
  intro claim
  have frame := (claim ⟨branchesState, branchesState⟩
    { id := "n3", name := "", agentName := "c", status := .working } (by decide) (by decide)).1
  have behind := ((cancelNode_touches_iff _ _).mp frame
    { id := "n4", name := "", agentName := "d", deps := ["n1", "n2"] } (by decide) (by decide)) rfl
    (by decide)
  obtain ⟨_, _, node, row, _, depends⟩ := Relation.TransGen.tail'_iff.mp behind
  have undepended : ∀ node ∈ branchesState.nodes.rows, "n3" ∉ node.deps := by decide
  exact undepended node row depends

end Choirworks.Orchestration
