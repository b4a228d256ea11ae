import Mathlib.Logic.Relation
import Choirworks.Orchestration.Statuses

/-!
Every operation is a sequence of edits: rows change without losing what they
were planned with, nodes are drawn, interventions are settled or asked. `Scope`
lists the moves between statuses and the questions that an operation may make,
and whether it counts attempts or hands the words of the user on, so a property
of the state is checked against the edits once and holds behind every operation
whose scope allows it.
-/

namespace Choirworks.Orchestration

open OrchestrationState

/-- What a node is planned with stays. -/
structure SameRow (node later : NodeState) : Prop where
  id : later.id = node.id
  agentName : later.agentName = node.agentName
  deps : later.deps = node.deps
  inputText : later.inputText = node.inputText
  derived : later.derived = node.derived
  assistRequestedBy : later.assistRequestedBy = node.assistRequestedBy

theorem SameRow.refl (node : NodeState) : SameRow node node := ⟨rfl, rfl, rfl, rfl, rfl, rfl⟩

theorem SameRow.trans {node later last : NodeState} (first : SameRow node later)
    (second : SameRow later last) : SameRow node last :=
  ⟨second.id.trans first.id, second.agentName.trans first.agentName,
    second.deps.trans first.deps, second.inputText.trans first.inputText,
    second.derived.trans first.derived,
    second.assistRequestedBy.trans first.assistRequestedBy⟩

theorem SameRow.moved {node later : NodeState} (same : SameRow node later) (target : NodeStatus) :
    SameRow node { later with status := target } :=
  ⟨same.id, same.agentName, same.deps, same.inputText, same.derived, same.assistRequestedBy⟩

/-- The moves between statuses, the questions about a node of a status, and
whether attempts are counted, or queues and follow-ups changed. -/
structure Scope where
  moves : String → NodeStatus → NodeStatus → Prop
  asks : InterventionKind → String → NodeStatus → Prop
  counts : Prop
  hands : Prop

/-- Nothing is pending afterwards that was not before, or about another node. -/
structure Settles (intervention later : Intervention) : Prop where
  nodeId : later.nodeId = intervention.nodeId
  kind : later.kind = intervention.kind
  pending : later.status = .pending → intervention.status = .pending

inductive Edit (scope : Scope) : OrchestrationState → OrchestrationState → Prop where
  | rows {state : OrchestrationState} {change : NodeState → NodeState}
      (keeps : ∀ node, (change node).id = node.id)
      (same : ∀ node ∈ state.nodes.rows, SameRow node (change node))
      (allowed : ∀ node ∈ state.nodes.rows, (change node).status = node.status ∨
        scope.moves node.id node.status (change node).status)
      (counted : ∀ node ∈ state.nodes.rows,
        (change node).attempt = node.attempt ∨ scope.counts) :
      Edit scope state { state with nodes := state.nodes.map change keeps }
  | draft {state : OrchestrationState} {node : NodeState} {number : Nat} (patchCount : Nat)
      (named : node.id = Patching.patchNodeId number) (fresh : node.id ∉ state.nodes.keys)
      (plain : node.assistRequestedBy = none) :
      Edit scope state { state.setNode node with patchCount }
  | spawn {state : OrchestrationState} (spawn : Spawn)
      (helps : (scope.hands ∧ spawn.Follows) ∨ spawn.Helps) :
      Edit scope state
        { state.setNode (spawn.node (state.derivedCount + 1)) with
          derivedCount := state.derivedCount + 1 }
  | side {state : OrchestrationState} (members : Table Member.name)
      (queue : Dict String (List QueuedMessage)) (revisionCount nextMessage : Nat)
      (handed : queue = state.queue ∨ scope.hands) :
      Edit scope state { state with members, queue, revisionCount, nextMessage }
  | settle {state : OrchestrationState} {change : Intervention → Intervention}
      (keeps : ∀ intervention, (change intervention).id = intervention.id)
      (settles : ∀ intervention ∈ state.interventions.rows,
        Settles intervention (change intervention)) :
      Edit scope state { state with interventions := state.interventions.map change keeps }
  | ask {state asked : OrchestrationState} {intervention : Intervention} {status : NodeStatus}
      (requested : state.requestUserInput intervention = some asked)
      (found : state.status? intervention.nodeId = some status)
      (allowed : scope.asks intervention.kind intervention.nodeId status) : Edit scope state asked

theorem Edit.derivedCount_le {scope : Scope} {old new : OrchestrationState}
    (edit : Edit scope old new) : old.derivedCount ≤ new.derivedCount := by
  cases edit with
  | rows | draft | side | settle => exact Nat.le_refl _
  | spawn => exact Nat.le_succ _
  | ask requested => exact Nat.le_of_eq (requestUserInput_quiet _ requested).derivedCount.symm

/-- Among the nodes, the numbers in the ids of derived ones have been drawn. -/
def Numbered (among : Bool → Prop) (state : OrchestrationState) : Prop :=
  ∀ node ∈ state.nodes.rows, among node.derived → ∀ parentId kind number,
    node.id = derivedId parentId kind number → number ≤ state.derivedCount

theorem Edit.numbered {scope : Scope} {among : Bool → Prop} {old new : OrchestrationState}
    (edit : Edit scope old new) (numbered : Numbered among old) : Numbered among new := by
  cases edit with
  | rows keeps same =>
      intro node member listed
      obtain ⟨before, inside, rfl⟩ := List.mem_map.mp member
      rw [keeps]
      exact numbered before inside ((same before inside).derived ▸ listed)
  | draft _ named =>
      intro node member listed parentId kind number hit
      rcases (mem_setNode _ _ _).mp member with rfl | ⟨inside, _⟩
      · -- the ids of patches have no such letter
        have letter := isDerivedId_derivedId parentId kind number
        rw [← hit, named, patchNodeId_underived] at letter
        cases letter
      · exact numbered node inside listed parentId kind number hit
  | spawn spawn =>
      intro node member listed parentId kind number hit
      rcases (mem_setNode _ _ _).mp member with rfl | ⟨inside, _⟩
      · exact Nat.le_of_eq (derivedId_number hit).symm
      · exact Nat.le_succ_of_le (numbered node inside listed parentId kind number hit)
  | side | settle => exact numbered
  | ask requested =>
      obtain ⟨_, rfl⟩ := requestUserInput_cases requested
      exact numbered

/-- Any number of edits. -/
abbrev Edited (scope : Scope) : OrchestrationState → OrchestrationState → Prop :=
  Relation.ReflTransGen (Edit scope)

/-- Edits of the state in memory, stored now and then. -/
inductive Session.Edits (scope : Scope) : Session → Session → Prop where
  | refl (session : Session) : Edits scope session session
  | edited {session mid : Session} {state : OrchestrationState} (edits : Edits scope session mid)
      (edited : Edited scope mid.state state) : Edits scope session { mid with state }
  | persist {session mid : Session} (edits : Edits scope session mid) :
      Edits scope session mid.persist

namespace Session

section Edits

variable {scope : Scope} {session next last : Session} {state : OrchestrationState}

theorem Edits.trans (first : Edits scope session next) (second : Edits scope next last) :
    Edits scope session last := by
  induction second with
  | refl => exact first
  | edited _ edited ih => exact .edited ih edited
  | persist _ ih => exact .persist ih

theorem Edits.one (edit : Edit scope session.state state) :
    Edits scope session { session with state } :=
  .edited (.refl session) (.single edit)

theorem Edits.then (edits : Edits scope session next) (edit : Edit scope next.state state) :
    Edits scope session { next with state } :=
  .edited edits (.single edit)

/-- A property that edits keep holds in memory and in the store. -/
theorem Edits.both {property : OrchestrationState → Prop}
    (kept : ∀ {old new}, Edit scope old new → property old → property new)
    (edits : Edits scope session next) (held : property session.state ∧ property session.saved) :
    property next.state ∧ property next.saved := by
  have all : ∀ {old new}, Edited scope old new → property old → property new := by
    intro old new edited held
    induction edited with
    | refl => exact held
    | tail _ edit ih => exact kept edit ih
  induction edits with
  | refl => exact held
  | edited _ edited ih => exact ⟨all edited ih.1, ih.2⟩
  | persist _ ih => exact ⟨ih.1, ih.1⟩

/-- In memory alone. -/
theorem Edits.kept {property : OrchestrationState → Prop}
    (kept : ∀ {old new}, Edit scope old new → property old → property new)
    (edits : Edits scope session next) (held : property session.state) : property next.state := by
  induction edits with
  | refl => exact held
  | edited _ edited ih =>
      induction edited with
      | refl => exact ih
      | tail _ edit ih => exact kept edit ih
  | persist _ ih => exact ih

/-- What edits keep that derive no node, operations keep that derive none. -/
theorem Edits.still {property : OrchestrationState → Prop}
    (kept : ∀ {old new}, Edit scope old new → new.derivedCount = old.derivedCount →
      property old → property new)
    (edits : Edits scope session next)
    (still : next.state.derivedCount = session.state.derivedCount) (held : property session.state) :
    property next.state ∧ (property session.saved → property next.saved) := by
  -- the count never falls, so no edit on the way has raised it
  have one : ∀ {old new}, Edited scope old new → old.derivedCount ≤ new.derivedCount ∧
      (new.derivedCount = old.derivedCount → property old → property new) := by
    intro old new edited
    induction edited with
    | refl => exact ⟨Nat.le_refl _, fun _ held => held⟩
    | tail _ edit ih =>
        have more := edit.derivedCount_le
        refine ⟨Nat.le_trans ih.1 more, fun same held => ?_⟩
        exact kept edit (by omega) (ih.2 (by omega) held)
  have all : session.state.derivedCount ≤ next.state.derivedCount ∧
      (next.state.derivedCount = session.state.derivedCount →
        property next.state ∧ (property session.saved → property next.saved)) := by
    clear still
    induction edits with
    | refl => exact ⟨Nat.le_refl _, fun _ => ⟨held, id⟩⟩
    | edited _ edited ih =>
        obtain ⟨more, keeps⟩ := one edited
        refine ⟨Nat.le_trans ih.1 more, fun same => ?_⟩
        have level := Nat.le_antisymm (same ▸ more) ih.1
        exact ⟨keeps (same.trans level.symm) (ih.2 level).1, (ih.2 level).2⟩
    | persist _ ih => exact ⟨ih.1, fun same => ⟨(ih.2 same).1, fun _ => (ih.2 same).1⟩⟩
  exact all.2 still

end Edits

end Session

open Session

/-! ### Edits of the state -/

section State

variable {scope : Scope} {state : OrchestrationState}

/-- A change of one row. -/
theorem Edit.row {node later : NodeState} (member : node ∈ state.nodes.rows)
    (same : SameRow node later)
    (allowed : later.status = node.status ∨ scope.moves node.id node.status later.status)
    (counted : later.attempt = node.attempt ∨ scope.counts) :
    Edit scope state (state.setNode later) := by
  have known : later.id ∈ state.nodes.keys := same.id ▸ state.nodes.key_mem_keys member
  have itself : ∀ other ∈ state.nodes.rows, other.id = later.id → other = node :=
    fun other inside hit => state.nodes.row_unique inside member (hit.trans same.id)
  unfold OrchestrationState.setNode
  rw [Table.insert_known _ _ known]
  refine .rows (fun other => by split <;> simp [*]) ?_ ?_ ?_
  · intro other inside
    split
    · rename_i hit
      rw [itself other inside hit]
      exact same
    · exact .refl other
  · intro other inside
    split
    · rename_i hit
      rw [itself other inside hit]
      exact allowed
    · exact Or.inl rfl
  · intro other inside
    split
    · rename_i hit
      rw [itself other inside hit]
      exact counted
    · exact Or.inl rfl

theorem Edit.move {nodeIds : List String} {target : NodeStatus}
    (allowed : ∀ node ∈ state.nodes.rows, node.id ∈ nodeIds →
      scope.moves node.id node.status target) :
    Edit scope state (state.moveNodes nodeIds target) := by
  refine .rows _ ?_ ?_ fun node _ => Or.inl ?_
  · intro node _
    split
    · exact (SameRow.refl node).moved target
    · exact .refl node
  · intro node inside
    split
    · rename_i moved
      exact Or.inr (allowed node inside moved)
    · exact Or.inl rfl
  · split <;> rfl

theorem Edit.members (members : Table Member.name) : Edit scope state { state with members } :=
  .side members state.queue state.revisionCount state.nextMessage (Or.inl rfl)

theorem expireWhere_edit (concerns : Intervention → Bool) :
    Edit scope state (state.expireWhere concerns) := by
  refine .settle _ fun intervention _ => ?_
  split
  · exact ⟨rfl, rfl, nofun⟩
  · exact ⟨rfl, rfl, id⟩

theorem expireAll_edited (nodeIds : List String) (state : OrchestrationState) :
    Edited scope state (nodeIds.foldl OrchestrationState.expireNodeInterventions state) := by
  induction nodeIds generalizing state with
  | nil => exact .refl
  | cons nodeId rest ih => exact .head (expireWhere_edit _) (ih _)

theorem joinMembers_edited (env : Env) (state : OrchestrationState) (names : List String)
    (reason : String) : Edited scope state (joinMembers env state names reason) := by
  unfold joinMembers
  induction names.filter (· ∈ env.agents) generalizing state with
  | nil => exact .refl
  | cons name rest ih =>
      rw [List.foldl_cons]
      refine Relation.ReflTransGen.trans ?_ (ih _)
      unfold OrchestrationState.addMember
      split
      · exact .refl
      · exact .single (.members _)

/-- Interventions that are known keep their place. -/
theorem setIntervention_edit {intervention later : Intervention}
    (member : intervention ∈ state.interventions.rows) (sameId : later.id = intervention.id)
    (settles : Settles intervention later) :
    Edit scope state { state with interventions := state.interventions.insert later } := by
  have known : later.id ∈ state.interventions.keys :=
    sameId ▸ state.interventions.key_mem_keys member
  rw [Table.insert_known _ _ known]
  refine .settle (fun other => by split <;> simp [*]) fun other inside => ?_
  split
  · rename_i hit
    obtain rfl := state.interventions.row_unique inside member (hit.trans sameId)
    exact settles
  · exact ⟨rfl, rfl, id⟩

end State

/-! ### Patches -/

/-- The ids that are drawn for the confirmations of a patch name nothing that
is pending. -/
def DrawsUnused (env : Env) (state : OrchestrationState) (patch : PlanPatch) : Prop :=
  ∀ intervention ∈ state.pendingInterventions, ∀ drawn < patch.invalidate.length,
    intervention.id ≠ env.fresh drawn

instance (env : Env) (state : OrchestrationState) (patch : PlanPatch) :
    Decidable (DrawsUnused env state patch) :=
  inferInstanceAs (Decidable (∀ intervention ∈ state.pendingInterventions, ∀ drawn < _, _))

/-- What a patch does to nodes that are in the plan already is in the scope. -/
structure Revises (scope : Scope) (env : Env) (state : OrchestrationState) (patch : PlanPatch) :
    Prop where
  invalidates : ∀ node, Affected (withDrafts state patch env.agents) patch.invalidate node →
    state.status? node.id = some node.status ∨ node.status = .pending →
      scope.moves node.id node.status .invalidated
  asks : ∀ nodeId ∈ patch.invalidate, ∀ status ∈ state.status? nodeId,
    status ∉ invalidatableStatuses → status ≠ .invalidated →
      (DrawsUnused env state patch → state.pendingInterventionFor nodeId = none) →
        scope.asks .confirmCancel nodeId status

/-- The same rows as far as a patch looks at them. -/
structure Alike (state other : OrchestrationState) : Prop where
  keys : other.nodes.keys = state.nodes.keys
  patchCount : other.patchCount = state.patchCount
  rows : ∀ node ∈ other.nodes.rows, ∃ twin ∈ state.nodes.rows,
    twin.id = node.id ∧ twin.status = node.status ∧ twin.deps = node.deps

theorem Affected.alike {state other : OrchestrationState} {listed : List String} {node : NodeState}
    (alike : Alike state other) (affected : Affected other listed node) :
    ∃ twin, Affected state listed twin ∧ twin.id = node.id ∧ twin.status = node.status := by
  induction affected with
  | listed row may inside =>
      obtain ⟨twin, member, same, status, _⟩ := alike.rows _ row
      exact ⟨twin, .listed member (status ▸ may) (same ▸ inside), same, status⟩
  | behind _ row may depends ih =>
      obtain ⟨source, cut, named, _⟩ := ih
      obtain ⟨twin, member, same, status, deps⟩ := alike.rows _ row
      exact ⟨twin, .behind cut member (status ▸ may) (by rw [deps, named]; exact depends), same,
        status⟩

theorem Alike.withDrafts {state other : OrchestrationState} (alike : Alike state other)
    (patch : PlanPatch) (knownAgents : List String) :
    Alike (withDrafts state patch knownAgents) (withDrafts other patch knownAgents) := by
  have added : ∀ (drafts : List PatchNode) (left right : Patching), Alike left.state right.state →
      Alike (drafts.foldl (Patching.addDraft knownAgents) left).state
        (drafts.foldl (Patching.addDraft knownAgents) right).state := by
    intro drafts
    induction drafts with
    | nil => exact fun _ _ alike => alike
    | cons draft rest ih =>
        intro left right alike
        apply ih
        -- Both sides hold the same ids, so the search for a free one ends at the same number.
        have length : right.state.nodes.rows.length = left.state.nodes.rows.length := by
          simpa [Table.keys] using congrArg List.length alike.keys
        simp only [Patching.addDraft, alike.keys, alike.patchCount, length]
        split
        · exact alike
        · split
          · exact alike
          · have fresh : Patching.patchNodeId (Patching.freePatchCount left.state.nodes.keys
                (left.state.nodes.rows.length + 1) (left.state.patchCount + 1)) ∉
                  left.state.nodes.keys :=
              Patching.freePatchCount_free (by simp [Table.keys]) _
            refine ⟨?_, rfl, ?_⟩
            · simp only [OrchestrationState.setNode]
              rw [Table.keys_insert_new _ _ (by rw [alike.keys]; exact fresh),
                Table.keys_insert_new _ _ fresh, alike.keys]
            · intro node member
              rcases (mem_setNode _ _ _).mp member with rfl | ⟨old, apart⟩
              · exact ⟨_, (mem_setNode _ _ _).mpr (Or.inl rfl), rfl, rfl, rfl⟩
              · obtain ⟨twin, inside, same, rest⟩ := alike.rows node old
                exact ⟨twin, (mem_setNode _ _ _).mpr (Or.inr ⟨inside, same ▸ apart⟩), same, rest⟩
  exact added patch.add ⟨state, {}⟩ ⟨other, {}⟩ alike

/-- A change of fields that a patch does not look at. -/
theorem Revises.congr {scope : Scope} {env : Env} {state other : OrchestrationState}
    {patch : PlanPatch} (revises : Revises scope env state patch) (alike : Alike state other)
    (statuses : ∀ nodeId, other.status? nodeId = state.status? nodeId)
    (interventions : other.interventions = state.interventions) :
    Revises scope env other patch where
  invalidates := by
    intro node affected found
    obtain ⟨twin, cut, same, status⟩ := affected.alike (alike.withDrafts patch env.agents)
    rw [← same, ← status] at found ⊢
    rw [statuses] at found
    exact revises.invalidates twin cut found
  asks := by
    intro nodeId listed status found begun alive free
    rw [statuses] at found
    apply revises.asks nodeId listed status found begun alive
    simpa [DrawsUnused, pendingInterventions, pendingInterventionFor, interventions] using free

namespace Patching

/-- At most one node is skipped for each that is listed. -/
theorem invalidateAll_few (nodeIds : List String) (patching : Patching) :
    (nodeIds.foldl invalidateListed patching).result.skippedInFlight.length ≤
      patching.result.skippedInFlight.length + nodeIds.length := by
  induction nodeIds generalizing patching with
  | nil => simp
  | cons first rest ih =>
      have step : (patching.invalidateListed first).result.skippedInFlight.length ≤
          patching.result.skippedInFlight.length + 1 := by
        unfold invalidateListed
        dsimp only
        split
        · exact Nat.le_succ _
        · split
          · exact Nat.le_succ _
          · split <;> simp
      have later := ih (patching.invalidateListed first)
      rw [List.foldl_cons, List.length_cons]
      omega

/-- A skipped node is listed, and has begun or ended. -/
theorem invalidateAll_skips {base : OrchestrationState} {listed nodeIds : List String}
    {patching : Patching} (cut : Cut base listed patching)
    (inside : ∀ nodeId ∈ nodeIds, nodeId ∈ listed) {nodeId : String}
    (skipped : nodeId ∈ (nodeIds.foldl invalidateListed patching).result.skippedInFlight) :
    nodeId ∈ patching.result.skippedInFlight ∨
      (nodeId ∈ nodeIds ∧ ∃ status, base.status? nodeId = some status ∧
        status ∉ invalidatableStatuses ∧ status ≠ .invalidated) := by
  induction nodeIds generalizing patching with
  | nil => exact Or.inl skipped
  | cons first rest ih =>
      have step := (cut.invalidateListed (inside first List.mem_cons_self)).1
      rcases ih step (fun other later => inside other (List.mem_cons_of_mem _ later)) skipped with
        before | ⟨later, begun⟩
      · simp only [invalidateListed] at before
        cases found : patching.state.node? first with
        | none =>
            simp only [found] at before
            exact Or.inl before
        | some node =>
            simp only [found] at before
            split at before
            · exact Or.inl before
            · rename_i begun
              split at before
              · rename_i alive
                rcases List.mem_append.mp before with old | new
                · exact Or.inl old
                · obtain rfl := List.mem_singleton.mp new
                  refine Or.inr ⟨List.mem_cons_self, node.status, ?_, begun, alive⟩
                  have status : patching.state.status? nodeId = some node.status := by
                    simp [OrchestrationState.status?, found]
                  rw [cut.state, OrchestrationState.status_moveNodes,
                    Option.map_eq_some_iff] at status
                  obtain ⟨base_status, known, same⟩ := status
                  -- had it been moved, it would be invalidated by now
                  split at same
                  · exact absurd same.symm alive
                  · exact same ▸ known
              · exact Or.inl before
      · exact Or.inr ⟨List.mem_cons_of_mem _ later, begun⟩

end Patching

section Patch

variable {scope : Scope} (state : OrchestrationState) (patch : PlanPatch)
  (knownAgents : List String)

/-- The nodes that the human is asked about are listed, and as they were. -/
theorem applyPatch_skipped {nodeId : String}
    (skipped : nodeId ∈ (applyPatch state patch knownAgents).result.skippedInFlight) :
    nodeId ∈ patch.invalidate ∧ ∃ status, state.status? nodeId = some status ∧
      (applyPatch state patch knownAgents).state.status? nodeId = some status ∧
      status ∉ invalidatableStatuses ∧ status ≠ .invalidated := by
  obtain ⟨added, listed, base, first, rfl, phases, none, _⟩ :=
    applyPatch_phases state patch knownAgents
  rw [phases, Patching.cascade_skipped] at skipped
  rcases Patching.invalidateAll_skips first (fun _ member => member) skipped with
    before | ⟨member, status, found, begun, alive⟩
  · rw [none] at before
    cases before
  · rw [base] at found
    have known : state.status? nodeId = some status := by
      rcases withDrafts_enters state patch knownAgents nodeId status found with old | drawn
      · exact old
      · rw [List.mem_singleton.mp drawn] at begun
        exact absurd (by decide) begun
    refine ⟨member, status, known, ?_, begun, alive⟩
    obtain ⟨moved, affected⟩ := applyPatch_cut state patch knownAgents
    rw [moved, status_moveNodes, found, Option.map_some, if_neg]
    intro taken
    obtain ⟨node, hit, rfl⟩ := (affected nodeId).mp taken
    have status' := (withDrafts state patch knownAgents).status_of_mem hit.row.1
    rw [found] at status'
    exact begun (Option.some.inj status' ▸ hit.row.2)

theorem applyPatch_few :
    (applyPatch state patch knownAgents).result.skippedInFlight.length ≤
      patch.invalidate.length := by
  obtain ⟨added, listed, _, _, rfl, phases, none, _⟩ := applyPatch_phases state patch knownAgents
  rw [phases, Patching.cascade_skipped]
  have few := Patching.invalidateAll_few patch.invalidate added
  rwa [none, List.length_nil, Nat.zero_add] at few

/-- A patch leaves the interventions alone. -/
theorem applyPatch_interventions :
    (applyPatch state patch knownAgents).state.interventions = state.interventions := by
  have added : ∀ (drafts : List PatchNode) (patching : Patching),
      (drafts.foldl (Patching.addDraft knownAgents) patching).state.interventions =
        patching.state.interventions := by
    intro drafts
    induction drafts with
    | nil => exact fun _ => rfl
    | cons draft rest ih =>
        intro patching
        rw [List.foldl_cons, ih]
        simp only [Patching.addDraft]
        split
        · rfl
        · split <;> rfl
  rw [(applyPatch_cut state patch knownAgents).1]
  exact added patch.add ⟨state, {}⟩

theorem withDrafts_edited : Edited scope state (withDrafts state patch knownAgents) := by
  have added : ∀ (drafts : List PatchNode) (patching : Patching),
      Edited scope patching.state
        (drafts.foldl (Patching.addDraft knownAgents) patching).state := by
    intro drafts
    induction drafts with
    | nil => exact fun patching => .refl
    | cons draft rest ih =>
        intro patching
        refine Relation.ReflTransGen.trans ?_ (ih _)
        simp only [Patching.addDraft]
        split
        · exact .refl
        · split
          · exact .refl
          · apply Relation.ReflTransGen.single
            refine .draft _ rfl ?_ rfl
            exact Patching.freePatchCount_free (by simp [Table.keys]) _
  exact added patch.add ⟨state, {}⟩

variable {state patch}

theorem applyPatch_edited {env : Env} (revises : Revises scope env state patch) :
    Edited scope state (applyPatch state patch env.agents).state := by
  obtain ⟨moved, affected⟩ := applyPatch_cut state patch env.agents
  rw [moved]
  refine (withDrafts_edited state patch env.agents).tail (.move fun node member taken => ?_)
  obtain ⟨other, hit, same⟩ := (affected node.id).mp taken
  obtain rfl := (withDrafts state patch env.agents).nodes.row_unique hit.row.1 member same
  apply revises.invalidates _ hit
  have found := (withDrafts state patch env.agents).status_of_mem member
  exact (withDrafts_enters state patch env.agents other.id other.status found).imp_right
    List.mem_singleton.mp

end Patch

section Planning

variable {scope : Scope} (config : ExecutorConfig) (env : Env) (session : Session)

/-- A confirmation is asked where nothing is pending; what was pending before
stays, as far as the drawn ids are unused. -/
theorem askConfirmations_edited (reason : String) (pending : List Intervention)
    (nodeIds : List String) (drawn : Nat) (state : OrchestrationState)
    (unused : Prop) (fresh : unused → ∀ intervention ∈ pending, ∀ offset < nodeIds.length,
      intervention.id ≠ env.fresh (drawn + offset))
    (kept : unused → ∀ intervention ∈ pending, intervention ∈ state.pendingInterventions)
    (asks : ∀ nodeId ∈ nodeIds, ∀ status ∈ state.status? nodeId,
      (unused → ∀ intervention ∈ pending, intervention.nodeId ≠ nodeId) →
        scope.asks .confirmCancel nodeId status) :
    Edited scope state (askConfirmations env reason drawn nodeIds state) := by
  induction nodeIds generalizing drawn state with
  | nil => exact .refl
  | cons nodeId rest ih =>
      have later := fun other member => asks other (List.mem_cons_of_mem nodeId member)
      have same : unused → ∀ intervention ∈ pending, ∀ offset < rest.length,
          intervention.id ≠ env.fresh (drawn + offset) :=
        fun holds intervention member offset small =>
          fresh holds intervention member offset (Nat.lt_succ_of_lt small)
      simp only [askConfirmations]
      split
      · exact ih drawn state same kept later
      · rename_i node found
        split
        · exact ih drawn state same kept later
        · rename_i asked requested
          have status : state.status? nodeId = some node.status := by simp [status?, found]
          have nodes := (requestUserInput_quiet state requested).nodes
          obtain ⟨free, rfl⟩ := requestUserInput_cases requested
          refine .head (.ask requested status (asks nodeId List.mem_cons_self _ status ?_))
            (ih _ _ ?_ ?_ ?_)
          -- The request was accepted, so nothing waited on the node before.
          · intro holds intervention member hit
            exact List.find?_eq_none.mp free intervention
              (List.mem_filter.mp (kept holds intervention member)).1
              (by simpa [hit] using (List.mem_filter.mp (kept holds intervention member)).2)
          · intro holds intervention member offset small
            rw [Nat.add_assoc, Nat.add_comm 1]
            exact fresh holds intervention member (offset + 1) (Nat.succ_lt_succ small)
          · intro holds intervention member
            obtain ⟨inside, waits⟩ := List.mem_filter.mp (kept holds intervention member)
            refine List.mem_filter.mpr ⟨(Table.mem_insert _ _ _).mpr (Or.inr ⟨inside, ?_⟩), waits⟩
            exact fresh holds intervention member 0 (Nat.zero_lt_succ _)
          · intro other member status found
            apply later other member
            simpa [status?, node?, nodes] using found

theorem emitPendingQuestions_edits : Edits scope session session.emitPendingQuestions := by
  unfold emitPendingQuestions
  split
  · exact .refl session
  · refine .persist (.one (.settle _ fun intervention _ => ?_))
    split
    · exact ⟨rfl, rfl, id⟩
    · exact ⟨rfl, rfl, id⟩

variable {patch : PlanPatch}

theorem applyPatchLocked_edits (revises : Revises scope env session.state patch) :
    Edits scope session (applyPatchLocked env session patch).1 := by
  have patched := applyPatch_edited revises
  have pending : (applyPatch session.state patch env.agents).state.pendingInterventions =
      session.state.pendingInterventions := by
    simp only [pendingInterventions, applyPatch_interventions]
  have asked : Edited scope (applyPatch session.state patch env.agents).state
      (askConfirmations env patch.reason 0
        (applyPatch session.state patch env.agents).result.skippedInFlight
        (applyPatch session.state patch env.agents).state) := by
    refine askConfirmations_edited env patch.reason session.state.pendingInterventions _ 0 _
      (DrawsUnused env session.state patch) ?_ (fun _ _ => pending.symm ▸ id) ?_
    · intro unused intervention member offset small
      rw [Nat.zero_add]
      exact unused intervention member offset
        (Nat.lt_of_lt_of_le small (applyPatch_few session.state patch env.agents))
    · intro nodeId skipped status found free
      obtain ⟨listed, known, before, after, begun, alive⟩ :=
        applyPatch_skipped session.state patch env.agents skipped
      obtain rfl : status = known := Option.some.inj (found.symm.trans after)
      refine revises.asks nodeId listed status before begun alive fun unused => ?_
      refine List.find?_eq_none.mpr fun intervention member hit => ?_
      simp only [decide_eq_true_eq] at hit
      exact free unused intervention (List.mem_filter.mpr ⟨member, by simpa using hit.2⟩) hit.1
  have joined := asked.trans (joinMembers_edited env _
    ((patch.add.map (·.agentName)).filter (· ∈ env.agents)) "plan_revision")
  exact (Edits.persist (.edited (.refl session) (patched.trans joined))).trans
    (emitPendingQuestions_edits _)

theorem revisePlan_edits (revises : Revises scope env session.state patch) :
    Edits scope session (revisePlan env session patch).1 := by
  have patched := applyPatchLocked_edits env session revises
  unfold revisePlan
  dsimp only
  split
  · exact patched.then (.side _ _ _ _ (Or.inl rfl))
  · exact patched

/-- The patch that a decision brings into the plan. -/
def revisionOf (decision : OutcomeResult) (revisionCount : Nat) : Option PlanPatch :=
  match decision.intent, decision.patch with
  | .revise, some patch => if revisionCount < config.maxRevisions then some patch else none
  | _, _ => none

theorem revise_edits (decision : OutcomeResult)
    (revises : ∀ patch ∈ revisionOf config decision session.state.revisionCount,
      Revises scope env session.state patch) :
    Edits scope session (revise config env session decision) := by
  unfold revise
  unfold revisionOf at revises
  split
  · rename_i patch intent brought
    simp only [intent, brought] at revises
    split
    · rename_i room
      exact revisePlan_edits env session (revises patch (by simp [room]))
    · exact .refl session
  · exact .refl session

/-- The patch of a repair: the failed nodes are taken out too. -/
def repairOf (state : OrchestrationState) (decision : Option PlanPatch) : Option PlanPatch :=
  if env.agents = [] then none
  else decision.map fun patch =>
    { patch with invalidate := fromKeys [] (patch.invalidate ++ state.failedNodes.map (·.id)) }

theorem repairPlan_edits (decision : Option PlanPatch)
    (revises : ∀ patch ∈ repairOf env session.state decision, Revises scope env session.state patch) :
    Edits scope session (repairPlan env session decision).1 := by
  unfold repairPlan
  unfold repairOf at revises
  split
  · exact .refl session
  · exact .refl session
  · rename_i patch some_agents
    rw [if_neg some_agents] at revises
    exact revisePlan_edits env session (revises _ rfl)

/-- The patch that `plan_flow` brings into the plan: of a repair, where nothing
waits or can be retried. -/
def flowPatch (config : ExecutorConfig) (state : OrchestrationState) (decision : Option PlanPatch) :
    Option PlanPatch :=
  if state.nodes.rows.any (·.canRetry config.maxNodeAttempts) ∨ state.inputRequiredNodes ≠ [] ∨
      state.allCompleted ∨ !state.hasFailures ∨ !mayRepair config state then none
  else repairOf env state decision

theorem planFlow_edits (busy : Bool) (decision : Option PlanPatch)
    (revises : ∀ patch ∈ flowPatch env config session.state decision,
      Revises scope env session.state patch) :
    Edits scope session (planFlow config env session busy decision).1 := by
  unfold planFlow
  unfold flowPatch at revises
  dsimp only
  split
  · exact .refl session
  · split
    · exact (Edits.persist (.refl session)).trans (emitPendingQuestions_edits _)
    · split
      · exact .refl session
      · split
        · split
          · apply repairPlan_edits env session decision
            simpa [*] using revises
          · exact .refl session
        · split <;> exact .refl session

/-! ### Derived nodes -/

theorem spawnDerivedNode_edits (spawn : Spawn)
    (helps : (scope.hands ∧ spawn.Follows) ∨ spawn.Helps) :
    Edits scope session (spawnDerivedNode config env session spawn).1 := by
  simp only [spawnDerivedNode]
  split
  · exact .refl session
  · refine .persist (.edited (.refl session) ?_)
    split
    · exact .single (.spawn spawn helps)
    · exact (Relation.ReflTransGen.single (.spawn spawn helps)).trans (joinMembers_edited env _ _ _)

theorem arbitrateMentions_edits (node : NodeState) :
    Edits scope session (arbitrateMentions config env session node) :=
  arbitrateMentions_rule config env session (Edits scope) .refl .trans node
    fun session spawn helps _ => spawnDerivedNode_edits config env session spawn (Or.inr helps)

theorem deliverQueued_edits (hands : scope.hands) (node : NodeState) :
    Edits scope session (deliverQueued config env session node) := by
  have taken : Edits scope session
      { session with state := (session.state.takeQueued node.id).2 } :=
    .one (.side session.state.members _ session.state.revisionCount session.state.nextMessage
      (Or.inr hands))
  unfold deliverQueued
  dsimp only
  split
  · exact taken
  · exact taken.trans (spawnDerivedNode_edits config env _ _ (Or.inl ⟨hands, rfl, rfl⟩))

theorem callSubagent_edits (requestedBy target instruction : String) :
    Edits scope session (callSubagent config env session requestedBy target instruction).1 := by
  rcases callSubagent_cases config env session requestedBy target instruction with
    refused | ⟨spawn, helps, _, spawned⟩
  · rw [refused]
    exact .refl session
  · rw [spawned]
    exact spawnDerivedNode_edits config env session spawn (Or.inr helps)

end Planning

/-! ### Executions -/

/-- Fields besides the status and what the node was planned with. -/
structure KeepsPlan (scope : Scope) (fields : NodeState → NodeState) : Prop where
  same : ∀ node, SameRow node (fields node)
  status : ∀ node, (fields node).status = node.status
  counted : ∀ node, (fields node).attempt = node.attempt ∨ scope.counts

section Execution

variable {scope : Scope} (config : ExecutorConfig) (env : Env) (session : Session) (ref : NodeRef)
  {fields : NodeState → NodeState}

theorem KeepsPlan.id : KeepsPlan scope id := ⟨.refl, fun _ => rfl, fun _ => Or.inl rfl⟩

theorem countAttempt_plan (counts : scope.counts) : KeepsPlan scope countAttempt :=
  ⟨fun _ => ⟨rfl, rfl, rfl, rfl, rfl, rfl⟩, fun _ => rfl, fun _ => Or.inr counts⟩

theorem takeAnswer_plan : KeepsPlan scope takeAnswer := by
  constructor <;> intro node <;> unfold takeAnswer <;> split
  · exact ⟨rfl, rfl, rfl, rfl, rfl, rfl⟩
  · exact .refl node
  · rfl
  · rfl
  · exact Or.inl rfl
  · exact Or.inl rfl

/-- The move of the node of an execution, if a plan has it. -/
def OwnMove (scope : Scope) (session : Session) (ref : NodeRef) (target : NodeStatus) : Prop :=
  ∀ nodeId, ref = .planned nodeId → ∀ node ∈ session.state.node? nodeId,
    node.canTransition target = true → scope.moves nodeId node.status target

variable {session ref}

theorem write_edits {node later : NodeState} (found : session.read ref = some node)
    (same : SameRow node later)
    (allowed : later.status = node.status ∨
      ∀ nodeId, ref = .planned nodeId → scope.moves nodeId node.status later.status)
    (counted : later.attempt = node.attempt ∨ scope.counts) :
    Edits scope session (session.write ref later).1 := by
  cases ref with
  | detached own => exact .refl session
  | planned nodeId =>
      obtain ⟨member, rfl⟩ := session.state.node_mem nodeId found
      exact .one (.row member same (allowed.imp_right fun moves => moves _ rfl) counted)

theorem change_edits (keeps : KeepsPlan scope fields) :
    Edits scope session (session.change ref fields).session := by
  unfold Session.change
  split
  · exact .refl session
  · rename_i node found
    exact write_edits found (keeps.same node) (Or.inl (keeps.status node)) (keeps.counted node)

theorem transition_edits (keeps : KeepsPlan scope fields) {target : NodeStatus}
    (own : (session.transition ref fields target).raised = none →
      OwnMove scope session ref target) :
    Edits scope session (session.transition ref fields target).session := by
  unfold Session.transition at own ⊢
  cases found : session.read ref with
  | none => exact .refl session
  | some node =>
      simp only [found] at own ⊢
      cases moved : (fields node).applyTransition target with
      | error text =>
          exact write_edits found (keeps.same node) (Or.inl (keeps.status node))
            (keeps.counted node)
      | ok later =>
          simp only [moved] at own ⊢
          obtain ⟨allowed, rfl⟩ := NodeState.apply_transition_ok moved
          refine write_edits found ((keeps.same node).moved target) (Or.inr ?_)
            (keeps.counted node)
          rintro nodeId rfl
          have may : node.canTransition target = true := by
            simpa [NodeState.canTransition, keeps.status] using allowed
          exact own trivial nodeId rfl node found may

theorem startNode_edits (counts : scope.counts) (mode : Mode)
    (submits : mode = .dispatch → OwnMove scope session ref .submitted)
    (recovers : mode = .recover → OwnMove scope session ref .recover) :
    Edits scope session (startNode session ref mode).session := by
  cases mode with
  | recover => exact transition_edits .id fun _ => recovers rfl
  | continuation =>
      have counted := countAttempt_plan counts
      have taken : KeepsPlan scope takeAnswer := takeAnswer_plan
      exact change_edits ⟨fun node => (counted.same node).trans (taken.same _),
        fun node => (taken.status _).trans (counted.status node), fun _ => Or.inr counts⟩
  | dispatch =>
      have begun : Edits scope session (session.transition ref countAttempt .submitted).session :=
        transition_edits (countAttempt_plan counts) fun _ => submits rfl
      simp only [startNode]
      split
      · exact begun
      · exact begun.trans (change_edits takeAnswer_plan)

theorem chunkFields_plan (a2aTaskId : Option String) : KeepsPlan scope (chunkFields a2aTaskId) :=
  ⟨fun _ => ⟨rfl, rfl, rfl, rfl, rfl, rfl⟩, fun _ => rfl, fun _ => Or.inl rfl⟩

theorem chunkNode_edits (a2aTaskId : Option String) (submitted : Bool)
    (submits : submitted = true → OwnMove scope session ref .submitted) :
    Edits scope session (chunkNode session ref a2aTaskId submitted).session := by
  unfold chunkNode
  split
  · rename_i reported
    exact transition_edits (chunkFields_plan a2aTaskId) fun _ => submits reported
  · exact change_edits (chunkFields_plan a2aTaskId)

/-- All moves of the node of an execution. -/
def OwnsNode (scope : Scope) (ref : NodeRef) : Prop :=
  ∀ nodeId, ref = .planned nodeId → ∀ status target, scope.moves nodeId status target

theorem OwnsNode.move (owns : OwnsNode scope ref) (target : NodeStatus) :
    OwnMove scope session ref target :=
  fun nodeId planned node _ _ => owns nodeId planned node.status target

theorem markDelivered_edits (hands : scope.hands)
    (own : (markDelivered config env session ref).raised = none → OwnsNode scope ref) :
    Edits scope session (markDelivered config env session ref).session := by
  have raised : (markDelivered config env session ref).raised =
      (session.transition ref id .completed).raised := by
    simp only [markDelivered]
    split <;> rfl
  have delivered : Edits scope session (session.transition ref id .completed).session :=
    transition_edits .id fun quiet => (own (raised.trans quiet)).move .completed
  simp only [markDelivered]
  split
  · rename_i node _ _
    exact (delivered.trans (arbitrateMentions_edits config env _ node)).trans
      (deliverQueued_edits config env _ hands node)
  · exact delivered

theorem outcomeFlow_edits (hands : scope.hands) (answered : Option OutcomeResult)
    (own : (outcomeFlow config env session ref answered).raised = none → OwnsNode scope ref)
    (revises : ∀ patch ∈ revisionOf config
        (interpretOutcome ((session.read ref).bind (·.output)) answered)
        session.state.revisionCount, Revises scope env session.state patch) :
    Edits scope session (outcomeFlow config env session ref answered).session := by
  have revised := revise_edits config env session _ revises
  cases intent : (interpretOutcome ((session.read ref).bind (·.output)) answered).intent with
  | needInfo =>
      simp only [outcomeFlow, intent] at own ⊢
      refine transition_edits ?_ fun quiet => (own quiet).move .inputRequired
      exact ⟨fun _ => ⟨rfl, rfl, rfl, rfl, rfl, rfl⟩, fun _ => rfl, fun _ => Or.inl rfl⟩
  | deliver =>
      simp only [outcomeFlow, intent] at own ⊢
      exact revised.trans (markDelivered_edits config env hands own)
  | revise =>
      simp only [outcomeFlow, intent] at own ⊢
      exact revised.trans (markDelivered_edits config env hands own)

theorem remoteFields_plan (remote : Remote) : KeepsPlan scope remote.fields :=
  ⟨fun _ => ⟨rfl, rfl, rfl, rfl, rfl, rfl⟩, fun _ => rfl, fun _ => Or.inl rfl⟩

/-- The patch of an outcome, if the remote call brought one. -/
def outcomePatch (config : ExecutorConfig) (state : OrchestrationState) (remote : Remote)
    (answered : Option OutcomeResult) : Option PlanPatch :=
  match remote.ended with
  | .completed => revisionOf config (interpretOutcome remote.output answered) state.revisionCount
  | _ => none

theorem write_alike {node later : NodeState} (found : session.read ref = some node)
    (same : SameRow node later) (status : later.status = node.status) :
    Alike session.state (session.write ref later).1.state := by
  have itself : ∀ state : OrchestrationState, Alike state state :=
    fun _ => ⟨rfl, rfl, fun row member => ⟨row, member, rfl, rfl, rfl⟩⟩
  cases ref with
  | detached own => exact itself _
  | planned nodeId =>
      obtain ⟨member, rfl⟩ := session.state.node_mem nodeId found
      have known : later.id ∈ session.state.nodes.keys :=
        same.id ▸ session.state.nodes.key_mem_keys member
      refine ⟨?_, rfl, fun row inside => ?_⟩
      · simp only [Session.write, OrchestrationState.setNode]
        rw [Table.insert_known _ _ known, Table.keys_map]
      · rcases (mem_setNode _ _ _).mp inside with rfl | ⟨old, _⟩
        · exact ⟨node, member, same.id.symm, status.symm, same.deps.symm⟩
        · exact ⟨row, old, rfl, rfl, rfl⟩

theorem interpretRemote_edits (hands : scope.hands) (remote : Remote)
    (answered : Option OutcomeResult)
    (own : (interpretRemote config env session ref remote answered).raised = none →
      OwnsNode scope ref)
    (revises : ∀ patch ∈ outcomePatch config session.state remote answered,
      Revises scope env session.state patch) :
    Edits scope session (interpretRemote config env session ref remote answered).session := by
  unfold outcomePatch at revises
  cases ended : remote.ended with
  | completed =>
      simp only [interpretRemote, ended] at own revises ⊢
      cases found : session.read ref with
      | none => exact .refl session
      | some node =>
          simp only [found] at own ⊢
          have keeps : KeepsPlan scope remote.fields := remoteFields_plan remote
          have written : Edits scope session (session.write ref (remote.fields node)).1 :=
            write_edits found (keeps.same node) (Or.inl (keeps.status node)) (Or.inl rfl)
          have output := read_write found (remote.fields_keeps.nodeId node)
          have statuses := status_write found (remote.fields_keeps.nodeId node)
            (remote.fields_keeps.status node)
          have count := write_revisionCount session ref (remote.fields node)
          refine written.trans (outcomeFlow_edits config env hands answered ?_ ?_)
          · intro quiet
            have owns := own quiet
            cases ref with
            | planned nodeId => exact owns
            | detached _ =>
                intro _ planned
                cases planned
          · intro patch brought
            rw [output, count] at brought
            have alike := write_alike found (keeps.same node) (keeps.status node)
            exact (revises patch brought).congr alike statuses (by rw [write_frame])
  | canceled =>
      simp only [interpretRemote, ended] at own ⊢
      exact transition_edits (remoteFields_plan remote) fun quiet => (own quiet).move .canceled
  | inputRequired =>
      simp only [interpretRemote, ended] at own ⊢
      exact transition_edits (remoteFields_plan remote) fun quiet => (own quiet).move .inputRequired
  | stopped =>
      simp only [interpretRemote, ended] at own ⊢
      exact transition_edits (remoteFields_plan remote) fun quiet => (own quiet).move .failed

theorem closeNode_edits (nodeId : String) : Edits scope session (closeNode session nodeId) :=
  (Edits.persist (.one (expireWhere_edit _))).trans (emitPendingQuestions_edits _)

theorem collectTask_edits (task : NodeTask)
    (fails : ∀ text, task.phase = .done (some text) → OwnMove scope session task.ref .failed) :
    Edits scope session (Runtime.collectTask session task) := by
  unfold Runtime.collectTask
  split
  · rename_i text nodeId phase planned
    split
    · exact .refl session
    · rename_i node found
      obtain ⟨member, rfl⟩ := session.state.node_mem nodeId found
      refine .one (.row member ?_ ?_ (Or.inl ?_))
      · split <;> exact ⟨rfl, rfl, rfl, rfl, rfl, rfl⟩
      · dsimp only
        split
        · rename_i may
          exact Or.inr (fails text phase _ planned node found may)
        · exact Or.inl rfl
      · dsimp only
        split <;> rfl
  · exact .refl session

/-! ### Settlements and answers -/

theorem resolveFromHelper_edits (helper : NodeState)
    (own : (resolveFromHelper session ref helper).raised = none → OwnMove scope session ref .ready) :
    Edits scope session (resolveFromHelper session ref helper).session := by
  let fields (node : NodeState) : NodeState :=
    { node with
      answerText := helper.output
      answerFrom := some helper.agentName
      adoptedHelpers := node.adoptedHelpers ++ [helper.id] }
  have raised : (resolveFromHelper session ref helper).raised =
      (session.transition ref fields .ready).raised := by
    unfold resolveFromHelper
    dsimp only
    split <;> rfl
  have keeps : KeepsPlan scope fields :=
    ⟨fun _ => ⟨rfl, rfl, rfl, rfl, rfl, rfl⟩, fun _ => rfl, fun _ => Or.inl rfl⟩
  have moved : Edits scope session (session.transition ref fields .ready).session :=
    transition_edits keeps fun quiet => own (raised.trans quiet)
  unfold resolveFromHelper
  dsimp only
  split
  · exact moved
  · exact .persist (moved.then (expireWhere_edit _))

theorem askUser_edited {state asked : OrchestrationState} {nodeId question : String}
    {decision : AssistanceResult}
    (moves : ∀ status ∈ state.status? nodeId, scope.moves nodeId status .inputRequired)
    (asks : scope.asks .question nodeId .inputRequired)
    (answered : state.askUser env nodeId question decision = .ok asked) :
    Edited scope state asked := by
  unfold OrchestrationState.askUser at answered
  split at answered
  · cases answered
    exact .refl
  · rename_i node found
    obtain ⟨member, rfl⟩ := state.node_mem nodeId found
    split at answered
    · cases answered
    · rename_i waiting moved
      obtain ⟨_, rfl⟩ := NodeState.apply_transition_ok moved
      have first : Edit scope state (state.setNode { node with status := .inputRequired }) :=
        .row member ((SameRow.refl node).moved .inputRequired)
          (Or.inr (moves node.status (state.status_of_mem member))) (Or.inl rfl)
      dsimp only at answered
      split at answered
      · cases answered
        exact .single first
      · rename_i noted requested
        cases answered
        have status : (state.setNode { node with status := .inputRequired }).status? node.id =
            some .inputRequired := by
          simp
        have row : { node with status := .inputRequired } ∈ noted.nodes.rows := by
          rw [(requestUserInput_quiet _ requested).nodes]
          exact (mem_setNode _ _ _).mpr (Or.inl rfl)
        refine ((Relation.ReflTransGen.single first).tail (.ask requested status asks)).tail ?_
        exact .row row ⟨rfl, rfl, rfl, rfl, rfl, rfl⟩ (Or.inl rfl) (Or.inl rfl)

theorem requestHuman_edits (node : NodeState) (decision : Option AssistanceResult)
    (moves : ∀ status ∈ session.state.status? node.id, scope.moves node.id status .inputRequired)
    (asks : scope.asks .question node.id .inputRequired) :
    Edits scope session (requestHuman env session ref node decision).session := by
  unfold requestHuman
  dsimp only
  split
  · exact .refl session
  · rename_i state answered
    exact (Edits.persist (.edited (.refl session) (askUser_edited env moves asks answered))).trans
      (emitPendingQuestions_edits _)

theorem actOnDecision_edits (decision : Option AssistanceResult)
    (moves : session.state.pendingInterventionFor ref.nodeId = none →
      ∀ status ∈ session.state.status? ref.nodeId, scope.moves ref.nodeId status .inputRequired)
    (asks : session.state.pendingInterventionFor ref.nodeId = none →
      scope.asks .question ref.nodeId .inputRequired) :
    Edits scope session (actOnDecision config env session ref decision).session := by
  unfold actOnDecision
  split
  · exact .refl session
  · rename_i node found
    rw [← read_nodeId found] at moves asks
    split
    · exact .refl session
    · rename_i unasked
      have none : session.state.pendingInterventionFor node.id = none := by simpa using unasked
      dsimp only
      split
      · exact requestHuman_edits env node decision (moves none) (asks none)
      · have called : Edits scope session (callSubagent config env session node.id
            ((decision.bind (·.targetAgent)).getD "") ((decision.map (·.instruction)).getD "")).1 :=
          callSubagent_edits config env session node.id _ _
        split
        · rename_i result
          rw [result] at called
          exact called
        · rename_i result
          rw [callSubagent_refused config env session result]
          exact requestHuman_edits env node decision (moves none) (asks none)

end Execution

section Human

variable {scope : Scope} (config : ExecutorConfig) (env : Env) (session : Session)

/-- The canceled node, and the waiting ones behind it. -/
theorem cancelBlocked_edited {state : OrchestrationState} {target : NodeState}
    (canceled : NodeState) (row : target ∈ state.nodes.rows) (same : SameRow target canceled)
    (attempt : canceled.attempt = target.attempt) (status : canceled.status = .canceled)
    (cancels : scope.moves target.id target.status .canceled)
    (invalidates : ∀ node ∈ (state.setNode canceled).blockedNodes,
      scope.moves node.id .pending .invalidated) :
    Edited scope state (state.setNode canceled).invalidateBlocked := by
  refine (Relation.ReflTransGen.single
    (.row row same (Or.inr (status ▸ cancels)) (Or.inl attempt))).tail
    (.move fun node member taken => ?_)
  obtain ⟨blocked, listed, hit⟩ := List.mem_map.mp taken
  obtain ⟨inside, waits⟩ := List.mem_filter.mp listed
  obtain rfl := Table.row_unique _ inside member hit
  simp only [decide_eq_true_eq] at waits
  rw [waits.1]
  exact invalidates blocked listed

theorem cancelNode_edits {target : NodeState} (row : target ∈ session.state.nodes.rows)
    (cancels : scope.moves target.id target.status .canceled)
    (invalidates : ∀ node ∈ (session.state.setNode
        { target with status := .canceled, a2aTaskId := none }).blockedNodes,
      scope.moves node.id .pending .invalidated) :
    Edits scope session (session.cancelNode target) := by
  have canceled := cancelBlocked_edited { target with status := .canceled, a2aTaskId := none } row
    ⟨rfl, rfl, rfl, rfl, rfl, rfl⟩ rfl rfl cancels invalidates
  exact .persist (.edited (.refl session) (canceled.trans (expireAll_edited _ _)))

/-- The cancellation that an interrupt begins with. -/
theorem interrupted_edits {target : NodeState} (row : target ∈ session.state.nodes.rows)
    (cancels : scope.moves target.id target.status .canceled)
    (invalidates : ∀ node ∈ (session.state.setNode
        { target with status := .canceled }).blockedNodes,
      scope.moves node.id .pending .invalidated) :
    Edits scope session { session with
      state := (session.state.setNode { target with status := .canceled }).invalidateBlocked } :=
  .edited (.refl session) (cancelBlocked_edited { target with status := .canceled } row
    ((SameRow.refl target).moved .canceled) rfl rfl cancels invalidates)

theorem interrupt_edits (hands : scope.hands) {target : NodeState}
    (row : target ∈ session.state.nodes.rows) (text : String)
    (cancels : scope.moves target.id target.status .canceled)
    (invalidates : ∀ node ∈ (session.state.setNode
        { target with status := .canceled }).blockedNodes,
      scope.moves node.id .pending .invalidated) :
    Edits scope session (session.interrupt config env target text) :=
  (interrupted_edits session row cancels invalidates).trans
    (spawnDerivedNode_edits config env _ _ (Or.inl ⟨hands, rfl, rfl⟩))

theorem cancelAll_edits
    (cancels : ∀ nodeId status, status ∈ activeNodeStatuses ++ [.ready] →
      session.state.status? nodeId = some status → scope.moves nodeId status .canceled) :
    Edits scope session session.cancelAll := by
  refine .persist (.one (.move fun node member taken => ?_))
  obtain ⟨other, listed, hit⟩ := List.mem_map.mp taken
  obtain ⟨inside, status⟩ := List.mem_filter.mp listed
  obtain rfl := Table.row_unique _ inside member hit
  exact cancels other.id other.status (of_decide_eq_true status)
    (session.state.status_of_mem member)

theorem recoverNodes_edit {state : OrchestrationState}
    (resets : ∀ node ∈ state.nodes.rows, node.status ∈ activeNodeStatuses →
      scope.moves node.id node.status (if given node.a2aTaskId then .recover else .pending)) :
    Edit scope state state.recoverNodes := by
  refine .rows _ ?_ ?_ fun node _ => Or.inl ?_
  · intro node _
    split
    · exact (SameRow.refl node).moved _
    · exact .refl node
  · intro node member
    split
    · rename_i active
      exact Or.inr (resets node member active)
    · exact Or.inl rfl
  · split <;> rfl

theorem retryFailed_edit {state : OrchestrationState}
    (retries : ∀ nodeId, scope.moves nodeId .failed .pending) :
    Edit scope state (state.retryFailed config) := by
  refine .rows _ ?_ ?_ fun node _ => Or.inl ?_
  · intro node _
    split
    · exact ⟨rfl, rfl, rfl, rfl, rfl, rfl⟩
    · exact .refl node
  · intro node _
    split
    · rename_i retry
      simp only [NodeState.canRetry, decide_eq_true_eq] at retry
      rw [retry.1]
      exact Or.inr (retries node.id)
    · exact Or.inl rfl
  · split <;> rfl

end Human

/-! ### The loop -/

namespace Runtime

section Loop

variable {scope : Scope} (config : ExecutorConfig) (runtime : Runtime)

theorem dispatch_edits (retries : ∀ nodeId, scope.moves nodeId .failed .pending)
    (submits : ∀ nodeId, ∀ status ∈ [NodeStatus.pending, .ready],
      scope.moves nodeId status .submitted) :
    Edits scope runtime.session (runtime.dispatch config).session := by
  have moved : Edits scope runtime.session
      { runtime.session with
        state := (runtime.session.state.retryFailed config).moveNodes
          (((runtime.nextUp config).filter fun node => node.status ≠ .recover).map (·.id))
          .submitted } := by
    refine .edited (.refl _) ((Relation.ReflTransGen.single (retryFailed_edit config retries)).tail
      (.move fun node member taken => ?_))
    obtain ⟨other, listed, same⟩ := List.mem_map.mp taken
    obtain ⟨picked, unfollowed⟩ := List.mem_filter.mp listed
    obtain ⟨row, ready⟩ := List.mem_filter.mp (List.mem_of_mem_take picked)
    obtain rfl := Table.row_unique _ row member same
    apply submits
    simp only [decide_eq_true_eq] at ready unfollowed
    have waits := ready.1
    revert waits unfollowed
    cases other.status <;> decide
  simp only [dispatch]
  split
  · exact moved
  · exact .persist moved

theorem collect_edits
    (fails : ∀ task ∈ runtime.nodeTasks, ∀ text, task.phase = .done (some text) →
      ∀ nodeId, task.ref = .planned nodeId → ∀ status, scope.moves nodeId status .failed) :
    Edits scope runtime.session runtime.collect.session := by
  have collected : ∀ (tasks : List NodeTask) (session : Session),
      (∀ task ∈ tasks, task ∈ runtime.nodeTasks) →
        Edits scope session (tasks.foldl collectTask session) := by
    intro tasks
    induction tasks with
    | nil => exact fun session _ => .refl session
    | cons task rest ih =>
        intro session inside
        refine Edits.trans (collectTask_edits task ?_)
          (ih _ fun other member => inside other (List.mem_cons_of_mem _ member))
        intro text raised nodeId planned node _ _
        exact fails task (inside task List.mem_cons_self) text raised nodeId planned node.status
  exact collected _ _ fun task member => (List.mem_filter.mp member).1

end Loop

end Runtime

end Choirworks.Orchestration
