import Choirworks.Orchestration.Kept
import Choirworks.Orchestration.Support

/-!
Where the id of a derived node comes from. It is put together from the id of the
parent, a letter and a number that is drawn once; nobody looks whether the plan
has it. Derived nodes and the nodes of a patch are never in its way: the former
have smaller numbers, the latter other letters. A node that the planner has named
like a derived one is, and is replaced.
-/

namespace Choirworks.Orchestration

open OrchestrationState

/-- The id of the next derived node. -/
def drawnId (state : OrchestrationState) (spawn : Spawn) : String :=
  derivedId spawn.parentId spawn.kind (state.derivedCount + 1)

/-- The planner has named none of its nodes so. -/
def Unplanned (state : OrchestrationState) (nodeId : String) : Prop :=
  ∀ node ∈ state.nodes.rows, node.derived = false → node.id ≠ nodeId

instance (state : OrchestrationState) (nodeId : String) : Decidable (Unplanned state nodeId) :=
  inferInstanceAs (Decidable (∀ node ∈ state.nodes.rows, _))

/-- One node more, under an id that was free, and the others as they were. -/
structure Adds (old new : OrchestrationState) (node : NodeState) : Prop where
  more : new.nodes.keys.length = old.nodes.keys.length + 1
  there : new.node? node.id = some node
  fresh : node.id ∉ old.nodes.keys
  unchanged : ∀ other ∈ old.nodes.rows, new.node? other.id = some other

/-! ### The numbers of derived nodes -/

namespace OrchestrationState

/-- The ids of derived nodes have been drawn. -/
def Drawn (state : OrchestrationState) : Prop :=
  ∀ node ∈ state.nodes.rows, node.derived = true → ∀ parentId kind number,
    node.id = derivedId parentId kind number → number ≤ state.derivedCount

end OrchestrationState

section Drawn

variable {old new state : OrchestrationState}

theorem Edit.drawn {scope : Scope} (edit : Edit scope old new) (drawn : Drawn old) : Drawn new := by
  have among : Numbered (· = true) old := drawn
  exact edit.numbered among

theorem Planned.drawn {drafts : List PlanNodeDraft} (planned : Planned drafts state) :
    Drawn state := by
  intro node member derived
  obtain ⟨draft, _, rfl⟩ := planned.nodes node member
  cases derived

theorem OrchestrationState.Drawn.restored (drawn : Drawn state) : Drawn state.restored := by
  intro node member derived
  obtain ⟨row, inside, rfl⟩ := List.mem_map.mp member
  exact drawn row inside derived

theorem OrchestrationState.Drawn.fresh (drawn : Drawn state) (spawn : Spawn) :
    ∀ other ∈ state.nodes.rows, other.derived = true →
      other.id ≠ (spawn.node (state.derivedCount + 1)).id := by
  intro other member derived hit
  exact Nat.not_succ_le_self _ (drawn other member derived _ _ _ hit)

/-- Only the planner can have used the drawn id. -/
theorem OrchestrationState.Drawn.free (drawn : Drawn state) (spawn : Spawn) :
    drawnId state spawn ∉ state.nodes.keys ↔ Unplanned state (drawnId state spawn) := by
  rw [Table.mem_keys]
  constructor
  · intro free node member _ same
    exact free ⟨node, member, same⟩
  · rintro unplanned ⟨node, member, same⟩
    cases derived : node.derived with
    | false => exact unplanned node member derived same
    | true => exact drawn.fresh spawn node member derived same

end Drawn

/-! ### One spawn -/

section Spawn

variable {config : ExecutorConfig} {env : Env} {session : Session} {spawn : Spawn}
  {node : NodeState}

/-- A node that is returned has been set under the drawn id. -/
theorem spawnDerivedNode_set
    (returned : (spawnDerivedNode config env session spawn).2 = some node) :
    node.id = drawnId session.state spawn ∧
      (spawnDerivedNode config env session spawn).1.state.nodes =
        session.state.nodes.insert node := by
  rcases spawnDerivedNode_cases config env session spawn with
    ⟨_, refused⟩ | ⟨state, _, quiet, accepted⟩
  · rw [refused] at returned
    cases returned
  · rw [accepted] at returned ⊢
    cases returned
    exact ⟨rfl, quiet.nodes⟩

/-- A spawn adds a node exactly if the drawn id is free. -/
theorem spawnDerivedNode_adds
    (returned : (spawnDerivedNode config env session spawn).2 = some node) :
    Adds session.state (spawnDerivedNode config env session spawn).1.state node ↔
      drawnId session.state spawn ∉ session.state.nodes.keys := by
  obtain ⟨named, nodes⟩ := spawnDerivedNode_set returned
  rw [← named]
  constructor
  · exact Adds.fresh
  · intro fresh
    refine ⟨?_, ?_, fresh, fun other member => ?_⟩
    · rw [nodes, Table.keys_insert_new _ _ fresh, List.length_append]
      rfl
    · rw [node?, nodes, Table.find?_insert, if_pos rfl]
    · have apart : other.id ≠ node.id := by
        intro same
        exact fresh (same ▸ session.state.nodes.key_mem_keys member)
      rw [node?, nodes, Table.find?_insert, if_neg apart]
      exact session.state.node_of_mem member

end Spawn

/-- In every state that a conversation comes to, between its steps and on the way
through one, a spawn that returns a node adds it exactly if the planner has not
named a node of the plan like the derived one. -/
theorem spawn_adds_iff (config : ExecutorConfig) (events : List ConversationEvent)
    (reached : Conversation)
    (ran : Runs.run (Conversation.step config) Conversation.empty events = some reached)
    (session : Session)
    (passed : Session.Edits .all reached.runtime.ensureSession.session session)
    (env : Env) (spawn : Spawn) (node : NodeState)
    (returned : (spawnDerivedNode config env session spawn).2 = some node) :
    Adds session.state (spawnDerivedNode config env session spawn).1.state node ↔
      Unplanned session.state (drawnId session.state spawn) := by
  have held := Conversation.held_run Edit.drawn Drawn.restored Planned.drawn ran
  have drawn := passed.kept Edit.drawn (held.ensured Drawn.restored).1
  exact (spawnDerivedNode_adds returned).trans (drawn.free spawn)

section Samples

/-! A plan of two nodes whose first has completed; the human goes on from it. -/

def freshEnv : Env := ⟨["writer"], "now", fun drawn => toString drawn⟩

def pair (second : String) : List PlanNodeDraft :=
  [⟨"n1", "first", "writer", .empty, []⟩, ⟨second, "second", "writer", .empty, ["n1"]⟩]

def firstDone (second : String) : List ConversationEvent := [
  .message true { taskId := "t1", text := "write" } freshEnv [some (pair second)] true,
  .session .clearWake true, .session .dispatch true, .session (.start 0) true,
  .session (.outcome 0 freshEnv { ended := .completed } none) true]

/-- What the quotation of the first node spawns. -/
def goOn : Spawn :=
  { kind := .followup, parentId := "n1", agentName := "writer", inputText := "more", deps := ["n1"] }

/-- Behind a second node with a name of its own the follow-up is new. -/
theorem followup_added :
    ∃ reached, Runs.run (Conversation.step {}) Conversation.empty (firstDone "n2") = some reached ∧
      Adds reached.runtime.ensureSession.session.state
        (spawnDerivedNode {} freshEnv reached.runtime.ensureSession.session goOn).1.state
        (goOn.node 1) := by
  have ends : Runs.Ends (Conversation.step {}) Conversation.empty (firstDone "n2")
      fun reached =>
        (spawnDerivedNode {} freshEnv reached.runtime.ensureSession.session goOn).2 =
            some (goOn.node 1) ∧
          Unplanned reached.runtime.ensureSession.session.state
            (drawnId reached.runtime.ensureSession.session.state goOn) := by
    decide +kernel
  obtain ⟨reached, ran, returned, unplanned⟩ := ends
  exact ⟨reached, ran, (spawn_adds_iff {} _ reached ran _ (.refl _) freshEnv goOn _ returned).mpr
    unplanned⟩

/-- The planner has named the second node like the first follow-up of the first,
which takes its place. -/
theorem planned_node_replaced :
    ¬ ∀ (config : ExecutorConfig) (events : List ConversationEvent) (reached : Conversation),
      Runs.run (Conversation.step config) Conversation.empty events = some reached →
        ∀ session, Session.Edits .all reached.runtime.ensureSession.session session →
          ∀ env spawn node, (spawnDerivedNode config env session spawn).2 = some node →
            Adds session.state (spawnDerivedNode config env session spawn).1.state node := by
  intro claim
  have ends : Runs.Ends (Conversation.step {}) Conversation.empty (firstDone "n1-f1")
      fun reached =>
        (spawnDerivedNode {} freshEnv reached.runtime.ensureSession.session goOn).2 =
            some (goOn.node 1) ∧
          (goOn.node 1).id ∈ reached.runtime.ensureSession.session.state.nodes.keys := by
    decide +kernel
  obtain ⟨reached, ran, returned, taken⟩ := ends
  exact (claim {} _ reached ran _ (.refl _) freshEnv goOn _ returned).fresh taken

end Samples

end Choirworks.Orchestration
