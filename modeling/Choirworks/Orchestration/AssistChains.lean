import Choirworks.Library.Ancestry
import Choirworks.Orchestration.Budget
import Choirworks.Orchestration.Conservation
import Choirworks.Orchestration.FreshIds

/-!
Chains of nodes that ask one another for help. The tool that asks another agent
refuses the agents of the chain; the arbitration of mentions only refuses the
node's own agent, so a helper can bring an earlier agent of its chain back.
Chains can also be joined from behind: by a node that gets the id under which
another one has asked before, and by a node without a name, at which the walk of
`assist_chain_agents` ends.
-/

namespace Choirworks.Orchestration

open OrchestrationState
open Relation (ReflTransGen TransGen)
open Session (Edits Spends)

/-- The parent has asked for the help of the node. -/
def Asks (state : OrchestrationState) (node parent : NodeState) : Prop :=
  node ∈ state.nodes.rows ∧ parent ∈ state.nodes.rows ∧ node.assistRequestedBy = some parent.id

/-- No chain comes back to an agent, and so none is longer than there are agents. -/
structure Unrevisited (state : OrchestrationState) : Prop where
  apart : ∀ node ∈ state.nodes.rows, node.derived = true →
    ∀ ancestor, TransGen (Asks state) node ancestor → ancestor.agentName ≠ node.agentName
  short : ∀ chain : List NodeState, (∀ node ∈ chain, node ∈ state.nodes.rows) →
    chain.IsChain (Asks state) → chain.length ≤ (state.nodes.rows.map (·.agentName)).dedup.length

/-- Nobody has asked under the id. -/
def Unasked (state : OrchestrationState) (nodeId : String) : Prop :=
  ∀ node ∈ state.nodes.rows, node.assistRequestedBy ≠ some nodeId

instance (state : OrchestrationState) (nodeId : String) : Decidable (Unasked state nodeId) :=
  inferInstanceAs (Decidable (∀ node ∈ state.nodes.rows, _))

/-- A name that the plan has, or that no patch can draw. -/
def Grounded (state : OrchestrationState) (nodeId : String) : Prop :=
  nodeId ≠ "" ∧ (nodeId ∈ state.nodes.keys ∨ Text.beforeDigits nodeId ≠ ['x'])

instance (state : OrchestrationState) (nodeId : String) : Decidable (Grounded state nodeId) :=
  inferInstanceAs (Decidable (_ ∧ _))

/-- No agent of the chain of the node with the id. -/
def ClearOf (state : OrchestrationState) (nodeId agentName : String) : Prop :=
  ∀ asker ∈ state.nodes.rows, asker.id = nodeId →
    Ancestry.Clear (Asks state) (·.agentName) asker agentName

/-! ### The invariant -/

structure Lawful (state : OrchestrationState) : Prop where
  apart : Ancestry.Apart (Asks state) (·.agentName)
  grounded : ∀ node ∈ state.nodes.rows, ∀ requester ∈ node.assistRequestedBy,
    Grounded state requester

section Lawful

variable {old new state : OrchestrationState}

theorem Lawful.unrevisited (lawful : Lawful state) : Unrevisited state where
  apart node _ _ ancestor back := lawful.apart node ancestor back
  short chain inside asks := by
    have distinct := lawful.apart.nodup asks
    have known : chain.map (·.agentName) ⊆ (state.nodes.rows.map (·.agentName)).dedup := by
      intro name member
      obtain ⟨node, listed, rfl⟩ := List.mem_map.mp member
      exact List.mem_dedup.mpr (List.mem_map_of_mem (inside node listed))
    have few := (distinct.subperm known).length_le
    rwa [List.length_map] at few

theorem Lawful.congr (lawful : Lawful old) (nodes : new.nodes = old.nodes) : Lawful new := by
  have asks : Asks new = Asks old := by
    unfold Asks
    rw [nodes]
  refine ⟨asks ▸ lawful.apart, ?_⟩
  unfold Grounded
  rw [nodes]
  exact lawful.grounded

/-- Where nobody has asked there are no chains. -/
theorem lawful_plain (plain : ∀ node ∈ state.nodes.rows, node.assistRequestedBy = none) :
    Lawful state := by
  refine ⟨fun node ancestor back => ?_, fun node member requester asked => ?_⟩
  · obtain ⟨_, ⟨inside, _, asked⟩, _⟩ := TransGen.head'_iff.mp back
    rw [plain node inside] at asked
    cases asked
  · rw [plain node member] at asked
    cases asked

theorem Grounded.mono {nodeId : String} (grounded : Grounded old nodeId)
    (keys : ∀ known ∈ old.nodes.keys, known ∈ new.nodes.keys) : Grounded new nodeId :=
  ⟨grounded.1, grounded.2.imp_left (keys nodeId)⟩

end Lawful

/-! ### States with the same chains -/

/-- The nodes stay what they were planned with; what is new is drawn by a patch. -/
structure Kin (old new : OrchestrationState) : Prop where
  onward : ∀ node ∈ old.nodes.rows, ∃ later ∈ new.nodes.rows, SameRow node later
  back : ∀ later ∈ new.nodes.rows, (∃ node ∈ old.nodes.rows, SameRow node later) ∨
    (later.assistRequestedBy = none ∧ later.id ∉ old.nodes.keys ∧
      Text.beforeDigits later.id = ['x'])

section Kin

variable {old new last : OrchestrationState} {nodeId agentName : String}

theorem Kin.refl (state : OrchestrationState) : Kin state state :=
  ⟨fun node member => ⟨node, member, .refl node⟩, fun node member => Or.inl ⟨node, member, .refl node⟩⟩

theorem Kin.congr (nodes : new.nodes = old.nodes) : Kin old new := by
  refine ⟨fun node member => ⟨node, ?_, .refl node⟩, fun node member => Or.inl ⟨node, ?_, .refl node⟩⟩
  · rwa [nodes]
  · rwa [← nodes]

theorem Kin.keys (kin : Kin old new) : ∀ known ∈ old.nodes.keys, known ∈ new.nodes.keys := by
  intro known member
  obtain ⟨node, inside, rfl⟩ := (Table.mem_keys _ _).mp member
  obtain ⟨later, there, same⟩ := kin.onward node inside
  exact same.id ▸ new.nodes.key_mem_keys there

theorem Kin.trans (first : Kin old new) (second : Kin new last) : Kin old last where
  onward node member := by
    obtain ⟨mid, inside, same⟩ := first.onward node member
    obtain ⟨later, there, after⟩ := second.onward mid inside
    exact ⟨later, there, same.trans after⟩
  back later member := by
    rcases second.back later member with ⟨mid, inside, after⟩ | ⟨plain, fresh, drawn⟩
    · rcases first.back mid inside with ⟨node, there, same⟩ | ⟨plain, fresh, drawn⟩
      · exact Or.inl ⟨node, there, same.trans after⟩
      · refine Or.inr ⟨after.assistRequestedBy.trans plain, ?_, ?_⟩
        · rwa [after.id]
        · rwa [after.id]
    · exact Or.inr ⟨plain, fun known => fresh (first.keys _ known), drawn⟩

theorem Kin.twins (kin : Kin old new) (lawful : Lawful old) :
    Ancestry.Twins (Asks old) (Asks new) (·.agentName)
      fun later node => node ∈ old.nodes.rows ∧ SameRow node later where
  color _ _ twin := twin.2.agentName.symm
  onward later node parent twin asks := by
    have asked : node.assistRequestedBy = some parent.id :=
      twin.2.assistRequestedBy.symm.trans asks.2.2
    rcases kin.back parent asks.2.1 with ⟨elder, inside, same⟩ | ⟨_, fresh, drawn⟩
    · exact ⟨elder, ⟨twin.1, inside, same.id ▸ asked⟩, inside, same⟩
    · -- the id of the new node is one that nobody can have asked under
      rcases (lawful.grounded node twin.1 parent.id asked).2 with known | other
      · exact absurd known fresh
      · exact absurd drawn other

theorem Lawful.kin (lawful : Lawful old) (kin : Kin old new) : Lawful new where
  apart := by
    refine (kin.twins lawful).apart lawful.apart fun later parent asks => ?_
    rcases kin.back later asks.1 with ⟨node, inside, same⟩ | ⟨plain, _⟩
    · exact ⟨node, inside, same⟩
    · have asked := asks.2.2
      rw [plain] at asked
      cases asked
  grounded later member requester asked := by
    rcases kin.back later member with ⟨node, inside, same⟩ | ⟨plain, _⟩
    · exact (lawful.grounded node inside requester (same.assistRequestedBy ▸ asked)).mono kin.keys
    · rw [plain] at asked
      cases asked

theorem Unasked.kin (unasked : Unasked old nodeId) (kin : Kin old new) : Unasked new nodeId := by
  intro later member asked
  rcases kin.back later member with ⟨node, inside, same⟩ | ⟨plain, _⟩
  · exact unasked node inside (same.assistRequestedBy ▸ asked)
  · rw [plain] at asked
    cases asked

theorem ClearOf.kin (clear : ClearOf old nodeId agentName) (lawful : Lawful old)
    (grounded : Grounded old nodeId) (kin : Kin old new) : ClearOf new nodeId agentName := by
  intro later member named
  rcases kin.back later member with ⟨node, inside, same⟩ | ⟨_, fresh, drawn⟩
  · exact (kin.twins lawful).clear ⟨inside, same⟩ (clear node inside (same.id.symm.trans named))
  · subst named
    rcases grounded.2 with known | other
    · exact absurd known fresh
    · exact absurd drawn other

/-- An edit that spawns nothing. -/
theorem Edit.kin {scope : Scope} (edit : Edit scope old new) (still : new.derivedCount = old.derivedCount) :
    Kin old new := by
  cases edit with
  | rows keeps same =>
      refine ⟨fun node member => ⟨_, List.mem_map_of_mem member, same node member⟩, ?_⟩
      intro later member
      obtain ⟨node, inside, rfl⟩ := List.mem_map.mp member
      exact Or.inl ⟨node, inside, same node inside⟩
  | @draft node number patchCount named fresh plain =>
      refine ⟨fun other member => ⟨other, ?_, .refl other⟩, fun later member => ?_⟩
      · refine (mem_setNode _ _ _).mpr (Or.inr ⟨member, fun same => fresh ?_⟩)
        exact same ▸ old.nodes.key_mem_keys member
      · rcases (mem_setNode _ _ _).mp member with rfl | ⟨inside, _⟩
        · exact Or.inr ⟨plain, fresh, named ▸ Text.beforeDigits_number "" 'x' number rfl⟩
        · exact Or.inl ⟨later, inside, .refl later⟩
  | spawn =>
      have counted : old.derivedCount + 1 = old.derivedCount := still
      omega
  | side => exact .congr rfl
  | settle => exact .congr rfl
  | ask requested => exact .congr (requestUserInput_quiet _ requested).nodes

end Kin

/-! ### The walk of `assist_chain_agents` -/

section Walk

variable {state : OrchestrationState}

/-- The walk sees every ancestor: nobody is met twice, and every name leads on. -/
theorem chainAgents_complete (lawful : Lawful state) {ancestor : NodeState} :
    ∀ (fuel : Nat) (seen : List String) (current : NodeState),
      (∀ nodeId ∈ seen, ∃ node ∈ state.nodes.rows, node.id = nodeId ∧
        ReflTransGen (Asks state) node current) →
      seen.Nodup → state.nodes.rows.length < fuel + seen.length →
      TransGen (Asks state) current ancestor →
        ancestor.agentName ∈ state.chainAgents fuel seen current := by
  intro fuel
  induction fuel with
  | zero =>
      intro seen current visited distinct enough
      -- The visited ids are rows of the table, so the walk stops on the visited
      -- set before it runs out of fuel.
      have inside : seen ⊆ state.nodes.keys := by
        intro nodeId member
        obtain ⟨node, row, rfl, _⟩ := visited nodeId member
        exact state.nodes.key_mem_keys row
      have few := (distinct.subperm inside).length_le
      simp only [Table.keys, List.length_map] at few
      omega
  | succ fuel ih =>
      intro seen current visited distinct enough back
      obtain ⟨parent, first, rest⟩ := TransGen.head'_iff.mp back
      have named := (lawful.grounded current first.1 parent.id first.2.2).1
      -- A node met twice would stand among its own requesters.
      have unseen : parent.id ∉ seen := by
        intro member
        obtain ⟨node, row, same, reached⟩ := visited parent.id member
        obtain rfl := state.nodes.row_unique row first.2.1 same
        exact lawful.apart.acyclic node (TransGen.tail' reached first)
      have found : state.node? parent.id = some parent := state.node_of_mem first.2.1
      have stop : ¬(parent.id = "" ∨ parent.id ∈ seen) := by simp [named, unseen]
      simp only [chainAgents, first.2.2, stop, ↓reduceIte, found, List.mem_cons]
      rcases Relation.reflTransGen_iff_eq_or_transGen.mp rest with rfl | onward
      · exact Or.inl rfl
      · right
        refine ih (parent.id :: seen) parent ?_ (List.nodup_cons.mpr ⟨unseen, distinct⟩) ?_ onward
        · intro nodeId member
          rcases List.mem_cons.mp member with rfl | earlier
          · exact ⟨parent, first.2.1, rfl, .refl⟩
          · obtain ⟨node, row, same, reached⟩ := visited nodeId earlier
            exact ⟨node, row, same, reached.tail first⟩
        · rw [List.length_cons]
          omega

/-- An agent that the walk does not meet is not on the chain. -/
theorem Lawful.clear (lawful : Lawful state) {nodeId agentName : String}
    (unmet : ∀ asker ∈ state.node? nodeId, agentName ∉ state.assistChainAgents asker) :
    ClearOf state nodeId agentName := by
  intro asker member named ancestor back same
  have found : state.node? nodeId = some asker := named ▸ state.node_of_mem member
  apply unmet asker found
  rw [← same, assistChainAgents, List.mem_cons]
  rcases Relation.reflTransGen_iff_eq_or_transGen.mp back with rfl | onward
  · exact Or.inl rfl
  · right
    refine chainAgents_complete lawful _ _ asker ?_ (List.nodup_singleton _) ?_ onward
    · intro visited inside
      rw [List.mem_singleton.mp inside]
      exact ⟨asker, member, rfl, .refl⟩
    · rw [List.length_singleton]
      omega

end Walk

/-! ### Spawns -/

/-- Nobody has asked under an id that a derived node of the parent can still get. -/
def UnaskedNext (config : ExecutorConfig) (state : OrchestrationState) (parentId : String) : Prop :=
  ∀ kind ∈ [DerivedKind.followup, .assist, .helper], ∀ number < config.maxDerivedNodes,
    state.derivedCount ≤ number → Unasked state (derivedId parentId kind (number + 1))

instance (config : ExecutorConfig) (state : OrchestrationState) (parentId : String) :
    Decidable (UnaskedNext config state parentId) :=
  inferInstanceAs (Decidable (∀ kind ∈ _, ∀ number < _, _ → _))

/-- The node asks for nobody's help, or for that of an agent off its chain. -/
def AsksFreely (state : OrchestrationState) (spawn : Spawn) : Prop :=
  spawn.assistRequestedBy = none ∨
    (spawn.assistRequestedBy = some spawn.parentId ∧ Grounded state spawn.parentId ∧
      ClearOf state spawn.parentId spawn.agentName)

section Spawned

variable {config : ExecutorConfig} {state new : OrchestrationState} {spawn : Spawn}
  {nodeId agentName : String}

theorem UnaskedNext.drawn (unasked : UnaskedNext config state spawn.parentId)
    (room : state.derivedCount < config.maxDerivedNodes) : Unasked state (drawnId state spawn) := by
  refine unasked spawn.kind ?_ state.derivedCount room (Nat.le_refl _)
  cases spawn.kind <;> decide

theorem UnaskedNext.kin (unasked : UnaskedNext config state nodeId) (kin : Kin state new)
    (still : new.derivedCount = state.derivedCount) : UnaskedNext config new nodeId := by
  intro kind listed number small drawn
  exact (unasked kind listed number small (still ▸ drawn)).kin kin

/-- Nobody asks through the spawned node. -/
theorem spawned_grows (unasked : Unasked state (drawnId state spawn))
    (requester : spawn.assistRequestedBy = none ∨ spawn.assistRequestedBy = some spawn.parentId) :
    Ancestry.Grows (Asks state) (Asks (state.spawned spawn))
      (spawn.node (state.derivedCount + 1)) where
  old item next other asks := by
    have inside := ((mem_setNode _ _ _).mp asks.1).resolve_left other
    have apart : next ≠ spawn.node (state.derivedCount + 1) := by
      rintro rfl
      exact unasked item inside.1 asks.2.2
    have known := ((mem_setNode _ _ _).mp asks.2.1).resolve_left apart
    exact ⟨⟨inside.1, known.1, asks.2.2⟩, apart⟩
  own next asks := by
    rintro rfl
    have asked : spawn.assistRequestedBy = some (drawnId state spawn) := asks.2.2
    rcases requester with none | parent
    · rw [none] at asked
      cases asked
    · rw [parent, Option.some.injEq] at asked
      -- The drawn id is longer than the parent's, so the new node did not ask for itself.
      have longer : spawn.parentId.length < (drawnId state spawn).length := derivedId_longer
      rw [← asked] at longer
      omega

theorem spawned_keys : ∀ known ∈ state.nodes.keys, known ∈ (state.spawned spawn).nodes.keys := by
  intro known member
  exact (Table.mem_keys_insert _ _ _).mpr (Or.inr member)

theorem Lawful.spawned (lawful : Lawful state) (unasked : Unasked state (drawnId state spawn))
    (freely : AsksFreely state spawn) : Lawful (state.spawned spawn) where
  apart := by
    have grows := spawned_grows unasked (freely.imp_right And.left)
    refine grows.apart lawful.apart fun next asks => ?_
    have inside := ((mem_setNode _ _ _).mp asks.2.1).resolve_left (grows.own next asks)
    have asked : spawn.assistRequestedBy = some next.id := asks.2.2
    rcases freely with none | ⟨parent, _, clear⟩
    · rw [none] at asked
      cases asked
    · rw [parent, Option.some.injEq] at asked
      exact clear next inside.1 asked.symm
  grounded node member requester asked := by
    rcases (mem_setNode _ _ _).mp member with rfl | ⟨inside, _⟩
    · have asked : spawn.assistRequestedBy = some requester := asked
      rcases freely with none | ⟨parent, grounded, _⟩
      · rw [none] at asked
        cases asked
      · rw [parent, Option.some.injEq] at asked
        exact asked ▸ grounded.mono spawned_keys
    · exact (lawful.grounded node inside requester asked).mono spawned_keys

/-- What was off the chain of another node stays so. -/
theorem ClearOf.spawned (clear : ClearOf state nodeId agentName)
    (unasked : Unasked state (drawnId state spawn))
    (requester : spawn.assistRequestedBy = none ∨ spawn.assistRequestedBy = some spawn.parentId)
    (other : nodeId ≠ drawnId state spawn) : ClearOf (state.spawned spawn) nodeId agentName := by
  intro asker member named
  have apart : asker ≠ spawn.node (state.derivedCount + 1) := by
    rintro rfl
    exact other named.symm
  have inside := ((mem_setNode _ _ _).mp member).resolve_left apart
  exact (spawned_grows unasked requester).clear apart (clear asker inside.1 named)

/-- A spawn for the parent keeps its next ids free. -/
theorem UnaskedNext.spawned (unasked : UnaskedNext config state spawn.parentId)
    (requester : spawn.assistRequestedBy = none ∨ spawn.assistRequestedBy = some spawn.parentId) :
    UnaskedNext config (state.spawned spawn) spawn.parentId := by
  intro kind listed number small drawn node member asked
  rcases (mem_setNode _ _ _).mp member with rfl | ⟨inside, _⟩
  · have asked : spawn.assistRequestedBy = some (derivedId spawn.parentId kind (number + 1)) := asked
    rcases requester with none | parent
    · rw [none] at asked
      cases asked
    · rw [parent, Option.some.injEq] at asked
      have longer : spawn.parentId.length < (derivedId spawn.parentId kind (number + 1)).length :=
        derivedId_longer
      rw [← asked] at longer
      omega
  · exact unasked kind listed number small (Nat.le_of_succ_le drawn) node inside asked

end Spawned

/-! ### Sessions -/

/-- In memory and in the store. -/
def Session.Lawful (session : Session) : Prop :=
  Orchestration.Lawful session.state ∧ Orchestration.Lawful session.saved

section Sessions

variable {config : ExecutorConfig} {env : Env} {session next : Session} {ref : NodeRef}
  {node : NodeState} {spawn : Spawn}

/-- Where the count has not moved, nothing was spawned on the way. -/
theorem Session.Lawful.edits (lawful : session.Lawful) (edits : Edits .all session next)
    (still : next.state.derivedCount = session.state.derivedCount) :
    next.Lawful ∧ Kin session.state next.state := by
  have memory := edits.still (fun edit still lawful => lawful.kin (edit.kin still)) still lawful.1
  have kin : Kin session.state next.state ∧ _ :=
    edits.still (fun edit still kin => kin.trans (edit.kin still)) still (.refl _)
  exact ⟨⟨memory.1, memory.2 lawful.2⟩, kin.1⟩

/-- Without a budget nothing is spawned. -/
theorem Session.Spends.still (spends : Spends { maxDerivedNodes := 0 } session next) :
    next.state.derivedCount = session.state.derivedCount := by
  induction spends with
  | refl => rfl
  | change _ same ih => exact same.1.trans ih
  | spawn _ room => cases room
  | persist _ ih => exact ih

theorem spawnDerivedNode_lawful (lawful : session.Lawful)
    (unasked : UnaskedNext config session.state spawn.parentId)
    (freely : session.state.derivedCount < config.maxDerivedNodes →
      AsksFreely session.state spawn) :
    (spawnDerivedNode config env session spawn).1.Lawful := by
  rcases spawnDerivedNode_cases config env session spawn with
    ⟨_, refused⟩ | ⟨state, room, quiet, accepted⟩
  · rwa [refused]
  · have spawned := (lawful.1.spawned (unasked.drawn room) (freely room)).congr quiet.nodes
    rw [accepted]
    exact ⟨spawned, spawned⟩

theorem spawnFollowupNode_lawful (lawful : session.Lawful) {anchor : NodeState} {text : String}
    {deps : List String} (unasked : UnaskedNext config session.state anchor.id) :
    (spawnFollowupNode config env session text anchor deps).Lawful :=
  spawnDerivedNode_lawful lawful unasked fun _ => Or.inl rfl

/-! ### Mentions -/

/-- The node may ask every agent on the list. -/
structure MayAsk (config : ExecutorConfig) (env : Env) (state : OrchestrationState)
    (node : NodeState) (names : List String) : Prop where
  unasked : UnaskedNext config state node.id
  clear : state.derivedCount < config.maxDerivedNodes → ∀ name ∈ names, name ∈ env.agents →
    name ≠ node.agentName → Grounded state node.id ∧ ClearOf state node.id name

theorem MayAsk.kin {names : List String} (may : MayAsk config env session.state node names)
    (lawful : session.Lawful) (kin : Kin session.state next.state)
    (still : next.state.derivedCount = session.state.derivedCount) :
    MayAsk config env next.state node names where
  unasked := may.unasked.kin kin still
  clear room name listed known other := by
    obtain ⟨grounded, clear⟩ := may.clear (still ▸ room) name listed known other
    exact ⟨grounded.mono kin.keys, clear.kin lawful.1 grounded kin⟩

theorem spawnMentioned_lawful (output : String) (names : List String) (lawful : session.Lawful)
    (may : MayAsk config env session.state node names) :
    (spawnMentioned config env node output names session).Lawful ∧
      UnaskedNext config (spawnMentioned config env node output names session).state node.id := by
  induction names generalizing session with
  | nil => exact ⟨lawful, may.unasked⟩
  | cons name rest ih =>
      simp only [spawnMentioned]
      split
      · exact ih lawful ⟨may.unasked, fun room other later =>
          may.clear room other (List.mem_cons_of_mem name later)⟩
      · rename_i asks
        push Not at asks
        let assist : Spawn :=
          { kind := .assist, parentId := node.id, agentName := name,
            inputText := buildAssistInput node.agentName (some output),
            assistRequestedBy := some node.id }
        rcases spawnDerivedNode_cases config env session assist with
          ⟨_, refused⟩ | ⟨state, room, quiet, accepted⟩
        · simp only [assist] at refused
          rw [refused]
          exact ⟨lawful, may.unasked⟩
        · obtain ⟨grounded, clear⟩ := may.clear room name List.mem_cons_self asks.2.1 asks.1
          have free : UnaskedNext config session.state assist.parentId := may.unasked
          have unasked : Unasked session.state (drawnId session.state assist) := free.drawn room
          have spawned : Lawful (session.state.spawned assist) :=
            lawful.1.spawned unasked (Or.inr ⟨rfl, grounded, clear⟩)
          have kin : Kin (session.state.spawned assist) state := .congr quiet.nodes
          simp only [assist] at accepted
          rw [accepted]
          refine ih ⟨spawned.kin kin, spawned.kin kin⟩ ⟨?_, ?_⟩
          · have next : UnaskedNext config (session.state.spawned assist) node.id :=
              free.spawned (Or.inr rfl)
            exact next.kin kin quiet.derivedCount
          · intro more other later known apart
            have before : session.state.derivedCount < config.maxDerivedNodes := room
            obtain ⟨_, clear⟩ := may.clear before other (List.mem_cons_of_mem name later) known apart
            -- the parent is shorter than what it has asked for
            have longer : node.id ≠ drawnId session.state assist := by
              intro same
              have longer : node.id.length < (drawnId session.state assist).length :=
                derivedId_longer
              rw [← same] at longer
              omega
            have grounded := grounded.mono (@spawned_keys session.state assist)
            exact ⟨grounded.mono kin.keys,
              (clear.spawned unasked (Or.inr rfl) longer).kin spawned grounded kin⟩

/-- The names that the output of the node mentions. -/
def mentioned (node : NodeState) : List String := (node.output.map mentionsOf).getD []

theorem arbitrateMentions_lawful (lawful : session.Lawful)
    (may : MayAsk config env session.state node (mentioned node)) :
    (arbitrateMentions config env session node).Lawful ∧
      UnaskedNext config (arbitrateMentions config env session node).state node.id := by
  unfold arbitrateMentions
  unfold mentioned at may
  cases output : node.output with
  | none => exact ⟨lawful, may.unasked⟩
  | some text =>
      rw [output] at may
      exact spawnMentioned_lawful text _ lawful may

theorem deliverQueued_lawful (lawful : session.Lawful)
    (unasked : UnaskedNext config session.state node.id) :
    (deliverQueued config env session node).Lawful := by
  have taken : Session.Lawful { session with state := (session.state.takeQueued node.id).2 } :=
    ⟨lawful.1.congr rfl, lawful.2⟩
  unfold deliverQueued
  dsimp only
  split
  · exact taken
  · exact spawnFollowupNode_lawful taken (unasked.kin (.congr rfl) rfl)

theorem transition_lawful (lawful : session.Lawful) {fields : NodeState → NodeState}
    (same : ∀ node, SameRow node (fields node)) (status : ∀ node, (fields node).status = node.status)
    (target : NodeStatus) :
    (session.transition ref fields target).session.Lawful ∧
      Kin session.state (session.transition ref fields target).session.state :=
  lawful.edits (transition_edits ⟨same, status, fun _ => Or.inr trivial⟩ fun _ _ _ _ _ _ => trivial)
    transition_count

theorem markDelivered_lawful (lawful : session.Lawful)
    (may : ∀ node ∈ session.read ref, node.canTransition .completed = true →
      MayAsk config env session.state node (mentioned node)) :
    (markDelivered config env session ref).session.Lawful := by
  have delivered : (session.transition ref id .completed).session.Lawful ∧
      Kin session.state (session.transition ref id .completed).session.state :=
    transition_lawful lawful .refl (fun _ => rfl) .completed
  simp only [markDelivered]
  split
  · rename_i after quiet found
    obtain ⟨node, there⟩ : ∃ node, session.read ref = some node := by
      cases there : session.read ref with
      | none => simp [Session.transition, there] at found
      | some node => exact ⟨node, rfl⟩
    obtain ⟨completes, moved⟩ := transition_after (fun _ => rfl) quiet there
    obtain rfl : { node with status := .completed } = after :=
      Option.some.inj (moved.symm.trans found)
    have asks := (may node there completes).kin lawful delivered.2 transition_count
    have helped : Session.Lawful (arbitrateMentions config env
        (session.transition ref id .completed).session { node with status := .completed }) ∧ _ :=
      arbitrateMentions_lawful delivered.1 ⟨asks.unasked, asks.clear⟩
    exact deliverQueued_lawful helped.1 helped.2
  · exact delivered.1

theorem outcomeFlow_lawful (lawful : session.Lawful) (there : session.read ref = some node)
    (answered : Option OutcomeResult)
    (may : (interpretOutcome node.output answered).intent ≠ .needInfo →
      node.canTransition .completed = true →
        MayAsk config env session.state node (mentioned node)) :
    (outcomeFlow config env session ref answered).session.Lawful := by
  have output : (session.read ref).bind (·.output) = node.output := by simp [there]
  obtain ⟨revised, kin⟩ := lawful.edits
    (revise_edits config env session (interpretOutcome node.output answered)
      fun patch _ => Runtime.revises_free Scope.all_free patch) (revise_count _)
  have delivers : (interpretOutcome node.output answered).intent ≠ .needInfo →
      (markDelivered config env
        (revise config env session (interpretOutcome node.output answered)) ref).session.Lawful := by
    intro intent
    -- The patch leaves the reporting node alone or invalidates it; then it cannot complete.
    refine markDelivered_lawful revised fun after found completes => ?_
    have same : after = node := by
      cases ref with
      | detached own =>
          cases there
          cases found
          rfl
      | planned nodeId =>
          obtain ⟨status, row, kept⟩ := @revise_row config env session node nodeId there
            (interpretOutcome node.output answered)
          obtain rfl : { node with status } = after := Option.some.inj (row.symm.trans found)
          rcases kept with rfl | rfl
          · rfl
          · cases completes
    rw [same] at completes ⊢
    exact (may intent completes).kin lawful kin (revise_count _)
  cases intent : (interpretOutcome node.output answered).intent with
  | needInfo =>
      simp only [outcomeFlow, output, intent]
      refine (transition_lawful lawful ?_ ?_ .inputRequired).1
      · exact fun _ => ⟨rfl, rfl, rfl, rfl, rfl, rfl⟩
      · exact fun _ => rfl
  | deliver =>
      simp only [outcomeFlow, output, intent]
      exact delivers (by simp [intent])
  | revise =>
      simp only [outcomeFlow, output, intent]
      exact delivers (by simp [intent])

/-- A node that may complete mentions no agent of the chain of the node that has
its id, as long as nodes can be derived; and nobody has asked under the ids of
its derived nodes. -/
def MentionsOff (config : ExecutorConfig) (env : Env) (state : OrchestrationState)
    (node : NodeState) : Prop :=
  node.canTransition .completed = true → UnaskedNext config state node.id ∧
    (state.derivedCount < config.maxDerivedNodes → ∀ name ∈ mentioned node, name ∈ env.agents →
      name ≠ node.agentName → Grounded state node.id ∧
        ∀ asker ∈ state.node? node.id, name ∉ state.assistChainAgents asker)

instance (config : ExecutorConfig) (env : Env) (state : OrchestrationState) (node : NodeState) :
    Decidable (MentionsOff config env state node) :=
  inferInstanceAs (Decidable (_ → _ ∧ (_ → ∀ name ∈ mentioned node, _ → _ → _ ∧
    ∀ asker ∈ state.node? node.id, _)))

/-- What the end of a remote call needs to keep the chains apart. -/
def OutcomeApart (config : ExecutorConfig) (env : Env) (session : Session) (ref : NodeRef)
    (remote : Remote) (answered : Option OutcomeResult) : Prop :=
  remote.ended = .completed → (interpretOutcome remote.output answered).intent ≠ .needInfo →
    ∀ node ∈ session.read ref, MentionsOff config env session.state (remote.fields node)

instance (config : ExecutorConfig) (env : Env) (session : Session) (ref : NodeRef)
    (remote : Remote) (answered : Option OutcomeResult) :
    Decidable (OutcomeApart config env session ref remote answered) :=
  inferInstanceAs (Decidable (_ → _ → ∀ node ∈ session.read ref, _))

theorem interpretRemote_lawful (lawful : session.Lawful) {remote : Remote}
    {answered : Option OutcomeResult} (apart : OutcomeApart config env session ref remote answered) :
    (interpretRemote config env session ref remote answered).session.Lawful := by
  have same : ∀ node, SameRow node (remote.fields node) := fun _ => ⟨rfl, rfl, rfl, rfl, rfl, rfl⟩
  cases ended : remote.ended with
  | completed =>
      simp only [interpretRemote, ended]
      cases found : session.read ref with
      | none => exact lawful
      | some node =>
          have still : (session.write ref (remote.fields node)).1.state.derivedCount =
              session.state.derivedCount := by
            rw [write_frame]
          obtain ⟨written, kin⟩ := lawful.edits
            (write_edits found (same node) (Or.inl rfl) (Or.inl rfl)) still
          refine outcomeFlow_lawful written (read_write found (same node).id) answered ?_
          intro intent completes
          obtain ⟨unasked, off⟩ := apart ended intent node found completes
          have may : MayAsk config env session.state (remote.fields node)
              (mentioned (remote.fields node)) := by
            refine ⟨unasked, fun room name listed known other => ?_⟩
            obtain ⟨grounded, unmet⟩ := off room name listed known other
            exact ⟨grounded, lawful.1.clear unmet⟩
          exact may.kin lawful kin still
  | canceled | inputRequired | stopped =>
      simp only [interpretRemote, ended]
      exact (transition_lawful lawful same (fun _ => rfl) _).1

/-! ### Calls of the tool -/

/-- An accepted call spawns a helper off the chain of the node that asks. -/
theorem callSubagent_checked (requestedBy target instruction : String) :
    (callSubagent config env session requestedBy target instruction).1 = session ∨
      ∃ spawn : Spawn, spawn.parentId = requestedBy ∧ spawn.agentName = target ∧
        spawn.assistRequestedBy = some requestedBy ∧
        (∀ asker ∈ session.state.node? requestedBy,
          target ∉ session.state.assistChainAgents asker) ∧
        (callSubagent config env session requestedBy target instruction).1 =
          (spawnDerivedNode config env session spawn).1 := by
  simp only [callSubagent]
  split
  · exact Or.inl rfl
  · split
    · exact Or.inl rfl
    · split
      · exact Or.inl rfl
      · rename_i accepted
        right
        let helper : Spawn :=
          { kind := .helper, parentId := requestedBy, agentName := target,
            inputText := if instruction = "" then
                buildPeerFallbackInput
                  (((session.state.node? requestedBy).bind (·.question)).getD "")
              else instruction,
            assistRequestedBy := some requestedBy }
        refine ⟨helper, rfl, rfl, rfl, fun asker found met => ?_, ?_⟩
        · rw [Option.mem_def.mp found] at accepted
          dsimp only at accepted
          split at accepted <;> cases accepted
        · split <;> rename_i result <;> rw [result]

/-- A settlement that turns to another agent asks under a name, and nobody has
asked under the ids of the node's derived nodes. -/
def CallApart (config : ExecutorConfig) (session : Session) (ref : NodeRef)
    (decision : Option AssistanceResult) : Prop :=
  (decision.bind (·.targetAgent)).getD "" ≠ "" → ∀ node ∈ session.read ref,
    Grounded session.state node.id ∧ UnaskedNext config session.state node.id

instance (config : ExecutorConfig) (session : Session) (ref : NodeRef)
    (decision : Option AssistanceResult) : Decidable (CallApart config session ref decision) :=
  inferInstanceAs (Decidable (_ → ∀ node ∈ session.read ref, _))

theorem requestHuman_lawful (lawful : session.Lawful) (decision : Option AssistanceResult) :
    (requestHuman env session ref node decision).session.Lawful :=
  (lawful.edits (requestHuman_edits env node decision (fun _ _ => trivial) trivial)
    (requestHuman_spends node decision).still).1

theorem actOnDecision_lawful (lawful : session.Lawful) {decision : Option AssistanceResult}
    (apart : CallApart config session ref decision) :
    (actOnDecision config env session ref decision).session.Lawful := by
  unfold actOnDecision
  split
  · exact lawful
  · rename_i node found
    split
    · exact lawful
    · dsimp only
      split
      · exact requestHuman_lawful lawful decision
      · rename_i targets
        obtain ⟨grounded, unasked⟩ := apart targets node found
        have called : (callSubagent config env session node.id
            ((decision.bind (·.targetAgent)).getD "")
            ((decision.map (·.instruction)).getD "")).1.Lawful := by
          rcases callSubagent_checked node.id ((decision.bind (·.targetAgent)).getD "")
              ((decision.map (·.instruction)).getD "") with
            refused | ⟨spawn, parent, target, requester, unmet, spawned⟩
          · rwa [refused]
          · rw [spawned]
            rw [← parent] at grounded unasked requester unmet
            refine spawnDerivedNode_lawful lawful unasked fun _ => Or.inr ⟨requester, grounded, ?_⟩
            exact target ▸ lawful.1.clear unmet
        split
        · rename_i result
          rw [result] at called
          exact called
        · rename_i result
          rw [result] at called
          exact requestHuman_lawful called decision

end Sessions

/-! ### Steps of a session -/

/-- What a handler needs to keep the chains apart. -/
def HandlerApart (config : ExecutorConfig) (session : Session) : Handler → Prop
  | .spawnFollowup target | .interrupt target => UnaskedNext config session.state target.id
  | _ => True

instance (config : ExecutorConfig) (session : Session) :
    (handler : Handler) → Decidable (HandlerApart config session handler)
  | .spawnFollowup _ | .interrupt _ => inferInstanceAs (Decidable (UnaskedNext _ _ _))
  | .recover | .reject | .answers _ | .reemitQuestions | .complete | .planAndLaunch | .noop
  | .enqueue _ _ | .newPlan => .isTrue trivial

namespace Runtime

/-- What a step needs to keep the chains apart. -/
def AsksApart (config : ExecutorConfig) (runtime : Runtime) : Event → Prop
  | .message inbound _ _ => HandlerApart config runtime.session (runtime.classify inbound)
  | .outcome taskId env remote answered => ∀ task ∈ runtime.task? taskId .remote,
      OutcomeApart config env runtime.session task.ref remote answered
  | .act taskId _ decision => ∀ task ∈ runtime.settleTask? taskId,
      CallApart config runtime.session task.ref decision
  | _ => True

instance (config : ExecutorConfig) (runtime : Runtime) :
    (event : Event) → Decidable (runtime.AsksApart config event)
  | .message _ _ _ => inferInstanceAs (Decidable (HandlerApart _ _ _))
  | .outcome _ _ _ _ => inferInstanceAs (Decidable (∀ task ∈ _, OutcomeApart _ _ _ _ _ _))
  | .act _ _ _ => inferInstanceAs (Decidable (∀ task ∈ _, CallApart _ _ _ _))
  | .clearWake | .dispatch | .collect | .flow _ _ | .start _ | .chunk _ _ _ | .close _
  | .inspect _ | .resolve _ | .cancel | .reload => .isTrue trivial

section Steps

variable {config : ExecutorConfig} {env : Env} {runtime next : Runtime}

theorem planAndLaunch_lawful (drafts : List (Option (List PlanNodeDraft)))
    (mentions : List String) : (runtime.planAndLaunch config env drafts mentions).session.Lawful := by
  obtain ⟨_, _, _, _, _, stored⟩ :=
    planAndLaunch_planned .all config runtime env drafts mentions
  have plain : Lawful (runtime.planAndLaunch config env drafts mentions).session.state := by
    refine lawful_plain fun node member => ?_
    obtain ⟨_, _, draft, _, rfl⟩ := planAndLaunch_rows node member
    rfl
  exact ⟨plain, stored ▸ plain⟩

theorem handle_lawful (lawful : runtime.session.Lawful) (inbound : Inbound)
    (drafts : List (Option (List PlanNodeDraft))) {handler : Handler}
    (apt : Apt runtime.session.state handler) (apart : HandlerApart config runtime.session handler) :
    (runtime.handle config env inbound drafts handler).session.Lawful := by
  cases handler with
  | planAndLaunch => exact planAndLaunch_lawful drafts _
  | newPlan =>
      simp only [handle, finish_session]
      exact planAndLaunch_lawful drafts _
  | reject | complete => exact lawful
  | recover =>
      simp only [handle, startRunner_session]
      exact (lawful.edits (runtime.session.recoverSession_edits Scope.all_free) rfl).1
  | reemitQuestions =>
      exact (lawful.edits (emitPendingQuestions_edits _) emitPendingQuestions_spends.still).1
  | answers responses =>
      have answered := (lawful.edits (runtime.session.answerAll_edits Scope.all_free responses)
        (answerAll_spends responses).still).1
      simp only [handle]
      split
      · rw [startRunner_session]
        exact (answered.edits (emitPendingQuestions_edits _) emitPendingQuestions_spends.still).1
      · exact answered
  | noop =>
      simp only [handle, finish_session]
      exact lawful
  | enqueue target quoteId =>
      simp only [handle, finish_session]
      have queued : Lawful
          (runtime.session.state.enqueue target.id inbound.request quoteId env.now) :=
        lawful.1.congr rfl
      exact ⟨queued, queued⟩
  | spawnFollowup target =>
      simp only [handle, finish_session]
      exact spawnFollowupNode_lawful lawful apart
  | interrupt target =>
      simp only [handle, finish_session]
      -- the follow-up is derived in the state behind the cancellation
      obtain ⟨canceled, kin⟩ := lawful.edits
        (interrupted_edits runtime.session apt.1 trivial fun _ _ => trivial) rfl
      exact spawnFollowupNode_lawful canceled (apart.kin kin rfl)

theorem planFlow_still (busy : Bool) (decision : Option PlanPatch) (session : Session) :
    (planFlow config env session busy decision).1.state.derivedCount =
      session.state.derivedCount := by
  have revised : ∀ patch, (revisePlan env session patch).1.state.derivedCount =
      session.state.derivedCount := by
    intro patch
    obtain ⟨state, count, quiet, revised⟩ := revisePlan_cases env session patch
    rw [revised]
    exact quiet.derivedCount.trans (applyPatch_counts session.state patch env.agents).1
  unfold planFlow
  dsimp only
  split
  · rfl
  · split
    · exact (@emitPendingQuestions_spends { maxDerivedNodes := 0 } session.persist).still
    · split
      · rfl
      · split
        · split
          · unfold repairPlan
            split
            · rfl
            · rfl
            · exact revised _
          · rfl
        · split <;> rfl

/-- Only outcomes and settlements spawn by themselves. -/
def spawns : Event → Bool
  | .outcome _ _ _ _ | .act _ _ _ => true
  | _ => false

theorem inner_still {event : Event} (isInner : event.inner = true) (plain : spawns event = false)
    (advanced : runtime.advance config event = some next) :
    next.session.state.derivedCount = runtime.session.state.derivedCount := by
  cases advances advanced with
  | message | reload => cases isInner
  | outcome | act => cases plain
  | clearWake | inspect | cancel => rfl
  | dispatch =>
      unfold dispatch
      dsimp only
      split <;> rfl
  | collect => exact collect_spends.still
  | flow env decision =>
      have flowed := @planFlow_still config env runtime.busy decision runtime.session
      unfold flow
      dsimp only
      split <;> exact flowed
  | start task => exact (startNode_spends task.mode).still
  | chunk a2aTaskId submitted => exact (chunkNode_spends a2aTaskId submitted).still
  | close task => exact (closeNode_spends task.ref.nodeId).still
  | resolve task helper => exact (resolveFromHelper_spends helper).still

theorem inner_lawful {event : Event} (isInner : event.inner = true)
    (lawful : runtime.session.Lawful) (apart : runtime.AsksApart config event)
    (advanced : runtime.advance config event = some next) : next.session.Lawful := by
  cases plain : spawns event with
  | false =>
      have edits := inner_edits Scope.all_free isInner (fun _ _ => trivial) advanced
      exact (lawful.edits edits (inner_still isInner plain advanced)).1
  | true =>
      cases advances advanced with
      | outcome env remote answered task found => exact interpretRemote_lawful lawful (apart task found)
      | act env decision task found => exact actOnDecision_lawful lawful (apart task found)
      | _ => cases plain

end Steps

end Runtime

/-! ### Conversations -/

namespace Conversation

def AsksApart (config : ExecutorConfig) (conversation : Conversation) : ConversationEvent → Prop
  | .message _ inbound env drafts _ =>
      conversation.runtime.ensureSession.AsksApart config (.message inbound env drafts)
  | .session event _ => conversation.runtime.AsksApart config event
  | .raise | .crash | .rewind _ => True

instance (config : ExecutorConfig) (conversation : Conversation) :
    (event : ConversationEvent) → Decidable (conversation.AsksApart config event)
  | .message _ inbound env drafts _ =>
      inferInstanceAs (Decidable (Runtime.AsksApart _ _ (.message inbound env drafts)))
  | .session event _ => inferInstanceAs (Decidable (Runtime.AsksApart _ _ event))
  | .raise | .crash | .rewind _ => .isTrue trivial

theorem lawful_empty : Lawful {} :=
  lawful_plain fun _ member => by cases member

section Runs

variable {config : ExecutorConfig} {conversation next : Conversation} {event : ConversationEvent}

/-- A snapshot only shortens the outputs. -/
theorem lawful_restored {state : OrchestrationState} (lawful : Lawful state) :
    Lawful state.restored := by
  refine lawful.kin ⟨fun node member => ?_, fun later member => Or.inl ?_⟩
  · exact ⟨_, List.mem_map_of_mem member, rfl, rfl, rfl, rfl, rfl, rfl⟩
  · obtain ⟨node, inside, rfl⟩ := List.mem_map.mp member
    exact ⟨node, inside, rfl, rfl, rfl, rfl, rfl, rfl⟩

theorem step_lawful (held : conversation.Held Lawful) (apart : conversation.AsksApart config event)
    (stepped : conversation.step config event = some next) : next.Held Lawful := by
  rcases step_cases stepped with
    ⟨human, inbound, env, drafts, stored, rfl, taken⟩ | ⟨inner, stored, rfl, isInner, taken⟩ |
      ⟨outside, evicted⟩
  · have kept : next.runtime.session.Lawful := by
      rw [Runtime.step_message taken]
      exact Runtime.handle_lawful (held.ensured lawful_restored) inbound drafts
        (Runtime.classify_apt _ inbound) apart
    exact ⟨fun _ => kept.1,
      held.stores.step lawful_empty lawful_restored held.memory (fun _ => kept.2) stepped⟩
  · obtain ⟨present, advanced⟩ := Runtime.step_inner isInner taken
    have kept := Runtime.inner_lawful isInner ⟨held.memory present, held.stores.saved⟩ apart advanced
    exact ⟨fun _ => kept.1,
      held.stores.step lawful_empty lawful_restored held.memory (fun _ => kept.2) stepped⟩
  · refine ⟨fun present => ?_, held.stores.step lawful_empty lawful_restored held.memory ?_ stepped⟩
    · rw [evicted] at present
      cases present
    · intro steps
      rw [outside] at steps
      cases steps

end Runs

end Conversation

/-- In every run in which nobody mentions an agent of its own chain, no help chain
comes back to an agent, in memory and in the store. -/
theorem chains_unrevisited (config : ExecutorConfig) (events : List ConversationEvent)
    (reached : Conversation)
    (guarded : Runs.Guarded (Conversation.step config) (Conversation.AsksApart config)
      Conversation.empty events)
    (ran : Runs.run (Conversation.step config) Conversation.empty events = some reached) :
    (reached.runtime.evicted = false → Unrevisited reached.runtime.session.state) ∧
      Unrevisited reached.runtime.session.saved := by
  have begun : Conversation.empty.Held Lawful := by
    refine ⟨nofun, Conversation.lawful_empty, ?_⟩
    intro turn member
    cases member
  have held := Runs.run_invariant (Conversation.Held Lawful)
    (fun _ _ _ held apart stepped => Conversation.step_lawful held apart stepped) events _ reached
    begun guarded ran
  exact ⟨fun present => (held.memory present).unrevisited, held.stores.saved.unrevisited⟩

section Samples

/-! The only planned node mentions another agent, whose helper answers. -/

def circleEnv : Env := ⟨["writer", "editor"], "now", fun drawn => toString drawn⟩

def circle (answer : String) : List ConversationEvent := [
  .message true { taskId := "t1", text := "write" } circleEnv
    [some [⟨"n1", "first", "writer", .empty, []⟩]] true,
  .session .clearWake true, .session .dispatch true, .session (.start 0) true,
  .session (.outcome 0 circleEnv { ended := .completed, output := some "ask @editor" } none) true,
  .session (.close 0) true, .session .collect true, .session .clearWake true,
  .session .dispatch true, .session (.start 1) true,
  .session (.outcome 1 circleEnv { ended := .completed, output := some answer } none) true]

/-- A helper that mentions nobody leaves the chains apart. -/
theorem quiet_helper_unrevisited :
    ∃ reached, Runs.run (Conversation.step {}) Conversation.empty (circle "fine") = some reached ∧
      Unrevisited reached.runtime.session.state := by
  have guarded : Runs.Guarded (Conversation.step {}) (Conversation.AsksApart {})
      Conversation.empty (circle "fine") := by
    decide +kernel
  have ends : Runs.Ends (Conversation.step {}) Conversation.empty (circle "fine")
      fun reached => reached.runtime.evicted = false := by
    decide +kernel
  obtain ⟨reached, ran, present⟩ := ends
  exact ⟨reached, ran, (chains_unrevisited {} _ reached guarded ran).1 present⟩

/-- What the plan says about a node: its agent, and who has asked for it. -/
def request (state : OrchestrationState) (nodeId : String) : Option (String × Bool × Option String) :=
  (state.node? nodeId).map fun node => (node.agentName, node.derived, node.assistRequestedBy)

/-- The helper mentions the agent that has asked for it, which is asked again. -/
theorem mentioned_requester_revisited :
    ¬ ∀ (config : ExecutorConfig) (events : List ConversationEvent) (reached : Conversation),
      Runs.run (Conversation.step config) Conversation.empty events = some reached →
        reached.runtime.evicted = false → Unrevisited reached.runtime.session.state := by
  intro claim
  have ends : Runs.Ends (Conversation.step {}) Conversation.empty (circle "back to @writer")
      fun reached => reached.runtime.evicted = false ∧
        request reached.runtime.session.state "n1" = some ("writer", false, none) ∧
        request reached.runtime.session.state "n1-a1" = some ("editor", true, some "n1") ∧
        request reached.runtime.session.state "n1-a1-a2" =
          some ("writer", true, some "n1-a1") := by
    decide +kernel
  obtain ⟨reached, ran, present, first, second, third⟩ := ends
  obtain ⟨root, rooted, same⟩ := Option.map_eq_some_iff.mp first
  obtain ⟨helper, helps, told⟩ := Option.map_eq_some_iff.mp second
  obtain ⟨last, there, ended⟩ := Option.map_eq_some_iff.mp third
  simp only [Prod.mk.injEq] at same told ended
  obtain ⟨rootRow, rootId⟩ := reached.runtime.session.state.node_mem _ rooted
  obtain ⟨helperRow, helperId⟩ := reached.runtime.session.state.node_mem _ helps
  obtain ⟨lastRow, _⟩ := reached.runtime.session.state.node_mem _ there
  have up : Asks reached.runtime.session.state helper root :=
    ⟨helperRow, rootRow, by rw [told.2.2, rootId]⟩
  have down : Asks reached.runtime.session.state last helper :=
    ⟨lastRow, helperRow, by rw [ended.2.2, helperId]⟩
  have back : TransGen (Asks reached.runtime.session.state) last root := (TransGen.single down).tail up
  apply (claim {} _ reached ran present).apart last lastRow ended.2.1 root back
  rw [same.1, ended.1]

end Samples

end Choirworks.Orchestration
