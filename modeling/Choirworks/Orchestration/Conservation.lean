import Choirworks.Library.Ledger
import Choirworks.Orchestration.FreshIds

/-!
What becomes of the messages that the room routes to nodes. Each is kept in the
queue of a node or in the text of a follow-up; an account says where. Operations
that hand no words on keep the account as long as no node with a queue ends; the
delivery of a completed node, a follow-up and an interrupt hand words on, and
lose them where the budget of derived nodes is used up.
-/

namespace Choirworks.Orchestration

open OrchestrationState Ledger
open Session (Edits)

/-- Where a message is kept. -/
inductive Place where
  | queue (nodeId : String)
  | followup (nodeId : String)
deriving DecidableEq

namespace NodeState

/-- The node is not over, and has not failed for good. -/
def Takes (config : ExecutorConfig) (node : NodeState) : Prop :=
  node.status ∈ terminalNodeStatuses → node.canRetry config.maxNodeAttempts = true

instance (config : ExecutorConfig) (node : NodeState) : Decidable (node.Takes config) :=
  inferInstanceAs (Decidable (_ → _))

/-- `spawn_followup_node` has made the node. -/
def IsFollowup (node : NodeState) : Prop :=
  node.derived = true ∧ ∃ parentId number, node.id = derivedId parentId .followup number

variable {config : ExecutorConfig} {node later : NodeState}

theorem takes_of_open (unended : node.status ∉ terminalNodeStatuses) : node.Takes config :=
  fun ended => absurd ended unended

theorem Takes.same (takes : node.Takes config) (status : later.status = node.status)
    (attempt : later.attempt = node.attempt) : later.Takes config := by
  unfold Takes canRetry at *
  rwa [status, attempt]

theorem Takes.failed (takes : node.attempt < config.maxNodeAttempts)
    (status : later.status = .failed) (attempt : later.attempt = node.attempt) :
    later.Takes config := by
  unfold Takes canRetry
  simp [status, attempt, takes]

theorem IsFollowup.same (same : SameRow node later) : later.IsFollowup ↔ node.IsFollowup := by
  unfold IsFollowup
  rw [same.id, same.derived]

end NodeState

namespace OrchestrationState

/-- The queues hold what the account says, of nodes that can take it, the exempt
ones apart; and the follow-ups carry what it says, and nothing else. -/
structure Accounts (config : ExecutorConfig) (exempt : String → Prop)
    (account : Account String Place) (state : OrchestrationState) : Prop where
  queues : ∀ nodeId, (state.queued nodeId).map (·.text) = held account (.queue nodeId)
  takers : ∀ nodeId, held account (.queue nodeId) ≠ [] →
    exempt nodeId ∨ ∃ node ∈ state.nodes.rows, node.id = nodeId ∧ node.Takes config
  carriers : ∀ nodeId, held account (.followup nodeId) ≠ [] →
    ∃ node ∈ state.nodes.rows, node.id = nodeId ∧ node.IsFollowup
  carried : ∀ node ∈ state.nodes.rows, node.IsFollowup →
    held account (.followup node.id) ≠ [] ∧
      node.inputText = Text.join "\n\n" (held account (.followup node.id))

/-- Every message that was routed is in one place. -/
def Conserved (config : ExecutorConfig) (routed : List String) (state : OrchestrationState) :
    Prop :=
  ∃ account, items account = routed ∧ Accounts config (fun _ => False) account state

section Accounts

variable {config : ExecutorConfig} {exempt more : String → Prop} {account : Account String Place}
  {state old new : OrchestrationState} {scope : Scope}

theorem Accounts.mono (accounts : Accounts config exempt account state)
    (all : ∀ nodeId, held account (.queue nodeId) ≠ [] → exempt nodeId → more nodeId) :
    Accounts config more account state :=
  ⟨accounts.queues, fun nodeId some_text =>
    (accounts.takers nodeId some_text).imp_left (all nodeId some_text), accounts.carriers,
    accounts.carried⟩

theorem Accounts.congr (accounts : Accounts config exempt account old)
    (nodes : new.nodes = old.nodes) (queue : new.queue = old.queue) :
    Accounts config exempt account new where
  queues nodeId := by
    rw [← accounts.queues nodeId, queued, queued, queue]
  takers := nodes ▸ accounts.takers
  carriers := nodes ▸ accounts.carriers
  carried := nodes ▸ accounts.carried

/-- Rows change, but no node that has a queue ends. -/
theorem Accounts.rows (accounts : Accounts config exempt account state)
    {change : NodeState → NodeState} (keeps : ∀ node, (change node).id = node.id)
    (same : ∀ node ∈ state.nodes.rows, SameRow node (change node))
    (takes : ∀ node ∈ state.nodes.rows, held account (.queue node.id) ≠ [] →
      node.Takes config → exempt node.id ∨ (change node).Takes config) :
    Accounts config exempt account { state with nodes := state.nodes.map change keeps } where
  queues := accounts.queues
  takers := by
    intro nodeId some_text
    refine (accounts.takers nodeId some_text).elim Or.inl ?_
    rintro ⟨node, member, rfl, taking⟩
    refine (takes node member some_text taking).imp_right fun still => ?_
    exact ⟨change node, List.mem_map_of_mem member, keeps node, still⟩
  carriers := by
    intro nodeId some_text
    obtain ⟨node, member, rfl, follows⟩ := accounts.carriers nodeId some_text
    exact ⟨change node, List.mem_map_of_mem member, keeps node,
      (NodeState.IsFollowup.same (same node member)).mpr follows⟩
  carried := by
    intro node member follows
    obtain ⟨before, inside, rfl⟩ := List.mem_map.mp member
    rw [keeps, (same before inside).inputText]
    exact accounts.carried before inside ((NodeState.IsFollowup.same (same before inside)).mp follows)

theorem Accounts.row (accounts : Accounts config exempt account state) {node later : NodeState}
    (member : node ∈ state.nodes.rows) (same : SameRow node later)
    (takes : held account (.queue node.id) ≠ [] → node.Takes config →
      exempt node.id ∨ later.Takes config) :
    Accounts config exempt account (state.setNode later) := by
  have known : later.id ∈ state.nodes.keys := same.id ▸ state.nodes.key_mem_keys member
  have itself : ∀ other ∈ state.nodes.rows, other.id = later.id → other = node :=
    fun other inside hit => state.nodes.row_unique inside member (hit.trans same.id)
  unfold OrchestrationState.setNode
  rw [Table.insert_known _ _ known]
  refine accounts.rows (fun other => by split <;> simp [*]) ?_ ?_
  · intro other inside
    split
    · rename_i hit
      rw [itself other inside hit]
      exact same
    · exact .refl other
  · intro other inside some_text taking
    split
    · rename_i hit
      rw [itself other inside hit] at some_text taking ⊢
      exact takes some_text taking
    · exact Or.inr taking

/-- A node is drawn that is no follow-up, and takes the place of none. -/
theorem Accounts.drawn (accounts : Accounts config exempt account state) {node : NodeState}
    (begins : ∀ other ∈ state.nodes.rows, other.id = node.id → node.Takes config)
    (plain : ¬ node.IsFollowup)
    (fresh : ∀ other ∈ state.nodes.rows, other.IsFollowup → other.id ≠ node.id) :
    Accounts config exempt account (state.setNode node) where
  queues := accounts.queues
  takers := by
    intro nodeId some_text
    refine (accounts.takers nodeId some_text).imp_right ?_
    rintro ⟨other, member, rfl, taking⟩
    by_cases hit : other.id = node.id
    · exact ⟨node, (mem_setNode _ _ _).mpr (Or.inl rfl), hit.symm, begins other member hit⟩
    · exact ⟨other, (mem_setNode _ _ _).mpr (Or.inr ⟨member, hit⟩), rfl, taking⟩
  carriers := by
    intro nodeId some_text
    obtain ⟨other, member, rfl, follows⟩ := accounts.carriers nodeId some_text
    exact ⟨other, (mem_setNode _ _ _).mpr (Or.inr ⟨member, fresh other member follows⟩), rfl,
      follows⟩
  carried := by
    intro other member follows
    rcases (mem_setNode _ _ _).mp member with rfl | ⟨inside, _⟩
    · exact absurd follows plain
    · exact accounts.carried other inside follows

/-- Only a node that can take its messages has a queue. -/
theorem Conserved.taken {routed : List String} {nodeId : String}
    (conserved : Conserved config routed state) (some_text : state.queued nodeId ≠ []) :
    ∃ node ∈ state.nodes.rows, node.id = nodeId ∧ node.Takes config := by
  obtain ⟨account, _, accounts⟩ := conserved
  have words : held account (.queue nodeId) ≠ [] := by
    rw [← accounts.queues nodeId]
    simpa using some_text
  exact (accounts.takers nodeId words).resolve_left id

end Accounts

end OrchestrationState

section Edit

variable {config : ExecutorConfig} {exempt : String → Prop} {account : Account String Place}
  {old new : OrchestrationState} {scope : Scope}

/-- Nodes that have a queue do not end, and no words are handed on. -/
structure Scope.Hoards (scope : Scope) (exempt : String → Prop) (account : Account String Place) :
    Prop where
  counts : ¬ scope.counts
  hands : ¬ scope.hands
  moves : ∀ nodeId status target, scope.moves nodeId status target →
    target ∈ terminalNodeStatuses → exempt nodeId ∨ held account (.queue nodeId) = []

theorem Edit.accounts (edit : Edit scope old new) (hoards : scope.Hoards exempt account)
    (drawn : Drawn old) (accounts : Accounts config exempt account old) :
    Accounts config exempt account new := by
  cases edit with
  | @rows change keeps same allowed counted =>
      refine accounts.rows keeps same fun node member some_text taking => ?_
      have attempt := (counted node member).resolve_right hoards.counts
      rcases allowed node member with stays | moved
      · exact Or.inr (taking.same stays attempt)
      · by_cases ended : (change node).status ∈ terminalNodeStatuses
        · exact Or.inl ((hoards.moves _ _ _ moved ended).resolve_right some_text)
        · exact Or.inr (NodeState.takes_of_open ended)
  | @draft node number _ named fresh _ =>
      have plain : ¬ node.IsFollowup := by
        rintro ⟨_, parentId, other, hit⟩
        have underived := isDerivedId_derivedId parentId .followup other
        rw [← hit, named, patchNodeId_underived] at underived
        cases underived
      have apart : ∀ other ∈ old.nodes.rows, other.id ≠ node.id := fun other member hit =>
        fresh (hit ▸ old.nodes.key_mem_keys member)
      exact (accounts.drawn (fun other member hit => absurd hit (apart other member)) plain
        fun other member _ => apart other member).congr rfl rfl
  | spawn spawn helps =>
      have helps := helps.resolve_left fun follows => hoards.hands follows.1
      have plain : ¬ (spawn.node (old.derivedCount + 1)).IsFollowup := by
        rintro ⟨_, parentId, other, hit⟩
        exact helps.kind (derivedId_kind hit)
      have pending : (spawn.node (old.derivedCount + 1)).Takes config :=
        NodeState.takes_of_open (by decide : NodeStatus.pending ∉ terminalNodeStatuses)
      exact (accounts.drawn (fun _ _ _ => pending) plain
        fun other member follows => drawn.fresh spawn other member follows.1).congr rfl rfl
  | side members queue revisionCount nextMessage handed =>
      obtain rfl := handed.resolve_right hoards.hands
      exact ⟨accounts.queues, accounts.takers, accounts.carriers, accounts.carried⟩
  | settle => exact ⟨accounts.queues, accounts.takers, accounts.carriers, accounts.carried⟩
  | ask requested =>
      obtain ⟨_, rfl⟩ := requestUserInput_cases requested
      exact ⟨accounts.queues, accounts.takers, accounts.carriers, accounts.carried⟩

end Edit

/-- The account holds in memory and in the store. -/
structure Session.Accounted (config : ExecutorConfig) (exempt : String → Prop)
    (account : Account String Place) (session : Session) : Prop where
  memory : Accounts config exempt account session.state
  stored : Accounts config exempt account session.saved
  drawn : Drawn session.state
  drawnStored : Drawn session.saved

namespace Session

section Accounted

variable {config : ExecutorConfig} {exempt more : String → Prop} {account : Account String Place}
  {scope : Scope} {session next : Session} {state : OrchestrationState}

theorem Edits.accounted (edits : Edits scope session next) (hoards : scope.Hoards exempt account)
    (accounted : session.Accounted config exempt account) :
    next.Accounted config exempt account := by
  let known (state : OrchestrationState) : Prop :=
    Drawn state ∧ Accounts config exempt account state
  have kept : ∀ {old new}, Edit scope old new → known old → known new :=
    fun edit both => ⟨edit.drawn both.1, edit.accounts hoards both.1 both.2⟩
  have both := edits.both kept
    ⟨⟨accounted.drawn, accounted.memory⟩, accounted.drawnStored, accounted.stored⟩
  exact ⟨both.1.2, both.2.2, both.1.1, both.2.1⟩

theorem Accounted.mono (accounted : session.Accounted config exempt account)
    (all : ∀ nodeId, held account (.queue nodeId) ≠ [] → exempt nodeId → more nodeId) :
    session.Accounted config more account :=
  ⟨accounted.memory.mono all, accounted.stored.mono all, accounted.drawn, accounted.drawnStored⟩

theorem accounted_of_stored (accounts : Accounts config exempt account state)
    (drawn : Drawn state) : Accounted config exempt account ⟨state, state⟩ :=
  ⟨accounts, accounts, drawn, drawn⟩

end Accounted

end Session

/-! ### The words that are handed on -/

namespace OrchestrationState

section Hands

variable {config : ExecutorConfig} {exempt : String → Prop} {account : Account String Place}
  {state : OrchestrationState}

theorem queued_set (nodeId other : String) (messages : List QueuedMessage) :
    { state with queue := state.queue.set nodeId messages }.queued other =
      if other = nodeId then messages else state.queued other := by
  by_cases hit : other = nodeId <;> simp [queued, Dict.getD, hit]

theorem queued_erase (nodeId other : String) :
    { state with queue := state.queue.erase nodeId }.queued other =
      if other = nodeId then [] else state.queued other := by
  by_cases hit : other = nodeId <;> simp [queued, Dict.getD, hit]

/-- A message is queued on a node that can take it. -/
theorem Accounts.enqueue (accounts : Accounts config exempt account state) {node : NodeState}
    (member : node ∈ state.nodes.rows) (takes : node.Takes config) (text : String)
    (quoteId : Option String) (now : String) :
    Accounts config exempt (account ++ [(text, .queue node.id)])
      (state.enqueue node.id text quoteId now) where
  queues := by
    intro nodeId
    rw [held_append, ← accounts.queues nodeId]
    refine (congrArg _ (@queued_set state node.id nodeId _)).trans ?_
    by_cases hit : nodeId = node.id
    · simp [hit]
    · simp [hit, Ne.symm hit]
  takers := by
    intro nodeId some_text
    by_cases hit : node.id = nodeId
    · exact Or.inr ⟨node, member, hit, takes⟩
    · rw [held_append, if_neg (by simpa using hit)] at some_text
      exact accounts.takers nodeId some_text
  carriers := by
    intro nodeId some_text
    rw [held_append, if_neg nofun] at some_text
    exact accounts.carriers nodeId some_text
  carried := by
    intro other inside follows
    rw [held_append, if_neg nofun]
    exact accounts.carried other inside follows

/-- Nothing is carried yet by a node that is still to be drawn. -/
theorem Accounts.uncarried (accounts : Accounts config exempt account state)
    (drawn : Drawn state) (spawn : Spawn) :
    held account (.followup (spawn.node (state.derivedCount + 1)).id) = [] := by
  by_contra some_text
  obtain ⟨node, member, hit, follows⟩ := accounts.carriers _ some_text
  exact drawn.fresh spawn node member follows.1 hit

/-- A follow-up is made of what the account says. -/
theorem Accounts.follow (accounts : Accounts config exempt account state) (drawn : Drawn state)
    {more : String → Prop} {later : Account String Place} {spawn : Spawn} {nodeId : String}
    (kind : spawn.kind = .followup) (named : (spawn.node (state.derivedCount + 1)).id = nodeId)
    {queue : Dict String (List QueuedMessage)}
    (queues : ∀ other, (queue.getD other []).map (·.text) = held later (.queue other))
    (takers : ∀ other, held later (.queue other) ≠ [] →
      held account (.queue other) ≠ [] ∧ (exempt other → more other))
    (others : ∀ other, other ≠ nodeId → held later (.followup other) = held account (.followup other))
    (words : held later (.followup nodeId) ≠ [])
    (text : spawn.inputText = Text.join "\n\n" (held later (.followup nodeId))) :
    Accounts config more later
      { state.setNode (spawn.node (state.derivedCount + 1)) with
        derivedCount := state.derivedCount + 1, queue } where
  queues := queues
  takers := by
    intro other some_text
    obtain ⟨before, still⟩ := takers other some_text
    refine (accounts.takers other before).imp still ?_
    rintro ⟨node, member, rfl, taking⟩
    -- A follow-up written over the taker is pending, so it takes the queue in its place.
    by_cases hit : node.id = (spawn.node (state.derivedCount + 1)).id
    · exact ⟨_, (mem_setNode _ _ _).mpr (Or.inl rfl), hit.symm,
        NodeState.takes_of_open (by decide : NodeStatus.pending ∉ terminalNodeStatuses)⟩
    · exact ⟨node, (mem_setNode _ _ _).mpr (Or.inr ⟨member, hit⟩), rfl, taking⟩
  carriers := by
    intro other some_text
    by_cases hit : other = nodeId
    · refine ⟨_, (mem_setNode _ _ _).mpr (Or.inl rfl), named.trans hit.symm, rfl, spawn.parentId,
        state.derivedCount + 1, ?_⟩
      rw [← kind]
      rfl
    · rw [others other hit] at some_text
      obtain ⟨node, member, rfl, follows⟩ := accounts.carriers other some_text
      exact ⟨node, (mem_setNode _ _ _).mpr
        (Or.inr ⟨member, drawn.fresh spawn node member follows.1⟩), rfl, follows⟩
  carried := by
    intro node member follows
    rcases (mem_setNode _ _ _).mp member with rfl | ⟨inside, apart⟩
    · rw [named]
      exact ⟨words, text⟩
    · rw [others node.id (by rw [← named]; exact apart)]
      exact accounts.carried node inside follows

end Hands

end OrchestrationState

section Hands

variable {config : ExecutorConfig} {env : Env} {exempt : String → Prop}
  {account : Account String Place} {session : Session}

theorem enqueue_accounted (accounted : session.Accounted config exempt account)
    {node : NodeState} (member : node ∈ session.state.nodes.rows) (takes : node.Takes config)
    (text : String) (quoteId : Option String) (now : String) :
    Session.Accounted config exempt (account ++ [(text, .queue node.id)])
      { session with state := session.state.enqueue node.id text quoteId now }.persist :=
  Session.accounted_of_stored (accounted.memory.enqueue member takes text quoteId now)
    accounted.drawn

/-- The follow-up that is spawned for a text. -/
def followupSpawn (text : String) (anchor : NodeState) (deps : List String) : Spawn :=
  { kind := .followup, parentId := anchor.id, agentName := anchor.agentName, inputText := text,
    deps }

theorem followupSpawn_id (text : String) (anchor : NodeState) (deps : List String) (count : Nat) :
    ((followupSpawn text anchor deps).node count).id = derivedId anchor.id .followup count := rfl

/-- The state behind the spawn. -/
def OrchestrationState.spawned (state : OrchestrationState) (spawn : Spawn) : OrchestrationState :=
  { state.setNode (spawn.node (state.derivedCount + 1)) with
    derivedCount := state.derivedCount + 1 }

/-- Within the budget, a follow-up is made, and stored. -/
theorem spawnFollowupNode_room (room : session.state.derivedCount < config.maxDerivedNodes)
    (text : String) (anchor : NodeState) (deps : List String) :
    spawnFollowupNode config env session text anchor deps =
      ⟨session.state.spawned (followupSpawn text anchor deps),
        session.state.spawned (followupSpawn text anchor deps)⟩ := by
  simp only [spawnFollowupNode, spawnDerivedNode]
  rw [if_neg (Nat.not_le_of_lt room)]
  rfl

theorem spawned_drawn {state : OrchestrationState} (drawn : Drawn state) {spawn : Spawn}
    (follows : spawn.Follows) : Drawn (state.spawned spawn) := by
  have edit : Edit .all state (state.spawned spawn) := .spawn spawn (Or.inl ⟨trivial, follows⟩)
  exact edit.drawn drawn

theorem followup_accounted (accounted : session.Accounted config exempt account)
    (room : session.state.derivedCount < config.maxDerivedNodes) (text : String)
    (anchor : NodeState) (deps : List String) :
    Session.Accounted config exempt
      (account ++ [(text, .followup (derivedId anchor.id .followup
        (session.state.derivedCount + 1)))])
      (spawnFollowupNode config env session text anchor deps) := by
  rw [spawnFollowupNode_room room]
  have fresh := accounted.memory.uncarried accounted.drawn (followupSpawn text anchor deps)
  refine Session.accounted_of_stored ?_ (spawned_drawn accounted.drawn ⟨rfl, rfl⟩)
  refine accounted.memory.follow accounted.drawn rfl (followupSpawn_id text anchor deps _) ?_ ?_
    ?_ ?_ ?_
  · intro other
    rw [held_append, if_neg nofun]
    exact accounted.memory.queues other
  · intro other some_text
    rw [held_append, if_neg nofun] at some_text
    exact ⟨some_text, id⟩
  · intro other apart
    rw [held_append, if_neg (by simpa using apart.symm)]
  · rw [held_append, if_pos rfl]
    simp
  · rw [held_append, if_pos rfl]
    exact (congrArg (fun before => Text.join "\n\n" (before ++ [text])) fresh).symm

/-- The queue of a completed node becomes its follow-up. -/
theorem deliver_accounted {node : NodeState}
    (accounted : session.Accounted config (· = node.id) account)
    (room : session.state.queued node.id ≠ [] →
      session.state.derivedCount < config.maxDerivedNodes) :
    ∃ later, items later = items account ∧
      (deliverQueued config env session node).Accounted config (fun _ => False) later := by
  have queues := accounted.memory.queues node.id
  by_cases none : session.state.queued node.id = []
  · have delivered : deliverQueued config env session node =
        { session with state := (session.state.takeQueued node.id).2 } := if_pos none
    rw [delivered]
    have idle : held account (.queue node.id) = [] := by
      rw [← queues, none]
      rfl
    have settled : session.Accounted config (fun _ => False) account :=
      accounted.mono fun nodeId some_text same => some_text (same ▸ idle)
    refine ⟨account, rfl, ⟨?_, settled.memory.takers, settled.memory.carriers,
      settled.memory.carried⟩, settled.stored, settled.drawn, settled.drawnStored⟩
    intro nodeId
    rw [takeQueued, queued_erase]
    split
    · rename_i same
      rw [same, idle]
      rfl
    · exact settled.memory.queues nodeId
  · -- The queue's account is handed on whole to the follow-up that carries its words.
    let taken := { session with state := (session.state.takeQueued node.id).2 }
    let words := Text.join "\n\n" ((session.state.queued node.id).map (·.text))
    have delivered : deliverQueued config env session node =
        spawnFollowupNode config env taken words node [node.id] := if_neg none
    have within : taken.state.derivedCount < config.maxDerivedNodes := room none
    rw [delivered, spawnFollowupNode_room within]
    let target := derivedId node.id .followup (session.state.derivedCount + 1)
    have fresh : held account (.followup target) = [] :=
      accounted.memory.uncarried accounted.drawn (followupSpawn words node [node.id])
    let later := handOn (.queue node.id) (.followup target) account
    have carried : held later (.followup target) = held account (.queue node.id) :=
      held_handOn_target fresh
    have drained : held later (.queue node.id) = [] := held_handOn_source (by simp)
    have queues' : ∀ other, other ≠ node.id →
        held later (.queue other) = held account (.queue other) :=
      fun other apart => held_handOn_other (by simpa using apart) (by simp)
    have others : ∀ other, other ≠ target →
        held later (.followup other) = held account (.followup other) :=
      fun other apart => held_handOn_other (by simp) (by simpa using apart)
    refine ⟨later, items_handOn,
      Session.accounted_of_stored ?_ (spawned_drawn accounted.drawn ⟨rfl, rfl⟩)⟩
    refine accounted.memory.follow accounted.drawn rfl (followupSpawn_id words node [node.id] _)
      ?_ ?_ others ?_ ?_
    · intro other
      refine (congrArg _ (@queued_erase session.state node.id other)).trans ?_
      split
      · rename_i same
        rw [same, drained]
        rfl
      · rename_i apart
        rw [queues' other apart]
        exact accounted.memory.queues other
    · intro other some_text
      have apart : other ≠ node.id := by
        rintro rfl
        exact some_text drained
      rw [queues' other apart] at some_text
      exact ⟨some_text, apart⟩
    · show held later (.followup target) ≠ []
      rw [carried, ← queues]
      simpa using none
    · show words = Text.join "\n\n" (held later (.followup target))
      rw [carried, ← queues]

end Hands

/-! ### Assists -/

/-- The agents that the completion of the node asks for help. -/
def assistsFor (env : Env) (state : OrchestrationState) (node : NodeState) : List String :=
  match node.output with
  | none => []
  | some output => (mentionsOf output).filter fun name =>
      name ≠ node.agentName ∧ name ∈ env.agents ∧ state.assistNodesFor name node.id = []

section Assists

variable {config : ExecutorConfig} {env : Env} {scope : Scope} {old new : OrchestrationState}
  {session : Session} {node : NodeState}

theorem assistNodesFor_some {name requestedBy : String} :
    old.assistNodesFor name requestedBy ≠ [] ↔ ∃ helper ∈ old.nodes.rows,
      helper.derived = true ∧ helper.assistRequestedBy = some requestedBy ∧
        helper.agentName = name := by
  rw [ne_eq, assistNodesFor, List.filter_eq_nil_iff]
  simp

/-- No edit takes an assist out. -/
theorem Edit.assists (edit : Edit scope old new) (drawn : Drawn old) {name requestedBy : String}
    (asked : old.assistNodesFor name requestedBy ≠ []) :
    new.assistNodesFor name requestedBy ≠ [] := by
  rw [assistNodesFor_some] at asked ⊢
  obtain ⟨helper, member, derived, requested, named⟩ := asked
  cases edit with
  | @rows change keeps same =>
      have row := same helper member
      exact ⟨change helper, List.mem_map_of_mem member, row.derived ▸ derived,
        row.assistRequestedBy ▸ requested, row.agentName ▸ named⟩
  | @draft node number _ _ fresh _ =>
      have apart : helper.id ≠ node.id := fun hit =>
        fresh (hit ▸ old.nodes.key_mem_keys member)
      exact ⟨helper, (mem_setNode _ _ _).mpr (Or.inr ⟨member, apart⟩), derived, requested, named⟩
  | spawn spawn =>
      exact ⟨helper, (mem_setNode _ _ _).mpr
        (Or.inr ⟨member, drawn.fresh spawn helper member derived⟩), derived, requested, named⟩
  | side | settle => exact ⟨helper, member, derived, requested, named⟩
  | ask requested' =>
      obtain ⟨_, rfl⟩ := requestUserInput_cases requested'
      exact ⟨helper, member, derived, requested, named⟩

theorem Session.Edits.assists {next : Session} (edits : Edits scope session next)
    (drawn : Drawn session.state) {name requestedBy : String}
    (asked : session.state.assistNodesFor name requestedBy ≠ []) :
    next.state.assistNodesFor name requestedBy ≠ [] := by
  let known (state : OrchestrationState) : Prop :=
    Drawn state ∧ state.assistNodesFor name requestedBy ≠ []
  have kept : ∀ {old new}, Edit scope old new → known old → known new :=
    fun edit both => ⟨edit.drawn both.1, edit.assists both.1 both.2⟩
  exact (edits.kept kept (show known session.state from ⟨drawn, asked⟩)).2

/-- Fewer agents are asked where more have been asked already. -/
theorem asked_fewer (env : Env) (node : NodeState) (names : List String) (asked : ∀ name,
    old.assistNodesFor name node.id ≠ [] → new.assistNodesFor name node.id ≠ []) :
    (names.filter fun name => name ≠ node.agentName ∧ name ∈ env.agents ∧
        new.assistNodesFor name node.id = []).length ≤
      (names.filter fun name => name ≠ node.agentName ∧ name ∈ env.agents ∧
        old.assistNodesFor name node.id = []).length := by
  apply List.Sublist.length_le
  apply List.monotone_filter_right
  intro name unasked
  simp only [decide_eq_true_eq] at unasked ⊢
  exact ⟨unasked.1, unasked.2.1, Decidable.not_not.mp fun before =>
    asked name before unasked.2.2⟩

theorem spawnDerivedNode_count (session : Session) (spawn : Spawn) :
    (spawnDerivedNode config env session spawn).1.state.derivedCount ≤
      session.state.derivedCount + 1 := by
  rcases spawnDerivedNode_cases config env session spawn with
    ⟨_, refused⟩ | ⟨state, _, quiet, accepted⟩
  · rw [refused]
    exact Nat.le_succ _
  · rw [accepted]
    exact Nat.le_of_eq quiet.derivedCount

/-- Each assist is one derived node. -/
theorem spawnMentioned_count (output : String) (names : List String) (drawn : Drawn session.state) :
    (spawnMentioned config env node output names session).state.derivedCount ≤
      session.state.derivedCount + (names.filter fun name => name ≠ node.agentName ∧
        name ∈ env.agents ∧ session.state.assistNodesFor name node.id = []).length := by
  induction names generalizing session with
  | nil => exact Nat.le_refl _
  | cons name rest ih =>
      simp only [spawnMentioned]
      split
      · refine Nat.le_trans (ih drawn) (Nat.add_le_add_left ?_ _)
        exact ((List.sublist_cons_self name rest).filter _).length_le
      · rename_i asks
        let spawn : Spawn :=
          { kind := .assist, parentId := node.id, agentName := name,
            inputText := buildAssistInput node.agentName (some output),
            assistRequestedBy := some node.id }
        have edits : Edits .all session (spawnDerivedNode config env session spawn).1 :=
          spawnDerivedNode_edits config env session spawn (Or.inr ⟨by simp [spawn], rfl, rfl⟩)
        have counted : (spawnDerivedNode config env session spawn).1.state.derivedCount ≤
            session.state.derivedCount + 1 := spawnDerivedNode_count session spawn
        have taken : name ≠ node.agentName ∧ name ∈ env.agents ∧
            session.state.assistNodesFor name node.id = [] := by
          simpa [not_or] using asks
        rw [List.filter_cons_of_pos (by simpa using taken), List.length_cons]
        split
        · rename_i result
          simp only [show spawnDerivedNode config env session spawn = _ from result] at counted
          omega
        · rename_i result
          simp only [show spawnDerivedNode config env session spawn = _ from result]
            at counted edits
          have later := ih (edits.kept Edit.drawn drawn)
          have fewer := asked_fewer env node rest fun name asked => edits.assists drawn asked
          omega

theorem arbitrateMentions_count (drawn : Drawn session.state) :
    (arbitrateMentions config env session node).state.derivedCount ≤
      session.state.derivedCount + (assistsFor env session.state node).length := by
  unfold arbitrateMentions assistsFor
  cases node.output with
  | none => exact Nat.le_refl _
  | some output => exact spawnMentioned_count output (mentionsOf output) drawn

end Assists

/-! ### Executions -/

/-- Only nodes without a queue end. -/
def hoardScope (exempt : String → Prop) (account : Account String Place) : Scope where
  moves nodeId _ target :=
    target ∈ terminalNodeStatuses → exempt nodeId ∨ held account (.queue nodeId) = []
  asks _ _ _ := True
  counts := False
  hands := False

section Executions

variable {config : ExecutorConfig} {env : Env} {exempt : String → Prop}
  {account : Account String Place} {session next : Session} {ref : NodeRef}
  {fields : NodeState → NodeState} {node later : NodeState}

theorem hoarded (edits : Edits (hoardScope exempt account) session next)
    (accounted : session.Accounted config exempt account) :
    next.Accounted config exempt account :=
  edits.accounted ⟨id, id, fun _ _ _ moved ended => moved ended⟩ accounted

theorem write_accounted (accounted : session.Accounted config exempt account)
    (found : session.read ref = some node) (same : SameRow node later)
    (takes : ∀ nodeId, ref = .planned nodeId → held account (.queue nodeId) ≠ [] →
      node.Takes config → exempt nodeId ∨ later.Takes config) :
    (session.write ref later).1.Accounted config exempt account := by
  cases ref with
  | detached own => exact accounted
  | planned nodeId =>
      obtain ⟨member, rfl⟩ := session.state.node_mem nodeId found
      have edit : Edit .all session.state (session.state.setNode later) :=
        .row member same (Or.inr trivial) (Or.inr trivial)
      exact ⟨accounted.memory.row member same (takes _ rfl), accounted.stored,
        edit.drawn accounted.drawn, accounted.drawnStored⟩

theorem change_accounted (accounted : session.Accounted config exempt account)
    (same : ∀ node, SameRow node (fields node))
    (takes : ∀ nodeId, ref = .planned nodeId → ∀ node ∈ session.state.node? nodeId,
      held account (.queue nodeId) ≠ [] → node.Takes config →
        exempt nodeId ∨ (fields node).Takes config) :
    (session.change ref fields).session.Accounted config exempt account := by
  unfold Session.change
  split
  · exact accounted
  · rename_i node found
    refine write_accounted accounted found (same node) fun nodeId planned => ?_
    subst planned
    exact takes nodeId rfl node found

theorem transition_accounted {target : NodeStatus}
    (accounted : session.Accounted config exempt account)
    (same : ∀ node, SameRow node (fields node))
    (takes : ∀ nodeId, ref = .planned nodeId → ∀ node ∈ session.state.node? nodeId,
      held account (.queue nodeId) ≠ [] → node.Takes config →
        exempt nodeId ∨ ((fields node).Takes config ∧
          ((fields node).canTransition target = true →
            { fields node with status := target }.Takes config))) :
    (session.transition ref fields target).session.Accounted config exempt account := by
  unfold Session.transition
  split
  · exact accounted
  · rename_i node found
    split
    · refine write_accounted accounted found (same node) fun nodeId planned some_text taking => ?_
      subst planned
      exact (takes nodeId rfl node found some_text taking).imp_right And.left
    · rename_i moved allowed
      obtain ⟨may, rfl⟩ := NodeState.apply_transition_ok allowed
      refine write_accounted accounted found ((same node).moved target)
        fun nodeId planned some_text taking => ?_
      subst planned
      exact (takes nodeId rfl node found some_text taking).imp_right fun both => both.2 may

/-- An attempt is counted of a node that has not failed, or has more of them. -/
theorem startNode_accounted (accounted : session.Accounted config exempt account) (mode : Mode)
    (attempts : ∀ nodeId, ref = .planned nodeId → ∀ node ∈ session.state.node? nodeId,
      node.status = .failed → held account (.queue nodeId) ≠ [] →
        node.attempt + 1 < config.maxNodeAttempts) :
    (startNode session ref mode).session.Accounted config exempt account := by
  have counted : ∀ nodeId, ref = .planned nodeId → ∀ node ∈ session.state.node? nodeId,
      held account (.queue nodeId) ≠ [] → node.Takes config →
        (countAttempt node).Takes config := by
    intro nodeId planned node found some_text taking ended
    have retries := taking ended
    simp only [NodeState.canRetry, decide_eq_true_eq] at retries
    simpa [NodeState.canRetry, countAttempt, retries.1] using
      attempts nodeId planned node found retries.1 some_text
  have same : ∀ node, SameRow node (countAttempt node) := fun _ => ⟨rfl, rfl, rfl, rfl, rfl, rfl⟩
  have taken : ∀ node, SameRow node (takeAnswer node) ∧
      (takeAnswer node).status = node.status ∧ (takeAnswer node).attempt = node.attempt := by
    intro node
    unfold takeAnswer
    split
    · exact ⟨⟨rfl, rfl, rfl, rfl, rfl, rfl⟩, rfl, rfl⟩
    · exact ⟨.refl node, rfl, rfl⟩
  cases mode with
  | recover =>
      refine transition_accounted accounted .refl fun _ _ _ _ _ taking => Or.inr ⟨taking, fun _ => ?_⟩
      exact NodeState.takes_of_open (by decide : NodeStatus.recover ∉ terminalNodeStatuses)
  | continuation =>
      refine change_accounted accounted (fun node => (same node).trans (taken _).1) ?_
      intro nodeId planned node found some_text taking
      exact Or.inr ((counted nodeId planned node found some_text taking).same (taken _).2.1
        (taken _).2.2)
  | dispatch =>
      have begun : (session.transition ref countAttempt .submitted).session.Accounted config exempt
          account := by
        refine transition_accounted accounted same ?_
        intro nodeId planned node found some_text taking
        refine Or.inr ⟨counted nodeId planned node found some_text taking, fun _ => ?_⟩
        exact NodeState.takes_of_open (by decide : NodeStatus.submitted ∉ terminalNodeStatuses)
      simp only [startNode]
      split
      · exact begun
      · refine change_accounted begun (fun node => (taken node).1) ?_
        intro nodeId planned node found some_text taking
        exact Or.inr (taking.same (taken node).2.1 (taken node).2.2)

theorem chunkNode_accounted (accounted : session.Accounted config exempt account)
    (a2aTaskId : Option String) (submitted : Bool) :
    (chunkNode session ref a2aTaskId submitted).session.Accounted config exempt account :=
  hoarded (chunkNode_edits a2aTaskId submitted fun _ _ _ _ _ _ ended => absurd ended (by decide))
    accounted

theorem collectTask_accounted (accounted : session.Accounted config exempt account)
    (task : NodeTask)
    (lasts : ∀ text, task.phase = .done (some text) → ∀ nodeId, task.ref = .planned nodeId →
      ∀ node ∈ session.state.node? nodeId, node.canTransition .failed = true →
        held account (.queue nodeId) ≠ [] → node.attempt < config.maxNodeAttempts) :
    (Runtime.collectTask session task).Accounted config exempt account := by
  unfold Runtime.collectTask
  split
  · rename_i text nodeId phase planned
    split
    · exact accounted
    · rename_i node found
      refine @write_accounted config exempt account session (.planned nodeId) node _ accounted found
        ?_ ?_
      · split <;> exact ⟨rfl, rfl, rfl, rfl, rfl, rfl⟩
      · intro own same some_text taking
        cases same
        refine Or.inr ?_
        split
        · rename_i may
          exact NodeState.Takes.failed (lasts text phase nodeId planned node found may some_text)
            rfl rfl
        · exact taking
  · exact accounted

/-- A collected execution leaves the attempts alone, and no node that cannot fail
fails. -/
theorem collectTask_row {task : NodeTask} {nodeId : String}
    (found : (Runtime.collectTask session task).state.node? nodeId = some later) :
    ∃ node, session.state.node? nodeId = some node ∧ later.attempt = node.attempt ∧
      (later.canTransition .failed = true → node.canTransition .failed = true) := by
  unfold Runtime.collectTask at found
  split at found
  · rename_i text own phase planned
    split at found
    · exact ⟨later, found, rfl, id⟩
    · rename_i node there
      obtain rfl := (session.state.node_mem own there).2
      dsimp only at found
      split at found
      · rename_i may
        simp only [node?, setNode, Table.find?_insert] at found
        split at found
        · rename_i same
          cases found
          exact ⟨node, same ▸ there, rfl, fun _ => may⟩
        · exact ⟨later, found, rfl, id⟩
      · simp only [node?, setNode, Table.find?_insert] at found
        split at found
        · rename_i same
          cases found
          exact ⟨node, same ▸ there, rfl, id⟩
        · exact ⟨later, found, rfl, id⟩
  · exact ⟨later, found, rfl, id⟩

theorem collected_accounted (tasks : List NodeTask) {session : Session}
    (accounted : session.Accounted config exempt account)
    (lasts : ∀ task ∈ tasks, ∀ text, task.phase = .done (some text) →
      ∀ nodeId, task.ref = .planned nodeId → ∀ node ∈ session.state.node? nodeId,
        node.canTransition .failed = true → held account (.queue nodeId) ≠ [] →
          node.attempt < config.maxNodeAttempts) :
    (tasks.foldl Runtime.collectTask session).Accounted config exempt account := by
  induction tasks generalizing session with
  | nil => exact accounted
  | cons task rest ih =>
      refine ih (collectTask_accounted accounted task (lasts task List.mem_cons_self)) ?_
      intro other member text phase nodeId planned later found may some_text
      obtain ⟨node, there, attempt, could⟩ := collectTask_row found
      rw [attempt]
      exact lasts other (List.mem_cons_of_mem _ member) text phase nodeId planned node there
        (could may) some_text

/-! ### Outcomes -/

/-- A patch invalidates no node that has a queue. -/
def SparesQueues (env : Env) (state : OrchestrationState) (patch : PlanPatch) : Prop :=
  ∀ node, Affected (withDrafts state patch env.agents) patch.invalidate node →
    state.queued node.id = []

instance (env : Env) (state : OrchestrationState) (patch : PlanPatch) :
    Decidable (SparesQueues env state patch) :=
  decidable_of_iff
    (∀ nodeId ∈ (applyPatch state patch env.agents).result.invalidated, state.queued nodeId = [])
    (by
      obtain ⟨_, taken⟩ := applyPatch_cut state patch env.agents
      constructor
      · exact fun spared node affected => spared node.id ((taken node.id).mpr ⟨node, affected, rfl⟩)
      · intro spared nodeId cut
        obtain ⟨node, affected, rfl⟩ := (taken nodeId).mp cut
        exact spared node affected)

theorem unheld (accounted : session.Accounted config exempt account) {nodeId : String}
    (none : session.state.queued nodeId = []) : held account (.queue nodeId) = [] := by
  rw [← accounted.memory.queues nodeId, none]
  rfl

theorem queued_of_held (accounted : session.Accounted config exempt account) {nodeId : String}
    (some_text : held account (.queue nodeId) ≠ []) : session.state.queued nodeId ≠ [] :=
  fun none => some_text (unheld accounted none)

theorem spared_revises (accounted : session.Accounted config exempt account) {patch : PlanPatch}
    (spares : SparesQueues env session.state patch) :
    Revises (hoardScope exempt account) env session.state patch :=
  ⟨fun node affected _ _ => Or.inr (unheld accounted (spares node affected)),
    fun _ _ _ _ _ _ _ => trivial⟩

/-- A revision invalidates a node, or leaves it as it is. -/
theorem revisePlan_row {nodeId : String} (found : session.state.node? nodeId = some node)
    (patch : PlanPatch) : ∃ status,
      (revisePlan env session patch).1.state.node? nodeId = some { node with status } ∧
        (status = node.status ∨ status = .invalidated) := by
  obtain ⟨state, count, quiet, revised⟩ := revisePlan_cases env session patch
  obtain ⟨moved, _⟩ := applyPatch_cut session.state patch env.agents
  have kept := withDrafts_kept session.state patch env.agents found
  have row : (applyPatch session.state patch env.agents).state.node? nodeId =
      some (if node.id ∈ (applyPatch session.state patch env.agents).result.invalidated then
        { node with status := .invalidated } else node) := by
    rw [moved]
    simp only [node?, moveNodes, Table.find?_map] at kept ⊢
    rw [kept]
    rfl
  rw [revised]
  simp only [node?, quiet.nodes] at row ⊢
  rw [row]
  split
  · exact ⟨.invalidated, rfl, Or.inr rfl⟩
  · exact ⟨node.status, rfl, Or.inl rfl⟩

theorem revise_row {nodeId : String} (found : session.state.node? nodeId = some node)
    (decision : OutcomeResult) : ∃ status,
      (revise config env session decision).state.node? nodeId = some { node with status } ∧
        (status = node.status ∨ status = .invalidated) := by
  unfold revise
  split
  · rename_i patch _ _
    split
    · exact revisePlan_row found patch
    · exact ⟨node.status, found, Or.inl rfl⟩
  · exact ⟨node.status, found, Or.inl rfl⟩

theorem revise_count (decision : OutcomeResult) :
    (revise config env session decision).state.derivedCount = session.state.derivedCount := by
  unfold revise
  split
  · rename_i patch _ _
    split
    · obtain ⟨state, count, quiet, revised⟩ := revisePlan_cases env session patch
      obtain ⟨_, _, patched⟩ := applyPatch_replanned session.state patch env.agents
      rw [revised]
      exact quiet.derivedCount.trans (by rw [patched])
    · rfl
  · rfl

/-- What a transition that did not raise makes of the node. -/
theorem transition_after {target : NodeStatus} (keeps : ∀ node, (fields node).id = node.id)
    (quiet : (session.transition ref fields target).raised = none)
    (there : session.read ref = some node) :
    (fields node).canTransition target = true ∧
      (session.transition ref fields target).session.read
        (session.transition ref fields target).ref = some { fields node with status := target } := by
  unfold Session.transition at quiet ⊢
  simp only [there] at quiet ⊢
  cases moved : (fields node).applyTransition target with
  | error text =>
      simp only [moved] at quiet
      cases quiet
  | ok row =>
      obtain ⟨may, rfl⟩ := NodeState.apply_transition_ok moved
      have same : ({ fields node with status := target } : NodeState).id = node.id := keeps node
      exact ⟨may, read_write there same⟩

theorem transition_count {target : NodeStatus} :
    (session.transition ref fields target).session.state.derivedCount =
      session.state.derivedCount := by
  unfold Session.transition Session.write
  split
  · rfl
  · split <;> cases ref <;> rfl

theorem assists_fewer {next : Session} {scope : Scope} (edits : Edits scope session next)
    (drawn : Drawn session.state) (node : NodeState) :
    (assistsFor env next.state node).length ≤ (assistsFor env session.state node).length := by
  unfold assistsFor
  cases node.output with
  | none => exact Nat.le_refl _
  | some output => exact asked_fewer env node _ fun name asked => edits.assists drawn asked

/-- The budget has room for the assists of the node and its follow-up, if the
node can complete and has a queue. -/
def Room (config : ExecutorConfig) (env : Env) (state : OrchestrationState) (node : NodeState) :
    Prop :=
  node.canTransition .completed = true → state.queued node.id ≠ [] →
    state.derivedCount + (assistsFor env state node).length < config.maxDerivedNodes

instance (config : ExecutorConfig) (env : Env) (state : OrchestrationState) (node : NodeState) :
    Decidable (Room config env state node) :=
  inferInstanceAs (Decidable (_ → _ → _))

theorem Room.behind {next : Session} {scope : Scope} (room : Room config env session.state node)
    (edits : Edits scope session next) (drawn : Drawn session.state)
    (count : next.state.derivedCount = session.state.derivedCount)
    (queue : next.state.queued node.id = session.state.queued node.id) :
    Room config env next.state node := by
  intro may some_message
  have fewer : (assistsFor env next.state node).length ≤ _ := assists_fewer edits drawn node
  rw [queue] at some_message
  rw [count]
  exact Nat.lt_of_le_of_lt (Nat.add_le_add_left fewer _) (room may some_message)

/-- The completed node hands its queue on, as far as the budget has room for the
assists and the follow-up. -/
theorem markDelivered_accounted (accounted : session.Accounted config (fun _ => False) account)
    (room : ∀ node ∈ session.read ref, Room config env session.state node) :
    ∃ later, items later = items account ∧
      (markDelivered config env session ref).session.Accounted config (fun _ => False) later := by
  simp only [markDelivered]
  split
  · rename_i after quiet found
    obtain ⟨node, there⟩ : ∃ node, session.read ref = some node := by
      cases there : session.read ref with
      | none => simp [Session.transition, there] at found
      | some node => exact ⟨node, rfl⟩
    obtain ⟨may, moved⟩ := transition_after (fun _ => rfl) quiet there
    obtain rfl : { node with status := .completed } = after :=
      Option.some.inj (moved.symm.trans found)
    have own : node.id = ref.nodeId := read_nodeId there
    have delivered : Edits (hoardScope (· = node.id) account) session
        (session.transition ref id .completed).session := by
      refine transition_edits .id fun _ nodeId planned _ _ _ _ => Or.inl ?_
      rw [own, planned]
      rfl
    have asked : Edits (hoardScope (· = node.id) account)
        (session.transition ref id .completed).session
        (arbitrateMentions config env (session.transition ref id .completed).session
          { node with status := .completed }) := arbitrateMentions_edits config env _ _
    -- the node may end while it still holds words: they move on next
    have exempted : session.Accounted config (· = node.id) account :=
      accounted.mono fun _ _ => False.elim
    have completed := hoarded delivered exempted
    have helped := hoarded asked completed
    refine deliver_accounted helped fun some_message => ?_
    have waits : session.state.queued node.id ≠ [] := by
      apply queued_of_held accounted
      rw [← helped.memory.queues node.id]
      exact fun none => some_message (List.map_eq_nil_iff.mp none)
    -- the assists of its output came first and took their room
    have enough := room node there may waits
    have counted := @arbitrateMentions_count config env _ { node with status := .completed }
      completed.drawn
    have fewer : (assistsFor env (session.transition ref id .completed).session.state
        { node with status := .completed }).length ≤
          (assistsFor env session.state node).length := assists_fewer delivered accounted.drawn node
    rw [transition_count] at counted
    exact Nat.lt_of_le_of_lt counted (Nat.lt_of_le_of_lt (Nat.add_le_add_left fewer _) enough)
  · rename_i failed
    refine ⟨account, rfl, ?_⟩
    have edits : Edits (hoardScope (fun _ => False) account) session
        (session.transition ref id .completed).session := by
      refine transition_edits .id fun quiet nodeId planned node there _ => ?_
      subst planned
      exact absurd (transition_after (fun _ => rfl) quiet there).2 (failed _ quiet)
    exact hoarded edits accounted

theorem outcomeFlow_accounted (accounted : session.Accounted config (fun _ => False) account)
    (there : session.read ref = some node) (answered : Option OutcomeResult)
    (revises : ∀ patch ∈ revisionOf config (interpretOutcome node.output answered)
      session.state.revisionCount,
        Revises (hoardScope (fun _ => False) account) env session.state patch)
    (room : (interpretOutcome node.output answered).intent ≠ .needInfo →
      Room config env session.state node) :
    ∃ later, items later = items account ∧
      (outcomeFlow config env session ref answered).session.Accounted config (fun _ => False)
        later := by
  have output : (session.read ref).bind (·.output) = node.output := by simp [there]
  have revised := revise_edits config env session (interpretOutcome node.output answered) revises
  have delivers : (interpretOutcome node.output answered).intent ≠ .needInfo →
      ∃ later, items later = items account ∧
        (markDelivered config env
          (revise config env session (interpretOutcome node.output answered))
          ref).session.Accounted config (fun _ => False) later := by
    intro intent
    refine markDelivered_accounted (hoarded revised accounted) fun after found may => ?_
    -- a node that the revision has moved can no longer complete
    have same : after = node := by
      cases ref with
      | detached own =>
          cases there
          cases found
          rfl
      | planned nodeId =>
          obtain ⟨status, row, kept⟩ := @revise_row config env session node nodeId there
            (interpretOutcome node.output answered)
          obtain rfl : { node with status } = after := Option.some.inj (row.symm.trans found)
          rcases kept with rfl | rfl
          · rfl
          · cases may
    rw [same] at may ⊢
    exact (room intent).behind revised accounted.drawn (revise_count _)
      (by rw [queued, queued, revise_queue]) may
  cases intent : (interpretOutcome node.output answered).intent with
  | needInfo =>
      simp only [outcomeFlow, output, intent]
      refine ⟨account, rfl, hoarded (transition_edits ?_ ?_) accounted⟩
      · exact ⟨fun _ => ⟨rfl, rfl, rfl, rfl, rfl, rfl⟩, fun _ => rfl, fun _ => Or.inl rfl⟩
      · exact fun _ _ _ _ _ _ ended => absurd ended (by decide)
  | deliver =>
      simp only [outcomeFlow, output, intent]
      exact delivers (by simp [intent])
  | revise =>
      simp only [outcomeFlow, output, intent]
      exact delivers (by simp [intent])

/-- The node of an execution, if the plan still has it. -/
def NodeRef.row (state : OrchestrationState) : NodeRef → Option NodeState
  | .planned nodeId => state.node? nodeId
  | .detached _ => none

/-- What the end of a remote call needs to keep the words: a node that ends other
than by completion has no queue, or fails with attempts left; a revision spares
the queues; and the completed node finds room for its follow-up. -/
def HandsOver (config : ExecutorConfig) (env : Env) (session : Session) (ref : NodeRef)
    (remote : Remote) (answered : Option OutcomeResult) : Prop :=
  match remote.ended with
  | .inputRequired => True
  | .canceled => ∀ node ∈ ref.row session.state, node.canTransition .canceled = true →
      session.state.queued node.id = []
  | .stopped => ∀ node ∈ ref.row session.state, node.canTransition .failed = true →
      session.state.queued node.id ≠ [] → node.attempt < config.maxNodeAttempts
  | .completed =>
      (∀ patch ∈ outcomePatch config session.state remote answered,
        SparesQueues env session.state patch) ∧
      ((interpretOutcome remote.output answered).intent ≠ .needInfo →
        ∀ node ∈ session.read ref, Room config env session.state (remote.fields node))

instance (config : ExecutorConfig) (env : Env) (session : Session) (ref : NodeRef) :
    (remote : Remote) → (answered : Option OutcomeResult) →
      Decidable (HandsOver config env session ref remote answered)
  | ⟨.inputRequired, _, _, _⟩, _ => .isTrue trivial
  | ⟨.canceled, _, _, _⟩, _ => inferInstanceAs (Decidable (∀ node ∈ ref.row session.state, _ → _))
  | ⟨.stopped, _, _, _⟩, _ =>
      inferInstanceAs (Decidable (∀ node ∈ ref.row session.state, _ → _ → _))
  | ⟨.completed, _, _, _⟩, _ =>
      inferInstanceAs (Decidable ((∀ patch ∈ outcomePatch _ _ _ _, _) ∧
        (_ → ∀ node ∈ session.read ref, _)))

theorem interpretRemote_accounted (accounted : session.Accounted config (fun _ => False) account)
    {remote : Remote} {answered : Option OutcomeResult}
    (hands : HandsOver config env session ref remote answered) :
    ∃ later, items later = items account ∧
      (interpretRemote config env session ref remote answered).session.Accounted config
        (fun _ => False) later := by
  unfold HandsOver outcomePatch at hands
  have same : ∀ node, SameRow node (remote.fields node) := fun _ => ⟨rfl, rfl, rfl, rfl, rfl, rfl⟩
  cases ended : remote.ended with
  | completed =>
      simp only [ended] at hands
      obtain ⟨spares, room⟩ := hands
      simp only [interpretRemote, ended]
      cases found : session.read ref with
      | none => exact ⟨account, rfl, accounted⟩
      | some node =>
          have written : Edits (hoardScope (fun _ => False) account) session
              (session.write ref (remote.fields node)).1 :=
            write_edits found (same node) (Or.inl rfl) (Or.inl rfl)
          have read := read_write found (remote.fields_keeps.nodeId node)
          have statuses := status_write found (remote.fields_keeps.nodeId node)
            (remote.fields_keeps.status node)
          have count := write_revisionCount session ref (remote.fields node)
          refine outcomeFlow_accounted (hoarded written accounted) read answered ?_ fun intent => ?_
          · intro patch brought
            rw [count] at brought
            have alike := write_alike found (same node) rfl
            exact (spared_revises accounted (spares patch brought)).congr alike statuses
              (by rw [write_frame])
          · exact (room intent node found).behind written accounted.drawn
              (by rw [write_frame]) (by rw [write_frame]; rfl)
  | canceled =>
      simp only [ended] at hands
      simp only [interpretRemote, ended]
      refine ⟨account, rfl, hoarded (transition_edits (remoteFields_plan remote) ?_) accounted⟩
      intro _ nodeId planned node found may _
      obtain rfl := (session.state.node_mem nodeId found).2
      exact Or.inr (unheld accounted (hands node (by rw [planned]; exact found) may))
  | inputRequired =>
      simp only [interpretRemote, ended]
      refine ⟨account, rfl, hoarded (transition_edits (remoteFields_plan remote) ?_) accounted⟩
      exact fun _ _ _ _ _ _ still => absurd still (by decide)
  -- a failed node keeps its queue only with attempts left
  | stopped =>
      simp only [ended] at hands
      simp only [interpretRemote, ended]
      refine ⟨account, rfl, transition_accounted accounted same ?_⟩
      intro nodeId planned node found some_text taking
      obtain rfl := (session.state.node_mem nodeId found).2
      refine Or.inr ⟨taking.same rfl rfl, fun may => ?_⟩
      exact NodeState.Takes.failed (hands node (by rw [planned]; exact found) may
        (queued_of_held accounted some_text)) rfl rfl

end Executions

end Choirworks.Orchestration
