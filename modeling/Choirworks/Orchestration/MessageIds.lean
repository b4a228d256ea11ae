import Choirworks.Library.Stamps
import Choirworks.Orchestration.Answerable
import Choirworks.Orchestration.AssistChains

/-!
The ids of the messages to remote agents: the context, the node and its attempt.
Within a plan the attempts of a node only go up, and derived nodes and the nodes
of a patch have new ids. A new plan can name its nodes like those of an earlier
one, and an older snapshot has counted fewer attempts; both bring ids back.
-/

namespace Choirworks.Orchestration

open OrchestrationState
open Session (Edits)
open Stamps

/-- The `message_id` of `stream_remote`. -/
def messageId (contextId : String) (stamp : Stamp String) : String :=
  contextId ++ ":" ++ stamp.name ++ ":" ++ toString stamp.number

theorem messageId_injective (contextId : String) : Function.Injective (messageId contextId) := by
  rintro ⟨name, number⟩ ⟨other, count⟩ same
  have split : ∀ name number, messageId contextId ⟨name, number⟩ =
      contextId ++ ":" ++ name ++ String.singleton ':' ++ toString number := fun _ _ => rfl
  rw [split, split] at same
  have digits : number = count := by
    apply Text.number_of_trailingDigits (contextId ++ ":" ++ name) ':' number rfl
    exact (congrArg Text.trailingDigits same).trans (Text.trailingDigits_number _ ':' count rfl)
  have before := congrArg Text.beforeDigits same
  rw [Text.beforeDigits_number _ ':' number rfl, Text.beforeDigits_number _ ':' count rfl] at before
  have names : contextId ++ ":" ++ name = contextId ++ ":" ++ other := by
    apply String.toList_inj.mp
    exact List.reverse_inj.mp (List.cons.inj before).2
  have whole := congrArg String.toList names
  simp only [String.toList_append, List.append_cancel_left_eq] at whole
  rw [String.toList_inj.mp whole, digits]

/-- The node with which `execute_node` calls `stream_remote`, whose agent may yet
be unknown. -/
def Runtime.streamed (runtime : Runtime) (taskId : Nat) : Option NodeState :=
  (runtime.task? taskId .created).bind fun task =>
    let begun := startNode runtime.session task.ref task.mode
    if task.mode = .recover ∨ begun.raised ≠ none then none else begun.session.read begun.ref

def Runtime.sends (runtime : Runtime) : Event → List (Stamp String)
  | .start taskId => ((runtime.streamed taskId).map fun node => Stamp.mk node.id node.attempt).toList
  | _ => []

/-- A conversation and the messages that its nodes have sent. -/
structure Outbox where
  conversation : Conversation := .empty
  sent : List (Stamp String) := []

namespace Outbox

def sends (conversation : Conversation) : ConversationEvent → List (Stamp String)
  | .session event _ => conversation.runtime.sends event
  | _ => []

def step (config : ExecutorConfig) (outbox : Outbox) (event : ConversationEvent) : Option Outbox :=
  (outbox.conversation.step config event).map fun conversation =>
    { conversation, sent := outbox.sent ++ sends outbox.conversation event }

def messageIds (contextId : String) (outbox : Outbox) : List String :=
  outbox.sent.map (messageId contextId)

end Outbox

/-! ### Ids that cannot come back -/

/-- The id begins like those of the nodes that are derived from the parent. -/
def Below (parentId nodeId : String) : Prop := (parentId ++ "-").toList <+: nodeId.toList

instance (parentId nodeId : String) : Decidable (Below parentId nodeId) :=
  inferInstanceAs (Decidable (_ <+: _))

/-- The id begins like those that patches draw. -/
def PatchLike (nodeId : String) : Prop := ['x'] <+: nodeId.toList

instance (nodeId : String) : Decidable (PatchLike nodeId) :=
  inferInstanceAs (Decidable (_ <+: _))

/-- No patch draws the id, and no node of the list is it or derives it. -/
def OutOfReach (keys : List String) (nodeId : String) : Prop :=
  ¬ PatchLike nodeId ∧ ∀ key ∈ keys, key ≠ nodeId ∧ ¬ Below key nodeId

instance (keys : List String) (nodeId : String) : Decidable (OutOfReach keys nodeId) :=
  inferInstanceAs (Decidable (_ ∧ ∀ key ∈ keys, _))

/-- The plan has counted the messages to its nodes, and no other node that got
one can come back. -/
structure Counts (sent : List (Stamp String)) (state : OrchestrationState) : Prop where
  ahead : ∀ node ∈ state.nodes.rows, Ahead sent node.id node.attempt
  reach : ∀ stamp ∈ sent, stamp.name ∈ state.nodes.keys ∨ OutOfReach state.nodes.keys stamp.name

instance (sent : List (Stamp String)) (state : OrchestrationState) :
    Decidable (Counts sent state) :=
  decidable_of_iff ((∀ node ∈ state.nodes.rows, Ahead sent node.id node.attempt) ∧
      ∀ stamp ∈ sent, stamp.name ∈ state.nodes.keys ∨ OutOfReach state.nodes.keys stamp.name)
    ⟨fun both => ⟨both.1, both.2⟩, fun counts => ⟨counts.ahead, counts.reach⟩⟩

/-- In the plan, or the beginning of no id outside of it that got a message. -/
def Rooted (sent : List (Stamp String)) (state : OrchestrationState) (parentId : String) : Prop :=
  parentId ∈ state.nodes.keys ∨
    ∀ stamp ∈ sent, stamp.name ∈ state.nodes.keys ∨ ¬ Below parentId stamp.name

instance (sent : List (Stamp String)) (state : OrchestrationState) (parentId : String) :
    Decidable (Rooted sent state parentId) :=
  inferInstanceAs (Decidable (_ ∨ ∀ stamp ∈ sent, _))

/-- No message has gone to a node that the plan names, or that it can derive. -/
def Unsent (config : ExecutorConfig) (env : Env) (sent : List (Stamp String))
    (drafts : List (Option (List PlanNodeDraft))) : Prop :=
  ∀ nodes ∈ plan config env drafts, ∀ stamp ∈ sent, OutOfReach (nodes.map (·.id)) stamp.name

/-- An execution whose node a new plan has replaced counts on from its own copy,
and the new plan cannot come back to its id. -/
def StartsAhead (sent : List (Stamp String)) (state : OrchestrationState) : NodeRef → Prop
  | .planned _ => True
  | .detached node => Ahead sent node.id node.attempt ∧ OutOfReach state.nodes.keys node.id

instance (sent : List (Stamp String)) (state : OrchestrationState) (ref : NodeRef) :
    Decidable (StartsAhead sent state ref) := by
  unfold StartsAhead
  split <;> infer_instance

section Reach

variable {sent : List (Stamp String)} {old new state : OrchestrationState} {keys : List String}
  {parentId nodeId : String} {kind : DerivedKind} {count : Nat}

theorem derivedId_toList : (derivedId parentId kind count).toList =
    (parentId ++ "-").toList ++ kind.suffix :: (toString count).toList := by
  simp [derivedId]

theorem below_derivedId : Below parentId (derivedId parentId kind count) := by
  rw [Below, derivedId_toList]
  exact List.prefix_append _ _

theorem below_of_derived (below : Below (derivedId parentId kind count) nodeId) :
    Below parentId nodeId := by
  refine List.IsPrefix.trans ?_ below
  rw [String.toList_append (s := derivedId parentId kind count), derivedId_toList, List.append_assoc]
  exact List.prefix_append _ _

theorem patchLike_patchNodeId (number : Nat) : PatchLike (Patching.patchNodeId number) := by
  have split : (Patching.patchNodeId number).toList = ['x'] ++ (toString number).toList := by
    simp [Patching.patchNodeId]
  rw [PatchLike, split]
  exact List.prefix_append _ _

theorem patchLike_of_below {number : Nat} (below : Below (Patching.patchNodeId number) nodeId) :
    PatchLike nodeId := by
  refine List.IsPrefix.trans (patchLike_patchNodeId number) (List.IsPrefix.trans ?_ below)
  rw [String.toList_append]
  exact List.prefix_append _ _

theorem Counts.congr (counts : Counts sent old) (nodes : new.nodes = old.nodes) :
    Counts sent new := by
  constructor
  · rw [nodes]
    exact counts.ahead
  · rw [nodes]
    exact counts.reach

/-- A new node that no message comes back to. -/
theorem Counts.insert (counts : Counts sent old) {node : NodeState}
    (nodes : new.nodes = old.nodes.insert node) (fresh : node.id ∉ old.nodes.keys)
    (apart : ∀ stamp ∈ sent, OutOfReach old.nodes.keys stamp.name →
      node.id ≠ stamp.name ∧ ¬ Below node.id stamp.name) : Counts sent new where
  ahead row member := by
    rw [nodes] at member
    rcases (Table.mem_insert _ _ _).mp member with rfl | ⟨inside, _⟩
    · apply ahead_of_unsent
      intro stamp sent named
      rcases counts.reach stamp sent with known | outside
      · exact fresh (named ▸ known)
      · exact (apart stamp sent outside).1 named.symm
    · exact counts.ahead row inside
  reach stamp sent := by
    rw [nodes]
    rcases counts.reach stamp sent with known | outside
    · exact Or.inl ((Table.mem_keys_insert _ _ _).mpr (Or.inr known))
    · right
      refine ⟨outside.1, fun key member => ?_⟩
      rcases (Table.mem_keys_insert _ _ _).mp member with rfl | known
      · exact apart stamp sent outside
      · exact outside.2 key known

/-- An edit that neither counts nor derives. -/
theorem Edit.counts (edit : Edit .uncounted old new) (still : new.derivedCount = old.derivedCount)
    (counts : Counts sent old) : Counts sent new := by
  cases edit with
  | rows keeps same allowed counted =>
      constructor
      · intro row member
        obtain ⟨before, inside, rfl⟩ := List.mem_map.mp member
        rw [keeps before, (counted before inside).resolve_right id]
        exact counts.ahead before inside
      · simp only [Table.keys_map]
        exact counts.reach
  | draft patchCount named fresh =>
      refine counts.insert rfl fresh fun stamp _ outside => ?_
      rw [named]
      constructor
      · intro same
        exact outside.1 (same ▸ patchLike_patchNodeId _)
      · intro below
        exact outside.1 (patchLike_of_below below)
  | spawn =>
      have counted : old.derivedCount + 1 = old.derivedCount := still
      omega
  | side | settle => exact counts.congr rfl
  | ask requested => exact counts.congr (requestUserInput_quiet _ requested).nodes

/-- A node that is derived from a rooted one. -/
theorem Counts.spawn (counts : Counts sent old) (steady : Steady old) {spawn : Spawn}
    (rooted : Rooted sent old spawn.parentId)
    (nodes : new.nodes = old.nodes.insert (spawn.node (old.derivedCount + 1))) :
    Counts sent new := by
  have fresh : (spawn.node (old.derivedCount + 1)).id ∉ old.nodes.keys := by
    intro known
    obtain ⟨node, member, same⟩ := (Table.mem_keys _ _).mp known
    exact steady.undrawn (old.status_of_mem member) spawn same
  refine counts.insert nodes fresh fun stamp sent outside => ?_
  have unbegun : ¬ Below spawn.parentId stamp.name := by
    rcases rooted with known | begins
    · exact (outside.2 _ known).2
    · refine (begins stamp sent).resolve_left fun known => ?_
      exact (outside.2 _ known).1 rfl
  constructor
  · intro same
    exact unbegun (same ▸ below_derivedId)
  · intro below
    exact unbegun (below_of_derived below)

theorem Counts.restored (counts : Counts sent state) : Counts sent state.restored where
  ahead row member := by
    obtain ⟨before, inside, rfl⟩ := List.mem_map.mp member
    exact counts.ahead before inside
  reach := by
    simp only [OrchestrationState.restored, Table.keys_map]
    exact counts.reach

theorem Rooted.mono (rooted : Rooted sent old parentId)
    (keys : ∀ known ∈ old.nodes.keys, known ∈ new.nodes.keys) : Rooted sent new parentId :=
  rooted.imp (keys parentId) fun begins stamp sent => (begins stamp sent).imp_left (keys _)

end Reach

/-! ### Operations -/

/-- Edits that count no attempts, and derived nodes of the parents. -/
inductive Begets (config : ExecutorConfig) (env : Env) (parents : String → Prop) :
    Session → Session → Prop where
  | edits {session next : Session} (edits : Edits .uncounted session next)
      (still : next.state.derivedCount = session.state.derivedCount) :
      Begets config env parents session next
  | spawn {session : Session} (spawn : Spawn) (helps : spawn.Follows ∨ spawn.Helps)
      (parent : parents spawn.parentId) :
      Begets config env parents session (spawnDerivedNode config env session spawn).1
  | trans {first second third : Session} (left : Begets config env parents first second)
      (right : Begets config env parents second third) : Begets config env parents first third

section Begets

variable {config : ExecutorConfig} {env : Env} {parents : String → Prop}
  {session next : Session} {ref : NodeRef} {sent : List (Stamp String)}

theorem Begets.refl (session : Session) : Begets config env parents session session :=
  .edits (.refl session) rfl

/-- No stamp comes back. -/
theorem Begets.counts (begets : Begets config env parents session next)
    (steady : Steady session.state) (counts : Counts sent session.state)
    (rooted : ∀ parentId, parents parentId → Rooted sent session.state parentId) :
    Counts sent next.state ∧ Steady next.state ∧
      ∀ parentId, parents parentId → Rooted sent next.state parentId := by
  induction begets with
  | edits edits still =>
      have kin : Kin _ _ ∧ _ := edits.still (fun edit still kin => kin.trans (edit.kin still)) still
        (.refl _)
      have counted := edits.still Edit.counts still counts
      exact ⟨counted.1, edits.kept Edit.steady steady,
        fun parentId parent => (rooted parentId parent).mono kin.1.keys⟩
  | @spawn session spawn helps parent =>
      have edits : Edits .all session (spawnDerivedNode config env session spawn).1 :=
        spawnDerivedNode_edits config env session spawn
          (helps.imp_left fun follows => ⟨trivial, follows⟩)
      have kept := edits.kept Edit.steady steady
      rcases spawnDerivedNode_cases config env session spawn with
        ⟨_, refused⟩ | ⟨state, _, quiet, accepted⟩
      · rw [refused]
        exact ⟨counts, steady, rooted⟩
      · rw [accepted] at kept ⊢
        refine ⟨counts.spawn steady (rooted _ parent) quiet.nodes, kept, fun parentId known => ?_⟩
        refine (rooted parentId known).mono fun key member => ?_
        rw [quiet.nodes]
        exact (Table.mem_keys_insert _ _ _).mpr (Or.inr member)
  | trans _ _ first second =>
      obtain ⟨counted, kept, later⟩ := first steady counts rooted
      exact second kept counted later

/-! ### Which operations derive nodes -/

theorem transition_begets {fields : NodeState → NodeState} (keeps : KeepsPlan .uncounted fields)
    (target : NodeStatus) :
    Begets config env parents session (session.transition ref fields target).session :=
  .edits (transition_edits keeps fun _ _ _ _ _ _ => trivial) transition_count

theorem spawnFollowupNode_begets {text : String} {anchor : NodeState} {deps : List String}
    (parent : parents anchor.id) :
    Begets config env parents session (spawnFollowupNode config env session text anchor deps) :=
  .spawn _ (Or.inl ⟨rfl, rfl⟩) parent

theorem arbitrateMentions_begets {node : NodeState} (parent : parents node.id) :
    Begets config env parents session (arbitrateMentions config env session node) :=
  arbitrateMentions_rule config env session (Begets config env parents) .refl .trans node
    fun _ spawn helps named => .spawn spawn (Or.inr helps) (named ▸ parent)

theorem deliverQueued_begets {node : NodeState} (parent : parents node.id) :
    Begets config env parents session (deliverQueued config env session node) := by
  have taken : Edits .uncounted session
      { session with state := (session.state.takeQueued node.id).2 } :=
    .one (.side session.state.members _ session.state.revisionCount session.state.nextMessage
      (Or.inr trivial))
  unfold deliverQueued
  dsimp only
  split
  · exact .edits taken rfl
  · exact .trans (.edits taken rfl) (spawnFollowupNode_begets parent)

theorem markDelivered_begets (parent : parents ref.nodeId) :
    Begets config env parents session (markDelivered config env session ref).session := by
  have delivered : Begets config env parents session
      (session.transition ref id .completed).session :=
    transition_begets .id .completed
  simp only [markDelivered]
  split
  · rename_i node _ found
    have own : parents node.id := by
      rw [read_nodeId found, transition_nodeId session ref id fun _ => rfl]
      exact parent
    exact (delivered.trans (arbitrateMentions_begets own)).trans (deliverQueued_begets own)
  · exact delivered

theorem outcomeFlow_begets (parent : parents ref.nodeId) (answered : Option OutcomeResult) :
    Begets config env parents session (outcomeFlow config env session ref answered).session := by
  have revised : Begets config env parents session (revise config env session
      (interpretOutcome ((session.read ref).bind (·.output)) answered)) :=
    .edits (revise_edits config env session _ fun patch _ =>
      Runtime.revises_free Scope.uncounted_free patch) (revise_count _)
  simp only [outcomeFlow]
  split
  · apply transition_begets
    exact ⟨fun _ => ⟨rfl, rfl, rfl, rfl, rfl, rfl⟩, fun _ => rfl, fun _ => Or.inl rfl⟩
  · exact revised.trans (markDelivered_begets parent)
  · exact revised.trans (markDelivered_begets parent)

theorem interpretRemote_begets (parent : parents ref.nodeId) (remote : Remote)
    (answered : Option OutcomeResult) :
    Begets config env parents session
      (interpretRemote config env session ref remote answered).session := by
  have keeps : KeepsPlan .uncounted remote.fields := remoteFields_plan remote
  cases ended : remote.ended with
  | completed =>
      simp only [interpretRemote, ended]
      cases found : session.read ref with
      | none => exact .refl session
      | some node =>
          have still : (session.write ref (remote.fields node)).1.state.derivedCount =
              session.state.derivedCount := by
            rw [write_frame]
          have written : Begets config env parents session
              (session.write ref (remote.fields node)).1 :=
            .edits (write_edits found (keeps.same node) (Or.inl rfl) (Or.inl rfl)) still
          refine written.trans (outcomeFlow_begets ?_ answered)
          rwa [write_nodeId session ref node found _ (keeps.same node).id]
  | canceled | inputRequired | stopped =>
      simp only [interpretRemote, ended]
      exact transition_begets keeps _

theorem requestHuman_begets {node : NodeState} {decision : Option AssistanceResult} :
    Begets config env parents session (requestHuman env session ref node decision).session :=
  .edits (requestHuman_edits env node decision (fun _ _ => trivial) trivial)
    (requestHuman_spends node decision).still

theorem actOnDecision_begets (parent : parents ref.nodeId) (decision : Option AssistanceResult) :
    Begets config env parents session (actOnDecision config env session ref decision).session := by
  unfold actOnDecision
  split
  · exact .refl session
  · rename_i node found
    split
    · exact .refl session
    · dsimp only
      split
      · exact requestHuman_begets
      · split
        · rename_i result
          rcases callSubagent_cases config env session node.id
              ((decision.bind (·.targetAgent)).getD "")
              ((decision.map (·.instruction)).getD "") with
            same | ⟨spawn, helps, named, spawned⟩
          · rw [result] at same
            dsimp only at same ⊢
            rw [same]
            exact .refl session
          · rw [result] at spawned
            dsimp only at spawned ⊢
            rw [spawned]
            refine .spawn spawn (Or.inr helps) ?_
            rwa [named, read_nodeId found]
        · rename_i result
          rw [callSubagent_refused config env session result]
          exact requestHuman_begets

end Begets

/-! ### The start of an execution -/

/-- The same nodes, with at least as many attempts. -/
structure Later (old new : OrchestrationState) : Prop where
  keys : new.nodes.keys = old.nodes.keys
  rows : ∀ row ∈ new.nodes.rows, ∃ before ∈ old.nodes.rows,
    before.id = row.id ∧ before.attempt ≤ row.attempt

section Start

variable {session : Session} {ref : NodeRef} {node behind : NodeState}
  {fields : NodeState → NodeState} {sent : List (Stamp String)}
  {old new last : OrchestrationState} {mode : Mode}

theorem Later.refl (state : OrchestrationState) : Later state state :=
  ⟨rfl, fun row member => ⟨row, member, rfl, Nat.le_refl _⟩⟩

theorem Later.trans (first : Later old new) (second : Later new last) : Later old last := by
  refine ⟨second.keys.trans first.keys, fun row member => ?_⟩
  obtain ⟨mid, inside, same, more⟩ := second.rows row member
  obtain ⟨before, there, named, fewer⟩ := first.rows mid inside
  exact ⟨before, there, named.trans same, Nat.le_trans fewer more⟩

theorem Counts.onward (counts : Counts sent old) (later : Later old new) : Counts sent new where
  ahead row member := by
    obtain ⟨before, inside, same, more⟩ := later.rows row member
    exact same ▸ (counts.ahead before inside).mono more
  reach := by
    rw [later.keys]
    exact counts.reach

theorem write_later (found : session.read ref = some node) (same : behind.id = node.id)
    (more : node.attempt ≤ behind.attempt) :
    Later session.state (session.write ref behind).1.state := by
  cases ref with
  | detached own => exact .refl _
  | planned nodeId =>
      have row := (session.state.node_mem nodeId found).1
      have known : behind.id ∈ session.state.nodes.keys :=
        same ▸ session.state.nodes.key_mem_keys row
      constructor
      · simp only [Session.write, setNode]
        rw [Table.insert_known _ _ known, Table.keys_map]
      · intro other member
        rcases (mem_setNode _ _ _).mp member with rfl | ⟨inside, _⟩
        · exact ⟨node, row, same.symm, more⟩
        · exact ⟨other, inside, rfl, Nat.le_refl _⟩

theorem transition_later (keeps : ∀ node, (fields node).id = node.id)
    (more : ∀ node, node.attempt ≤ (fields node).attempt) (target : NodeStatus) :
    Later session.state (session.transition ref fields target).session.state := by
  unfold Session.transition
  split
  · exact .refl _
  · rename_i node found
    split
    · exact write_later found (keeps node) (more node)
    · rename_i moved allowed
      obtain ⟨_, rfl⟩ := NodeState.apply_transition_ok allowed
      exact write_later found (keeps node) (more node)

theorem change_later (keeps : ∀ node, (fields node).id = node.id)
    (more : ∀ node, node.attempt ≤ (fields node).attempt) :
    Later session.state (session.change ref fields).session.state := by
  unfold Session.change
  split
  · exact .refl _
  · rename_i node found
    exact write_later found (keeps node) (more node)

theorem takeAnswer_attempt (node : NodeState) : (takeAnswer node).attempt = node.attempt := by
  unfold takeAnswer
  split <;> rfl

theorem startNode_later : Later session.state (startNode session ref mode).session.state := by
  have counted : ∀ node : NodeState, node.attempt ≤ (countAttempt node).attempt :=
    fun node => Nat.le_succ _
  have taken : ∀ node : NodeState, node.attempt ≤ (takeAnswer node).attempt :=
    fun node => Nat.le_of_eq (takeAnswer_attempt node).symm
  cases mode with
  | recover => exact transition_later (fun _ => rfl) (fun _ => Nat.le_refl _) .recover
  | continuation =>
      exact change_later (fun node => takeAnswer_id (countAttempt node))
        fun node => Nat.le_trans (counted node) (taken _)
  | dispatch =>
      have begun : Later session.state (session.transition ref countAttempt .submitted).session.state :=
        transition_later countAttempt_keeps.nodeId counted .submitted
      simp only [startNode]
      split
      · exact begun
      · exact begun.trans (change_later takeAnswer_id taken)

theorem change_read (keeps : ∀ node, (fields node).id = node.id)
    (found : session.read ref = some node) :
    (session.change ref fields).session.read (session.change ref fields).ref =
      some (fields node) := by
  simp only [Session.change, found]
  exact read_write found (keeps node)

/-- What is sent is sent with the next attempt of the node. -/
theorem startNode_sends (sends : mode ≠ .recover)
    (quiet : (startNode session ref mode).raised = none)
    (found : (startNode session ref mode).session.read (startNode session ref mode).ref =
      some behind) :
    ∃ node, session.read ref = some node ∧ behind.id = node.id ∧
      behind.attempt = node.attempt + 1 := by
  cases there : session.read ref with
  | none =>
      -- the execution of a node that is gone has nothing to send
      cases mode with
      | recover => exact absurd rfl sends
      | continuation | dispatch =>
          simp [startNode, Session.transition, Session.change, there] at found
  | some node =>
      refine ⟨node, rfl, ?_⟩
      cases mode with
      | recover => exact absurd rfl sends
      | continuation =>
          have read : (session.change ref (takeAnswer ∘ countAttempt)).session.read
              (session.change ref (takeAnswer ∘ countAttempt)).ref =
                some (takeAnswer (countAttempt node)) :=
            change_read (fun node => takeAnswer_id (countAttempt node)) there
          obtain rfl := Option.some.inj (read.symm.trans found)
          exact ⟨takeAnswer_id _, takeAnswer_attempt _⟩
      | dispatch =>
          simp only [startNode] at quiet found
          split at quiet
          · rename_i raised
            simp [raised] at quiet
          · rename_i begun
            simp only [begun] at found
            obtain ⟨_, read⟩ := transition_after countAttempt_keeps.nodeId begun there
            obtain rfl := Option.some.inj ((change_read takeAnswer_id read).symm.trans found)
            exact ⟨takeAnswer_id _, takeAnswer_attempt _⟩

end Start

/-! ### Steps of a session -/

namespace Runtime

section Steps

variable {config : ExecutorConfig} {env : Env} {runtime next : Runtime}

/-- A handler that starts no plan derives nodes of those in the plan. -/
theorem handle_begets (inbound : Inbound) (drafts : List (Option (List PlanNodeDraft)))
    {handler : Handler} (apt : Apt runtime.session.state handler) (keeps : handler.plans = false) :
    Begets config env (· ∈ runtime.session.state.nodes.keys) runtime.session
      (runtime.handle config env inbound drafts handler).session := by
  -- whoever leaves the count alone derives nothing
  have plain : (runtime.handle config env inbound drafts handler).session.state.derivedCount =
      runtime.session.state.derivedCount → Begets config env
        (· ∈ runtime.session.state.nodes.keys) runtime.session
        (runtime.handle config env inbound drafts handler).session :=
    .edits (handle_edits Scope.uncounted_free env inbound drafts apt keeps)
  cases handler with
  | planAndLaunch | newPlan => cases keeps
  | reject | complete => exact .refl _
  | recover =>
      apply plain
      simp only [handle, startRunner_session]
      rfl
  | reemitQuestions => exact plain emitPendingQuestions_spends.still
  | answers responses =>
      apply plain
      have spends : Session.Spends { maxDerivedNodes := 0 } runtime.session
          (runtime.session.answerAll responses).1 :=
        answerAll_spends responses
      have answered := spends.still
      simp only [handle]
      split
      · rw [startRunner_session]
        exact emitPendingQuestions_spends.still.trans answered
      · exact answered
  | noop =>
      simp only [handle, finish_session]
      exact .refl _
  | enqueue target quoteId =>
      apply plain
      simp only [handle, finish_session]
      rfl
  | spawnFollowup target =>
      simp only [handle, finish_session]
      exact spawnFollowupNode_begets (runtime.session.state.nodes.key_mem_keys apt.1)
  | interrupt target =>
      simp only [handle, finish_session]
      have known : target.id ∈ runtime.session.state.nodes.keys :=
        runtime.session.state.nodes.key_mem_keys apt.1
      have canceled : Begets config env (· ∈ runtime.session.state.nodes.keys) runtime.session
          { runtime.session with
            state := (runtime.session.state.setNode
              { target with status := .canceled }).invalidateBlocked } :=
        .edits (interrupted_edits runtime.session apt.1 trivial fun _ _ => trivial) rfl
      exact canceled.trans (spawnFollowupNode_begets known)

/-- The nodes that a step by itself may derive nodes of. -/
def spawners (runtime : Runtime) : Event → List String
  | .outcome taskId _ _ _ => ((runtime.task? taskId .remote).map (·.ref.nodeId)).toList
  | .act taskId _ _ => ((runtime.settleTask? taskId).map (·.ref.nodeId)).toList
  | _ => []

theorem inner_begets {event : Event} (isInner : event.inner = true)
    (uncounted : ∀ taskId, event ≠ .start taskId)
    (advanced : runtime.advance config event = some next) :
    ∃ env, Begets config env (· ∈ runtime.spawners event) runtime.session next.session := by
  cases plain : spawns event with
  | false =>
      have edits : Edits .uncounted runtime.session next.session :=
        inner_edits Scope.uncounted_free isInner (fun taskId same => absurd same (uncounted taskId))
          advanced
      exact ⟨⟨[], "", fun _ => ""⟩, .edits edits (inner_still isInner plain advanced)⟩
  | true =>
      cases advances advanced with
      | @outcome taskId env remote answered task found =>
          exact ⟨env, interpretRemote_begets (by simp [spawners, found]) remote answered⟩
      | @act taskId env decision task found =>
          exact ⟨env, actOnDecision_begets (by simp [spawners, found]) decision⟩
      | _ => cases plain

/-- A start keeps count of what is sent, and sends nothing twice. -/
theorem start_counts {sent : List (Stamp String)} {taskId : Nat} {task : NodeTask}
    (counts : Counts sent runtime.session.state) (distinct : sent.Nodup)
    (found : runtime.task? taskId .created = some task)
    (ahead : task.mode ≠ .recover → StartsAhead sent runtime.session.state task.ref) :
    Counts (sent ++ runtime.sends (.start taskId))
        (startNode runtime.session task.ref task.mode).session.state ∧
      (sent ++ runtime.sends (.start taskId)).Nodup := by
  have later : Later runtime.session.state
      (startNode runtime.session task.ref task.mode).session.state :=
    startNode_later
  have kept := counts.onward later
  cases streamed : runtime.streamed taskId with
  | none =>
      simp only [Runtime.sends, streamed, Option.map_none, Option.toList_none, List.append_nil]
      exact ⟨kept, distinct⟩
  | some behind =>
      simp only [Runtime.sends, streamed, Option.map_some, Option.toList_some]
      simp only [Runtime.streamed, found, Option.bind_some] at streamed
      split at streamed
      · cases streamed
      · rename_i sends
        push Not at sends
        obtain ⟨node, there, same, next⟩ := startNode_sends sends.1 sends.2 streamed
        rw [same, next]
        cases planned : task.ref with
        | planned nodeId =>
            rw [planned] at there streamed kept
            -- A plan node counts the number in its own row; no other row carries its id.
            have counted := counts.ahead node (runtime.session.state.node_mem nodeId there).1
            rw [startNode_planned] at streamed
            have row := (OrchestrationState.node_mem _ nodeId streamed).1
            refine ⟨⟨fun other member => ?_, fun stamp member => ?_⟩, counted.nodup distinct⟩
            · by_cases own : node.id = other.id
              · obtain rfl := Table.row_unique _ row member (same.trans own)
                rw [same, next]
                exact counted.drawn
              · exact (kept.ahead other member).apart own
            · rcases List.mem_append.mp member with before | last
              · exact kept.reach stamp before
              · rw [List.mem_singleton.mp last, ← same]
                exact Or.inl (Table.key_mem_keys _ row)
        | detached own =>
            rw [planned] at there ahead kept
            cases there
            -- A detached node's id is out of reach of every row, so no row's numbers are used up.
            obtain ⟨counted, outside⟩ := ahead sends.1
            have keys := planned ▸ later.keys
            refine ⟨⟨fun other member => ?_, fun stamp member => ?_⟩, counted.nodup distinct⟩
            · have known : other.id ∈ runtime.session.state.nodes.keys :=
                keys ▸ Table.key_mem_keys _ member
              exact (kept.ahead other member).apart (outside.2 _ known).1.symm
            · rcases List.mem_append.mp member with before | last
              · exact kept.reach stamp before
              · rw [List.mem_singleton.mp last, keys]
                exact Or.inr outside

/-- A plan whose ids no message has gone to counts all messages. -/
theorem planAndLaunch_counts {sent : List (Stamp String)}
    {drafts : List (Option (List PlanNodeDraft))} {mentions : List String}
    (fresh : Unsent config env sent drafts)
    (present : (runtime.planAndLaunch config env drafts mentions).evicted = false) :
    Counts sent (runtime.planAndLaunch config env drafts mentions).session.state := by
  have rows := @planAndLaunch_rows config runtime env drafts mentions
  obtain ⟨nodes, planned⟩ : ∃ nodes, plan config env drafts = some nodes := by
    cases planned : plan config env drafts with
    | some nodes => exact ⟨nodes, rfl⟩
    | none => simp [planAndLaunch, planned, evict] at present
  have outside := fresh nodes planned
  have named : ∀ key ∈ (runtime.planAndLaunch config env drafts mentions).session.state.nodes.keys,
      key ∈ nodes.map (·.id) := by
    intro key member
    obtain ⟨node, inside, rfl⟩ := (Table.mem_keys _ _).mp member
    obtain ⟨listed, same, draft, drafted, rfl⟩ := rows node inside
    obtain rfl := Option.some.inj (planned.symm.trans same)
    exact List.mem_map_of_mem drafted
  constructor
  · intro node member
    apply ahead_of_unsent
    intro stamp sent hit
    have key := named node.id (Table.key_mem_keys _ member)
    exact ((outside stamp sent).2 _ key).1 hit.symm
  · intro stamp sent
    exact Or.inr ⟨(outside stamp sent).1, fun key member => (outside stamp sent).2 key (named key member)⟩

theorem message_counts {sent : List (Stamp String)} {inbound : Inbound}
    {drafts : List (Option (List PlanNodeDraft))} (steady : Steady runtime.session.state)
    (fresh : (runtime.classify inbound).plans = true → Unsent config env sent drafts)
    (counts : (runtime.classify inbound).plans = false → Counts sent runtime.session.state)
    (stepped : runtime.step config (.message inbound env drafts) = some next)
    (present : next.evicted = false) : Counts sent next.session.state := by
  have apt := runtime.classify_apt inbound
  rw [step_message stepped] at present ⊢
  generalize runtime.classify inbound = handler at *
  cases plans : handler.plans with
  | false =>
      have begets := @handle_begets config env runtime inbound drafts handler apt plans
      exact (begets.counts steady (counts plans) fun _ known => Or.inl known).1
  | true =>
      cases handler with
      | planAndLaunch => exact planAndLaunch_counts (fresh rfl) present
      | newPlan =>
          simp only [handle, finish_session] at present ⊢
          refine planAndLaunch_counts (fresh rfl) ?_
          revert present
          unfold finish startRunner
          split
          · split <;> exact id
          · exact id
      | _ => cases plans

end Steps

/-- What a step by itself needs to keep the ids of messages apart. -/
def KeepsIds (sent : List (Stamp String)) (runtime : Runtime) : Event → Prop
  | .start taskId => ∀ task ∈ runtime.task? taskId .created, task.mode ≠ .recover →
      StartsAhead sent runtime.session.state task.ref
  | event => ∀ parentId ∈ runtime.spawners event, Rooted sent runtime.session.state parentId

instance (sent : List (Stamp String)) (runtime : Runtime) (event : Event) :
    Decidable (runtime.KeepsIds sent event) := by
  unfold KeepsIds
  split <;> infer_instance

theorem inner_counts {config : ExecutorConfig} {runtime next : Runtime}
    {sent : List (Stamp String)} {event : Event} (isInner : event.inner = true)
    (steady : Steady runtime.session.state) (counts : Counts sent runtime.session.state)
    (distinct : sent.Nodup) (keeps : runtime.KeepsIds sent event)
    (advanced : runtime.advance config event = some next) :
    Counts (sent ++ runtime.sends event) next.session.state ∧
      (sent ++ runtime.sends event).Nodup := by
  by_cases starts : ∃ taskId, event = .start taskId
  · obtain ⟨taskId, rfl⟩ := starts
    cases advances advanced with
    | start task found => exact start_counts counts distinct found (keeps task found)
  · have silent : runtime.sends event = [] := by
      cases event with
      | start taskId => exact absurd ⟨taskId, rfl⟩ starts
      | _ => rfl
    have rooted : ∀ parentId ∈ runtime.spawners event,
        Rooted sent runtime.session.state parentId := by
      cases event with
      | start taskId => exact absurd ⟨taskId, rfl⟩ starts
      | _ => exact keeps
    obtain ⟨env, begets⟩ := inner_begets isInner (fun taskId same => starts ⟨taskId, same⟩) advanced
    rw [silent, List.append_nil]
    exact ⟨(begets.counts steady counts rooted).1, distinct⟩

end Runtime

/-! ### Conversations -/

namespace Outbox

/-- What an event needs to keep the ids of messages apart. A new plan names no
node like one that got a message, or that a message shows to have been derived;
an evicted session comes back from a snapshot that has counted all messages. -/
def KeepsIds (config : ExecutorConfig) (outbox : Outbox) : ConversationEvent → Prop
  | .message _ inbound env drafts _ =>
      if (outbox.conversation.runtime.ensureSession.classify inbound).plans then
        Runtime.UnderivedPlan config env drafts ∧ Unsent config env outbox.sent drafts
      else outbox.conversation.runtime.evicted = true →
        Counts outbox.sent outbox.conversation.runtime.session.saved
  | .session event _ => outbox.conversation.runtime.KeepsIds outbox.sent event
  | .raise | .crash | .rewind _ => True

instance (config : ExecutorConfig) (env : Env) (sent : List (Stamp String))
    (drafts : List (Option (List PlanNodeDraft))) : Decidable (Unsent config env sent drafts) :=
  inferInstanceAs (Decidable (∀ nodes ∈ _, ∀ stamp ∈ _, OutOfReach _ _))

instance (config : ExecutorConfig) (outbox : Outbox) :
    (event : ConversationEvent) → Decidable (outbox.KeepsIds config event)
  | .message _ inbound env drafts _ =>
      inferInstanceAs (Decidable
        (if (outbox.conversation.runtime.ensureSession.classify inbound).plans then
          Runtime.UnderivedPlan config env drafts ∧ Unsent config env outbox.sent drafts
        else _ → Counts _ _))
  | .session _ _ => inferInstanceAs (Decidable (Runtime.KeepsIds _ _ _))
  | .raise | .crash | .rewind _ => .isTrue trivial

structure Orderly (outbox : Outbox) : Prop where
  distinct : outbox.sent.Nodup
  memory : outbox.conversation.runtime.evicted = false →
    Counts outbox.sent outbox.conversation.runtime.session.state
  held : outbox.conversation.Held Steady

section Runs

variable {config : ExecutorConfig} {outbox next : Outbox} {event : ConversationEvent}

theorem Orderly.step (orderly : outbox.Orderly) (keeps : outbox.KeepsIds config event)
    (stepped : outbox.step config event = some next) : next.Orderly := by
  obtain ⟨conversation, taken, rfl⟩ := Option.map_eq_some_iff.mp stepped
  have held : conversation.Held Steady := by
    refine orderly.held.steady_step ?_ taken
    rintro human inbound env drafts stored rfl plans
    simp only [KeepsIds, plans, if_true] at keeps
    exact keeps.1
  rcases Conversation.step_cases taken with
    ⟨human, inbound, env, drafts, stored, rfl, moved⟩ | ⟨inner, stored, rfl, isInner, moved⟩ |
      ⟨outside, evicted⟩
  · have silent : outbox.sent ++ sends outbox.conversation
        (.message human inbound env drafts stored) = outbox.sent := List.append_nil _
    refine ⟨silent.symm ▸ orderly.distinct, fun present => ?_, held⟩
    rw [silent]
    refine Runtime.message_counts (orderly.held.ensured Steady.restored).1 ?_ ?_ moved present
    · intro plans
      simp only [KeepsIds, plans, if_true] at keeps
      exact keeps.2
    · intro plans
      simp only [KeepsIds, plans, Bool.false_eq_true, if_false] at keeps
      unfold Runtime.ensureSession
      cases evicted : outbox.conversation.runtime.evicted with
      | false => exact orderly.memory evicted
      | true => exact (keeps evicted).restored
  · obtain ⟨present, advanced⟩ := Runtime.step_inner isInner moved
    have counted := Runtime.inner_counts isInner (orderly.held.memory present)
      (orderly.memory present) orderly.distinct keeps advanced
    exact ⟨counted.2, fun _ => counted.1, held⟩
  · have silent : outbox.sent ++ sends outbox.conversation event = outbox.sent := by
      cases event with
      | message | session => cases outside
      | raise | crash | rewind => exact List.append_nil _
    refine ⟨silent.symm ▸ orderly.distinct, fun present => ?_, held⟩
    rw [evicted] at present
    cases present

end Runs

end Outbox

section Samples

/-! A plan whose only node is tried twice, and another plan in the same context. -/

def loneEnv : Env := ⟨["writer"], "now", fun drawn => toString drawn⟩

def lonePlan (nodeId : String) : List (Option (List PlanNodeDraft)) :=
  [some [⟨nodeId, "only", "writer", .empty, []⟩]]

def twoPlans (second : String) : List ConversationEvent := [
  .message true { taskId := "t1", text := "write" } loneEnv (lonePlan "n1") true,
  .session .clearWake true, .session .dispatch true, .session (.start 0) true,
  .session (.outcome 0 loneEnv { ended := .stopped } none) true,
  .session (.close 0) true, .session .collect true, .session .clearWake true,
  .session .dispatch true, .session (.start 1) true,
  .session (.outcome 1 loneEnv { ended := .completed } none) true,
  .session (.close 1) true, .session .collect true, .session .clearWake true,
  .session .dispatch true, .session (.flow loneEnv none) true,
  .message true { taskId := "t2", text := "write on" } loneEnv (lonePlan second) true,
  .session .clearWake true, .session .dispatch true, .session (.start 0) true]

end Samples

end Choirworks.Orchestration
