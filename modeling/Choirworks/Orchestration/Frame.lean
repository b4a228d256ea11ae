import Choirworks.Orchestration.Runner

/-!
Which parts of the state an operation leaves alone: members and interventions
change apart from the plan, a patch changes nodes only, and a spawned node is
drawn with the next number.
-/

namespace Choirworks.Orchestration

namespace OrchestrationState

/-- Only members and interventions differ. -/
def Quiet (old new : OrchestrationState) : Prop :=
  ∃ members interventions, new = { old with members, interventions }

/-- Only nodes and the number of the last patch node differ. -/
def Replanned (old new : OrchestrationState) : Prop :=
  ∃ nodes patchCount, new = { old with nodes, patchCount }

section Quiet

variable {old new last : OrchestrationState}

theorem Quiet.refl (state : OrchestrationState) : Quiet state state := ⟨_, _, rfl⟩

theorem Quiet.trans (first : Quiet old new) (second : Quiet new last) : Quiet old last := by
  obtain ⟨_, _, rfl⟩ := first
  obtain ⟨_, _, rfl⟩ := second
  exact ⟨_, _, rfl⟩

theorem Quiet.nodes (quiet : Quiet old new) : new.nodes = old.nodes := by
  obtain ⟨_, _, rfl⟩ := quiet
  rfl

theorem Quiet.derivedCount (quiet : Quiet old new) : new.derivedCount = old.derivedCount := by
  obtain ⟨_, _, rfl⟩ := quiet
  rfl

theorem Quiet.planVersion (quiet : Quiet old new) : new.planVersion = old.planVersion := by
  obtain ⟨_, _, rfl⟩ := quiet
  rfl

theorem Quiet.queue (quiet : Quiet old new) : new.queue = old.queue := by
  obtain ⟨_, _, rfl⟩ := quiet
  rfl

theorem Quiet.queued (quiet : Quiet old new) (nodeId : String) :
    new.queued nodeId = old.queued nodeId := by
  obtain ⟨_, _, rfl⟩ := quiet
  rfl

theorem Replanned.refl (state : OrchestrationState) : Replanned state state := ⟨_, _, rfl⟩

theorem Replanned.trans (first : Replanned old new) (second : Replanned new last) :
    Replanned old last := by
  obtain ⟨_, _, rfl⟩ := first
  obtain ⟨_, _, rfl⟩ := second
  exact ⟨_, _, rfl⟩

end Quiet

/-! ### Quiet operations -/

section Operations

variable (state : OrchestrationState)

theorem addMember_quiet (name reason now : String) :
    Quiet state (state.addMember name reason now) := by
  unfold addMember
  split <;> exact ⟨_, _, rfl⟩

theorem requestUserInput_cases {state asked : OrchestrationState} {intervention : Intervention}
    (requested : state.requestUserInput intervention = some asked) :
    state.pendingInterventionFor intervention.nodeId = none ∧
      asked = { state with interventions := state.interventions.insert intervention } := by
  unfold requestUserInput at requested
  split at requested
  · cases requested
  · rename_i free
    cases requested
    exact ⟨free, rfl⟩

theorem requestUserInput_quiet {intervention : Intervention} {asked : OrchestrationState}
    (requested : state.requestUserInput intervention = some asked) : Quiet state asked := by
  unfold requestUserInput at requested
  split at requested
  · cases requested
  · cases requested
    exact ⟨_, _, rfl⟩

theorem expireWhere_quiet (concerns : Intervention → Bool) :
    Quiet state (state.expireWhere concerns) :=
  ⟨_, _, rfl⟩

theorem expireAll_quiet (nodeIds : List String) :
    Quiet state (nodeIds.foldl expireNodeInterventions state) := by
  induction nodeIds generalizing state with
  | nil => exact .refl state
  | cons nodeId rest ih => exact (state.expireWhere_quiet _).trans (ih _)

end Operations

end OrchestrationState

open OrchestrationState

section Operations

variable (config : ExecutorConfig) (env : Env) (state : OrchestrationState) (session : Session)

theorem joinMembers_quiet (names : List String) (reason : String) :
    Quiet state (joinMembers env state names reason) := by
  unfold joinMembers
  induction names.filter (· ∈ env.agents) generalizing state with
  | nil => exact .refl state
  | cons name rest ih => exact (state.addMember_quiet name reason env.now).trans (ih _)

theorem askConfirmations_quiet (reason : String) (drawn : Nat) (nodeIds : List String) :
    Quiet state (askConfirmations env reason drawn nodeIds state) := by
  induction nodeIds generalizing state drawn with
  | nil => exact .refl state
  | cons nodeId rest ih =>
      simp only [askConfirmations]
      split
      · exact ih state drawn
      · split
        · exact ih state drawn
        · rename_i asked requested
          exact (state.requestUserInput_quiet requested).trans (ih asked _)

/-- The announcement is made in memory and stored. -/
theorem emitPendingQuestions_cases :
    session.emitPendingQuestions = session ∨
      ∃ state, Quiet session.state state ∧ session.emitPendingQuestions = ⟨state, state⟩ := by
  unfold Session.emitPendingQuestions
  split
  · exact Or.inl rfl
  · exact Or.inr ⟨_, ⟨_, _, rfl⟩, rfl⟩

theorem emitPendingQuestions_quiet : Quiet session.state session.emitPendingQuestions.state := by
  rcases emitPendingQuestions_cases session with same | ⟨state, quiet, stored⟩
  · rw [same]
    exact .refl _
  · rw [stored]
    exact quiet

/-! ### Patches and derived nodes -/

theorem addDraft_replanned (knownAgents : List String) (patching : Patching) (draft : PatchNode) :
    Replanned patching.state (patching.addDraft knownAgents draft).state := by
  simp only [Patching.addDraft]
  split
  · exact .refl _
  · split <;> exact ⟨_, _, rfl⟩

theorem invalidateListed_replanned (patching : Patching) (nodeId : String) :
    Replanned patching.state (patching.invalidateListed nodeId).state := by
  simp only [Patching.invalidateListed]
  split
  · exact .refl _
  · split
    · exact ⟨_, _, rfl⟩
    · split <;> exact .refl _

theorem cascade_replanned (fuel : Nat) (patching : Patching) :
    Replanned patching.state (patching.cascade fuel).state := by
  induction fuel generalizing patching with
  | zero => exact .refl _
  | succ fuel ih =>
      simp only [Patching.cascade]
      split
      · exact .refl _
      · exact Replanned.trans ⟨_, _, rfl⟩ (ih _)

theorem applyPatch_replanned (patch : PlanPatch) (knownAgents : List String) :
    Replanned state (applyPatch state patch knownAgents).state := by
  have added : ∀ (drafts : List PatchNode) (patching : Patching),
      Replanned patching.state (drafts.foldl (Patching.addDraft knownAgents) patching).state := by
    intro drafts
    induction drafts with
    | nil => exact fun patching => .refl _
    | cons draft rest ih =>
        exact fun patching => (addDraft_replanned knownAgents patching draft).trans (ih _)
  have listed : ∀ (nodeIds : List String) (patching : Patching),
      Replanned patching.state (nodeIds.foldl Patching.invalidateListed patching).state := by
    intro nodeIds
    induction nodeIds with
    | nil => exact fun patching => .refl _
    | cons nodeId rest ih =>
        exact fun patching => (invalidateListed_replanned patching nodeId).trans (ih _)
  exact ((added patch.add ⟨state, {}⟩).trans (listed patch.invalidate _)).trans
    (cascade_replanned _ _)

/-- A revision is a patch and what is announced about it; `⟨..⟩` of one state
twice is a session that has been stored. -/
theorem applyPatchLocked_cases (patch : PlanPatch) :
    ∃ state, Quiet (applyPatch session.state patch env.agents).state state ∧
      (applyPatchLocked env session patch).1 = ⟨state, state⟩ := by
  have asked := askConfirmations_quiet env
    (applyPatch session.state patch env.agents).state patch.reason 0
    (applyPatch session.state patch env.agents).result.skippedInFlight
  have joined := asked.trans (joinMembers_quiet env _
    ((patch.add.map (·.agentName)).filter (· ∈ env.agents)) "plan_revision")
  simp only [applyPatchLocked]
  rcases emitPendingQuestions_cases (Session.persist { session with state := _ }) with
    same | ⟨state, quiet, stored⟩
  · exact ⟨_, joined, same⟩
  · exact ⟨state, joined.trans quiet, stored⟩

/-- The revision is counted in memory only. -/
theorem revisePlan_cases (patch : PlanPatch) :
    ∃ state count, Quiet (applyPatch session.state patch env.agents).state state ∧
      (revisePlan env session patch).1 = ⟨{ state with revisionCount := count }, state⟩ := by
  obtain ⟨state, quiet, stored⟩ := applyPatchLocked_cases env session patch
  refine ⟨state, ?_⟩
  simp only [revisePlan]
  split
  · exact ⟨_, quiet, by rw [stored]⟩
  · exact ⟨state.revisionCount, quiet, by rw [stored]⟩

theorem spawnDerivedNode_cases (spawn : Spawn) :
    (config.maxDerivedNodes ≤ session.state.derivedCount ∧
        spawnDerivedNode config env session spawn = (session, none)) ∨
      ∃ state, session.state.derivedCount < config.maxDerivedNodes ∧
        Quiet { session.state.setNode (spawn.node (session.state.derivedCount + 1)) with
          derivedCount := session.state.derivedCount + 1 } state ∧
        spawnDerivedNode config env session spawn =
          (⟨state, state⟩, some (spawn.node (session.state.derivedCount + 1))) := by
  simp only [spawnDerivedNode]
  split
  · rename_i exhausted
    exact Or.inl ⟨exhausted, rfl⟩
  · rename_i room
    right
    split
    · exact ⟨_, Nat.lt_of_not_ge room, .refl _, rfl⟩
    · exact ⟨_, Nat.lt_of_not_ge room, joinMembers_quiet env _ _ _, rfl⟩

/-- The spawn of a node that helps its parent: it waits for nothing. -/
structure Spawn.Helps (spawn : Spawn) : Prop where
  kind : spawn.kind ≠ .followup
  deps : spawn.deps = []
  requester : spawn.assistRequestedBy = some spawn.parentId

/-- The spawn of a follow-up, which nobody has requested. -/
structure Spawn.Follows (spawn : Spawn) : Prop where
  kind : spawn.kind = .followup
  requester : spawn.assistRequestedBy = none

/-- What every spawn of an assist does, the arbitration of all mentions does. -/
theorem arbitrateMentions_rule (effect : Session → Session → Prop)
    (none : ∀ session, effect session session)
    (chain : ∀ {first second third}, effect first second → effect second third →
      effect first third)
    (node : NodeState)
    (spawned : ∀ session (spawn : Spawn), spawn.Helps → spawn.parentId = node.id →
      effect session (spawnDerivedNode config env session spawn).1) :
    effect session (arbitrateMentions config env session node) := by
  have mentioned : ∀ output names, ∀ session : Session,
      effect session (spawnMentioned config env node output names session) := by
    intro output names
    induction names with
    | nil => exact none
    | cons name rest ih =>
        intro session
        simp only [spawnMentioned]
        split
        · exact ih session
        · have first := spawned session
            { kind := .assist, parentId := node.id, agentName := name,
              inputText := buildAssistInput node.agentName (some output),
              assistRequestedBy := some node.id } ⟨nofun, rfl, rfl⟩ rfl
          split
          · rename_i refused
            rwa [refused] at first
          · rename_i accepted
            rw [accepted] at first
            exact chain first (ih _)
  unfold arbitrateMentions
  split
  · exact none session
  · exact mentioned _ _ session

/-- A tool call is the spawn of a helper, or it is refused and changes nothing. -/
theorem callSubagent_cases (requestedBy target instruction : String) :
    (callSubagent config env session requestedBy target instruction).1 = session ∨
      ∃ spawn : Spawn, spawn.Helps ∧ spawn.parentId = requestedBy ∧
        (callSubagent config env session requestedBy target instruction).1 =
          (spawnDerivedNode config env session spawn).1 := by
  simp only [callSubagent]
  split
  · exact Or.inl rfl
  · split
    · exact Or.inl rfl
    · split
      · exact Or.inl rfl
      · right
        let helper : Spawn :=
          { kind := .helper, parentId := requestedBy, agentName := target,
            inputText := if instruction = "" then
                buildPeerFallbackInput
                  (((session.state.node? requestedBy).bind (·.question)).getD "")
              else instruction,
            assistRequestedBy := some requestedBy }
        refine ⟨helper, ⟨nofun, rfl, rfl⟩, rfl, ?_⟩
        split <;> rename_i result <;> rw [result]

/-- A refused tool call leaves the session alone. -/
theorem callSubagent_refused {requestedBy target instruction text : String} {refused : Session}
    (result : callSubagent config env session requestedBy target instruction =
      (refused, .error text)) : refused = session := by
  simp only [callSubagent] at result
  split at result
  · cases result
    rfl
  · split at result
    · cases result
      rfl
    · split at result
      · cases result
        rfl
      · rename_i spawn _
        split at result
        · rename_i spawned
          rcases spawnDerivedNode_cases config env session _ with ⟨_, same⟩ | ⟨_, _, _, accepted⟩
          · rw [same] at spawned
            cases spawned
            cases result
            rfl
          · rw [accepted] at spawned
            cases spawned
        · cases result

/-! ### The queue -/

@[simp] theorem spawnDerivedNode_queue (spawn : Spawn) :
    (spawnDerivedNode config env session spawn).1.state.queue = session.state.queue := by
  rcases spawnDerivedNode_cases config env session spawn with
    ⟨_, refused⟩ | ⟨state, _, quiet, spawned⟩
  · rw [refused]
  · rw [spawned]
    exact quiet.queue

@[simp] theorem arbitrateMentions_queue (node : NodeState) :
    (arbitrateMentions config env session node).state.queue = session.state.queue :=
  arbitrateMentions_rule config env session
    (fun session next => next.state.queue = session.state.queue) (fun _ => rfl)
    (fun first second => second.trans first) node
    fun session spawn _ _ => spawnDerivedNode_queue config env session spawn

@[simp] theorem revise_queue (decision : OutcomeResult) :
    (revise config env session decision).state.queue = session.state.queue := by
  unfold revise
  split
  · rename_i patch _ _
    split
    · obtain ⟨state, count, quiet, revised⟩ := revisePlan_cases env session patch
      obtain ⟨_, _, patched⟩ := applyPatch_replanned session.state patch env.agents
      rw [revised]
      exact quiet.queue.trans (by rw [patched])
    · rfl
  · rfl

end Operations

/-! ### The node of an execution -/

theorem read_nodeId {session : Session} {ref : NodeRef} {node : NodeState}
    (found : session.read ref = some node) : node.id = ref.nodeId := by
  cases ref with
  | planned nodeId => exact (session.state.node_mem nodeId found).2
  | detached own =>
      cases found
      rfl

/-- A write is about the nodes only. -/
theorem write_frame (session : Session) (ref : NodeRef) (node : NodeState) :
    (session.write ref node).1.state =
      { session.state with nodes := (session.write ref node).1.state.nodes } := by
  cases ref <;> rfl

theorem write_revisionCount (session : Session) (ref : NodeRef) (node : NodeState) :
    (session.write ref node).1.state.revisionCount = session.state.revisionCount := by
  rw [write_frame]

theorem read_write {session : Session} {ref : NodeRef} {node later : NodeState}
    (found : session.read ref = some node) (sameId : later.id = node.id) :
    (session.write ref later).1.read (session.write ref later).2 = some later := by
  cases ref with
  | detached own => rfl
  | planned nodeId =>
      have own : nodeId = later.id := (read_nodeId found).symm.trans sameId.symm
      simp [Session.write, Session.read, node?, setNode, own]

theorem status_write {session : Session} {ref : NodeRef} {node later : NodeState}
    (found : session.read ref = some node) (sameId : later.id = node.id)
    (sameStatus : later.status = node.status) (nodeId : String) :
    (session.write ref later).1.state.status? nodeId = session.state.status? nodeId := by
  cases ref with
  | detached own => rfl
  | planned own =>
      have row : session.state.status? later.id = some node.status := by
        rw [sameId]
        exact session.state.status_of_mem (session.state.node_mem own found).1
      simp only [Session.write, status_setNode, sameStatus]
      split
      · rename_i hit
        rw [hit, row]
      · rfl

theorem write_nodeId (session : Session) (ref : NodeRef) (node : NodeState)
    (found : session.read ref = some node) (other : NodeState) (same : other.id = node.id) :
    (session.write ref other).2.nodeId = ref.nodeId := by
  cases ref with
  | planned nodeId => rfl
  | detached own =>
      cases found
      exact same

section Refs

variable (session : Session) (ref : NodeRef) (fields : NodeState → NodeState)
  (keeps : ∀ node, (fields node).id = node.id)

include keeps

theorem transition_nodeId (target : NodeStatus) :
    (session.transition ref fields target).ref.nodeId = ref.nodeId := by
  unfold Session.transition
  split
  · rfl
  · rename_i node found
    split
    · exact write_nodeId session ref node found _ (keeps node)
    · rename_i moved allowed
      have same := (NodeState.apply_transition_ok allowed).2
      exact write_nodeId session ref node found moved (by rw [same]; exact keeps node)

theorem change_nodeId : (session.change ref fields).ref.nodeId = ref.nodeId := by
  unfold Session.change
  split
  · rfl
  · rename_i node found
    exact write_nodeId session ref node found _ (keeps node)

end Refs

theorem takeAnswer_id (node : NodeState) : (takeAnswer node).id = node.id := by
  unfold takeAnswer
  split <;> rfl

section Transition

variable {session : Session} {ref : NodeRef} {fields : NodeState → NodeState}
  {target : NodeStatus}

/-- Without an exception the node has the status. -/
theorem transition_status (keeps : ∀ node, (fields node).id = node.id)
    (quiet : (session.transition ref fields target).raised = none)
    {node : NodeState} (found : (session.transition ref fields target).session.read
      (session.transition ref fields target).ref = some node) : node.status = target := by
  unfold Session.transition at quiet found
  split at quiet
  · rename_i missing
    simp [missing] at found
  · rename_i before there
    simp only [there] at found
    split at quiet
    · cases quiet
    · rename_i moved allowed
      simp only [allowed] at found
      obtain ⟨_, rfl⟩ := NodeState.apply_transition_ok allowed
      cases ref with
      | detached own =>
          cases found
          rfl
      | planned nodeId =>
          have own : nodeId = (fields before).id :=
            (session.state.node_mem nodeId there).2.symm.trans (keeps before).symm
          simp only [Session.write, Session.read, node?, setNode, Table.find?_insert, own,
            ↓reduceIte, Option.some.injEq] at found
          rw [← found]

theorem transition_planned (nodeId : String) :
    (session.transition (.planned nodeId) fields target).ref = .planned nodeId := by
  unfold Session.transition
  split
  · rfl
  · split <;> rfl

/-- The execution of a detached node does not get into the plan. -/
theorem planned_of_transition {nodeId : String}
    (planned : (session.transition ref fields target).ref = .planned nodeId) :
    ref = .planned nodeId := by
  cases ref with
  | planned ownId => rwa [transition_planned] at planned
  | detached own =>
      unfold Session.transition at planned
      dsimp only [Session.read] at planned
      split at planned <;> cases planned

/-- A detached node is not in the state. -/
theorem transition_detached (own : NodeState) :
    (session.transition (.detached own) fields target).session = session := by
  unfold Session.transition
  split
  · rfl
  · split <;> rfl

end Transition

end Choirworks.Orchestration
