import Choirworks.Orchestration.Frame
import Choirworks.Orchestration.Support

/-!
What each operation on a session does to the support of its nodes. Every
operation keeps it, those that end nodes under a condition on the state before:
whoever waits for an ended node has to end with it.
-/

namespace Choirworks.Orchestration

open OrchestrationState

/-! ### Sessions -/

namespace Session

structure Sound (session : Session) : Prop where
  state : Supported [] session.state
  saved : Supported [] session.saved

/-- The session stays sound and what its nodes rest on stays. -/
structure Onward (session next : Session) : Prop where
  sound : next.Sound
  extends_ : Extends session.state next.state

variable {session next last : Session}

theorem Onward.refl (sound : session.Sound) : Onward session session := ⟨sound, .refl _⟩

theorem Onward.trans (first : Onward session next) (second : Onward next last) :
    Onward session last :=
  ⟨second.sound, first.extends_.trans second.extends_⟩

/-- The state in memory moves on, and may be stored. -/
theorem Onward.stored (sound : session.Sound)
    (onward : Supported [] next.state ∧ Extends session.state next.state)
    (stored : next.saved = session.saved ∨ next.saved = next.state) : Onward session next := by
  refine ⟨⟨onward.1, ?_⟩, onward.2⟩
  rcases stored with same | written
  · exact same ▸ sound.saved
  · exact written ▸ onward.1

theorem Onward.moved (sound : session.Sound) {state : OrchestrationState}
    (onward : Supported [] state ∧ Extends session.state state) :
    Onward session { session with state } :=
  .stored sound onward (Or.inl rfl)

theorem Onward.quiet (sound : session.Sound) (quiet : Quiet session.state next.state)
    (stored : next.saved = session.saved ∨ next.saved = next.state) : Onward session next :=
  .stored sound ⟨sound.state.congr quiet.nodes quiet.derivedCount, .congr quiet.nodes⟩ stored

theorem Onward.persist (onward : Onward session next) : Onward session next.persist :=
  ⟨⟨onward.sound.state, onward.sound.state⟩, onward.extends_⟩

theorem Onward.emit (onward : Onward session next) : Onward session next.emitPendingQuestions := by
  refine onward.trans (.quiet onward.sound (emitPendingQuestions_quiet next) ?_)
  rcases emitPendingQuestions_cases next with same | ⟨state, _, stored⟩
  · exact Or.inl (by rw [same])
  · exact Or.inr (by rw [stored])

end Session

open Session (Sound Onward)

/-! ### Patches and derived nodes -/

section Operations

variable (config : ExecutorConfig) (env : Env) {session : Session}

theorem revisePlan_onward (sound : session.Sound) {patch : PlanPatch}
    (living : LivingDrafts env.agents session.state patch) :
    Onward session (revisePlan env session patch).1 := by
  obtain ⟨supported, onward⟩ := applyPatch_onward sound.state living
  obtain ⟨state, count, quiet, revised⟩ := revisePlan_cases env session patch
  have stored : Supported [] state := supported.congr quiet.nodes quiet.derivedCount
  rw [revised]
  exact ⟨⟨stored.congr rfl rfl, stored⟩, onward.trans (.congr quiet.nodes)⟩

theorem spawnDerivedNode_onward (sound : session.Sound) (spawn : Spawn)
    (alive : ∀ dep ∈ spawn.deps, session.state.Alive dep) :
    Onward session (spawnDerivedNode config env session spawn).1 := by
  rcases spawnDerivedNode_cases config env session spawn with
    ⟨_, refused⟩ | ⟨state, _, quiet, spawned⟩
  · rw [refused]
    exact .refl sound
  · rw [spawned]
    let node := spawn.node (session.state.derivedCount + 1)
    have fresh : node.id ∉ session.state.nodes.keys := by
      intro taken
      obtain ⟨other, member, same⟩ := (Table.mem_keys _ _).mp taken
      have small := sound.state.numbered other member _ _ _ same
      omega
    have added := sound.state.add
      { session.state.setNode node with derivedCount := session.state.derivedCount + 1 }
      rfl (Nat.le_succ _) fresh rfl alive 
      (fun _ _ _ same => Nat.le_of_eq (derivedId_number same).symm)
    refine .stored sound ⟨added.1.congr quiet.nodes quiet.derivedCount, ?_⟩ (Or.inr rfl)
    exact added.2.trans (.congr quiet.nodes)

theorem spawnFollowupNode_onward (sound : session.Sound) (text : String) (anchor : NodeState)
    {deps : List String} (alive : ∀ dep ∈ deps, session.state.Alive dep) :
    Onward session (spawnFollowupNode config env session text anchor deps) :=
  spawnDerivedNode_onward config env sound _ alive

theorem arbitrateMentions_onward (sound : session.Sound) (node : NodeState) :
    Onward session (arbitrateMentions config env session node) :=
  arbitrateMentions_rule config env session (fun session next => session.Sound → Onward session next)
    (fun _ => .refl) (fun first second sound => (first sound).trans (second (first sound).sound)) node
    (fun _ spawn helps _ sound =>
      spawnDerivedNode_onward config env sound spawn (by simp [helps.deps])) sound

theorem deliverQueued_onward (sound : session.Sound) (node : NodeState)
    (alive : session.state.queued node.id ≠ [] → session.state.Alive node.id) :
    Onward session (deliverQueued config env session node) := by
  have taken : Onward session
      { session with state := (session.state.takeQueued node.id).2 } :=
    .stored sound ⟨sound.state.congr rfl rfl, .congr rfl⟩ (Or.inl rfl)
  unfold deliverQueued
  dsimp only
  split
  · exact taken
  · rename_i some_left
    refine taken.trans (spawnFollowupNode_onward config env taken.sound _ node ?_)
    rintro dep depends
    rw [List.mem_singleton.mp depends]
    exact alive some_left

theorem callSubagent_onward (sound : session.Sound) (requestedBy target instruction : String) :
    Onward session (callSubagent config env session requestedBy target instruction).1 := by
  rcases callSubagent_cases config env session requestedBy target instruction with
    refused | ⟨spawn, helps, _, spawned⟩
  · rw [refused]
    exact .refl sound
  · rw [spawned]
    exact spawnDerivedNode_onward config env sound spawn (by simp [helps.deps])

end Operations

/-! ### The node of an execution -/

/-- The node of an execution is in the plan and all it depends on is completed. -/
def Underway (state : OrchestrationState) : NodeRef → Prop
  | .planned nodeId => ∃ node ∈ state.node? nodeId, state.Done node
  | .detached _ => True

theorem Underway.onward {old new : OrchestrationState} {ref : NodeRef}
    (underway : Underway old ref) (onward : Extends old new) : Underway new ref := by
  cases ref with
  | detached node => trivial
  | planned nodeId =>
      obtain ⟨node, found, done⟩ := underway
      obtain ⟨member, rfl⟩ := old.node_mem nodeId found
      obtain ⟨later, there, sameId, sameDeps, _⟩ := onward node member
      refine ⟨later, sameId ▸ new.node_of_mem there, ?_⟩
      intro dep depends
      exact onward.completed (done dep (sameDeps ▸ depends))

/-- The fields besides the id, the dependencies and the status. -/
structure KeepsRow (fields : NodeState → NodeState) : Prop where
  nodeId : ∀ node, (fields node).id = node.id
  deps : ∀ node, (fields node).deps = node.deps
  status : ∀ node, (fields node).status = node.status

theorem KeepsRow.id : KeepsRow id := ⟨fun _ => rfl, fun _ => rfl, fun _ => rfl⟩

theorem countAttempt_keeps : KeepsRow countAttempt := ⟨fun _ => rfl, fun _ => rfl, fun _ => rfl⟩

structure Handled.Onward (session : Session) (handled : Handled) : Prop where
  session : Session.Onward session handled.session
  underway : Underway handled.session.state handled.ref

section Execution

variable (config : ExecutorConfig) (env : Env) {session : Session} {ref : NodeRef}
  {fields : NodeState → NodeState}

theorem Session.Onward.trans_handled {next : Session} {handled : Handled}
    (first : Session.Onward session next) (second : Handled.Onward next handled) :
    Handled.Onward session handled :=
  ⟨first.trans second.session, second.underway⟩

theorem write_onward (sound : session.Sound) (underway : Underway session.state ref)
    {node later : NodeState} (found : session.read ref = some node)
    (changes : Changed session.state [] node later) (raised : Option String) :
    Handled.Onward session
      ⟨(session.write ref later).1, (session.write ref later).2, raised⟩ := by
  cases ref with
  | detached own => exact ⟨.refl sound, trivial⟩
  | planned nodeId =>
      have sameId : later.id = nodeId := changes.id.trans (session.state.node_mem nodeId found).2
      have onward := sound.state.set (by simp) changes (sameId ▸ found)
      exact ⟨.stored sound onward (Or.inl rfl), underway.onward onward.2⟩

theorem change_onward (keeps : KeepsRow fields) (sound : session.Sound)
    (underway : Underway session.state ref) :
    Handled.Onward session (session.change ref fields) := by
  unfold Session.change
  split
  · exact ⟨.refl sound, underway⟩
  · rename_i node found
    exact write_onward sound underway found
      (.same_status (keeps.nodeId node) (keeps.deps node) (keeps.status node)) none

theorem moved_changes {state : OrchestrationState} {node : NodeState} {target : NodeStatus}
    (keeps : KeepsRow fields) (allowed : (fields node).canTransition target = true)
    (lives : target ∉ deadStatuses) (done : state.Done node) :
    Changed state [] node { fields node with status := target } := by
  have moves : node.status ∈ terminalNodeStatuses → node.status ≠ .failed →
      target = node.status := by
    rw [← keeps.status node]
    intro ended unfailed
    apply NodeState.can_transition_ended _ allowed
    revert ended unfailed
    cases (fields node).status <;> simp [terminalNodeStatuses]
  refine ⟨keeps.nodeId node, keeps.deps node, ?_, fun dead => absurd dead lives, ?_,
    fun _ => Or.inr done⟩
  · intro completed
    exact (moves (by simp [completed, terminalNodeStatuses]) (by simp [completed])).trans completed
  · intro pending
    simp only at pending
    cases status : node.status <;>
      simp [status, pending, terminalNodeStatuses, begunStatuses] at moves ⊢

theorem detached_or_done (underway : Underway session.state ref) {node : NodeState}
    (found : session.read ref = some node) : (∃ own, ref = .detached own) ∨
      session.state.Done node := by
  cases ref with
  | detached own => exact Or.inl ⟨own, rfl⟩
  | planned nodeId =>
      obtain ⟨other, there, done⟩ := underway
      have same : node = other := Option.some.inj (found.symm.trans there)
      exact Or.inr (same ▸ done)

theorem transition_onward (keeps : KeepsRow fields) (target : NodeStatus)
    (lives : target ∉ deadStatuses) (sound : session.Sound)
    (underway : Underway session.state ref) :
    Handled.Onward session (session.transition ref fields target) := by
  unfold Session.transition
  split
  · exact ⟨.refl sound, underway⟩
  · rename_i node found
    split
    · rename_i text _
      exact write_onward sound underway found
        (.same_status (keeps.nodeId node) (keeps.deps node) (keeps.status node)) (some text)
    · rename_i moved allowed
      obtain ⟨may, rfl⟩ := NodeState.apply_transition_ok allowed
      rcases detached_or_done underway found with ⟨own, rfl⟩ | done
      · exact ⟨.refl sound, trivial⟩
      · exact write_onward sound underway found (moved_changes keeps may lives done) none

/-! ### The parts of an execution -/

theorem takeAnswer_keeps : KeepsRow takeAnswer := by
  constructor <;>
  · intro node
    unfold takeAnswer
    split <;> rfl

theorem startNode_onward (sound : session.Sound) (underway : Underway session.state ref)
    (mode : Mode) : Handled.Onward session (startNode session ref mode) := by
  cases mode with
  | recover =>
      exact transition_onward .id .recover (by decide) sound underway
  | continuation =>
      refine change_onward ⟨?_, ?_, ?_⟩ sound underway
      · exact fun node => takeAnswer_keeps.nodeId (countAttempt node)
      · exact fun node => takeAnswer_keeps.deps (countAttempt node)
      · exact fun node => takeAnswer_keeps.status (countAttempt node)
  | dispatch =>
      have begun := transition_onward countAttempt_keeps .submitted (by decide) sound underway
      simp only [startNode]
      split
      · exact begun
      · exact begun.session.trans_handled
          (change_onward takeAnswer_keeps begun.session.sound begun.underway)

theorem chunkNode_onward (sound : session.Sound) (underway : Underway session.state ref)
    (a2aTaskId : Option String) (submitted : Bool) :
    Handled.Onward session (chunkNode session ref a2aTaskId submitted) := by
  have keeps : KeepsRow (chunkFields a2aTaskId) := ⟨fun _ => rfl, fun _ => rfl, fun _ => rfl⟩
  unfold chunkNode
  split
  · exact transition_onward keeps _ (by decide) sound underway
  · exact change_onward keeps sound underway

/-- The patch that a decision of the outcome agent brings in names living nodes. -/
def LivingRevision (config : ExecutorConfig) (env : Env) (state : OrchestrationState)
    (decision : OutcomeResult) : Prop :=
  decision.intent = .revise → state.revisionCount < config.maxRevisions →
    ∀ patch ∈ decision.patch, LivingDrafts env.agents state patch

instance (config : ExecutorConfig) (env : Env) (state : OrchestrationState)
    (decision : OutcomeResult) : Decidable (LivingRevision config env state decision) :=
  inferInstanceAs (Decidable (_ → _ → ∀ patch ∈ decision.patch, _))

theorem revise_onward (sound : session.Sound) {decision : OutcomeResult}
    (living : LivingRevision config env session.state decision) :
    Onward session (revise config env session decision) := by
  unfold revise
  split
  · rename_i patch intent brought
    split
    · rename_i room
      exact revisePlan_onward env sound (living intent room patch brought)
    · exact .refl sound
  · exact .refl sound

/-- An execution that a new plan has detached has nothing queued under its id. -/
def DetachedIdle (state : OrchestrationState) : NodeRef → Prop
  | .planned _ => True
  | .detached node => state.queued node.id = []

instance (state : OrchestrationState) : (ref : NodeRef) → Decidable (DetachedIdle state ref)
  | .planned _ => .isTrue trivial
  | .detached _ => inferInstanceAs (Decidable (_ = _))

/-- A delivered queue goes to a follow-up on a node that has completed. -/
theorem delivered_alive (idle : DetachedIdle session.state ref) {node : NodeState}
    (quiet : (session.transition ref id .completed).raised = none)
    (found : (session.transition ref id .completed).session.read
      (session.transition ref id .completed).ref = some node)
    (waits : (session.transition ref id .completed).session.state.queued node.id ≠ []) :
    (session.transition ref id .completed).session.state.status? node.id = some .completed := by
  cases ref with
  | planned nodeId =>
      have completed := transition_status (fun _ => rfl) quiet found
      rw [transition_planned] at found
      have row := (node_mem _ nodeId found).1
      rw [status_of_mem _ row, completed]
  | detached own =>
      have same := transition_nodeId session (.detached own) id (fun _ => rfl) .completed
      rw [transition_detached, (read_nodeId found).trans same] at waits
      exact absurd idle waits

theorem markDelivered_onward (sound : session.Sound) (underway : Underway session.state ref)
    (idle : DetachedIdle session.state ref) :
    Handled.Onward session (markDelivered config env session ref) := by
  have delivered := transition_onward .id .completed (by decide) sound underway
  simp only [markDelivered]
  split
  · rename_i node completed found
    have helped := arbitrateMentions_onward config env delivered.session.sound node
    have drained := deliverQueued_onward config env helped.sound node (by
      intro waits
      rw [queued, arbitrateMentions_queue] at waits
      have done := delivered_alive idle completed found waits
      exact alive_of_completed (helped.extends_.completed done))
    have onward := helped.trans drained
    exact ⟨delivered.session.trans onward, delivered.underway.onward onward.extends_⟩
  · exact delivered

theorem outcomeFlow_onward (sound : session.Sound) (underway : Underway session.state ref)
    (idle : DetachedIdle session.state ref) (answered : Option OutcomeResult)
    (living : LivingRevision config env session.state
      (interpretOutcome ((session.read ref).bind (·.output)) answered)) :
    Handled.Onward session (outcomeFlow config env session ref answered) := by
  have revised := revise_onward config env sound living
  have stays : DetachedIdle (revise config env session
      (interpretOutcome ((session.read ref).bind (·.output)) answered)).state ref := by
    cases ref with
    | planned nodeId => trivial
    | detached own =>
        rw [DetachedIdle, queued, revise_queue]
        exact idle
  have delivered := revised.trans_handled
    (markDelivered_onward config env revised.sound (underway.onward revised.extends_) stays)
  simp only [outcomeFlow]
  split
  · apply transition_onward _ .inputRequired (by decide) sound underway
    exact ⟨fun _ => rfl, fun _ => rfl, fun _ => rfl⟩
  · exact delivered
  · exact delivered

/-- No waiting node depends on it. -/
def Unwaited (state : OrchestrationState) (nodeId : String) : Prop :=
  ∀ node ∈ state.nodes.rows, node.status = .pending → nodeId ∉ node.deps

instance (state : OrchestrationState) (nodeId : String) : Decidable (Unwaited state nodeId) :=
  inferInstanceAs (Decidable (∀ node ∈ state.nodes.rows, _))

/-- If the node of an execution may be canceled, nothing waits for it. -/
def CanceledAlone (state : OrchestrationState) : NodeRef → Prop
  | .planned nodeId => ∀ node ∈ state.node? nodeId,
      node.canTransition .canceled = true → Unwaited state nodeId
  | .detached _ => True

instance (state : OrchestrationState) : (ref : NodeRef) → Decidable (CanceledAlone state ref)
  | .planned nodeId => inferInstanceAs (Decidable (∀ node ∈ state.node? nodeId, _))
  | .detached _ => .isTrue trivial

theorem canceled_onward (keeps : KeepsRow fields) (sound : session.Sound)
    (underway : Underway session.state ref)
    (alone : CanceledAlone session.state ref) :
    Handled.Onward session (session.transition ref fields .canceled) := by
  unfold Session.transition
  split
  · exact ⟨.refl sound, underway⟩
  · rename_i node found
    split
    · rename_i text _
      exact write_onward sound underway found
        (.same_status (keeps.nodeId node) (keeps.deps node) (keeps.status node)) (some text)
    · rename_i moved allowed
      obtain ⟨may, rfl⟩ := NodeState.apply_transition_ok allowed
      cases ref with
      | detached own => exact ⟨.refl sound, trivial⟩
      | planned nodeId =>
          have own : (fields node).id = nodeId := (keeps.nodeId node).trans (read_nodeId found)
          have allowed : node.canTransition .canceled = true := by
            simpa [NodeState.canTransition, keeps.status] using may
          have undone : node.status ≠ .completed := by
            intro completed
            simp [NodeState.canTransition, completed, NodeState.allowedTransitions] at allowed
          have changes : Changed session.state [nodeId] node
              { fields node with status := .canceled } :=
            ⟨keeps.nodeId node, keeps.deps node, fun completed => absurd completed undone,
              fun _ => Or.inr (by simp [← own, keeps.nodeId]), by simp, by simp [begunStatuses]⟩
          obtain ⟨falls, onward⟩ := sound.state.set (by simp) changes (own ▸ found)
          -- the node falls, but nothing waits for it
          have supported := falls.settled (by
            intro other there pending dep depends fallen
            rw [List.mem_singleton.mp fallen] at depends
            rcases (mem_setNode _ _ _).mp there with rfl | ⟨row, _⟩
            · cases pending
            · exact alone node found allowed other row pending depends)
          exact ⟨.stored sound ⟨supported, onward⟩ (Or.inl rfl), underway.onward onward⟩

/-- What keeps the outcome of an execution from leaving dead dependencies. -/
def SparingOutcome (config : ExecutorConfig) (env : Env) (state : OrchestrationState)
    (ref : NodeRef) (remote : Remote) (answered : Option OutcomeResult) : Prop :=
  match remote.ended with
  | .completed =>
      LivingRevision config env state (interpretOutcome remote.output answered) ∧
        DetachedIdle state ref
  | .canceled => CanceledAlone state ref
  | .inputRequired | .stopped => True

instance (config : ExecutorConfig) (env : Env) (state : OrchestrationState) (ref : NodeRef)
    (remote : Remote) (answered : Option OutcomeResult) :
    Decidable (SparingOutcome config env state ref remote answered) := by
  unfold SparingOutcome
  split <;> infer_instance

theorem interpretRemote_onward (sound : session.Sound) (underway : Underway session.state ref)
    {remote : Remote} {answered : Option OutcomeResult}
    (sparing : SparingOutcome config env session.state ref remote answered) :
    Handled.Onward session (interpretRemote config env session ref remote answered) := by
  have keeps : KeepsRow remote.fields := ⟨fun _ => rfl, fun _ => rfl, fun _ => rfl⟩
  simp only [interpretRemote]
  unfold SparingOutcome at sparing
  split
  · rename_i ended
    simp only [ended] at sparing
    split
    · exact ⟨.refl sound, underway⟩
    · rename_i node found
      have written := write_onward sound underway found
        (.same_status (keeps.nodeId node) (keeps.deps node) (keeps.status node)) none
      have output := read_write found (keeps.nodeId node)
      have statuses := status_write found (keeps.nodeId node) (keeps.status node)
      refine written.session.trans_handled ?_
      apply outcomeFlow_onward config env written.session.sound written.underway
      · cases ref with
        | planned nodeId => trivial
        | detached own =>
            cases found
            exact sparing.2
      · rw [output]
        intro intent room patch brought draft added known dep depends status
        rw [statuses]
        have before : session.state.revisionCount < config.maxRevisions := by
          cases ref <;> exact room
        exact sparing.1 intent before patch brought draft added known dep depends status
  · rename_i ended
    simp only [ended] at sparing
    exact canceled_onward keeps sound underway sparing
  · exact transition_onward keeps _ (by decide) sound underway
  · exact transition_onward keeps _ (by decide) sound underway

/-! ### Settlement -/

theorem expired_onward (sound : session.Sound) (nodeId : String) :
    Onward session
      (Session.persist { session with state := session.state.expireNodeInterventions nodeId }) :=
  .quiet sound (session.state.expireWhere_quiet _) (Or.inr rfl)

theorem closeNode_onward (sound : session.Sound) (nodeId : String) :
    Onward session (closeNode session nodeId) :=
  (expired_onward sound nodeId).emit

theorem resolveFromHelper_onward (sound : session.Sound) (underway : Underway session.state ref)
    (helper : NodeState) : Handled.Onward session (resolveFromHelper session ref helper) := by
  have moved := fun fields (keeps : KeepsRow fields) =>
    transition_onward keeps .ready (by decide) sound underway
  unfold resolveFromHelper
  dsimp only
  split
  · exact moved _ ⟨fun _ => rfl, fun _ => rfl, fun _ => rfl⟩
  · have ready := moved
      (fun node =>
        { node with
          answerText := helper.output
          answerFrom := some helper.agentName
          adoptedHelpers := node.adoptedHelpers ++ [helper.id] })
      ⟨fun _ => rfl, fun _ => rfl, fun _ => rfl⟩
    have expired := expired_onward ready.session.sound ref.nodeId
    exact ⟨ready.session.trans expired, ready.underway.onward expired.extends_⟩

/-- The node that has the id now can be asked about: it does not wait for its turn. -/
def Askable (state : OrchestrationState) (nodeId : String) : Prop :=
  ∀ node ∈ state.node? nodeId, node.status = .pending → state.Done node

instance (state : OrchestrationState) (nodeId : String) : Decidable (Askable state nodeId) :=
  inferInstanceAs (Decidable (∀ node ∈ state.node? nodeId, _))

theorem askUser_onward {state asked : OrchestrationState} (supported : Supported [] state)
    {nodeId question : String} {decision : AssistanceResult} (askable : Askable state nodeId)
    (answered : state.askUser env nodeId question decision = .ok asked) :
    Supported [] asked ∧ Extends state asked := by
  unfold askUser at answered
  split at answered
  · cases answered
    exact ⟨supported, .refl state⟩
  · rename_i node found
    split at answered
    · cases answered
    · rename_i waiting moved
      obtain ⟨allowed, rfl⟩ := NodeState.apply_transition_ok moved
      have row := (state.node_mem nodeId found).1
      -- a node that has begun has its dependencies
      have done : state.Done node := by
        by_cases pending : node.status = .pending
        · exact askable node found pending
        · apply supported.begun node row
          revert allowed pending
          cases status : node.status <;>
            simp [NodeState.canTransition, NodeState.allowedTransitions, begunStatuses, status]
      have sameId : node.id = nodeId := (state.node_mem nodeId found).2
      have changes := moved_changes .id allowed (by decide) done
      obtain ⟨waits, first⟩ := supported.set (by simp) changes (sameId ▸ found)
      have there : (state.setNode { node with status := .inputRequired }).node? node.id =
          some { node with status := .inputRequired } := by
        simp [node?, setNode]
      dsimp only at answered
      split at answered
      · cases answered
        exact ⟨waits, first⟩
      · rename_i noted requested
        cases answered
        have quiet := requestUserInput_quiet _ requested
        have noted_there : noted.node? node.id = some { node with status := .inputRequired } := by
          rw [node?, quiet.nodes]
          exact there
        have noting : Changed noted [] { node with status := .inputRequired }
            { node with status := .inputRequired, question := some question } :=
          .same_status rfl rfl rfl
        obtain ⟨final, second⟩ :=
          (waits.congr quiet.nodes quiet.derivedCount).set (by simp) noting noted_there
        exact ⟨final, (first.trans (.congr quiet.nodes)).trans second⟩

theorem requestHuman_onward (sound : session.Sound) (underway : Underway session.state ref)
    (node : NodeState) (askable : Askable session.state node.id)
    (decision : Option AssistanceResult) :
    Handled.Onward session (requestHuman env session ref node decision) := by
  unfold requestHuman
  dsimp only
  split
  · exact ⟨.refl sound, underway⟩
  · rename_i state answered
    have asked := askUser_onward env sound.state askable answered
    have onward := (Onward.moved sound asked).persist.emit
    exact ⟨onward, underway.onward onward.extends_⟩

/-- What keeps a settlement from asking about a node that waits for its turn. -/
def SparingQuestion (state : OrchestrationState) : NodeRef → Prop
  | .planned _ => True
  | .detached node => Askable state node.id

instance (state : OrchestrationState) : (ref : NodeRef) → Decidable (SparingQuestion state ref)
  | .planned _ => .isTrue trivial
  | .detached node => inferInstanceAs (Decidable (Askable state node.id))

theorem actOnDecision_onward (sound : session.Sound) (underway : Underway session.state ref)
    (sparing : SparingQuestion session.state ref) (decision : Option AssistanceResult) :
    Handled.Onward session (actOnDecision config env session ref decision) := by
  unfold actOnDecision
  split
  · exact ⟨.refl sound, underway⟩
  · rename_i node found
    -- a planned node is under way, so it does not wait for its turn
    have askable : Askable session.state node.id := by
      cases ref with
      | detached own =>
          cases found
          exact sparing
      | planned nodeId =>
          rw [read_nodeId found]
          intro other there _
          obtain ⟨same, here, done⟩ := underway
          have itself : other = same := Option.some.inj (there.symm.trans here)
          exact itself ▸ done
    split
    · exact ⟨.refl sound, underway⟩
    · dsimp only
      split
      · exact requestHuman_onward env sound underway node askable decision
      · have called := callSubagent_onward config env sound node.id
          ((decision.bind (·.targetAgent)).getD "") ((decision.map (·.instruction)).getD "")
        split
        · rename_i asked helper result
          rw [result] at called
          exact ⟨called, underway.onward called.extends_⟩
        · rename_i refused text result
          rw [callSubagent_refused config env session result]
          exact requestHuman_onward env sound underway node askable decision

end Execution

/-! ### Cancellation and answers -/

section Answers

variable {session : Session}

theorem cancelNode_onward (sound : session.Sound) {target : NodeState}
    (found : session.state.node? target.id = some target)
    (active : target.status ∈ activeNodeStatuses)
    (cuts : session.state.CutsThrough target.id) : Onward session (session.cancelNode target) := by
  let canceled := { target with status := .canceled, a2aTaskId := none }
  have cut : Supported [] (session.state.setNode canceled).invalidateBlocked ∧
      Extends session.state (session.state.setNode canceled).invalidateBlocked :=
    sound.state.cut found active rfl rfl rfl cuts
  have expired := expireAll_quiet (session.state.setNode canceled).invalidateBlocked
    (target.id :: (session.state.setNode canceled).blockedNodes.map (·.id))
  refine .stored sound ⟨cut.1.congr expired.nodes expired.derivedCount, ?_⟩ (Or.inr rfl)
  exact cut.2.trans (.congr expired.nodes)

theorem interrupt_onward (config : ExecutorConfig) (env : Env) (sound : session.Sound)
    {target : NodeState} (row : target ∈ session.state.nodes.rows)
    (active : target.status ∈ activeNodeStatuses)
    (cuts : session.state.CutsThrough target.id) (text : String) :
    Onward session (session.interrupt config env target text) := by
  let canceled := { target with status := .canceled }
  have cut : Supported [] (session.state.setNode canceled).invalidateBlocked ∧
      Extends session.state (session.state.setNode canceled).invalidateBlocked :=
    sound.state.cut (session.state.node_of_mem row) active rfl rfl rfl cuts
  have onward := Onward.moved sound cut
  exact onward.trans (spawnFollowupNode_onward config env onward.sound text canceled (by simp))

theorem cancelAll_onward (sound : session.Sound)
    (unwaited : ∀ node ∈ session.state.nodes.rows, node.status ∈ activeNodeStatuses ++ [.ready] →
      Unwaited session.state node.id) : Onward session session.cancelAll := by
  let ended := session.state.nodes.rows.filter fun node =>
    node.status ∈ activeNodeStatuses ++ [.ready]
  have listed : ∀ nodeId ∈ ended.map (·.id), ∃ node ∈ session.state.nodes.rows,
      node.status ∈ activeNodeStatuses ++ [.ready] ∧ node.id = nodeId := by
    intro nodeId member
    obtain ⟨node, inside, rfl⟩ := List.mem_map.mp member
    obtain ⟨row, status⟩ := List.mem_filter.mp inside
    exact ⟨node, row, of_decide_eq_true status, rfl⟩
  have undone : ∀ nodeId ∈ ended.map (·.id), session.state.status? nodeId ≠ some .completed := by
    intro nodeId member completed
    obtain ⟨node, row, status, rfl⟩ := listed nodeId member
    rw [status_of_mem _ row, Option.some.injEq] at completed
    simp [completed, activeNodeStatuses] at status
  obtain ⟨falls, onward⟩ := sound.state.kill (ended.map (·.id)) .canceled (by decide) undone
  have supported := falls.settled (by
    intro node member pending dep depends fallen
    obtain ⟨other, row, status, rfl⟩ := listed dep (by simpa using fallen)
    rcases (mem_moveNodes _ _ _ _).mp member with ⟨_, _, _, rfl⟩ | ⟨stays, _⟩
    · cases pending
    · exact unwaited other row status node stays pending depends)
  exact (Onward.moved sound ⟨supported, onward⟩).persist

/-- The node that an answer cancels. -/
def canceledBy (session : Session) (response : QuestionResponse) : Option NodeState :=
  match session.state.interventions.find? response.interventionId with
  | none => none
  | some intervention =>
      if intervention.status = .pending ∧ validateAnswer intervention response.answer = none ∧
          intervention.kind = .confirmCancel ∧ response.answer = .flag true then
        (session.state.node? intervention.nodeId).filter fun node =>
          node.status ∈ activeNodeStatuses
      else none

/-- Each cancellation that the answers make reaches all that waits for it. -/
def AnswersCut (session : Session) : List QuestionResponse → Prop
  | [] => True
  | response :: rest =>
      (∀ target ∈ canceledBy session response, session.state.CutsThrough target.id) ∧
        AnswersCut (session.answerIntervention response).1 rest

instance decidableAnswersCut : (session : Session) → (responses : List QuestionResponse) →
    Decidable (AnswersCut session responses)
  | _, [] => .isTrue trivial
  | session, response :: rest =>
      have := decidableAnswersCut (session.answerIntervention response).1 rest
      inferInstanceAs (Decidable ((∀ target ∈ canceledBy session response, _) ∧ _))

theorem setIntervention_onward (sound : session.Sound) (intervention : Intervention) :
    Onward session (session.setIntervention intervention) :=
  .quiet sound ⟨_, _, rfl⟩ (Or.inl rfl)

theorem expire_onward (sound : session.Sound) (intervention : Intervention) :
    Onward session (session.expire intervention) :=
  (setIntervention_onward sound _).persist

theorem answerIntervention_onward (sound : session.Sound) {response : QuestionResponse}
    (cuts : ∀ target ∈ canceledBy session response, session.state.CutsThrough target.id) :
    Onward session (session.answerIntervention response).1 := by
  have answers := session.answers response
  generalize session.answerIntervention response = result at answers ⊢
  cases answers with
  | ignored => exact .refl sound
  | stale awaited => exact expire_onward sound _
  | declined awaited => exact (setIntervention_onward sound _).persist
  | @canceled intervention awaited confirms target found active agreed =>
      have resolved := setIntervention_onward sound (intervention.answered response.answer)
      have there : session.state.node? target.id = some target :=
        session.state.node_of_mem (session.state.node_mem _ found).1
      have valid := awaited.valid
      rw [agreed] at valid
      have cut := cuts target (by
        simp [canceledBy, awaited.found, awaited.pending, valid, confirms, agreed, found, active])
      exact (resolved.trans (cancelNode_onward resolved.sound there active cut)).persist
  | @continued intervention awaited asks node found waits =>
      have resolved := setIntervention_onward sound (intervention.answered response.answer)
      have changes : ∀ state text, Changed state [] node
          { node with answerText := text, status := .ready } := by
        intro state text
        exact ⟨rfl, rfl, by simp [waits], by simp [deadStatuses], by simp,
          fun _ => Or.inl (by simp [waits, begunStatuses])⟩
      have there : session.state.node? node.id = some node :=
        session.state.node_of_mem (session.state.node_mem _ found).1
      refine (resolved.trans (.moved resolved.sound ?_)).persist
      exact resolved.sound.state.set (by simp) (changes _ _) there

theorem answerAll_onward (responses : List QuestionResponse) (sound : session.Sound)
    (cuts : AnswersCut session responses) : Onward session (session.answerAll responses).1 := by
  induction responses generalizing session with
  | nil => exact .refl sound
  | cons response rest ih =>
      have answered := answerIntervention_onward sound cuts.1
      exact answered.trans (ih answered.sound cuts.2)

end Answers

/-! ### Restart, dispatch and failure -/

section Loop

variable {session : Session}

theorem recoverNodes_onward {state : OrchestrationState} (supported : Supported [] state) :
    Supported [] state.recoverNodes ∧ Extends state state.recoverNodes := by
  refine supported.changed (by simp) rfl rfl ?_
  intro node _
  split
  · rename_i active
    have begun : node.status ∈ begunStatuses := by
      revert active
      cases node.status <;> simp [activeNodeStatuses, begunStatuses]
    have undone : node.status ≠ .completed := by
      intro completed
      simp [completed, begunStatuses] at begun
    refine ⟨rfl, rfl, fun completed => absurd completed undone, ?_, fun _ => Or.inr begun,
      fun _ => Or.inl begun⟩
    cases given node.a2aTaskId <;> simp [deadStatuses]
  · exact .same_status rfl rfl rfl

theorem recoverSession_onward (sound : session.Sound) : Onward session session.recoverSession := by
  have quiet := session.state.expireWhere_quiet fun _ => true
  have recovered := recoverNodes_onward (sound.state.congr quiet.nodes quiet.derivedCount)
  exact (Onward.moved sound
    ⟨recovered.1, Extends.trans (.congr quiet.nodes) recovered.2⟩).persist

theorem collectTask_onward (sound : session.Sound) {task : NodeTask}
    (underway : Underway session.state task.ref) :
    Onward session (Runtime.collectTask session task) := by
  unfold Runtime.collectTask
  split
  · rename_i text nodeId _ ref
    split
    · exact .refl sound
    · rename_i node found
      rw [ref] at underway
      obtain ⟨other, there, done⟩ := underway
      have same : node = other := Option.some.inj (found.symm.trans there)
      have own : session.state.node? node.id = some node :=
        session.state.node_of_mem (session.state.node_mem _ found).1
      have noting : KeepsRow fun node => { node with error := some text } :=
        ⟨fun _ => rfl, fun _ => rfl, fun _ => rfl⟩
      dsimp only
      split
      · rename_i allowed
        have changes : Changed session.state [] node
            { node with status := .failed, error := some text } :=
          moved_changes noting allowed (by decide) (same ▸ done)
        exact .moved sound (sound.state.set (by simp) changes own)
      · have changes : Changed session.state [] node { node with error := some text } :=
          .same_status rfl rfl rfl
        exact .moved sound (sound.state.set (by simp) changes own)
  · exact .refl sound

theorem retryFailed_onward (config : ExecutorConfig) {state : OrchestrationState}
    (supported : Supported [] state) :
    Supported [] (state.retryFailed config) ∧ Extends state (state.retryFailed config) := by
  refine supported.changed (by simp) rfl rfl ?_
  intro node _
  split
  · rename_i retries
    simp only [NodeState.canRetry, Bool.decide_and, Bool.and_eq_true, decide_eq_true_eq] at retries
    exact ⟨rfl, rfl, by simp [retries.1], by simp [deadStatuses],
      fun _ => Or.inr (by simp [retries.1, begunStatuses]), by simp [begunStatuses]⟩
  · exact .same_status rfl rfl rfl

theorem submit_onward {state : OrchestrationState} (supported : Supported [] state)
    {nodeIds : List String}
    (ready : ∀ nodeId ∈ nodeIds, ∃ node ∈ state.readyNodes, node.id = nodeId) :
    Supported [] (state.moveNodes nodeIds .submitted) ∧
      Extends state (state.moveNodes nodeIds .submitted) := by
  refine supported.changed (by simp) rfl rfl ?_
  intro node row
  split
  · rename_i moved
    obtain ⟨other, member, same⟩ := ready node.id moved
    obtain ⟨there, may⟩ := List.mem_filter.mp member
    cases state.nodes.row_unique there row same
    simp only [Bool.decide_and, Bool.and_eq_true, decide_eq_true_eq] at may
    refine ⟨rfl, rfl, ?_, by simp [deadStatuses], by simp, fun _ => Or.inr may.2⟩
    intro completed
    simp [completed, pendingNodeStatuses] at may
  · exact .same_status rfl rfl rfl

theorem repairPlan_onward (env : Env) (sound : session.Sound) {decision : Option PlanPatch}
    (living : ∀ patch ∈ decision, LivingDrafts env.agents session.state patch) :
    Onward session (repairPlan env session decision).1 := by
  unfold repairPlan
  split
  · exact .refl sound
  · exact .refl sound
  · rename_i patch _
    exact revisePlan_onward env sound (living patch rfl)

theorem planFlow_onward (config : ExecutorConfig) (env : Env) (sound : session.Sound)
    (busy : Bool) {decision : Option PlanPatch}
    (living : session.state.hasFailures = true → mayRepair config session.state = true →
      ∀ patch ∈ decision, LivingDrafts env.agents session.state patch) :
    Onward session (planFlow config env session busy decision).1 := by
  unfold planFlow
  dsimp only
  split
  · exact .refl sound
  · split
    · exact (Onward.refl sound).persist.emit
    · split
      · exact .refl sound
      · split
        · rename_i failed
          split
          · rename_i may
            exact repairPlan_onward env sound (living failed may)
          · exact .refl sound
        · split <;> exact .refl sound

end Loop

/-! ### New plans -/

section Plan

variable {config : ExecutorConfig} {env : Env}

theorem plan_valid {drafts : List (Option (List PlanNodeDraft))} {nodes : List PlanNodeDraft}
    (planned : plan config env drafts = some nodes) :
    Planning.Valid PlanNodeDraft.id PlanNodeDraft.deps nodes := by
  unfold plan at planned
  split at planned
  · cases planned
  · obtain ⟨draft, _, kept⟩ := List.exists_of_findSome?_eq_some planned
    obtain ⟨_, passed⟩ := Option.filter_eq_some_iff.mp kept
    apply Planning.validateNodes_valid
    cases checked : validatePlan nodes config.maxNodes with
    | ok _ => exact checked
    | error text => simp [checked] at passed

/-- The drafts become nodes of the plan. -/
theorem planned_rows (drafts : List PlanNodeDraft) (state : OrchestrationState) :
    (∀ node ∈ (drafts.foldl (fun state draft => state.setNode draft.node) state).nodes.rows,
        node ∈ state.nodes.rows ∨ ∃ draft ∈ drafts, node = draft.node) ∧
      (∀ draft ∈ drafts, draft.id ∈
        (drafts.foldl (fun state draft => state.setNode draft.node) state).nodes.keys) ∧
      ∀ nodeId ∈ state.nodes.keys, nodeId ∈
        (drafts.foldl (fun state draft => state.setNode draft.node) state).nodes.keys := by
  induction drafts generalizing state with
  | nil => simp
  | cons draft rest ih =>
      obtain ⟨rows, listed, stay⟩ := ih (state.setNode draft.node)
      simp only [List.foldl_cons]
      refine ⟨?_, ?_, ?_⟩
      · intro node member
        rcases rows node member with before | ⟨other, later, same⟩
        · rcases (mem_setNode _ _ _).mp before with same | ⟨row, _⟩
          · exact Or.inr ⟨draft, List.mem_cons_self, same⟩
          · exact Or.inl row
        · exact Or.inr ⟨other, List.mem_cons_of_mem _ later, same⟩
      · intro other member
        rcases List.mem_cons.mp member with rfl | later
        · exact stay _ ((Table.mem_keys_insert _ _ _).mpr (Or.inl rfl))
        · exact listed other later
      · intro nodeId known
        exact stay nodeId ((Table.mem_keys_insert _ _ _).mpr (Or.inr known))

theorem planned_count (drafts : List PlanNodeDraft) (state : OrchestrationState) :
    (drafts.foldl (fun state draft => state.setNode draft.node) state).derivedCount =
      state.derivedCount := by
  induction drafts generalizing state with
  | nil => rfl
  | cons draft rest ih => exact ih (state.setNode draft.node)

theorem supported_empty {state : OrchestrationState} (none : state.nodes = .empty) :
    Supported [] state := by
  constructor <;> simp [none]

/-- A valid plan whose ids are no derived ids is supported. -/
theorem createPlan_supported {state : OrchestrationState} (none : state.nodes = .empty)
    {nodes : List PlanNodeDraft} (valid : Planning.Valid PlanNodeDraft.id PlanNodeDraft.deps nodes)
    (underived : ∀ draft ∈ nodes, isDerivedId draft.id = false) :
    Supported [] (createPlan env state nodes) := by
  obtain ⟨rows, listed, _⟩ := planned_rows nodes state
  have drafted : ∀ node ∈ (nodes.foldl (fun state draft => state.setNode draft.node)
      state).nodes.rows, ∃ draft ∈ nodes, node = draft.node := by
    intro node member
    exact (rows node member).resolve_left (by simp [none])
  have joined := joinMembers_quiet env
    (nodes.foldl (fun state draft => state.setNode draft.node) state)
    (((nodes.foldl (fun state draft => state.setNode draft.node) state).nodes.rows.map
      (·.agentName)).filter (· ≠ "")) "plan"
  refine Supported.congr ⟨?_, ?_, ?_⟩ joined.nodes joined.derivedCount
  · intro node member _ dep depends
    obtain ⟨draft, inside, rfl⟩ := drafted node member
    obtain ⟨other, there, same⟩ := List.mem_map.mp (valid.known draft inside dep depends)
    obtain ⟨row, present, named⟩ := (Table.mem_keys _ _).mp (listed other there)
    obtain ⟨origin, _, rfl⟩ := drafted row present
    have status := status_of_mem _ present
    rw [named, same] at status
    exact Or.inr ⟨.pending, status, by decide⟩
  · intro node member begun
    obtain ⟨draft, _, rfl⟩ := drafted node member
    exact absurd begun (by simp [PlanNodeDraft.node, begunStatuses])
  · intro node member parentId kind count same
    obtain ⟨draft, inside, rfl⟩ := drafted node member
    have derived := isDerivedId_derivedId parentId kind count
    rw [← same] at derived
    simp [PlanNodeDraft.node, underived draft inside] at derived

end Plan

end Choirworks.Orchestration
