import Choirworks.Orchestration.Conservation
import Choirworks.Orchestration.Pending

/-!
What a node has been asked and answered, through the operations: nearly all of
them leave both alone, in memory and in what they store. The exceptions are the
end of a remote call, the adoption of a helper's output, a question to the human
and the answer to it, each about one node.
-/

namespace Choirworks.Orchestration

open OrchestrationState
open Session (Edits)

/-- The same question and answer; the node neither waits for input nor goes on
with an answer who did not before. -/
structure Bears (node later : NodeState) : Prop where
  question : later.question = node.question
  answerText : later.answerText = node.answerText
  status : later.status = node.status ∨ later.status ∉ [.ready, .inputRequired]

/-- The node of the one state bears what it does in the other. -/
def Bequeaths (nodeId : String) (old new : OrchestrationState) : Prop :=
  ∀ node, old.node? nodeId = some node → ∃ later, new.node? nodeId = some later ∧ Bears node later

/-- The session has stored nothing, or a state in which the node bears the same. -/
structure Keeps (nodeId : String) (session next : Session) : Prop where
  memory : Bequeaths nodeId session.state next.state
  stored : next.saved = session.saved ∨ Bequeaths nodeId session.state next.saved

/-- Operations that leave alone what all nodes bear, the loose ones apart. -/
structure Bearing (loose : String → Prop) (session next : Session) : Prop where
  edits : Edits .all session next
  keeps : Steady session.state → ∀ nodeId, ¬ loose nodeId → Keeps nodeId session next

section Rules

variable {node later last : NodeState} {nodeId : String} {old new final : OrchestrationState}
  {session next third : Session} {loose : String → Prop}

theorem Bears.refl (node : NodeState) : Bears node node := ⟨rfl, rfl, Or.inl rfl⟩

theorem Bears.trans (first : Bears node later) (second : Bears later last) : Bears node last := by
  refine ⟨second.question.trans first.question, second.answerText.trans first.answerText, ?_⟩
  rcases second.status with same | apart
  · rw [same]
    exact first.status
  · exact Or.inr apart

theorem Bears.moved {target : NodeStatus} (apart : target ∉ [.ready, .inputRequired]) :
    Bears node { node with status := target } :=
  ⟨rfl, rfl, Or.inr apart⟩

theorem Bequeaths.congr (nodes : new.nodes = old.nodes) : Bequeaths nodeId old new := by
  intro node found
  refine ⟨node, ?_, .refl node⟩
  rwa [node?, nodes]

theorem Bequeaths.trans (first : Bequeaths nodeId old new) (second : Bequeaths nodeId new final) :
    Bequeaths nodeId old final := by
  intro node found
  obtain ⟨later, there, bears⟩ := first node found
  obtain ⟨last, behind, after⟩ := second later there
  exact ⟨last, behind, bears.trans after⟩

/-- A change of rows. -/
theorem Bequeaths.map {change : NodeState → NodeState} (keeps : ∀ node, (change node).id = node.id)
    (bears : ∀ node ∈ old.nodes.rows, Bears node (change node))
    (nodes : new.nodes = old.nodes.map change keeps) : Bequeaths nodeId old new := by
  intro node found
  refine ⟨change node, ?_, bears node (old.node_mem nodeId found).1⟩
  simp only [node?, nodes, Table.find?_map] at found ⊢
  rw [found]
  rfl

/-- A change of one row. -/
theorem Bequeaths.set (row : node ∈ old.nodes.rows) (same : later.id = node.id)
    (bears : nodeId = node.id → Bears node later) : Bequeaths nodeId old (old.setNode later) := by
  intro other found
  simp only [node?, setNode, Table.find?_insert] at found ⊢
  by_cases hit : nodeId = later.id
  · rw [if_pos hit]
    have own : other = node := by
      obtain ⟨inside, named⟩ := old.node_mem nodeId found
      exact old.nodes.row_unique inside row (named.trans (hit.trans same))
    exact ⟨later, rfl, own ▸ bears (hit.trans same)⟩
  · rw [if_neg hit]
    exact ⟨other, found, .refl other⟩

theorem Keeps.trans (first : Keeps nodeId session next) (second : Keeps nodeId next third) :
    Keeps nodeId session third := by
  refine ⟨first.memory.trans second.memory, ?_⟩
  rcases second.stored with same | stored
  · rw [same]
    exact first.stored
  · exact Or.inr (first.memory.trans stored)

theorem Bearing.refl (session : Session) : Bearing loose session session :=
  ⟨.refl session, fun _ _ _ => ⟨.congr rfl, Or.inl rfl⟩⟩

theorem Bearing.trans (first : Bearing loose session next) (second : Bearing loose next third) :
    Bearing loose session third where
  edits := first.edits.trans second.edits
  keeps steady nodeId tight :=
    (first.keeps steady nodeId tight).trans
      (second.keeps (first.edits.kept Edit.steady steady) nodeId tight)

theorem Bearing.persist (bearing : Bearing loose session next) :
    Bearing loose session next.persist where
  edits := .persist bearing.edits
  keeps steady nodeId tight :=
    have kept := bearing.keeps steady nodeId tight
    ⟨kept.memory, Or.inr kept.memory⟩

/-- Operations in memory. -/
theorem Bearing.memory {state : OrchestrationState}
    (edits : Edits .all session { session with state })
    (keeps : Steady session.state → ∀ nodeId, ¬ loose nodeId →
      Bequeaths nodeId session.state state) :
    Bearing loose session { session with state } :=
  ⟨edits, fun steady nodeId tight => ⟨keeps steady nodeId tight, Or.inl rfl⟩⟩

/-- Operations that leave the nodes alone. -/
theorem Bearing.congr (edits : Edits .all session next)
    (nodes : next.state.nodes = session.state.nodes)
    (stored : next.saved = session.saved ∨ next.saved.nodes = session.state.nodes) :
    Bearing loose session next :=
  ⟨edits, fun _ _ _ => ⟨.congr nodes, stored.imp_right Bequeaths.congr⟩⟩

end Rules

/-! ### Plans -/

section Planning

variable {config : ExecutorConfig} {env : Env} {session : Session} {loose : String → Prop}

theorem emitPendingQuestions_bearing : Bearing loose session session.emitPendingQuestions := by
  refine .congr (emitPendingQuestions_edits session) session.emitPendingQuestions_nodes ?_
  rcases emitPendingQuestions_cases session with same | ⟨state, quiet, stored⟩
  · rw [same]
    exact Or.inl rfl
  · rw [stored]
    exact Or.inr quiet.nodes

/-- A derived node takes the place of none. -/
theorem spawnDerivedNode_bearing {spawn : Spawn} (helps : spawn.Follows ∨ spawn.Helps) :
    Bearing loose session (spawnDerivedNode config env session spawn).1 where
  edits := spawnDerivedNode_edits config env session spawn
    (helps.imp_left fun follows => ⟨trivial, follows⟩)
  keeps steady nodeId _ := by
    rcases spawnDerivedNode_cases config env session spawn with
      ⟨_, refused⟩ | ⟨state, _, quiet, accepted⟩
    · rw [refused]
      exact ⟨.congr rfl, Or.inl rfl⟩
    · have kept : Bequeaths nodeId session.state state := by
        intro node found
        refine ⟨node, ?_, .refl node⟩
        obtain ⟨row, named⟩ := session.state.node_mem nodeId found
        have apart := named ▸ steady.undrawn (session.state.status_of_mem row) spawn
        rw [node?, quiet.nodes]
        simp only [setNode, Table.find?_insert]
        rw [if_neg apart]
        exact found
      rw [accepted]
      exact ⟨kept, Or.inr kept⟩

theorem arbitrateMentions_bearing {node : NodeState} :
    Bearing loose session (arbitrateMentions config env session node) :=
  arbitrateMentions_rule config env session (Bearing loose) .refl .trans node
    fun _ _ helps _ => spawnDerivedNode_bearing (Or.inr helps)

theorem deliverQueued_bearing {node : NodeState} :
    Bearing loose session (deliverQueued config env session node) := by
  have taken : Bearing loose session
      { session with state := (session.state.takeQueued node.id).2 } := by
    refine .congr (.one ?_) rfl (Or.inl rfl)
    exact .side session.state.members _ session.state.revisionCount session.state.nextMessage
      (Or.inr trivial)
  unfold deliverQueued
  dsimp only
  split
  · exact taken
  · exact taken.trans (spawnDerivedNode_bearing (Or.inl ⟨rfl, rfl⟩))

theorem revisePlan_bearing (patch : PlanPatch) :
    Bearing loose session (revisePlan env session patch).1 where
  edits := revisePlan_edits env session (Runtime.revises_free Scope.all_free patch)
  keeps _ nodeId _ := by
    have kept : Bequeaths nodeId session.state (revisePlan env session patch).1.state := by
      intro node found
      obtain ⟨status, row, same | cut⟩ := revisePlan_row found patch
      · exact ⟨_, row, rfl, rfl, Or.inl same⟩
      · exact ⟨_, row, rfl, rfl, Or.inr (by simp [cut])⟩
    obtain ⟨state, count, _, revised⟩ := revisePlan_cases env session patch
    rw [revised] at kept ⊢
    exact ⟨kept, Or.inr kept⟩

theorem revise_bearing (decision : OutcomeResult) :
    Bearing loose session (revise config env session decision) := by
  unfold revise
  split
  · split
    · exact revisePlan_bearing _
    · exact .refl session
  · exact .refl session

theorem planFlow_bearing (busy : Bool) (decision : Option PlanPatch) :
    Bearing loose session (planFlow config env session busy decision).1 := by
  unfold planFlow
  dsimp only
  split
  · exact .refl session
  · split
    · exact (Bearing.refl session).persist.trans emitPendingQuestions_bearing
    · split
      · exact .refl session
      · split
        · split
          · unfold repairPlan
            split
            · exact .refl session
            · exact .refl session
            · exact revisePlan_bearing _
          · exact .refl session
        · split <;> exact .refl session

end Planning

/-! ### Executions -/

section Execution

variable {config : ExecutorConfig} {env : Env} {session : Session} {ref : NodeRef} {mode : Mode}
  {node later behind : NodeState} {fields : NodeState → NodeState} {loose : String → Prop}

/-- A write to the node of an execution, which is loose or bears the same. -/
theorem write_bearing (found : session.read ref = some node) (same : SameRow node later)
    (bears : ∀ nodeId, ref = .planned nodeId → ¬ loose nodeId → Bears node later) :
    Bearing loose session (session.write ref later).1 where
  edits := write_edits found same (Or.inr fun _ _ => trivial) (Or.inr trivial)
  keeps _ nodeId tight := by
    cases ref with
    | detached own => exact ⟨.congr rfl, Or.inl rfl⟩
    | planned ownId =>
        obtain ⟨row, named⟩ := session.state.node_mem ownId found
        refine ⟨.set row same.id fun hit => bears ownId rfl ?_, Or.inl rfl⟩
        rwa [← named, ← hit]

/-- A change of fields besides the question and the answer. -/
structure KeepsWords (fields : NodeState → NodeState) : Prop where
  same : ∀ node, SameRow node (fields node)
  bears : ∀ node, Bears node (fields node)

theorem KeepsWords.id : KeepsWords id := ⟨.refl, .refl⟩

theorem change_rule (same : ∀ node, SameRow node (fields node))
    (bears : ∀ node nodeId, ref = .planned nodeId → ¬ loose nodeId → Bears node (fields node)) :
    Bearing loose session (session.change ref fields).session := by
  unfold Session.change
  split
  · exact .refl session
  · rename_i node found
    exact write_bearing found (same node) (bears node)

/-- The node of an execution bears the same with its changed fields, and with the
status if it gets it, unless it is loose. -/
theorem transition_rule (same : ∀ node, SameRow node (fields node)) (target : NodeStatus)
    (bears : ∀ node, session.read ref = some node → ∀ nodeId, ref = .planned nodeId →
      ¬ loose nodeId → Bears node (fields node) ∧ target ∉ [.ready, .inputRequired]) :
    Bearing loose session (session.transition ref fields target).session := by
  unfold Session.transition
  split
  · exact .refl session
  · rename_i node found
    split
    · exact write_bearing found (same node) fun nodeId planned tight =>
        (bears node found nodeId planned tight).1
    · rename_i moved allowed
      obtain ⟨_, rfl⟩ := NodeState.apply_transition_ok allowed
      refine write_bearing found ((same node).moved target) fun nodeId planned tight => ?_
      obtain ⟨kept, apart⟩ := bears node found nodeId planned tight
      exact kept.trans (.moved apart)

theorem transition_bearing (keeps : KeepsWords fields) {target : NodeStatus}
    (apart : target ∉ [.ready, .inputRequired]) :
    Bearing loose session (session.transition ref fields target).session :=
  transition_rule keeps.same target fun node _ _ _ _ => ⟨keeps.bears node, apart⟩

/-- Everything about the node of an execution can change, if it is loose. -/
theorem transition_loose (same : ∀ node, SameRow node (fields node)) (target : NodeStatus)
    (own : ∀ nodeId, ref = .planned nodeId → loose nodeId) :
    Bearing loose session (session.transition ref fields target).session :=
  transition_rule same target fun _ _ nodeId planned tight => absurd (own nodeId planned) tight

theorem chunkNode_bearing {a2aTaskId : Option String} {submitted : Bool} :
    Bearing loose session (chunkNode session ref a2aTaskId submitted).session := by
  have keeps : KeepsWords (chunkFields a2aTaskId) :=
    ⟨fun _ => ⟨rfl, rfl, rfl, rfl, rfl, rfl⟩, fun _ => ⟨rfl, rfl, Or.inl rfl⟩⟩
  unfold chunkNode
  split
  · exact transition_bearing keeps (by decide)
  · exact change_rule keeps.same fun node _ _ _ => keeps.bears node

theorem write_write (same : behind.id = later.id) :
    (session.write ref later).1.write (session.write ref later).2 behind =
      session.write ref behind := by
  cases ref with
  | detached own => rfl
  | planned ownId =>
      simp only [Session.write, setNode]
      rw [Table.insert_insert _ same.symm]

/-- `execute_node` up to `build_node_text`. -/
def beginNode (session : Session) (ref : NodeRef) : Mode → Handled
  | .recover => session.transition ref id .recover
  | .dispatch => session.transition ref countAttempt .submitted
  | .continuation => session.change ref countAttempt

/-- The start of an execution is the building of its text, if it sends one. -/
theorem startNode_begun : startNode session ref mode =
    if mode = .recover ∨ (beginNode session ref mode).raised ≠ none then beginNode session ref mode
    else (beginNode session ref mode).session.change (beginNode session ref mode).ref takeAnswer := by
  cases mode with
  | recover => rfl
  | dispatch =>
      cases raised : (session.transition ref countAttempt .submitted).raised with
      | none =>
          have quiet : (beginNode session ref .dispatch).raised = none := raised
          simp only [startNode, raised, quiet]
          rfl
      | some text =>
          have refused : (beginNode session ref .dispatch).raised = some text := raised
          simp only [startNode, raised, refused]
          rfl
  | continuation =>
      simp only [startNode, beginNode]
      cases found : session.read ref with
      | none => simp [Session.change, found]
      | some node =>
          have read : (session.write ref (countAttempt node)).1.read
              (session.write ref (countAttempt node)).2 = some (countAttempt node) :=
            read_write found rfl
          simp only [Session.change, found, read]
          rw [write_write (takeAnswer_id _)]
          rfl

theorem beginNode_bearing : Bearing loose session (beginNode session ref mode).session := by
  have counted : KeepsWords countAttempt :=
    ⟨fun _ => ⟨rfl, rfl, rfl, rfl, rfl, rfl⟩, fun _ => ⟨rfl, rfl, Or.inl rfl⟩⟩
  cases mode with
  | recover => exact transition_bearing .id (by decide)
  | dispatch => exact transition_bearing counted (by decide)
  | continuation => exact change_rule counted.same fun node _ _ _ => counted.bears node

theorem beginNode_planned {nodeId : String}
    (planned : (beginNode session ref mode).ref = .planned nodeId) : ref = .planned nodeId := by
  cases mode with
  | recover | dispatch => exact planned_of_transition planned
  | continuation =>
      cases ref with
      | detached own => cases planned
      | planned ownId =>
          simp only [beginNode, Session.change] at planned
          split at planned <;> exact planned

/-- The start of an execution takes the answer from its node. -/
theorem startNode_bearing (own : ∀ nodeId, ref = .planned nodeId → loose nodeId) :
    Bearing loose session (startNode session ref mode).session := by
  have taken : KeepsPlan .all takeAnswer := takeAnswer_plan
  rw [startNode_begun]
  split
  · exact beginNode_bearing
  · refine beginNode_bearing.trans (change_rule taken.same fun node nodeId planned tight => ?_)
    exact absurd (own nodeId (beginNode_planned planned)) tight

theorem markDelivered_bearing :
    Bearing loose session (markDelivered config env session ref).session := by
  have delivered : Bearing loose session (session.transition ref id .completed).session :=
    transition_bearing .id (by decide)
  simp only [markDelivered]
  split
  · exact (delivered.trans arbitrateMentions_bearing).trans deliverQueued_bearing
  · exact delivered

/-- The question of a node that has none to add stays, if the node is not loose. -/
theorem outcomeFlow_bearing (answered : Option OutcomeResult)
    (quiet : (∀ nodeId, ref = .planned nodeId → loose nodeId) ∨
      (interpretOutcome ((session.read ref).bind (·.output)) answered).intent ≠ .needInfo) :
    Bearing loose session (outcomeFlow config env session ref answered).session := by
  cases intent : (interpretOutcome ((session.read ref).bind (·.output)) answered).intent with
  | needInfo =>
      simp only [outcomeFlow, intent]
      apply transition_loose
      · exact fun _ => ⟨rfl, rfl, rfl, rfl, rfl, rfl⟩
      · exact quiet.resolve_right (not_not_intro intent)
  | deliver | revise =>
      simp only [outcomeFlow, intent]
      exact (revise_bearing _).trans markDelivered_bearing

/-- The end of a remote call asks its node nothing. -/
structure AsksNothing (session : Session) (ref : NodeRef) (remote : Remote)
    (answered : Option OutcomeResult) : Prop where
  ended : remote.ended ≠ .inputRequired
  delivers : remote.ended = .completed →
    (interpretOutcome remote.output answered).intent ≠ .needInfo
  question : ∀ node, session.read ref = some node → remote.question = node.question

theorem interpretRemote_bearing (remote : Remote) (answered : Option OutcomeResult)
    (quiet : ∀ nodeId, ref = .planned nodeId → ¬ loose nodeId →
      AsksNothing session ref remote answered) :
    Bearing loose session (interpretRemote config env session ref remote answered).session := by
  have same : ∀ node, SameRow node (remote.fields node) := fun _ => ⟨rfl, rfl, rfl, rfl, rfl, rfl⟩
  have bears : ∀ node, session.read ref = some node → ∀ nodeId, ref = .planned nodeId →
      ¬ loose nodeId → Bears node (remote.fields node) :=
    fun node found nodeId planned tight =>
      ⟨(quiet nodeId planned tight).question node found, rfl, Or.inl rfl⟩
  cases ended : remote.ended with
  | completed =>
      simp only [interpretRemote, ended]
      cases found : session.read ref with
      | none => exact .refl session
      | some node =>
          have written : Bearing loose session (session.write ref (remote.fields node)).1 :=
            write_bearing found (same node) (bears node found)
          have output := read_write found (same node).id
          refine written.trans (outcomeFlow_bearing answered ?_)
          by_cases own : ∀ nodeId, ref = .planned nodeId → loose nodeId
          · left
            intro nodeId planned
            apply own nodeId
            cases ref with
            | planned ownId => exact planned
            | detached other => cases planned
          · right
            push Not at own
            obtain ⟨nodeId, planned, tight⟩ := own
            rw [output]
            exact (quiet nodeId planned tight).delivers ended
  | canceled | stopped =>
      simp only [interpretRemote, ended]
      refine transition_rule same _ fun node found nodeId planned tight => ?_
      exact ⟨bears node found nodeId planned tight, by decide⟩
  | inputRequired =>
      simp only [interpretRemote, ended]
      exact transition_loose same _ fun nodeId planned => by_contra fun tight =>
        (quiet nodeId planned tight).ended ended

/-! What a call does to its own node while that keeps its question and goes on. -/

section Own

variable {nodeId : String}

/-- Fields that are written first can be written with the transition. -/
theorem transition_write {first : NodeState → NodeState} (found : session.read ref = some node)
    (sameId : (first node).id = node.id) (keeps : ∀ node, (fields node).id = node.id)
    (target : NodeStatus) :
    (session.write ref (first node)).1.transition (session.write ref (first node)).2 fields target =
      session.transition ref (fields ∘ first) target := by
  have read := read_write found sameId
  simp only [Session.transition, read, found, Function.comp_apply]
  split
  · rw [write_write (keeps _)]
  · rename_i moved allowed
    have movedId : moved.id = (first node).id := by
      rw [(NodeState.apply_transition_ok allowed).2]
      exact keeps (first node)
    rw [write_write movedId]

theorem transition_own (found : session.state.node? nodeId = some node)
    (same : ∀ node, SameRow node (fields node))
    (answerText : (fields node).answerText = node.answerText)
    (status : (fields node).status = node.status) {target : NodeStatus} (apart : target ≠ .ready)
    (there : (session.transition (.planned nodeId) fields target).session.state.node? nodeId =
      some later)
    (question : later.question = node.question) (waits : later.status ≠ .inputRequired) :
    Keeps nodeId session (session.transition (.planned nodeId) fields target).session := by
  have read : session.read (.planned nodeId) = some node := found
  obtain ⟨row, named⟩ := session.state.node_mem nodeId found
  have set : ∀ behind : NodeState, behind.id = node.id → Bears node behind →
      Keeps nodeId session (session.write (.planned nodeId) behind).1 := by
    intro behind sameId bears
    exact ⟨.set row sameId fun _ => bears, Or.inl rfl⟩
  have written : ∀ behind : NodeState, behind.id = node.id →
      (session.state.setNode behind).node? nodeId = some behind := by
    intro behind sameId
    simp [node?, setNode, sameId, named]
  simp only [Session.transition, read] at there ⊢
  split at there
  · obtain rfl := Option.some.inj ((written _ (same node).id).symm.trans there)
    exact set _ (same node).id ⟨question, answerText, Or.inl status⟩
  · rename_i moved allowed
    obtain ⟨_, rfl⟩ := NodeState.apply_transition_ok allowed
    have moved := written { fields node with status := target } (same node).id
    obtain rfl := Option.some.inj (moved.symm.trans there)
    refine set _ (same node).id ⟨question, answerText, Or.inr ?_⟩
    simpa using ⟨apart, waits⟩

theorem interpretRemote_own (steady : Steady session.state)
    (found : session.state.node? nodeId = some node) (remote : Remote)
    (answered : Option OutcomeResult)
    (there : (interpretRemote config env session (.planned nodeId) remote
      answered).session.state.node? nodeId = some later)
    (question : later.question = node.question) (waits : later.status ≠ .inputRequired) :
    Keeps nodeId session
      (interpretRemote config env session (.planned nodeId) remote answered).session := by
  have same : ∀ node, SameRow node (remote.fields node) := fun _ => ⟨rfl, rfl, rfl, rfl, rfl, rfl⟩
  have read : session.read (.planned nodeId) = some node := found
  cases ended : remote.ended with
  | canceled | stopped | inputRequired =>
      simp only [interpretRemote, ended] at there ⊢
      exact transition_own found same rfl rfl (by decide) there question waits
  | completed =>
      simp only [interpretRemote, ended, read] at there ⊢
      have output := read_write read (same node).id
      cases intent : (interpretOutcome (((session.write (.planned nodeId)
          (remote.fields node)).1.read (session.write (.planned nodeId) (remote.fields node)).2).bind
            (·.output)) answered).intent with
      | needInfo =>
          simp only [outcomeFlow, intent] at there ⊢
          rw [transition_write read (same node).id] at there ⊢
          · have apart : NodeStatus.inputRequired ≠ .ready := by decide
            apply transition_own found _ _ _ apart there question waits
            · exact fun _ => ⟨rfl, rfl, rfl, rfl, rfl, rfl⟩
            · rfl
            · rfl
          all_goals exact fun _ => rfl
      | deliver | revise =>
          have written : Edits .all session
              (session.write (.planned nodeId) (remote.fields node)).1 :=
            write_edits read (same node) (Or.inr fun _ _ => trivial) (Or.inr trivial)
          have rest : Bearing (fun _ => False)
              (session.write (.planned nodeId) (remote.fields node)).1
              (outcomeFlow config env (session.write (.planned nodeId) (remote.fields node)).1
                (.planned nodeId) answered).session := by
            apply outcomeFlow_bearing answered
            right
            intro needs
            exact absurd (intent.symm.trans needs) (by decide)
          have kept := rest.keeps (written.kept Edit.steady steady) nodeId not_false
          obtain ⟨last, behind, bears⟩ := kept.memory (remote.fields node) output
          obtain rfl := Option.some.inj (behind.symm.trans there)
          -- the call itself left the question on the node
          have left : remote.question = node.question := bears.question.symm.trans question
          have row := (session.state.node_mem nodeId found).1
          have first : Keeps nodeId session
              (session.write (.planned nodeId) (remote.fields node)).1 :=
            ⟨.set row (same node).id fun _ => ⟨left, rfl, Or.inl rfl⟩, Or.inl rfl⟩
          exact first.trans kept

end Own

theorem closeNode_bearing {nodeId : String} : Bearing loose session (closeNode session nodeId) := by
  have expired : Bearing loose session
      { session with state := session.state.expireNodeInterventions nodeId } :=
    .congr (.one (expireWhere_edit _)) rfl (Or.inl rfl)
  exact expired.persist.trans emitPendingQuestions_bearing

theorem collectTask_bearing (task : NodeTask) :
    Bearing loose session (Runtime.collectTask session task) where
  edits := collectTask_edits task fun _ _ _ _ _ _ _ => trivial
  keeps _ nodeId _ := by
    refine ⟨?_, Or.inl ?_⟩
    · unfold Runtime.collectTask
      split
      · split
        · exact .congr rfl
        · rename_i ownId _ _ _ node found
          have row := (session.state.node_mem ownId found).1
          dsimp only
          refine .set row ?_ fun _ => ?_
          · split <;> rfl
          · split
            · exact ⟨rfl, rfl, Or.inr (by simp)⟩
            · exact ⟨rfl, rfl, Or.inl rfl⟩
      · exact .congr rfl
    · unfold Runtime.collectTask
      split
      · split <;> rfl
      · rfl

/-- Whatever an adopted output does, it does to the node of the settlement. -/
theorem resolveFromHelper_bearing (helper : NodeState)
    (own : ∀ nodeId, ref = .planned nodeId → loose nodeId) :
    Bearing loose session (resolveFromHelper session ref helper).session := by
  have moved : Bearing loose session (session.transition ref
      (fun node =>
        { node with
          answerText := helper.output
          answerFrom := some helper.agentName
          adoptedHelpers := node.adoptedHelpers ++ [helper.id] }) .ready).session := by
    apply transition_loose
    · exact fun _ => ⟨rfl, rfl, rfl, rfl, rfl, rfl⟩
    · exact own
  unfold resolveFromHelper
  dsimp only
  split
  · exact moved
  · exact (moved.trans (.congr (.one (expireWhere_edit _)) rfl (Or.inl rfl))).persist

/-- A question to the human is about one node, which waits for the answer. -/
theorem askUser_rows {state asked : OrchestrationState} {nodeId question : String}
    {decision : AssistanceResult}
    (answered : state.askUser env nodeId question decision = .ok asked) :
    (∀ other, other ≠ nodeId → asked.node? other = state.node? other) ∧
      ∀ behind, asked.node? nodeId = some behind → behind.status = .inputRequired := by
  unfold OrchestrationState.askUser at answered
  split at answered
  · rename_i gone
    cases answered
    refine ⟨fun _ _ => rfl, fun behind found => ?_⟩
    rw [gone] at found
    cases found
  · rename_i node found
    obtain ⟨_, rfl⟩ := state.node_mem nodeId found
    split at answered
    · cases answered
    · rename_i waiting moved
      obtain ⟨_, rfl⟩ := NodeState.apply_transition_ok moved
      dsimp only at answered
      split at answered
      · cases answered
        refine ⟨fun other apart => ?_, fun behind there => ?_⟩
        · simp [node?, setNode, apart]
        · simp only [node?, setNode, Table.find?_insert, if_pos, Option.some.injEq] at there
          rw [← there]
      · rename_i noted requested
        cases answered
        have nodes := (requestUserInput_quiet _ requested).nodes
        refine ⟨fun other apart => ?_, fun behind there => ?_⟩
        · simp [node?, setNode, nodes, apart]
        · simp only [node?, setNode, Table.find?_insert, if_pos, Option.some.injEq] at there
          rw [← there]

theorem requestHuman_bearing {decision : Option AssistanceResult} (own : loose node.id) :
    Bearing loose session (requestHuman env session ref node decision).session := by
  have edits : Edits .all session (requestHuman env session ref node decision).session :=
    requestHuman_edits env node decision (fun _ _ => trivial) trivial
  unfold requestHuman at edits ⊢
  dsimp only at edits ⊢
  split
  · exact .refl session
  · rename_i state answered
    have asked : Bearing loose session { session with state } := by
      refine .memory (.edited (.refl session)
        (askUser_edited env (fun _ _ => trivial) trivial answered)) fun _ nodeId tight => ?_
      intro other found
      have apart : nodeId ≠ node.id := fun hit => tight (hit ▸ own)
      exact ⟨other, ((askUser_rows answered).1 nodeId apart).trans found, .refl other⟩
    exact asked.persist.trans emitPendingQuestions_bearing

/-- A question to the human leaves its node waiting, or nothing is asked. -/
theorem requestHuman_waits (env : Env) (session : Session) (ref : NodeRef) (node : NodeState)
    (decision : Option AssistanceResult) :
    (requestHuman env session ref node decision).session = session ∨
      ∀ behind, (requestHuman env session ref node decision).session.state.node? node.id =
        some behind → behind.status = .inputRequired := by
  unfold requestHuman
  dsimp only
  split
  · exact Or.inl rfl
  · rename_i state answered
    right
    intro behind found
    apply (askUser_rows answered).2 behind
    rw [node?, Session.emitPendingQuestions_nodes] at found
    exact found

/-- A settlement asks nobody, another agent, or the human. -/
theorem actOnDecision_acts (config : ExecutorConfig) (env : Env) (session : Session)
    (ref : NodeRef) (decision : Option AssistanceResult) :
    (actOnDecision config env session ref decision).session = session ∨
      (∃ spawn : Spawn, spawn.Helps ∧ (actOnDecision config env session ref decision).session =
        (spawnDerivedNode config env session spawn).1) ∨
      ∃ node, session.read ref = some node ∧
        (actOnDecision config env session ref decision).session =
          (requestHuman env session ref node decision).session := by
  unfold actOnDecision
  split
  · exact Or.inl rfl
  · rename_i node found
    split
    · exact Or.inl rfl
    · dsimp only
      split
      · exact Or.inr (Or.inr ⟨node, found, rfl⟩)
      · split
        · rename_i result
          rcases callSubagent_cases config env session node.id
              ((decision.bind (·.targetAgent)).getD "")
              ((decision.map (·.instruction)).getD "") with
            same | ⟨spawn, helps, _, spawned⟩
          · rw [result] at same
            exact Or.inl same
          · rw [result] at spawned
            exact Or.inr (Or.inl ⟨spawn, helps, spawned⟩)
        · rename_i result
          rw [callSubagent_refused config env session result]
          exact Or.inr (Or.inr ⟨node, found, rfl⟩)

theorem actOnDecision_bearing (decision : Option AssistanceResult)
    (own : ∀ node, session.read ref = some node → loose node.id) :
    Bearing loose session (actOnDecision config env session ref decision).session := by
  rcases actOnDecision_acts config env session ref decision with
    same | ⟨spawn, helps, spawned⟩ | ⟨node, found, asked⟩
  · rw [same]
    exact .refl session
  · rw [spawned]
    exact spawnDerivedNode_bearing (Or.inr helps)
  · rw [asked]
    exact requestHuman_bearing (own node found)

/-- The node of a settlement bears the same, or waits for the human. -/
theorem actOnDecision_own (decision : Option AssistanceResult) :
    Bearing (fun _ => False) session (actOnDecision config env session ref decision).session ∨
      ∀ behind, (actOnDecision config env session ref decision).session.state.node? ref.nodeId =
        some behind → behind.status = .inputRequired := by
  rcases actOnDecision_acts config env session ref decision with
    same | ⟨spawn, helps, spawned⟩ | ⟨node, found, asked⟩
  · rw [same]
    exact Or.inl (.refl session)
  · rw [spawned]
    exact Or.inl (spawnDerivedNode_bearing (Or.inr helps))
  · rw [asked, ← read_nodeId found]
    rcases requestHuman_waits env session ref node decision with same | waits
    · rw [same]
      exact Or.inl (.refl session)
    · exact Or.inr waits

end Execution

/-! ### The human and the loop -/

section Human

variable {config : ExecutorConfig} {env : Env} {session : Session} {loose : String → Prop}
  {target canceled : NodeState} {state : OrchestrationState} {nodeId : String}

theorem moveNodes_bequeaths {nodeIds : List String} {status : NodeStatus}
    (apart : status ∉ [.ready, .inputRequired]) :
    Bequeaths nodeId state (state.moveNodes nodeIds status) := by
  refine .map (fun node => by split <;> rfl) (fun node _ => ?_) rfl
  split
  · exact .moved apart
  · exact .refl node

/-- The canceled node, and the waiting ones behind it. -/
theorem cancelBlocked_bequeaths (row : target ∈ state.nodes.rows) (same : canceled.id = target.id)
    (bears : Bears target canceled) :
    Bequeaths nodeId state (state.setNode canceled).invalidateBlocked :=
  (Bequeaths.set row same fun _ => bears).trans (moveNodes_bequeaths (by decide))

theorem cancelNode_bearing (row : target ∈ session.state.nodes.rows) :
    Bearing loose session (session.cancelNode target) := by
  have edits : Edits .all session (session.cancelNode target) :=
    cancelNode_edits session row trivial fun _ _ => trivial
  refine ⟨edits, fun _ nodeId _ => ?_⟩
  have canceled : Bequeaths nodeId session.state (session.cancelNode target).state := by
    have cut := @cancelBlocked_bequeaths target { target with status := .canceled, a2aTaskId := none }
      session.state nodeId row rfl ⟨rfl, rfl, Or.inr (by simp)⟩
    exact cut.trans (.congr (expireAll_quiet _ _).nodes)
  exact ⟨canceled, Or.inr canceled⟩

theorem interrupt_bearing (row : target ∈ session.state.nodes.rows) (text : String) :
    Bearing loose session (session.interrupt config env target text) := by
  have canceled : Bearing loose session { session with
      state := (session.state.setNode { target with status := .canceled }).invalidateBlocked } :=
    .memory (interrupted_edits session row trivial fun _ _ => trivial)
      fun _ _ _ => cancelBlocked_bequeaths row rfl (.moved (by decide))
  exact canceled.trans (spawnDerivedNode_bearing (Or.inl ⟨rfl, rfl⟩))

theorem cancelAll_bearing : Bearing loose session session.cancelAll where
  edits := cancelAll_edits session fun _ _ _ _ => trivial
  keeps _ _ _ := ⟨moveNodes_bequeaths (by decide), Or.inr (moveNodes_bequeaths (by decide))⟩

theorem recoverSession_bearing : Bearing loose session session.recoverSession := by
  refine ⟨session.recoverSession_edits Scope.all_free, fun _ nodeId _ => ?_⟩
  have recovered : Bequeaths nodeId session.state
      session.state.normalizeInterventions.recoverNodes := by
    refine .map (fun node => by split <;> rfl) (fun node _ => ?_) rfl
    split
    · refine .moved ?_
      split <;> decide
    · exact .refl node
  exact ⟨recovered, Or.inr recovered⟩

theorem dispatch_bearing {runtime : Runtime} :
    Bearing loose runtime.session (runtime.dispatch config).session := by
  refine ⟨runtime.dispatch_edits config (fun _ => trivial) fun _ _ _ => trivial, fun _ nodeId _ => ?_⟩
  have retried : Bequeaths nodeId runtime.session.state
      (runtime.session.state.retryFailed config) := by
    refine .map (fun node => by split <;> rfl) (fun node _ => ?_) rfl
    split
    · exact ⟨rfl, rfl, Or.inr (by simp)⟩
    · exact .refl node
  have submitted : Bequeaths nodeId runtime.session.state
      ((runtime.session.state.retryFailed config).moveNodes
        (((runtime.nextUp config).filter fun node => node.status ≠ .recover).map (·.id))
        .submitted) :=
    retried.trans (moveNodes_bequeaths (by decide))
  simp only [Runtime.dispatch]
  split
  · exact ⟨submitted, Or.inl rfl⟩
  · exact ⟨submitted, Or.inr submitted⟩

theorem collect_bearing {runtime : Runtime} :
    Bearing loose runtime.session runtime.collect.session := by
  have collected : ∀ (tasks : List NodeTask) (session : Session),
      Bearing loose session (tasks.foldl Runtime.collectTask session) := by
    intro tasks
    induction tasks with
    | nil => exact .refl
    | cons task rest ih => exact fun session => (collectTask_bearing task).trans (ih _)
  exact collected _ _

end Human

/-! ### Answers -/

/-- Memory and store agree on what the node bears. -/
def Agrees (nodeId : String) (session : Session) : Prop :=
  ∃ later stored, session.state.node? nodeId = some later ∧ session.saved.node? nodeId = some stored ∧
    stored.question = later.question ∧ stored.answerText = later.answerText

/-- The node bears the same, or has waited for the answer that it has got, which
is stored. -/
def Replies (nodeId : String) (session next : Session) : Prop :=
  Keeps nodeId session next ∨
    ((∀ node, session.state.node? nodeId = some node → node.status = .inputRequired) ∧
      Agrees nodeId next)

section Answers

variable {session next third : Session} {nodeId : String}

theorem Keeps.waits (keeps : Keeps nodeId session next)
    (waits : ∀ node, next.state.node? nodeId = some node → node.status = .inputRequired) :
    ∀ node, session.state.node? nodeId = some node → node.status = .inputRequired := by
  intro node found
  obtain ⟨later, there, bears⟩ := keeps.memory node found
  have status := waits later there
  rcases bears.status with same | apart
  · exact same.symm.trans status
  · rw [status] at apart
    exact absurd (by decide) apart

theorem Agrees.keeps (agrees : Agrees nodeId session) (keeps : Keeps nodeId session next) :
    Agrees nodeId next := by
  obtain ⟨later, stored, found, kept, question, answerText⟩ := agrees
  obtain ⟨last, there, bears⟩ := keeps.memory later found
  rcases keeps.stored with same | anew
  · exact ⟨last, stored, there, same ▸ kept, question.trans bears.question.symm,
      answerText.trans bears.answerText.symm⟩
  · obtain ⟨copy, behind, like⟩ := anew later found
    exact ⟨last, copy, there, behind, like.question.trans bears.question.symm,
      like.answerText.trans bears.answerText.symm⟩

theorem Replies.trans (first : Replies nodeId session next) (second : Replies nodeId next third) :
    Replies nodeId session third := by
  rcases first with kept | ⟨waited, agreed⟩
  · rcases second with keeps | ⟨waits, agrees⟩
    · exact Or.inl (kept.trans keeps)
    · exact Or.inr ⟨kept.waits waits, agrees⟩
  · rcases second with keeps | ⟨_, agrees⟩
    · exact Or.inr ⟨waited, agreed.keeps keeps⟩
    · exact Or.inr ⟨waited, agrees⟩

theorem answerIntervention_replies (response : QuestionResponse) (steady : Steady session.state) :
    Replies nodeId session (session.answerIntervention response).1 := by
  have settled : ∀ {intervention}, session.Awaited response intervention → ∀ later : Intervention,
      later.id = intervention.id → later.nodeId = intervention.nodeId →
        later.kind = intervention.kind →
          Bearing (fun _ => False) session (session.setIntervention later) := by
    intro intervention awaited later sameId sameNode sameKind
    exact .congr (session.settled_edits (Table.mem_of_find? awaited.found) awaited.pending sameId
      sameNode sameKind) rfl (Or.inl rfl)
  have bears : ∀ {next}, Bearing (fun _ => False) session next → Replies nodeId session next :=
    fun bearing => Or.inl (bearing.keeps steady nodeId not_false)
  have answers := session.answers response
  generalize session.answerIntervention response = result at answers ⊢
  cases answers with
  | ignored => exact bears (.refl session)
  | @stale intervention awaited =>
      have expired := settled awaited { intervention with status := .expired } rfl rfl rfl
      exact bears expired.persist
  | @declined intervention awaited =>
      have declined := settled awaited (intervention.answered response.answer) rfl rfl rfl
      exact bears declined.persist
  | @canceled intervention awaited confirms target there active agreed =>
      have resolved := settled awaited (intervention.answered response.answer) rfl rfl rfl
      have row := (session.state.node_mem _ there).1
      exact bears (resolved.trans (cancelNode_bearing row)).persist
  | @continued intervention awaited asks target there waits =>
      obtain ⟨row, named⟩ := session.state.node_mem _ there
      by_cases own : nodeId = target.id
      · -- the answer and its question are stored together
        right
        refine ⟨fun node found => ?_, ?_⟩
        · rw [own, named, there] at found
          cases found
          exact waits
        · have ready : ∀ state : OrchestrationState, ∀ answered : NodeState,
              answered.id = target.id → (state.setNode answered).node? nodeId = some answered := by
            intro state answered same
            simp [node?, setNode, own, same]
          exact ⟨_, _, ready _ _ rfl, ready _ _ rfl, rfl, rfl⟩
      · left
        have set : ∀ answered : NodeState, answered.id = target.id →
            Bequeaths nodeId session.state (session.state.setNode answered) :=
          fun answered same => .set row same fun hit => absurd hit own
        exact ⟨set _ rfl, Or.inr (set _ rfl)⟩

theorem answerAll_replies (responses : List QuestionResponse) (steady : Steady session.state) :
    Replies nodeId session (session.answerAll responses).1 := by
  induction responses generalizing session with
  | nil =>
      have same : Bearing (fun _ => False) session session := .refl session
      exact Or.inl (same.keeps steady nodeId not_false)
  | cons response rest ih =>
      have answered : Replies nodeId session (session.answerIntervention response).1 :=
        answerIntervention_replies response steady
      have edits : Edits .all session (session.answerIntervention response).1 :=
        session.answerIntervention_edits response (fun _ => trivial)
          fun _ _ => ⟨trivial, fun _ _ => trivial⟩
      exact answered.trans (ih (edits.kept Edit.steady steady))

end Answers

/-! ### Steps -/

namespace Runtime

section Steps

variable {config : ExecutorConfig} {env : Env} {runtime next : Runtime} {loose : String → Prop}

/-- A handler that starts no plan and takes no answers. -/
theorem handle_bearing (inbound : Inbound) (drafts : List (Option (List PlanNodeDraft)))
    {handler : Handler} (apt : Apt runtime.session.state handler) (keeps : handler.plans = false)
    (silent : ∀ responses, handler ≠ .answers responses) :
    Bearing loose runtime.session (runtime.handle config env inbound drafts handler).session := by
  cases handler with
  | planAndLaunch | newPlan => cases keeps
  | answers responses => exact absurd rfl (silent responses)
  | reject | complete => exact .refl _
  | recover =>
      simp only [handle, startRunner_session]
      exact recoverSession_bearing
  | reemitQuestions => exact emitPendingQuestions_bearing
  | noop =>
      simp only [handle, finish_session]
      exact .refl _
  | enqueue target quoteId =>
      simp only [handle, finish_session]
      have queued : Bearing loose runtime.session { runtime.session with
          state := runtime.session.state.enqueue target.id inbound.request quoteId env.now } :=
        .congr (.one (.side _ _ _ _ (Or.inr trivial))) rfl (Or.inl rfl)
      exact queued.persist
  | spawnFollowup target =>
      simp only [handle, finish_session]
      exact spawnDerivedNode_bearing (Or.inl ⟨rfl, rfl⟩)
  | interrupt target =>
      simp only [handle, finish_session]
      exact interrupt_bearing apt.1 inbound.request

/-- A handler that starts no plan, answers included. -/
theorem handle_replies (inbound : Inbound) (drafts : List (Option (List PlanNodeDraft)))
    {handler : Handler} {nodeId : String} (apt : Apt runtime.session.state handler)
    (keeps : handler.plans = false) (steady : Steady runtime.session.state) :
    Replies nodeId runtime.session
      (runtime.handle config env inbound drafts handler).session := by
  have bears : ∀ {session next : Session}, Steady session.state →
      Bearing (fun _ => False) session next → Replies nodeId session next :=
    fun steady bearing => Or.inl (bearing.keeps steady nodeId not_false)
  by_cases takes : ∃ responses, handler = .answers responses
  · obtain ⟨responses, rfl⟩ := takes
    have answered : Replies nodeId runtime.session (runtime.session.answerAll responses).1 :=
      answerAll_replies responses steady
    have edits := runtime.session.answerAll_edits Scope.all_free responses
    have after := edits.kept Edit.steady steady
    simp only [handle]
    split
    · rw [startRunner_session]
      exact answered.trans (bears after emitPendingQuestions_bearing)
    · exact answered
  · push Not at takes
    exact bears steady (handle_bearing inbound drafts apt keeps takes)

/-- The nodes whose question or answer a step by itself may change. -/
def disturbs (runtime : Runtime) : Event → String → Prop
  | .start taskId, nodeId => ∃ task ∈ runtime.task? taskId .created, task.ref = .planned nodeId
  | .outcome taskId _ remote answered, nodeId => ∃ task ∈ runtime.task? taskId .remote,
      task.ref = .planned nodeId ∧ ¬ AsksNothing runtime.session task.ref remote answered
  | .resolve taskId, nodeId => ∃ task ∈ runtime.settleTask? taskId, task.ref = .planned nodeId
  | .act taskId _ _, nodeId => ∃ task ∈ runtime.settleTask? taskId, task.ref.nodeId = nodeId
  | _, _ => False

theorem inner_bearing {event : Event} (isInner : event.inner = true)
    (advanced : runtime.advance config event = some next) :
    Bearing (runtime.disturbs event) runtime.session next.session := by
  cases advances advanced with
  | message | reload => cases isInner
  | clearWake | inspect => exact .refl _
  | dispatch => exact dispatch_bearing
  | collect => exact collect_bearing
  | flow env decision =>
      have flowed : Bearing (runtime.disturbs (.flow env decision)) runtime.session
          (planFlow config env runtime.session runtime.busy decision).1 :=
        planFlow_bearing runtime.busy decision
      unfold flow
      dsimp only
      split <;> exact flowed
  | start task found => exact startNode_bearing fun nodeId planned => ⟨task, found, planned⟩
  | chunk => exact chunkNode_bearing
  | outcome env remote answered task found =>
      refine interpretRemote_bearing remote answered fun nodeId planned tight => ?_
      by_contra asks
      exact tight ⟨task, found, planned, asks⟩
  | close => exact closeNode_bearing
  | resolve task helper found =>
      exact resolveFromHelper_bearing helper fun nodeId planned => ⟨task, found, planned⟩
  | act env decision task found =>
      refine actOnDecision_bearing decision fun node there => ?_
      exact ⟨task, found, (read_nodeId there).symm⟩
  | cancel => exact cancelAll_bearing

end Steps

end Runtime

end Choirworks.Orchestration
