import Choirworks.Orchestration.Bearing
import Choirworks.Orchestration.Handoff
import Choirworks.Orchestration.MessageIds

/-!
Whether a given answer gets to its agent. It lies on the node until the text of
a message is built, which takes it away: the first message behind the answer
conveys it, also after a crash, and each later one only if the answer has been
taken in memory alone.
-/

namespace Choirworks.Orchestration

open OrchestrationState
open Session (Edits)

/-! ### Messages -/

/-- The execution goes on to send its node a message. -/
def Mode.sends (node : NodeState) : Mode → Bool
  | .recover => false
  | .dispatch => node.canTransition .submitted
  | .continuation => true

/-- The text of `build_node_text`; `takeAnswer` is what it leaves of the node. -/
def buildNodeText (node : NodeState) (state : OrchestrationState) (agents : Dict String String) :
    List String :=
  match node.answerText with
  | some answer =>
      buildContinuationText node state agents (node.question.getD "") answer node.answerFrom
  | none => buildDispatchText node state agents

/-- A call of `stream_remote`, with the node as `build_node_text` finds it. -/
structure Call where
  ref : NodeRef
  node : NodeState
  state : OrchestrationState

def Call.text (call : Call) (agents : Dict String String) : List String :=
  buildNodeText call.node call.state agents

def Runtime.call (runtime : Runtime) (taskId : Nat) : Option Call :=
  (runtime.task? taskId .created).bind fun task =>
    let begun := beginNode runtime.session task.ref task.mode
    if task.mode = .recover ∨ begun.raised ≠ none then none
    else (begun.session.read begun.ref).map fun node => ⟨begun.ref, node, begun.session.state⟩

section Messages

variable {session : Session} {ref : NodeRef} {mode : Mode}

theorem change_raised {fields : NodeState → NodeState} :
    (session.change ref fields).raised = none := by
  unfold Session.change
  split <;> rfl

theorem change_saved {fields : NodeState → NodeState} :
    (session.change ref fields).session.saved = session.saved := by
  unfold Session.change
  split
  · rfl
  · cases ref <;> rfl

theorem Session.read_planned (session : Session) (nodeId : String) :
    session.read (.planned nodeId) = session.state.node? nodeId := rfl

/-- A message to a planned node is built from what the plan has of it. -/
theorem beginNode_sends {nodeId : String} {node behind : NodeState}
    (found : session.state.node? nodeId = some node) (sends : mode ≠ .recover)
    (quiet : (beginNode session (.planned nodeId) mode).raised = none)
    (read : (beginNode session (.planned nodeId) mode).session.read
      (beginNode session (.planned nodeId) mode).ref = some behind) :
    mode.sends node = true ∧ behind.question = node.question ∧
      behind.answerText = node.answerText := by
  have there : session.read (.planned nodeId) = some node := found
  cases mode with
  | recover => exact absurd rfl sends
  | dispatch =>
      have counted : ∀ node, (countAttempt node).id = node.id := fun _ => rfl
      obtain ⟨allowed, after⟩ := transition_after counted quiet there
      obtain rfl := Option.some.inj (after.symm.trans read)
      exact ⟨allowed, rfl, rfl⟩
  | continuation =>
      have after : (session.change (.planned nodeId) countAttempt).session.read
          (session.change (.planned nodeId) countAttempt).ref = some (countAttempt node) :=
        change_read (fun _ => rfl) there
      obtain rfl := Option.some.inj (after.symm.trans read)
      exact ⟨rfl, rfl, rfl⟩

end Messages

/-- A message to a planned node comes from one of its executions. -/
theorem Runtime.call_planned {runtime : Runtime} {taskId : Nat} {call : Call} {nodeId : String}
    {node : NodeState} (sent : runtime.call taskId = some call)
    (planned : call.ref = .planned nodeId) (found : runtime.session.state.node? nodeId = some node) :
    ∃ task, runtime.task? taskId .created = some task ∧ task.ref = .planned nodeId ∧
      task.mode.sends node = true ∧ call.node.question = node.question ∧
        call.node.answerText = node.answerText := by
  obtain ⟨task, known, sent⟩ := Option.bind_eq_some_iff.mp sent
  dsimp only at sent
  split at sent
  · cases sent
  · rename_i goes
    push Not at goes
    obtain ⟨behind, read, rfl⟩ := Option.map_eq_some_iff.mp sent
    have own := beginNode_planned planned
    rw [own] at read goes
    exact ⟨task, known, own, beginNode_sends found goes.1 goes.2 read⟩

/-- What is sent is built from the node that the execution then goes on with. -/
theorem Runtime.streamed_call (runtime : Runtime) (taskId : Nat) :
    runtime.streamed taskId = (runtime.call taskId).map fun call => takeAnswer call.node := by
  unfold streamed call
  cases runtime.task? taskId .created with
  | none => rfl
  | some task =>
      simp only [Option.bind_some, startNode_begun]
      by_cases silent : task.mode = .recover ∨
          (beginNode runtime.session task.ref task.mode).raised ≠ none
      · simp only [if_pos silent, Option.map_none]
      · have sends : task.mode ≠ .recover := fun recovers => silent (Or.inl recovers)
        simp only [if_neg silent, Option.map_map, Function.comp_def]
        rw [if_neg (by simp [sends, change_raised])]
        cases found : (beginNode runtime.session task.ref task.mode).session.read
            (beginNode runtime.session task.ref task.mode).ref with
        | none => simp [Session.change, found]
        | some node => simp [change_read takeAnswer_id found]

/-! ### Debts -/

/-- An answer that a node has got to its question. `told` says that a message has
gone to its agent since. -/
structure Debt where
  nodeId : String
  question : String
  answer : String
  told : Bool := false
deriving DecidableEq

/-- The node has neither ended nor come back with a question. -/
def NodeState.pursues (node : NodeState) : Bool :=
  node.status ∉ [.completed, .canceled, .invalidated, .inputRequired]

namespace Debt

/-- The text quotes both, each at the end of a block. -/
def Conveyed (debt : Debt) (text : List String) : Prop :=
  (∃ block ∈ text, (quoteUntrusted debt.question).toList <:+ block.toList) ∧
    ∃ block ∈ text, (quoteUntrusted debt.answer).toList <:+ block.toList

instance (debt : Debt) (text : List String) : Decidable (debt.Conveyed text) :=
  inferInstanceAs (Decidable (_ ∧ _))

/-- The node has not ended or asked. -/
def stands (debt : Debt) (before after : OrchestrationState) : Bool :=
  (before.node? debt.nodeId).any (·.pursues) && (after.node? debt.nodeId).any (·.pursues)

/-- A call changes the question of its node only where the agent asks another one. -/
def unasked (debt : Debt) (before after : OrchestrationState) : Bool :=
  (after.node? debt.nodeId).bind (·.question) = (before.node? debt.nodeId).bind (·.question)

def tell (debt : Debt) (call : Option Call) : Debt :=
  if call.any (·.ref = .planned debt.nodeId) then { debt with told := true } else debt

/-- A message of a continuation quotes both. -/
theorem conveyed_of_answer (debt : Debt) {node : NodeState} (state : OrchestrationState)
    (agents : Dict String String) (question : node.question.getD "" = debt.question)
    (answerText : node.answerText = some debt.answer) :
    debt.Conveyed (buildNodeText node state agents) := by
  simp only [buildNodeText, answerText, question, buildContinuationText]
  have last : ∀ lead text : String, text.toList <:+ (lead ++ text).toList := by
    intro lead text
    rw [String.toList_append]
    exact List.suffix_append _ _
  have both : ∀ (parts : List String) (first second : String),
      debt.Conveyed (parts ++
        [first ++ quoteUntrusted debt.question, second ++ quoteUntrusted debt.answer]) := by
    intro parts first second
    constructor
    · exact ⟨_, List.mem_append_right _ List.mem_cons_self, last _ _⟩
    · exact ⟨_, List.mem_append_right _ (List.mem_cons_of_mem _ List.mem_cons_self), last _ _⟩
  by_cases peer : node.answerFrom.getD "" ≠ ""
  · simp only [if_pos peer]
    exact both _ _ _
  · simp only [if_neg peer]
    exact both _ _ _

/-- The node holds the question and the answer, or has told its agent of them. -/
def Rests (debt : Debt) (node : NodeState) : Prop :=
  (node.question.getD "" = debt.question ∧ node.answerText = some debt.answer) ∨
    (debt.told = true ∧ node.answerText = none)

instance (debt : Debt) (node : NodeState) : Decidable (debt.Rests node) :=
  inferInstanceAs (Decidable (_ ∨ _))

theorem tell_own (debt : Debt) {call : Call} (own : call.ref = .planned debt.nodeId) :
    debt.tell (some call) = { debt with told := true } := by
  simp [tell, own]

theorem tell_other (debt : Debt) {call : Option Call}
    (other : ∀ made, call = some made → made.ref ≠ .planned debt.nodeId) :
    debt.tell call = debt := by
  cases call with
  | none => rfl
  | some made => simp [tell, other made rfl]

/-- The debt rests on its node if that goes on in the state. -/
def Honoured (debt : Debt) (state : OrchestrationState) : Prop :=
  ∀ node ∈ state.node? debt.nodeId, node.pursues = true → debt.Rests node

instance (debt : Debt) (state : OrchestrationState) : Decidable (debt.Honoured state) := by
  unfold Honoured
  infer_instance

structure Safe (debt : Debt) (session : Session) : Prop where
  memory : ∃ node, session.state.node? debt.nodeId = some node ∧ debt.Rests node
  stored : debt.Honoured session.saved

end Debt

/-- The answers that nodes have got which waited for them. -/
def newDebts (before after : OrchestrationState) : List Debt :=
  after.nodes.rows.filterMap fun node =>
    if node.status = .ready ∧ before.status? node.id = some .inputRequired then
      node.answerText.map fun answer => { nodeId := node.id, question := node.question.getD "", answer }
    else none

/-- The debts behind a step that a session takes by itself. -/
def Runtime.debtsAfter (runtime : Runtime) (event : Event) (after : OrchestrationState)
    (debts : List Debt) : List Debt :=
  let before := runtime.session.state
  let standing := debts.filter (·.stands before after)
  match event with
  | .start taskId => standing.map (·.tell (runtime.call taskId))
  | .outcome _ _ _ _ => standing.filter (·.unasked before after)
  | .resolve _ => standing ++ newDebts before after
  | _ => standing

/-- A conversation and the answers that its nodes have got. -/
structure Dialogue where
  conversation : Conversation := .empty
  debts : List Debt := []

namespace Dialogue

/-- The debts behind an event. A new plan has none of the nodes. -/
def debtsAfter (dialogue : Dialogue) (event : ConversationEvent) (next : Conversation) : List Debt :=
  let after := next.runtime.session.state
  match event with
  | .message _ inbound _ _ _ =>
      let opened := dialogue.conversation.runtime.ensureSession
      if (opened.classify inbound).plans then []
      else
        dialogue.debts.filter (·.stands opened.session.state after) ++
          newDebts opened.session.state after
  | .session event _ => dialogue.conversation.runtime.debtsAfter event after dialogue.debts
  | .raise | .crash | .rewind _ => dialogue.debts

def step (config : ExecutorConfig) (dialogue : Dialogue) (event : ConversationEvent) :
    Option Dialogue :=
  (dialogue.conversation.step config event).map fun conversation =>
    { conversation, debts := dialogue.debtsAfter event conversation }

/-- Whatever the event sends conveys the answers that its node has got. -/
def Conveys (dialogue : Dialogue) (agents : Dict String String) : ConversationEvent → Prop
  | .session (.start taskId) _ =>
      dialogue.conversation.runtime.evicted = false →
        ∀ call ∈ dialogue.conversation.runtime.call taskId, ∀ debt ∈ dialogue.debts,
          call.ref = .planned debt.nodeId → debt.Conveyed (call.text agents)
  | _ => True

instance (dialogue : Dialogue) (agents : Dict String String) (event : ConversationEvent) :
    Decidable (dialogue.Conveys agents event) := by
  unfold Conveys
  split <;> infer_instance

/-- What an event needs to lose no answer. Only a start can fail to convey one:
its node must still hold the answer that a debt to it is about. -/
def KeepsAnswers (config : ExecutorConfig) (dialogue : Dialogue) : ConversationEvent → Prop
  | .message _ inbound env drafts _ =>
      (dialogue.conversation.runtime.ensureSession.classify inbound).plans = true →
        Runtime.UnderivedPlan config env drafts
  | .session (.start taskId) _ =>
      ∀ task ∈ dialogue.conversation.runtime.task? taskId .created, ∀ debt ∈ dialogue.debts,
        task.ref = .planned debt.nodeId →
          ∀ node ∈ dialogue.conversation.runtime.session.state.node? debt.nodeId,
            task.mode.sends node = true → node.answerText.isSome
  | .session (.resolve taskId) _ =>
      ∀ task ∈ dialogue.conversation.runtime.settleTask? taskId, ∀ debt ∈ dialogue.debts,
        task.ref ≠ .planned debt.nodeId
  | .rewind taskId =>
      ∀ state ∈ restoreState dialogue.conversation.turns taskId, ∀ debt ∈ dialogue.debts,
        debt.Honoured state
  | _ => True

instance (config : ExecutorConfig) (dialogue : Dialogue) :
    (event : ConversationEvent) → Decidable (dialogue.KeepsAnswers config event)
  | .message _ _ _ _ _ => inferInstanceAs (Decidable (_ → Runtime.UnderivedPlan _ _ _))
  | .session (.start _) _ =>
      inferInstanceAs (Decidable (∀ task ∈ _, ∀ debt ∈ _, _ → ∀ node ∈ _, _ → _))
  | .session (.resolve _) _ => inferInstanceAs (Decidable (∀ task ∈ _, ∀ debt ∈ _, _ ≠ _))
  | .rewind _ => inferInstanceAs (Decidable (∀ state ∈ _, ∀ debt ∈ _, Debt.Honoured _ _))
  | .session (.message _ _ _) _ | .session .clearWake _ | .session .dispatch _
  | .session .collect _ | .session (.flow _ _) _ | .session (.chunk _ _ _) _
  | .session (.outcome _ _ _ _) _ | .session (.close _) _ | .session (.inspect _) _
  | .session (.act _ _ _) _ | .session .cancel _ | .session .reload _ | .raise | .crash =>
      .isTrue trivial

end Dialogue

/-! ### Debts through the steps of a session -/

namespace Debt

section Safe

variable {debt : Debt} {node later : NodeState} {session next : Session}
  {before after : OrchestrationState}

theorem pursues_status (pursues : node.pursues = true) : node.status ≠ .inputRequired := by
  intro waits
  simp [NodeState.pursues, waits] at pursues

theorem Rests.bears (rests : debt.Rests node) (bears : Bears node later) : debt.Rests later := by
  rw [Rests, bears.question, bears.answerText]
  exact rests

theorem Safe.keeps (safe : debt.Safe session) (keeps : Keeps debt.nodeId session next) :
    debt.Safe next := by
  obtain ⟨node, found, rests⟩ := safe.memory
  constructor
  · obtain ⟨later, there, bears⟩ := keeps.memory node found
    exact ⟨later, there, rests.bears bears⟩
  · rcases keeps.stored with same | stored
    · rw [same]
      exact safe.stored
    · intro copy kept _
      obtain ⟨later, there, bears⟩ := stored node found
      obtain rfl := Option.some.inj (there.symm.trans kept)
      exact rests.bears bears

theorem stands_iff : debt.stands before after = true ↔
    (∃ node, before.node? debt.nodeId = some node ∧ node.pursues = true) ∧
      ∃ later, after.node? debt.nodeId = some later ∧ later.pursues = true := by
  simp [stands, Option.any_eq_true]

theorem mem_newDebts : debt ∈ newDebts before after →
    ∃ node, after.node? debt.nodeId = some node ∧ node.status = .ready ∧
      before.status? debt.nodeId = some .inputRequired ∧
        node.question.getD "" = debt.question ∧ node.answerText = some debt.answer := by
  intro member
  obtain ⟨node, row, made⟩ := List.mem_filterMap.mp member
  split at made
  · rename_i answered
    obtain ⟨answer, text, rfl⟩ := Option.map_eq_some_iff.mp made
    exact ⟨node, after.node_of_mem row, answered.1, answered.2, rfl, text⟩
  · cases made

/-- An answer that memory and store agree on is safe. -/
theorem Safe.agrees (agrees : Agrees debt.nodeId session)
    (found : session.state.node? debt.nodeId = some node)
    (question : node.question.getD "" = debt.question)
    (answerText : node.answerText = some debt.answer) : debt.Safe session := by
  obtain ⟨later, stored, there, kept, sameQuestion, sameAnswer⟩ := agrees
  obtain rfl := Option.some.inj (found.symm.trans there)
  refine ⟨⟨node, found, Or.inl ⟨question, answerText⟩⟩, fun copy behind _ => Or.inl ?_⟩
  obtain rfl := Option.some.inj (kept.symm.trans behind)
  rw [sameQuestion, sameAnswer]
  exact ⟨question, answerText⟩

end Safe

end Debt

theorem takeAnswer_none (node : NodeState) : (takeAnswer node).answerText = none := by
  unfold takeAnswer
  split
  · rfl
  · rename_i none
    simpa using none

/-- A node that waits can adopt the output of its helper, which is stored. -/
theorem resolveFromHelper_agrees {session : Session} {nodeId : String} {node : NodeState}
    (helper : NodeState) (found : session.state.node? nodeId = some node)
    (waits : node.status = .inputRequired) :
    Agrees nodeId (resolveFromHelper session (.planned nodeId) helper).session := by
  have read : session.read (.planned nodeId) = some node := found
  have named := (session.state.node_mem nodeId found).2
  simp only [resolveFromHelper, Session.transition, read, NodeState.applyTransition,
    NodeState.canTransition, waits, NodeState.allowedTransitions]
  simp [Agrees, Session.write, Session.persist, expireNodeInterventions, expireWhere, node?, setNode,
    named]

namespace Runtime

section Steps

variable {config : ExecutorConfig} {runtime next : Runtime} {debts : List Debt} {debt : Debt}
  {event : Event} {nodeId : String} {node later : NodeState}

/-- The start of an execution takes the answer from its node when it tells it. -/
theorem start_safe {taskId : Nat} {task : NodeTask}
    (found : runtime.task? taskId .created = some task) (steady : Steady runtime.session.state)
    (safe : debt.Safe runtime.session) :
    (debt.tell (runtime.call taskId)).Safe
      (startNode runtime.session task.ref task.mode).session := by
  have bearing : Bearing (fun _ => False) runtime.session
      (beginNode runtime.session task.ref task.mode).session :=
    beginNode_bearing
  have begun := safe.keeps (bearing.keeps steady debt.nodeId not_false)
  have after := bearing.edits.kept Edit.steady steady
  simp only [call, found, Option.bind_some, startNode_begun]
  generalize beginNode runtime.session task.ref task.mode = handled at *
  split
  · exact begun
  · by_cases own : handled.ref = .planned debt.nodeId
    · obtain ⟨node, there, _⟩ := begun.memory
      rw [own, Session.read_planned, there, Option.map_some, Debt.tell_own _ rfl]
      have changed : (handled.session.change (.planned debt.nodeId) takeAnswer).session.read
          (handled.session.change (.planned debt.nodeId) takeAnswer).ref = some (takeAnswer node) :=
        change_read takeAnswer_id there
      rw [change_planned] at changed
      refine ⟨⟨takeAnswer node, changed, Or.inr ⟨rfl, takeAnswer_none node⟩⟩, ?_⟩
      rw [change_saved]
      intro copy kept pursues
      -- the store may still hold the answer that has been told
      exact (begun.stored copy kept pursues).imp_right fun told => ⟨rfl, told.2⟩
    · rw [Debt.tell_other]
      · have taken : KeepsPlan .all takeAnswer := takeAnswer_plan
        have changed : Bearing (fun other => handled.ref = .planned other) handled.session
            (handled.session.change handled.ref takeAnswer).session :=
          change_rule taken.same fun _ _ planned tight => absurd planned tight
        exact begun.keeps (changed.keeps after debt.nodeId own)
      · intro call made
        obtain ⟨node, _, rfl⟩ := Option.map_eq_some_iff.mp made
        exact own

/-- A step keeps what a node bears that goes on, unless it is one of three about
that node: the start, a call that asks, and the adoption of an output. -/
theorem inner_keeps (isInner : event.inner = true) (steady : Steady runtime.session.state)
    (advanced : runtime.advance config event = some next)
    (found : runtime.session.state.node? nodeId = some node)
    (there : next.session.state.node? nodeId = some later) (goes : later.pursues = true)
    (starts : ∀ taskId, event ≠ .start taskId)
    (asks : ∀ taskId env remote answered, event = .outcome taskId env remote answered →
      later.question = node.question)
    (adopts : ∀ taskId, event = .resolve taskId →
      ∀ task ∈ runtime.settleTask? taskId, task.ref ≠ .planned nodeId) :
    Keeps nodeId runtime.session next.session := by
  have waits := Debt.pursues_status goes
  -- Starts, outcomes, resolutions and assistance may write the row itself; every other step
  -- only moves its status on.
  by_cases loose : runtime.disturbs event nodeId
  · cases advances advanced with
    | start => exact absurd rfl (starts _)
    | outcome env remote answered task known =>
        obtain ⟨other, same, planned, _⟩ := loose
        obtain rfl := Option.some.inj (known.symm.trans same)
        have question := asks _ env remote answered rfl
        simp only [finishPart, setTask, planned] at there ⊢
        exact interpretRemote_own steady found remote answered there question waits
    | resolve task helper known =>
        obtain ⟨other, same, planned⟩ := loose
        exact absurd planned (adopts _ rfl other same)
    | act env decision task known =>
        obtain ⟨other, same, named⟩ := loose
        obtain rfl := Option.some.inj (known.symm.trans same)
        have acts : Bearing (fun _ => False) runtime.session
            (actOnDecision config env runtime.session task.ref decision).session ∨ _ :=
          actOnDecision_own decision
        rcases acts with bearing | human
        · exact bearing.keeps steady nodeId not_false
        · rw [named] at human
          exact absurd (human later there) waits
    | _ => exact absurd loose not_false
  · exact (inner_bearing isInner advanced).keeps steady nodeId loose

/-- What a settlement has adopted is stored with its question. -/
theorem resolve_agrees {taskId : Nat} (steady : Steady runtime.session.state)
    (advanced : runtime.advance config (.resolve taskId) = some next)
    (waited : runtime.session.state.status? nodeId = some .inputRequired)
    (there : next.session.state.node? nodeId = some later) (ready : later.status = .ready) :
    Agrees nodeId next.session := by
  obtain ⟨node, found, waits⟩ := Option.map_eq_some_iff.mp waited
  by_cases loose : runtime.disturbs (.resolve taskId) nodeId
  · obtain ⟨task, known, planned⟩ := loose
    cases advances advanced with
    | resolve other helper same =>
        obtain rfl := Option.some.inj (same.symm.trans known)
        simp only [setSettleTask, planned]
        exact resolveFromHelper_agrees helper found waits
  · have kept := (inner_bearing rfl advanced).keeps steady nodeId loose
    obtain ⟨last, behind, bears⟩ := kept.memory node found
    obtain rfl := Option.some.inj (behind.symm.trans there)
    exact absurd bears.status (by simp [ready, waits])

/-- The debts behind a step are safe if no output replaces an answer. -/
theorem debtsAfter_safe (isInner : event.inner = true) (steady : Steady runtime.session.state)
    (advanced : runtime.advance config event = some next)
    (adopts : ∀ taskId, event = .resolve taskId → ∀ task ∈ runtime.settleTask? taskId,
      ∀ debt ∈ debts, task.ref ≠ .planned debt.nodeId)
    (safe : ∀ debt ∈ debts, debt.Safe runtime.session) :
    ∀ debt ∈ runtime.debtsAfter event next.session.state debts, debt.Safe next.session := by
  have standing : (∀ taskId, event ≠ .start taskId) → ∀ debt ∈ debts,
      debt.stands runtime.session.state next.session.state = true →
      (∀ taskId env remote answered, event = .outcome taskId env remote answered →
        debt.unasked runtime.session.state next.session.state = true) → debt.Safe next.session := by
    intro starts debt member stands unasked
    obtain ⟨⟨node, found, _⟩, later, there, goes⟩ := Debt.stands_iff.mp stands
    refine (safe debt member).keeps (inner_keeps isInner steady advanced found there goes starts
      ?_ fun taskId same task known => adopts taskId same task known debt member)
    intro taskId env remote answered same
    simpa [Debt.unasked, found, there] using unasked taskId env remote answered same
  intro debt member
  cases event with
  | start taskId =>
      obtain ⟨old, kept, rfl⟩ := List.mem_map.mp member
      cases advances advanced with
      | start task found =>
          exact start_safe found steady (safe old (List.mem_filter.mp kept).1)
  | outcome taskId env remote answered =>
      obtain ⟨kept, unasked⟩ := List.mem_filter.mp member
      obtain ⟨inside, stands⟩ := List.mem_filter.mp kept
      exact standing (fun _ => nofun) debt inside stands fun _ _ _ _ _ => unasked
  | resolve taskId =>
      rcases List.mem_append.mp member with kept | fresh
      · obtain ⟨inside, stands⟩ := List.mem_filter.mp kept
        exact standing (fun _ => nofun) debt inside stands fun _ _ _ _ => nofun
      · obtain ⟨node, found, ready, waited, question, answerText⟩ := Debt.mem_newDebts fresh
        exact .agrees (resolve_agrees steady advanced waited found ready) found question answerText
  | _ =>
      obtain ⟨inside, stands⟩ := List.mem_filter.mp member
      exact standing (fun _ => nofun) debt inside stands fun _ _ _ _ => nofun

/-- A message that plans nothing answers only nodes that waited. -/
theorem message_safe {inbound : Inbound} {env : Env} {drafts : List (Option (List PlanNodeDraft))}
    (steady : Steady runtime.session.state) (keeps : (runtime.classify inbound).plans = false)
    (stepped : runtime.step config (.message inbound env drafts) = some next)
    (safe : ∀ debt ∈ debts, debt.stands runtime.session.state next.session.state = true →
      debt.Safe runtime.session) :
    ∀ debt ∈ debts.filter (·.stands runtime.session.state next.session.state) ++
      newDebts runtime.session.state next.session.state, debt.Safe next.session := by
  have replies : ∀ nodeId, Replies nodeId runtime.session next.session := by
    intro nodeId
    rw [step_message stepped]
    exact handle_replies inbound drafts (runtime.classify_apt inbound) keeps steady
  intro debt member
  rcases List.mem_append.mp member with kept | fresh
  · obtain ⟨inside, stands⟩ := List.mem_filter.mp kept
    obtain ⟨⟨node, found, goes⟩, _⟩ := Debt.stands_iff.mp stands
    rcases replies debt.nodeId with keeps | ⟨waited, _⟩
    · exact (safe debt inside stands).keeps keeps
    · exact absurd (waited node found) (Debt.pursues_status goes)
  · obtain ⟨later, there, ready, waited, question, answerText⟩ := Debt.mem_newDebts fresh
    rcases replies debt.nodeId with keeps | ⟨_, agrees⟩
    · obtain ⟨node, found, waits⟩ := Option.map_eq_some_iff.mp waited
      obtain ⟨last, behind, bears⟩ := keeps.memory node found
      obtain rfl := Option.some.inj (behind.symm.trans there)
      exact absurd bears.status (by simp [ready, waits])
    · exact .agrees agrees there question answerText

end Steps

end Runtime

/-! ### Conversations -/

namespace Dialogue

/-- In memory and in the store the debts rest on their nodes. -/
structure Faithful (dialogue : Dialogue) : Prop where
  memory : dialogue.conversation.runtime.evicted = false → ∀ debt ∈ dialogue.debts,
    debt.Safe dialogue.conversation.runtime.session
  stored : ∀ debt ∈ dialogue.debts, debt.Honoured dialogue.conversation.runtime.session.saved
  held : dialogue.conversation.Held Steady

section Runs

variable {config : ExecutorConfig} {dialogue next : Dialogue} {event : ConversationEvent}
  {conversation : Conversation}

/-- A message opens a session in which the debts that stand are safe. -/
theorem Faithful.ensured (faithful : dialogue.Faithful) {debt : Debt} (member : debt ∈ dialogue.debts)
    {after : OrchestrationState}
    (stands : debt.stands dialogue.conversation.runtime.ensureSession.session.state after = true) :
    debt.Safe dialogue.conversation.runtime.ensureSession.session := by
  unfold Runtime.ensureSession at stands ⊢
  cases evicted : dialogue.conversation.runtime.evicted with
  | false => exact faithful.memory evicted debt member
  | true =>
      have honoured := faithful.stored debt member
      rw [evicted] at stands
      obtain ⟨⟨node, found, goes⟩, _⟩ := Debt.stands_iff.mp stands
      refine ⟨⟨node, found, ?_⟩, honoured⟩
      simp only [if_true, Runtime.loaded, restored, node?, Table.find?_map,
        Option.map_eq_some_iff] at found
      obtain ⟨copy, kept, rfl⟩ := found
      exact honoured copy kept goes

/-- What leaves memory is stored as it was, or put there by a rewind. -/
theorem Faithful.outside (faithful : dialogue.Faithful) (keeps : dialogue.KeepsAnswers config event)
    (outside : event.steps = false)
    (stepped : dialogue.conversation.step config event = some conversation) :
    ∀ debt ∈ dialogue.debts, debt.Honoured conversation.runtime.session.saved := by
  intro debt member
  cases event with
  | message | session => cases outside
  | crash =>
      cases stepped
      exact faithful.stored debt member
  | raise =>
      simp only [Conversation.step] at stepped
      split at stepped
      · rename_i active
        have present : dialogue.conversation.runtime.evicted = false := by
          simpa using (Bool.and_eq_true_iff.mp active).1
        rw [Conversation.record_runtime stepped]
        obtain ⟨node, found, rests⟩ := (faithful.memory present debt member).memory
        intro copy kept _
        obtain rfl := Option.some.inj (found.symm.trans kept)
        exact rests
      · cases stepped
  | rewind taskId =>
      simp only [Conversation.step, Conversation.rewind] at stepped
      split at stepped
      · cases stepped
      · split at stepped
        · cases stepped
        · obtain ⟨state, restored, rfl⟩ := Option.map_eq_some_iff.mp stepped
          -- The snapshot is older than the debt: that it knows the answer is the event's guard.
          exact keeps state restored debt member

theorem Faithful.step (faithful : dialogue.Faithful) (keeps : dialogue.KeepsAnswers config event)
    (stepped : dialogue.step config event = some next) : next.Faithful := by
  obtain ⟨conversation, taken, rfl⟩ := Option.map_eq_some_iff.mp stepped
  have held : conversation.Held Steady := by
    refine faithful.held.steady_step ?_ taken
    rintro human inbound env drafts stored rfl plans
    exact keeps plans
  rcases Conversation.step_cases taken with
    ⟨human, inbound, env, drafts, stored, rfl, moved⟩ | ⟨inner, stored, rfl, isInner, moved⟩ |
      ⟨outside, evicted⟩
  · have safe : ∀ debt ∈ dialogue.debtsAfter (.message human inbound env drafts stored) conversation,
        debt.Safe conversation.runtime.session := by
      unfold debtsAfter
      dsimp only
      split
      · intro debt member
        cases member
      · rename_i keeps
        exact Runtime.message_safe (faithful.held.ensured Steady.restored).1
          (Bool.eq_false_iff.mpr keeps) moved fun debt member => faithful.ensured member
    exact ⟨fun _ => safe, fun debt member => (safe debt member).stored, held⟩
  · obtain ⟨present, advanced⟩ := Runtime.step_inner isInner moved
    have safe : ∀ debt ∈ dialogue.debtsAfter (.session inner stored) conversation,
        debt.Safe conversation.runtime.session := by
      refine Runtime.debtsAfter_safe isInner (faithful.held.memory present) advanced ?_
        (faithful.memory present)
      rintro taskId rfl
      exact keeps
    exact ⟨fun _ => safe, fun debt member => (safe debt member).stored, held⟩
  · have same : dialogue.debtsAfter event conversation = dialogue.debts := by
      cases event with
      | message | session => cases outside
      | raise | crash | rewind => rfl
    refine ⟨fun present => ?_, ?_, held⟩
    · rw [evicted] at present
      cases present
    · rw [same]
      exact faithful.outside keeps outside taken

/-- What a debt is about is in the text, if its node still holds it. -/
theorem Faithful.conveys (faithful : dialogue.Faithful) (keeps : dialogue.KeepsAnswers config event)
    (agents : Dict String String) : dialogue.Conveys agents event := by
  unfold Conveys
  split
  · rename_i taskId stored
    intro present call sent debt member planned
    obtain ⟨node, found, rests⟩ := (faithful.memory present debt member).memory
    obtain ⟨task, known, own, sends, question, answerText⟩ :=
      Runtime.call_planned sent planned found
    have holds := keeps task known debt member own node found sends
    rcases rests with ⟨sameQuestion, sameAnswer⟩ | ⟨_, taken⟩
    · apply debt.conveyed_of_answer
      · rw [question, sameQuestion]
      · rw [answerText, sameAnswer]
    · rw [taken] at holds
      cases holds
  · trivial

end Runs

end Dialogue

/-- In every run in which no message is built behind the one that has taken the
answer of its node, each message conveys what its node has been answered. -/
theorem answers_conveyed (config : ExecutorConfig) (agents : Dict String String)
    (events front rest : List ConversationEvent) (event : ConversationEvent) (reached : Dialogue)
    (guarded : Runs.Guarded (Dialogue.step config) (Dialogue.KeepsAnswers config) {} events)
    (split : events = front ++ event :: rest)
    (ran : Runs.run (Dialogue.step config) {} front = some reached) :
    reached.Conveys agents event := by
  have begun : Dialogue.Faithful {} := by
    refine ⟨nofun, nofun, nofun, steady_of_empty rfl rfl, fun turn member => ?_⟩
    cases member
  obtain ⟨faithful, keeps⟩ := Runs.guarded_at Dialogue.Faithful
    (fun _ _ _ faithful keeps stepped => faithful.step keeps stepped) events _ begun guarded front
    event rest split reached ran
  exact faithful.conveys keeps agents

section Samples

/-! A node asks through a marker and is answered; the process ends while its agent
works on the continuation, and the node is dispatched anew. -/

def answeredRun : List ConversationEvent := [
  .message true { taskId := "t1", text := "write" } loneEnv (lonePlan "n1") true,
  .session .clearWake true, .session .dispatch true, .session (.start 0) true,
  .session (.outcome 0 loneEnv
    { ended := .completed, output := some "[cw:need_info] When?" } none) true,
  .session (.close 0) true, .session .collect true, .session .clearWake true,
  .session .dispatch true, .session (.inspect 1) true, .session (.act 1 loneEnv none) true,
  .message true { taskId := "t2", responses := .ok [⟨"0", .text "Today"⟩] } loneEnv [] true,
  .session .collect true, .session .clearWake true, .session .dispatch true,
  .session (.start 2) true]

def resumedRun (meanwhile : List ConversationEvent) : List ConversationEvent :=
  answeredRun ++ meanwhile ++ [
    .crash, .message false { taskId := "t2", recover := true } loneEnv [] true,
    .session .clearWake true, .session .dispatch true]

/-- The store still has the answer, and the second message quotes it as well. -/
theorem unstored_answer_conveyed :
    ∃ reached, Runs.run (Dialogue.step {}) {} (resumedRun []) = some reached ∧
      reached.debts = [⟨"n1", "When?", "Today", true⟩] ∧
      (reached.conversation.runtime.call 0).isSome ∧
        reached.Conveys .empty (.session (.start 0) true) := by
  have guarded : Runs.Guarded (Dialogue.step {}) (Dialogue.KeepsAnswers {}) {}
      (resumedRun [] ++ [.session (.start 0) true]) := by
    decide +kernel
  have ends : Runs.Ends (Dialogue.step {}) {} (resumedRun []) fun reached =>
      reached.debts = [⟨"n1", "When?", "Today", true⟩] ∧
        (reached.conversation.runtime.call 0).isSome := by
    decide +kernel
  obtain ⟨reached, ran, owed, sends⟩ := ends
  exact ⟨reached, ran, owed, sends,
    answers_conveyed {} .empty _ _ [] _ reached guarded rfl ran⟩

/-- A call whose node has nothing to say besides the convention for the reply. -/
structure Call.Bare (call : Call) : Prop where
  answerText : call.node.answerText = none
  inputText : call.node.inputText = ""
  roster : buildRoster call.state .empty = ""
  handoffs : finishedDeps call.state call.node = []

instance (call : Call) : Decidable call.Bare :=
  decidable_of_iff (call.node.answerText = none ∧ call.node.inputText = "" ∧
      buildRoster call.state .empty = "" ∧ finishedDeps call.state call.node = [])
    ⟨fun all => ⟨all.1, all.2.1, all.2.2.1, all.2.2.2⟩,
      fun bare => ⟨bare.answerText, bare.inputText, bare.roster, bare.handoffs⟩⟩

theorem last_append (front : String) {text : String} {last : Char}
    (ends : text.toList.getLast? = some last) : (front ++ text).toList.getLast? = some last := by
  rw [String.toList_append, List.getLast?_append, ends]
  rfl

theorem quote_last (text : String) : (quoteUntrusted text).toList.getLast? = some '>' := by
  have last : quotedContentEnd.toList.getLast? = some '>' := by decide +kernel
  exact last_append _ last

theorem receipt_last : receiptConvention.toList.getLast? = some '。' := by
  have last : "没有需要时不要写任何标记。".toList.getLast? = some '。' := by decide +kernel
  exact last_append _ last

theorem Call.Bare.silent {call : Call} (bare : call.Bare) (debt : Debt) :
    ¬ debt.Conveyed (call.text .empty) := by
  have text : call.text .empty = ["", receiptConvention] := by
    simp [Call.text, buildNodeText, buildDispatchText, bare.answerText, bare.inputText, bare.roster,
      bare.handoffs]
  rintro ⟨⟨block, member, ends⟩, _⟩
  have last : block.toList.getLast? = some '>' := by
    obtain ⟨lead, same⟩ := ends
    rw [← same, List.getLast?_append, quote_last]
    rfl
  rw [text] at member
  rcases List.mem_pair.mp member with rfl | rfl
  · cases last
  · rw [receipt_last] at last
    exact absurd last (by decide)

/-- Another message makes the session store itself without the answer, which the
message behind the crash does not quote. -/
theorem stored_answer_forgotten :
    ¬ ∀ (config : ExecutorConfig) (agents : Dict String String)
      (events front rest : List ConversationEvent) (event : ConversationEvent)
      (reached : Dialogue), events = front ++ event :: rest →
        Runs.run (Dialogue.step config) {} front = some reached → reached.Conveys agents event := by
  intro claim
  have ends : Runs.Ends (Dialogue.step {}) {}
      (resumedRun [.message true { taskId := "t3", text := "hurry" } loneEnv [] true])
        fun reached => reached.conversation.runtime.evicted = false ∧
          reached.debts = [⟨"n1", "When?", "Today", true⟩] ∧
          ∃ call ∈ reached.conversation.runtime.call 0, call.ref = .planned "n1" ∧ call.Bare := by
    decide +kernel
  obtain ⟨reached, ran, present, owed, call, sent, planned, bare⟩ := ends
  have conveys := claim {} .empty _ _ [] (.session (.start 0) true) reached rfl ran
  have member : (⟨"n1", "When?", "Today", true⟩ : Debt) ∈ reached.debts := by
    rw [owed]
    exact List.mem_cons_self
  exact bare.silent _ (conveys present call sent _ member planned)

end Samples

end Choirworks.Orchestration
