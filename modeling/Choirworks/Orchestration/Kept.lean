import Choirworks.Orchestration.Conversation
import Choirworks.Orchestration.Edits

/-!
What every edit keeps, every step keeps. Apart from a new plan, a step of the
session makes nothing but edits; a conversation stores what its session has
stored, and takes it back in a rewind. A property of states that edits keep, and
that new plans have, therefore holds in memory, in the store and on the turns.
-/

namespace Choirworks.Orchestration

open OrchestrationState
open Session (Edits)

/-- Every move and every question. -/
def Scope.all : Scope := ⟨fun _ _ _ => True, fun _ _ _ => True, True, True⟩

/-- Everything but the count of attempts. -/
def Scope.uncounted : Scope := ⟨fun _ _ _ => True, fun _ _ _ => True, False, True⟩

/-- Nothing but the count of attempts can be out of the scope. -/
structure Scope.Free (scope : Scope) : Prop where
  moves : ∀ nodeId status target, scope.moves nodeId status target
  asks : ∀ kind nodeId status, scope.asks kind nodeId status
  hands : scope.hands

theorem Scope.all_free : Scope.all.Free := ⟨fun _ _ _ => trivial, fun _ _ _ => trivial, trivial⟩

theorem Scope.uncounted_free : Scope.uncounted.Free :=
  ⟨fun _ _ _ => trivial, fun _ _ _ => trivial, trivial⟩

namespace Session

section Answers

variable {scope : Scope} (session : Session)

theorem settled_edits {intervention later : Intervention}
    (member : intervention ∈ session.state.interventions.rows)
    (pending : intervention.status = .pending) (sameId : later.id = intervention.id)
    (sameNode : later.nodeId = intervention.nodeId) (sameKind : later.kind = intervention.kind) :
    Edits scope session (session.setIntervention later) :=
  .one (setIntervention_edit member sameId ⟨sameNode, sameKind, fun _ => pending⟩)

/-- The node at work whose cancellation the response confirms. -/
def confirmed (response : QuestionResponse) : Option NodeState :=
  match session.state.interventions.find? response.interventionId with
  | none => none
  | some intervention =>
      if intervention.status = .pending ∧ intervention.kind = .confirmCancel ∧
          response.answer = .flag true then
        (session.state.node? intervention.nodeId).filter fun target =>
          target.status ∈ activeNodeStatuses
      else none

/-- What the cancellation of a node moves. -/
def MayCancel (scope : Scope) (target : NodeState) : Prop :=
  scope.moves target.id target.status .canceled ∧
    ∀ node ∈ (session.state.setNode
        { target with status := .canceled, a2aTaskId := none }).blockedNodes,
      scope.moves node.id .pending .invalidated

theorem answerIntervention_edits (response : QuestionResponse)
    (goesOn : ∀ nodeId, scope.moves nodeId .inputRequired .ready)
    (cancels : ∀ target ∈ session.confirmed response, session.MayCancel scope target) :
    Edits scope session (session.answerIntervention response).1 := by
  have settled : ∀ {intervention}, session.Awaited response intervention → ∀ later : Intervention,
      later.id = intervention.id → later.nodeId = intervention.nodeId →
        later.kind = intervention.kind → Edits scope session (session.setIntervention later) :=
    fun awaited _ => session.settled_edits (Table.mem_of_find? awaited.found) awaited.pending
  have answers := session.answers response
  generalize session.answerIntervention response = result at answers ⊢
  cases answers with
  | ignored => exact .refl session
  | stale awaited => exact .persist (settled awaited _ rfl rfl rfl)
  | declined awaited => exact .persist (settled awaited _ rfl rfl rfl)
  | @canceled intervention awaited confirms target there active agreed =>
      have resolved := settled awaited (intervention.answered response.answer) rfl rfl rfl
      have cancel := cancels target (by
        simp only [confirmed, awaited.found, awaited.pending, confirms, agreed, and_self, if_true,
          there, Option.filter_some, active, decide_true, Option.mem_some_iff])
      exact .persist (resolved.trans (cancelNode_edits _
        (session.state.node_mem _ there).1 cancel.1 cancel.2))
  | @continued intervention awaited asks target there waits =>
      have resolved := settled awaited (intervention.answered response.answer) rfl rfl rfl
      have row := (session.state.node_mem _ there).1
      refine .persist (resolved.then (.row row ⟨rfl, rfl, rfl, rfl, rfl, rfl⟩ (Or.inr ?_)
        (Or.inl rfl)))
      rw [waits]
      exact goesOn target.id

theorem answerAll_edits (free : scope.Free) (responses : List QuestionResponse) :
    Edits scope session (session.answerAll responses).1 := by
  induction responses generalizing session with
  | nil => exact .refl session
  | cons response rest ih =>
      have answered : Edits scope session (session.answerIntervention response).1 :=
        session.answerIntervention_edits response (fun _ => free.moves _ _ _)
          fun _ _ => ⟨free.moves _ _ _, fun _ _ => free.moves _ _ _⟩
      exact answered.trans (ih _)

theorem recoverSession_edits (free : scope.Free) : Edits scope session session.recoverSession :=
  .persist (.edited (.refl session) ((Relation.ReflTransGen.single (expireWhere_edit _)).tail
    (recoverNodes_edit fun _ _ _ => free.moves _ _ _)))

end Answers

end Session

/-! ### Plans -/

/-- A state with the nodes of a plan and nothing else. -/
structure Planned (drafts : List PlanNodeDraft) (state : OrchestrationState) : Prop where
  nodes : ∀ node ∈ state.nodes.rows, ∃ draft ∈ drafts, node = draft.node
  interventions : state.interventions = .empty
  queue : state.queue = .empty
  derivedCount : state.derivedCount = 0

theorem planned_empty : Planned [] {} := by
  refine ⟨fun node member => ?_, rfl, rfl, rfl⟩
  cases member

namespace Runtime

section Steps

variable {config : ExecutorConfig} {runtime next : Runtime} {scope : Scope}

theorem planned_fold (drafts : List PlanNodeDraft) {state : OrchestrationState}
    (empty : Planned [] state) :
    Planned drafts (drafts.foldl (fun state draft => state.setNode draft.node) state) := by
  have same : ∀ (drafts : List PlanNodeDraft) (state : OrchestrationState),
      (drafts.foldl (fun state draft => state.setNode draft.node) state).interventions =
          state.interventions ∧
        (drafts.foldl (fun state draft => state.setNode draft.node) state).queue = state.queue := by
    intro drafts
    induction drafts with
    | nil => exact fun _ => ⟨rfl, rfl⟩
    | cons draft rest ih => exact fun state => ih (state.setNode draft.node)
  obtain ⟨interventions, queue⟩ := same drafts state
  refine ⟨fun node member => ?_, interventions.trans empty.interventions, queue.trans empty.queue,
    (planned_count drafts state).trans empty.derivedCount⟩
  refine ((planned_rows drafts state).1 node member).resolve_left fun old => ?_
  obtain ⟨draft, inside, _⟩ := empty.nodes node old
  cases inside

/-- A new plan is stored as it stands; members join it. -/
theorem planAndLaunch_planned (scope : Scope) (config : ExecutorConfig) (runtime : Runtime) (env : Env) (drafts : List (Option (List PlanNodeDraft)))
    (mentions : List String) :
    ∃ nodes planned, (nodes = [] ∨ plan config env drafts = some nodes) ∧ Planned nodes planned ∧
      Edited scope planned (runtime.planAndLaunch config env drafts mentions).session.state ∧
      (runtime.planAndLaunch config env drafts mentions).session.saved =
        (runtime.planAndLaunch config env drafts mentions).session.state := by
  have empty : Planned [] (runtime.session.state.startNewPlan (planId env)) := by
    refine ⟨fun node member => ?_, rfl, rfl, rfl⟩
    cases member
  simp only [planAndLaunch]
  split
  · exact ⟨[], _, Or.inl rfl, empty, .refl, rfl⟩
  · exact ⟨[], _, Or.inl rfl, empty, .refl, rfl⟩
  · rename_i nodes _ planned
    rw [startRunner_session]
    have joined : Edited scope
        (nodes.foldl (fun state draft => state.setNode draft.node)
          (runtime.session.state.startNewPlan (planId env)))
        (createPlan env (runtime.session.state.startNewPlan (planId env)) nodes) :=
      joinMembers_edited env _ _ _
    exact ⟨nodes, _, Or.inr planned, planned_fold nodes empty,
      joined.trans (joinMembers_edited env _ mentions "human_mention"), rfl⟩

/-- The nodes of a new plan are those that the planner has named. -/
theorem planAndLaunch_rows {env : Env} {drafts : List (Option (List PlanNodeDraft))}
    {mentions : List String} :
    ∀ node ∈ (runtime.planAndLaunch config env drafts mentions).session.state.nodes.rows,
      ∃ nodes ∈ plan config env drafts, ∃ draft ∈ nodes, node = draft.node := by
  have empty : ∀ node, node ∉ (runtime.startNewPlan (planId env)).session.state.nodes.rows := by
    intro node member
    cases member
  simp only [planAndLaunch]
  split
  · exact fun node member => absurd member (empty node)
  · exact fun node member => absurd member (empty node)
  · rename_i nodes _ planned
    intro node member
    rw [startRunner_session] at member
    have joined := joinMembers_quiet env
      (createPlan env (runtime.startNewPlan (planId env)).session.state nodes) mentions
      "human_mention"
    have created := joinMembers_quiet env
      (nodes.foldl (fun state draft => state.setNode draft.node)
        (runtime.startNewPlan (planId env)).session.state)
      (((nodes.foldl (fun state draft => state.setNode draft.node)
        (runtime.startNewPlan (planId env)).session.state).nodes.rows.map
          (·.agentName)).filter (· ≠ "")) "plan"
    dsimp only [Session.persist_state] at member
    rw [joined.nodes, createPlan, created.nodes] at member
    exact ⟨nodes, planned, ((planned_rows nodes _).1 node member).resolve_left (empty node)⟩

/-! ### Steps -/

/-- A handler that starts no plan makes edits. -/
theorem handle_edits (free : scope.Free) (env : Env) (inbound : Inbound)
    (drafts : List (Option (List PlanNodeDraft))) {handler : Handler}
    (apt : Apt runtime.session.state handler) (keeps : handler.plans = false) :
    Edits scope runtime.session (runtime.handle config env inbound drafts handler).session := by
  cases handler with
  | planAndLaunch | newPlan => cases keeps
  | reject | complete => exact .refl _
  | recover =>
      simp only [handle, startRunner_session]
      exact runtime.session.recoverSession_edits free
  | reemitQuestions => exact emitPendingQuestions_edits _
  | answers responses =>
      have answered := runtime.session.answerAll_edits free responses
      simp only [handle]
      split
      · rw [startRunner_session]
        exact answered.trans (emitPendingQuestions_edits _)
      · exact answered
  | noop =>
      simp only [handle, finish_session]
      exact .refl _
  | enqueue target quoteId =>
      simp only [handle, finish_session]
      exact .persist (.one (.side _ _ _ _ (Or.inr free.hands)))
  | spawnFollowup target =>
      simp only [handle, finish_session]
      exact spawnDerivedNode_edits config env _ _ (Or.inl ⟨free.hands, rfl, rfl⟩)
  | interrupt target =>
      simp only [handle, finish_session]
      exact interrupt_edits config env _ free.hands apt.1 inbound.request (free.moves _ _ _)
        fun _ _ => free.moves _ _ _

theorem revises_free (free : scope.Free) {env : Env} {state : OrchestrationState}
    (patch : PlanPatch) : Revises scope env state patch :=
  ⟨fun _ _ _ => free.moves _ _ _, fun _ _ _ _ _ _ _ => free.asks _ _ _⟩

/-- Attempts are counted where an execution starts. -/
theorem inner_edits (free : scope.Free) {event : Event} (isInner : event.inner = true)
    (counts : ∀ taskId, event = .start taskId → scope.counts)
    (stepped : runtime.advance config event = some next) :
    Edits scope runtime.session next.session := by
  have own : ∀ ref target, OwnMove scope runtime.session ref target :=
    fun ref target nodeId _ node _ _ => free.moves nodeId node.status target
  cases advances stepped with
  | message | reload => cases isInner
  | clearWake => exact .refl _
  | dispatch =>
      exact dispatch_edits config runtime (fun _ => free.moves _ _ _) fun _ _ _ => free.moves _ _ _
  | collect => exact collect_edits runtime fun _ _ _ _ _ _ _ => free.moves _ _ _
  | flow env decision =>
      have edits : Edits scope runtime.session
          (planFlow config env runtime.session runtime.busy decision).1 :=
        planFlow_edits config env _ _ decision fun patch _ => revises_free free patch
      unfold flow
      dsimp only
      split <;> exact edits
  | start task =>
      exact startNode_edits (counts _ rfl) task.mode (fun _ => own _ _) fun _ => own _ _
  | chunk a2aTaskId submitted => exact chunkNode_edits a2aTaskId submitted fun _ => own _ _
  | outcome env remote answered =>
      exact interpretRemote_edits config env free.hands remote answered
        (fun _ _ _ _ _ => free.moves _ _ _) fun patch _ => revises_free free patch
  | close => exact closeNode_edits _
  | inspect => exact .refl _
  | resolve => exact resolveFromHelper_edits _ fun _ => own _ _
  | act env decision =>
      exact actOnDecision_edits config env decision (fun _ _ _ => free.moves _ _ _)
        fun _ => free.asks _ _ _
  | cancel => exact cancelAll_edits _ fun _ _ _ _ => free.moves _ _ _

/-! ### Properties that edits keep -/

variable {property : OrchestrationState → Prop}
  (edit : ∀ {old new}, Edit .all old new → property old → property new)

include edit in
theorem planAndLaunch_kept {env : Env} {drafts : List (Option (List PlanNodeDraft))}
    (mentions : List String)
    (planned : ∀ nodes state, nodes = [] ∨ plan config env drafts = some nodes →
      Planned nodes state → property state) :
    property (runtime.planAndLaunch config env drafts mentions).session.state ∧
      property (runtime.planAndLaunch config env drafts mentions).session.saved := by
  obtain ⟨nodes, state, source, begun, edited, stored⟩ :=
    planAndLaunch_planned .all config runtime env drafts mentions
  have edits : Edits .all ⟨state, state⟩
      ⟨(runtime.planAndLaunch config env drafts mentions).session.state, state⟩ :=
    .edited (.refl _) edited
  have launched := edits.kept edit (planned nodes state source begun)
  exact ⟨launched, stored ▸ launched⟩

include edit in
theorem message_kept {inbound : Inbound} {env : Env}
    {drafts : List (Option (List PlanNodeDraft))}
    (planned : (runtime.classify inbound).plans = true → ∀ nodes state,
      nodes = [] ∨ plan config env drafts = some nodes → Planned nodes state → property state)
    (held : property runtime.session.state ∧ property runtime.session.saved)
    (stepped : runtime.step config (.message inbound env drafts) = some next) :
    property next.session.state ∧ property next.session.saved := by
  rw [step_message stepped]
  have apt := runtime.classify_apt inbound
  generalize runtime.classify inbound = handler at *
  cases plans : handler.plans with
  | false => exact (handle_edits Scope.all_free env inbound drafts apt plans).both edit held
  | true =>
      cases handler with
      | planAndLaunch => exact planAndLaunch_kept edit _ (planned rfl)
      | newPlan =>
          simp only [handle, finish_session]
          exact planAndLaunch_kept edit _ (planned rfl)
      | _ => cases plans

include edit in
theorem inner_kept {event : Event} (isInner : event.inner = true)
    (held : property runtime.session.state ∧ property runtime.session.saved)
    (stepped : runtime.step config event = some next) :
    property next.session.state ∧ property next.session.saved :=
  (inner_edits Scope.all_free isInner (fun _ _ => trivial) (step_inner isInner stepped).2).both
    edit held

end Steps

end Runtime

/-! ### Conversations -/

namespace Conversation

/-- What is stored for the session and on the turns has the property. -/
structure Stores (property : OrchestrationState → Prop) (conversation : Conversation) : Prop where
  saved : property conversation.runtime.session.saved
  turns : ∀ turn ∈ conversation.turns, ∀ snapshot ∈ turn.snapshot, property snapshot

section Stores

variable {property : OrchestrationState → Prop} {config : ExecutorConfig}
  {conversation next : Conversation}

theorem Stores.record (stores : conversation.Stores property) {runtime : Runtime} {stored : Bool}
    (saved : property runtime.session.saved)
    (recorded : conversation.record runtime stored = some next) : next.Stores property := by
  refine ⟨record_runtime recorded ▸ saved, ?_⟩
  unfold Conversation.record at recorded
  split at recorded
  · cases recorded
    intro turn member snapshot taken
    obtain ⟨before, inside, rfl⟩ := List.mem_map.mp member
    split at taken
    · cases taken
      exact saved
    · exact stores.turns before inside snapshot taken
  · split at recorded
    · cases recorded
      exact stores.turns
    · cases recorded

theorem Stores.enter (stores : conversation.Stores property) (human : Bool) (taskId : String) :
    (conversation.enter human taskId).Stores property := by
  refine ⟨stores.saved, fun turn member => ?_⟩
  unfold Conversation.enter at member
  dsimp only at member
  split at member
  · exact stores.turns turn member
  · rcases List.mem_append.mp member with old | new
    · exact stores.turns turn old
    · rw [List.mem_singleton.mp new]
      nofun

/-- A step stores what its session has stored, or has kept in memory until it
raised, or takes a snapshot back. -/
theorem Stores.step {event : ConversationEvent} (stores : conversation.Stores property)
    (empty : property {}) (restored : ∀ {state}, property state → property state.restored)
    (memory : conversation.runtime.evicted = false → property conversation.runtime.session.state)
    (saved : event.steps = true → property next.runtime.session.saved)
    (stepped : conversation.step config event = some next) : next.Stores property := by
  cases event with
  | message human inbound env drafts stored =>
      simp only [Conversation.step] at stepped
      split at stepped
      · cases stepped
      · obtain ⟨runtime, _, recorded⟩ := Option.bind_eq_some_iff.mp stepped
        have kept := saved rfl
        rw [record_runtime recorded] at kept
        exact (stores.enter human inbound.taskId).record kept recorded
  | session event stored =>
      simp only [Conversation.step] at stepped
      split at stepped
      · obtain ⟨runtime, _, recorded⟩ := Option.bind_eq_some_iff.mp stepped
        have kept := saved rfl
        rw [record_runtime recorded] at kept
        exact stores.record kept recorded
      · cases stepped
  | raise =>
      simp only [Conversation.step] at stepped
      split at stepped
      · rename_i active
        have inMemory : conversation.runtime.evicted = false := by
          simpa using (Bool.and_eq_true_iff.mp active).1
        exact stores.record (memory inMemory) stepped
      · cases stepped
  | crash =>
      cases stepped
      exact ⟨stores.saved, stores.turns⟩
  | rewind taskId =>
      simp only [Conversation.step, rewind] at stepped
      split at stepped
      · cases stepped
      · split at stepped
        · cases stepped
        · obtain ⟨state, taken, rfl⟩ := Option.map_eq_some_iff.mp stepped
          refine ⟨?_, fun turn member => stores.turns turn (List.takeWhile_subset _ member)⟩
          -- The state before the cut is the last kept turn's snapshot, or the empty one.
          show property state
          unfold restoreState at taken
          split at taken
          · cases taken
            exact empty
          · rename_i checkpoint last
            obtain ⟨snapshot, there, rfl⟩ := Option.map_eq_some_iff.mp taken
            have member := List.takeWhile_subset _ (List.mem_of_getLast? last)
            exact restored (stores.turns checkpoint member snapshot there)

end Stores

/-! ### Runs -/

/-- The property holds in memory, in the store and on the turns. -/
structure Held (property : OrchestrationState → Prop) (conversation : Conversation) : Prop where
  memory : conversation.runtime.evicted = false → property conversation.runtime.session.state
  stores : conversation.Stores property

section Held

variable {property : OrchestrationState → Prop} {config : ExecutorConfig}
  {conversation next : Conversation}

/-- A message finds it in the session that it opens. -/
theorem Held.ensured (held : conversation.Held property)
    (restored : ∀ {state}, property state → property state.restored) :
    property conversation.runtime.ensureSession.session.state ∧
      property conversation.runtime.ensureSession.session.saved := by
  unfold Runtime.ensureSession
  cases evicted : conversation.runtime.evicted with
  | false => exact ⟨held.memory evicted, held.stores.saved⟩
  | true => exact ⟨restored held.stores.saved, held.stores.saved⟩

variable (edit : ∀ {old new}, Edit .all old new → property old → property new)
  (restored : ∀ {state}, property state → property state.restored)

include edit restored

/-- What a message that plans has to bring in. -/
theorem Held.step (empty : property {}) {event : ConversationEvent}
    (planned : ∀ human inbound env drafts stored,
      event = .message human inbound env drafts stored →
      (conversation.runtime.ensureSession.classify inbound).plans = true → ∀ nodes state,
      nodes = [] ∨ plan config env drafts = some nodes → Planned nodes state → property state)
    (held : conversation.Held property)
    (stepped : conversation.step config event = some next) : next.Held property := by
  rcases step_cases stepped with
    ⟨human, inbound, env, drafts, stored, rfl, taken⟩ | ⟨inner, stored, rfl, isInner, taken⟩ |
      ⟨outside, evicted⟩
  · have kept := Runtime.message_kept edit (planned human inbound env drafts stored rfl)
      (held.ensured restored) taken
    exact ⟨fun _ => kept.1, held.stores.step empty restored held.memory (fun _ => kept.2) stepped⟩
  · have present := (Runtime.step_inner isInner taken).1
    have kept := Runtime.inner_kept edit isInner ⟨held.memory present, held.stores.saved⟩ taken
    exact ⟨fun _ => kept.1, held.stores.step empty restored held.memory (fun _ => kept.2) stepped⟩
  · refine ⟨fun present => ?_, held.stores.step empty restored held.memory ?_ stepped⟩
    · rw [evicted] at present
      cases present
    · intro steps
      rw [outside] at steps
      cases steps

variable (planned : ∀ {nodes state}, Planned nodes state → property state)

include planned

/-- What edits keep and plans begin with holds in every run. -/
theorem held_run {events : List ConversationEvent} {reached : Conversation}
    (ran : Runs.run (Conversation.step config) Conversation.empty events = some reached) :
    reached.Held property := by
  have begun : property {} := planned planned_empty
  refine Runs.run_invariant_of_step (Held property)
    (fun _ _ _ held stepped => Held.step edit restored begun
      (fun _ _ _ _ _ _ _ _ _ _ whole => planned whole) held stepped) events _ reached ?_ ran
  exact ⟨nofun, begun, nofun⟩

end Held

end Conversation

end Choirworks.Orchestration
