import Choirworks.Library.Runs
import Choirworks.Orchestration.Message

/-!
When an inbound message replaces the plan. `start_new_plan` counts the plan
version, and nothing else does. The room route falls through to a new plan if no
node is active, pending or ready, whatever other work there is.
-/

namespace Choirworks.Orchestration

/-! ### What keeps the plan -/

section Version

@[simp] theorem addMember_version (state : OrchestrationState) (name reason now : String) :
    (state.addMember name reason now).planVersion = state.planVersion := by
  unfold OrchestrationState.addMember
  split <;> rfl

@[simp] theorem joinMembers_version (env : Env) (state : OrchestrationState) (names : List String)
    (reason : String) : (joinMembers env state names reason).planVersion = state.planVersion := by
  unfold joinMembers
  induction names.filter (· ∈ env.agents) generalizing state with
  | nil => rfl
  | cons name rest ih => rw [List.foldl_cons, ih, addMember_version]

@[simp] theorem emitPendingQuestions_version (session : Session) :
    session.emitPendingQuestions.state.planVersion = session.state.planVersion := by
  unfold Session.emitPendingQuestions
  split <;> rfl

@[simp] theorem setIntervention_version (session : Session) (intervention : Intervention) :
    (session.setIntervention intervention).state.planVersion = session.state.planVersion := rfl

@[simp] theorem expire_version (session : Session) (intervention : Intervention) :
    (session.expire intervention).state.planVersion = session.state.planVersion := rfl

theorem spawnFollowup_version (config : ExecutorConfig) (env : Env) (session : Session)
    (text : String) (anchor : NodeState) (deps : List String) :
    (spawnFollowupNode config env session text anchor deps).state.planVersion =
      session.state.planVersion := by
  unfold spawnFollowupNode spawnDerivedNode
  dsimp only
  split <;> rfl

theorem interrupt_version (config : ExecutorConfig) (env : Env) (session : Session)
    (node : NodeState) (text : String) :
    (session.interrupt config env node text).state.planVersion = session.state.planVersion :=
  spawnFollowup_version config env _ text _ []

theorem cancelNode_version (session : Session) (node : NodeState) :
    (session.cancelNode node).state.planVersion = session.state.planVersion := by
  have expired : ∀ (nodeIds : List String) (state : OrchestrationState),
      (nodeIds.foldl OrchestrationState.expireNodeInterventions state).planVersion =
        state.planVersion := by
    intro nodeIds
    induction nodeIds with
    | nil => exact fun _ => rfl
    | cons nodeId rest ih => exact fun state => ih (state.expireNodeInterventions nodeId)
  exact expired _ _

theorem answerIntervention_version (session : Session) (response : QuestionResponse) :
    (session.answerIntervention response).1.state.planVersion = session.state.planVersion := by
  have answers := session.answers response
  generalize session.answerIntervention response = result at answers ⊢
  cases answers with
  | canceled => exact cancelNode_version _ _
  | ignored | stale | declined | continued => rfl

theorem answerAll_version (session : Session) (responses : List QuestionResponse) :
    (session.answerAll responses).1.state.planVersion = session.state.planVersion := by
  induction responses generalizing session with
  | nil => rfl
  | cons response rest ih => exact (ih _).trans (answerIntervention_version session response)

end Version

namespace Runtime

section Handle

variable (config : ExecutorConfig) (env : Env) (runtime : Runtime)
  (drafts : List (Option (List PlanNodeDraft)))

theorem createPlan_version (state : OrchestrationState) (nodes : List PlanNodeDraft) :
    (createPlan env state nodes).planVersion = state.planVersion := by
  unfold createPlan
  rw [joinMembers_version]
  induction nodes generalizing state with
  | nil => rfl
  | cons draft rest ih => exact ih (state.setNode draft.node)

theorem planAndLaunch_version (mentions : List String) :
    (runtime.planAndLaunch config env drafts mentions).session.state.planVersion =
      runtime.session.state.planVersion + 1 := by
  simp only [planAndLaunch]
  split
  · rfl
  · rfl
  · simp only [startRunner_session, Session.persist_state, joinMembers_version, createPlan_version]
    rfl

/-- A handler that plans counts the plan version, every other keeps it. -/
theorem handle_version (inbound : Inbound) (handler : Handler) :
    (runtime.handle config env inbound drafts handler).session.state.planVersion =
      runtime.session.state.planVersion + if handler.plans then 1 else 0 := by
  cases handler with
  | planAndLaunch => exact planAndLaunch_version config env runtime drafts _
  | newPlan =>
      simp only [handle, finish_session]
      exact planAndLaunch_version config env runtime drafts []
  | answers responses =>
      simp only [handle]
      split
      · simp [answerAll_version, Handler.plans]
      · exact answerAll_version runtime.session responses
  | recover => simp [handle, Session.recoverSession, Handler.plans]; rfl
  | reject => rfl
  | reemitQuestions => exact emitPendingQuestions_version runtime.session
  | complete => rfl
  | noop => simp [handle, Handler.plans]
  | enqueue target quoteId => simp [handle, Handler.plans, OrchestrationState.enqueue]
  | spawnFollowup target => simp [handle, Handler.plans, spawnFollowup_version]
  | interrupt target => simp [handle, Handler.plans, interrupt_version]

end Handle

/-! ### When a message replaces an unfinished plan -/

/-- Some node waits, is at work, needs input or is recovered, or has failed
while a live runner may still retry or repair. -/
def Unfinished (config : ExecutorConfig) (runtime : Runtime) : Prop :=
  let state := runtime.session.state
  ∃ node ∈ state.nodes.rows,
    node.status ∈ pendingNodeStatuses ++ activeNodeStatuses ++ inputNodeStatuses ∨
      (runtime.alive = true ∧ node.status = .failed ∧
        (node.canRetry config.maxNodeAttempts = true ∨ mayRepair config state = true))

instance (config : ExecutorConfig) (runtime : Runtime) : Decidable (Unfinished config runtime) :=
  inferInstanceAs (Decidable (∃ node ∈ runtime.session.state.nodes.rows, _))

/-- The message is no free text, a question is pending, some node is active,
pending or ready, or the message follows up on a completed node. -/
def Protected (runtime : Runtime) (inbound : Inbound) : Prop :=
  inbound.recover = true ∨ inbound.responses ≠ .ok [] ∨
    runtime.session.state.pendingInterventions ≠ [] ∨ inbound.request = "" ∨
    (∃ node ∈ runtime.session.state.nodes.rows,
      node.status ∈ activeNodeStatuses ++ [.pending, .ready]) ∨
    (given inbound.quoteId = true ∧ inbound.interrupt = false ∧
      (runtime.quotedNode inbound).any (·.status = .completed) = true)

section Classify

variable {config : ExecutorConfig} (runtime : Runtime) (inbound : Inbound)

theorem classifyUnquoted_keeps :
    (runtime.classifyUnquoted inbound).plans = false ↔
      ∃ node ∈ runtime.session.state.nodes.rows,
        node.status ∈ activeNodeStatuses ++ [.pending, .ready] := by
  unfold classifyUnquoted
  dsimp only
  split
  · rename_i active others _ nodes
    have member : active ∈ runtime.session.state.activeNodes := nodes ▸ List.mem_cons_self
    obtain ⟨row, status⟩ := List.mem_filter.mp member
    simp only [Handler.plans, true_iff]
    exact ⟨active, row, List.mem_append_left _ (of_decide_eq_true status)⟩
  · rename_i active others _ nodes
    have member : active ∈ runtime.session.state.activeNodes := nodes ▸ List.mem_cons_self
    obtain ⟨row, status⟩ := List.mem_filter.mp member
    simp only [Handler.plans, true_iff]
    exact ⟨active, row, List.mem_append_left _ (of_decide_eq_true status)⟩
  · rename_i none
    have inactive : ∀ node ∈ runtime.session.state.nodes.rows,
        node.status ∉ activeNodeStatuses := by
      intro node row active
      exact List.filter_eq_nil_iff.mp none node row (decide_eq_true active)
    split
    · rename_i target found
      have status := List.find?_some found
      simp only [Handler.plans, true_iff]
      exact ⟨target, List.mem_of_find?_eq_some found,
        List.mem_append_right _ (of_decide_eq_true status)⟩
    · rename_i missing
      simp only [Handler.plans, Bool.true_eq_false, false_iff]
      rintro ⟨node, row, status⟩
      rcases List.mem_append.mp status with active | waits
      · exact inactive node row active
      · exact List.find?_eq_none.mp missing node row (decide_eq_true waits)

theorem classifyRoom_keeps :
    (runtime.classifyRoom inbound).plans = false ↔
      inbound.request = "" ∨
        (∃ node ∈ runtime.session.state.nodes.rows,
          node.status ∈ activeNodeStatuses ++ [.pending, .ready]) ∨
        (given inbound.quoteId = true ∧ inbound.interrupt = false ∧
          (runtime.quotedNode inbound).any (·.status = .completed) = true) := by
  have unquoted := runtime.classifyUnquoted_keeps inbound
  unfold classifyRoom
  by_cases silent : inbound.request = ""
  · simp [silent, Handler.plans]
  · by_cases quotes : given inbound.quoteId = true ∧ inbound.interrupt = false
    · simp only [silent, quotes, Bool.not_false, and_self, ↓reduceIte, false_or]
      cases found : runtime.quotedNode inbound with
      | none => simpa using unquoted
      | some quoted =>
          have row : quoted ∈ runtime.session.state.nodes.rows := by
            unfold quotedNode at found
            split at found
            · cases found
            · exact List.mem_of_find?_eq_some found
          dsimp only
          split
          · rename_i active
            simp only [Handler.plans, true_iff]
            exact Or.inl ⟨quoted, row, List.mem_append_left _ active⟩
          · split
            · rename_i completed
              simp [Handler.plans, completed]
            · rename_i undone
              simpa [undone] using unquoted
    · have plain : ¬ (given inbound.quoteId = true ∧ (!inbound.interrupt) = true) := by
        simpa using quotes
      simp only [silent, plain, ↓reduceIte, false_or, unquoted]
      constructor
      · exact Or.inl
      · rintro (work | ⟨given, calm, _⟩)
        · exact work
        · exact absurd ⟨given, calm⟩ quotes

theorem classify_keeps (unfinished : Unfinished config runtime) :
    (runtime.classify inbound).plans = false ↔ Protected runtime inbound := by
  have room : runtime.alive = true ∨ runtime.session.state.hasPendingWork = true := by
    obtain ⟨node, row, work | ⟨alive, _⟩⟩ := unfinished
    · exact Or.inr (List.any_eq_true.mpr ⟨node, row, decide_eq_true work⟩)
    · exact Or.inl alive
  have inRoom := runtime.classifyRoom_keeps inbound
  unfold classify classifyInbound Protected
  by_cases recovers : inbound.recover = true
  · simp [recovers, Handler.plans]
  · cases parsed : inbound.responses with
    | error text => simp [recovers, Handler.plans]
    | ok responses =>
        cases responses with
        | cons response rest => simp [recovers, Handler.plans]
        | nil =>
            by_cases asked : runtime.session.state.pendingInterventions = []
            · rcases room with alive | work
              · simpa [recovers, asked, alive] using inRoom
              · by_cases alive : runtime.alive = true
                · simpa [recovers, asked, alive] using inRoom
                · simpa [recovers, asked, alive, work] using inRoom
            · simp [recovers, asked, Handler.plans]

end Classify

end Runtime

/-- A message leaves the plan of an unfinished session alone exactly if it is
protected. -/
theorem plan_kept_iff (config : ExecutorConfig) (runtime : Runtime) (inbound : Inbound) (env : Env)
    (drafts : List (Option (List PlanNodeDraft)))
    (unfinished : Runtime.Unfinished config runtime) :
    (runtime.handle config env inbound drafts
        (runtime.classify inbound)).session.state.planVersion =
      runtime.session.state.planVersion ↔ runtime.Protected inbound := by
  rw [Runtime.handle_version, ← runtime.classify_keeps inbound unfinished]
  cases (runtime.classify inbound).plans <;> simp

section Undecided

/-! A node has asked for input and its settlement has not decided whom to ask. -/

def askingEnv : Env := ⟨["writer"], "now", fun drawn => toString drawn⟩

def undecided : List Event := [
  .message { taskId := "t1", text := "write" } askingEnv
    [some [⟨"n1", "first", "writer", .empty, []⟩]],
  .clearWake, .dispatch, .start 0,
  .outcome 0 askingEnv { ended := .inputRequired, question := some "which?" } none, .close 0]

def remark : Inbound := { taskId := "t1", text := "take your time" }

theorem remark_replaces_plan :
    ¬ ∀ (config : ExecutorConfig) (saved : OrchestrationState) (events : List Event)
      (reached : Runtime) (inbound : Inbound) (env : Env)
      (drafts : List (Option (List PlanNodeDraft))),
      Runs.run (Runtime.step config) (.loaded saved) events = some reached →
        reached.evicted = false → Runtime.Unfinished config reached →
          (reached.handle config env inbound drafts
              (reached.classify inbound)).session.state.planVersion =
            reached.session.state.planVersion := by
  intro claim
  have ends : Runs.Ends (Runtime.step {}) (.loaded {}) undecided fun runtime =>
      runtime.evicted = false ∧ Runtime.Unfinished {} runtime ∧
        (runtime.handle {} askingEnv remark [] (runtime.classify remark)).session.state.planVersion ≠
          runtime.session.state.planVersion := by
    decide +kernel
  obtain ⟨reached, ran, present, unfinished, replaced⟩ := ends
  exact replaced (claim {} {} undecided reached remark askingEnv [] ran present unfinished)

/-- Before its end the node is at work, and the same remark is queued on it. -/
theorem remark_keeps_plan :
    Runs.Ends (Runtime.step {}) (.loaded {}) (undecided.take 4) fun runtime =>
      (runtime.handle {} askingEnv remark [] (runtime.classify remark)).session.state.planVersion =
        runtime.session.state.planVersion := by
  have ends : Runs.Ends (Runtime.step {}) (.loaded {}) (undecided.take 4) fun runtime =>
      Runtime.Unfinished {} runtime ∧ ∃ node ∈ runtime.session.state.nodes.rows,
        node.status ∈ activeNodeStatuses ++ [.pending, .ready] := by
    decide +kernel
  obtain ⟨reached, ran, unfinished, work⟩ := ends
  refine ⟨reached, ran, (plan_kept_iff {} reached remark askingEnv [] unfinished).mpr ?_⟩
  exact Or.inr (Or.inr (Or.inr (Or.inr (Or.inl work))))

end Undecided

end Choirworks.Orchestration
