import Choirworks.Orchestration.Conservation

/-!
Runs with a record of the messages that the room has routed to nodes since the
plan began: queued on a node, a follow-up on a completed one, or the words of an
interrupt. The budget of derived nodes, and the ways in which a node ends other
than by completing, decide whether the messages are all kept.
-/

namespace Choirworks.Orchestration

open OrchestrationState Ledger
open Session (Edits)

/-- The handlers that route the text of the message to a node. -/
def Handler.routes : Handler → Bool
  | .enqueue _ _ | .spawnFollowup _ | .interrupt _ => true
  | _ => false

structure Routing where
  runtime : Runtime
  routed : List String := []
deriving DecidableEq

namespace Routing

/-- What has been routed behind the event, within one plan. -/
def routedBy (routing : Routing) : Event → List String
  | .message inbound _ _ =>
      let handler := routing.runtime.classify inbound
      if handler.plans then []
      else if handler.routes then routing.routed ++ [inbound.request]
      else routing.routed
  | _ => routing.routed

def step (config : ExecutorConfig) (routing : Routing) (event : Event) : Option Routing :=
  (routing.runtime.step config event).map fun runtime =>
    { runtime, routed := routing.routedBy event }

end Routing

namespace Session

/-- The canceled node has no queue, and neither have the nodes that wait for it. -/
def CancelSpares (session : Session) (canceled : NodeState) : Prop :=
  session.state.queued canceled.id = [] ∧
    ∀ node ∈ (session.state.setNode canceled).blockedNodes, session.state.queued node.id = []

instance (session : Session) (canceled : NodeState) : Decidable (session.CancelSpares canceled) :=
  inferInstanceAs (Decidable (_ ∧ ∀ node ∈ _, _))

/-- Each answer that confirms a cancellation spares the queues. -/
def AnswersSpare : Session → List QuestionResponse → Prop
  | _, [] => True
  | session, response :: rest =>
      (∀ target ∈ session.confirmed response,
        session.CancelSpares { target with status := .canceled, a2aTaskId := none }) ∧
      AnswersSpare (session.answerIntervention response).1 rest

instance : (session : Session) → (responses : List QuestionResponse) →
    Decidable (session.AnswersSpare responses)
  | _, [] => .isTrue trivial
  | session, response :: rest =>
      have : Decidable ((session.answerIntervention response).1.AnswersSpare rest) :=
        instDecidableAnswersSpare _ rest
      inferInstanceAs (Decidable ((∀ target ∈ session.confirmed response, _) ∧ _))

end Session

namespace Runtime

/-- What keeps the words where a message is handled. -/
def HandlesOver (config : ExecutorConfig) (session : Session) : Handler → Prop
  | .spawnFollowup _ => session.state.derivedCount < config.maxDerivedNodes
  | .interrupt target =>
      session.state.derivedCount < config.maxDerivedNodes ∧
        session.CancelSpares { target with status := .canceled }
  | .answers responses => session.AnswersSpare responses
  | _ => True

instance (config : ExecutorConfig) (session : Session) :
    (handler : Handler) → Decidable (HandlesOver config session handler)
  | .spawnFollowup _ => inferInstanceAs (Decidable (_ < _))
  | .interrupt _ => inferInstanceAs (Decidable (_ < _ ∧ Session.CancelSpares _ _))
  | .answers responses => inferInstanceAs (Decidable (session.AnswersSpare responses))
  | .recover | .reject | .reemitQuestions | .complete | .planAndLaunch | .noop | .enqueue _ _
  | .newPlan => .isTrue trivial

/-- What keeps the words in a step: no node ends with a queue, except by
completing, or by failing with attempts left; and the budget has room for every
follow-up. -/
def HandsOn (config : ExecutorConfig) (runtime : Runtime) : Event → Prop
  | .message inbound _ _ => HandlesOver config runtime.session (runtime.classify inbound)
  | .collect => ∀ task ∈ runtime.nodeTasks, task.done = true → task.phase ≠ .done none →
      ∀ node ∈ task.ref.row runtime.session.state, node.canTransition .failed = true →
        runtime.session.state.queued node.id ≠ [] → node.attempt < config.maxNodeAttempts
  | .flow env decision => ∀ patch ∈ flowPatch env config runtime.session.state decision,
      SparesQueues env runtime.session.state patch
  | .start taskId => ∀ task ∈ runtime.task? taskId .created,
      ∀ node ∈ task.ref.row runtime.session.state, node.status = .failed →
        runtime.session.state.queued node.id ≠ [] → node.attempt + 1 < config.maxNodeAttempts
  | .outcome taskId env remote answered => ∀ task ∈ runtime.task? taskId .remote,
      HandsOver config env runtime.session task.ref remote answered
  | .cancel => ∀ node ∈ runtime.session.state.nodes.rows,
      node.status ∈ activeNodeStatuses ++ [.ready] → runtime.session.state.queued node.id = []
  | _ => True

instance (config : ExecutorConfig) (runtime : Runtime) :
    (event : Event) → Decidable (runtime.HandsOn config event)
  | .message _ _ _ => inferInstanceAs (Decidable (HandlesOver _ _ _))
  | .collect => inferInstanceAs (Decidable (∀ task ∈ _, _ → _ → ∀ node ∈ _, _ → _ → _))
  | .flow _ _ => inferInstanceAs (Decidable (∀ patch ∈ _, _))
  | .start _ => inferInstanceAs (Decidable (∀ task ∈ _, ∀ node ∈ _, _ → _ → _))
  | .outcome _ _ _ _ => inferInstanceAs (Decidable (∀ task ∈ _, HandsOver _ _ _ _ _ _))
  | .cancel => inferInstanceAs (Decidable (∀ node ∈ _, _ → _))
  | .clearWake | .dispatch | .chunk _ _ _ | .close _ | .inspect _ | .resolve _ | .act _ _ _
  | .reload => .isTrue trivial

/-! ### Steps of the session -/

section Steps

variable {config : ExecutorConfig} {runtime next : Runtime} {account : Account String Place}

/-- Nothing is at stake of a status that is not the end of a node. -/
theorem hoards_open {exempt : String → Prop} {nodeId : String} {status target : NodeStatus}
    (unended : target ∉ terminalNodeStatuses) :
    (hoardScope exempt account).moves nodeId status target :=
  fun ended => absurd ended unended

theorem inner_accounted {event : Event} (isInner : event.inner = true)
    (accounted : runtime.session.Accounted config (fun _ => False) account)
    (hands : runtime.HandsOn config event) (stepped : runtime.advance config event = some next) :
    ∃ later, items later = items account ∧
      next.session.Accounted config (fun _ => False) later := by
  cases advances stepped with
  | message | reload => cases isInner
  | clearWake => exact ⟨account, rfl, accounted⟩
  -- a dispatch ends no node, so nothing that is held is at stake
  | dispatch =>
      have edits : Edits (hoardScope (fun _ => False) account) runtime.session
          (runtime.dispatch config).session :=
        dispatch_edits config runtime (fun _ => hoards_open (by decide))
          fun _ _ _ => hoards_open (by decide)
      exact ⟨account, rfl, hoarded edits accounted⟩
  | collect =>
      refine ⟨account, rfl, collected_accounted _ accounted ?_⟩
      intro task member text phase nodeId planned node row may some_text
      obtain rfl := (runtime.session.state.node_mem nodeId row).2
      obtain ⟨inside, done⟩ := List.mem_filter.mp member
      exact hands task inside done (by simp [phase]) node (by rw [planned]; exact row) may
        (queued_of_held accounted some_text)
  | flow env decision =>
      have edits : Edits (hoardScope (fun _ => False) account) runtime.session
          (planFlow config env runtime.session runtime.busy decision).1 :=
        planFlow_edits config env _ _ decision fun patch brought =>
          spared_revises accounted (hands patch brought)
      refine ⟨account, rfl, ?_⟩
      unfold flow
      dsimp only
      split <;> exact hoarded edits accounted
  | start task found =>
      refine ⟨account, rfl, startNode_accounted accounted task.mode ?_⟩
      intro nodeId planned node row failed some_text
      obtain rfl := (runtime.session.state.node_mem nodeId row).2
      exact hands task found node (by rw [planned]; exact row) failed
        (queued_of_held accounted some_text)
  | chunk a2aTaskId submitted =>
      exact ⟨account, rfl, chunkNode_accounted accounted a2aTaskId submitted⟩
  -- only the end of a remote call hands words on
  | outcome env remote answered task found =>
      exact interpretRemote_accounted accounted (hands task found)
  | close => exact ⟨account, rfl, hoarded (closeNode_edits _) accounted⟩
  | inspect => exact ⟨account, rfl, accounted⟩
  | resolve =>
      exact ⟨account, rfl, hoarded (resolveFromHelper_edits _
        fun _ _ _ _ _ _ => hoards_open (by decide)) accounted⟩
  | act env decision =>
      exact ⟨account, rfl, hoarded (actOnDecision_edits config env decision
        (fun _ _ _ => hoards_open (by decide)) fun _ => trivial) accounted⟩
  | cancel =>
      have edits : Edits (hoardScope (fun _ => False) account) runtime.session
          runtime.session.cancelAll := by
        refine cancelAll_edits _ fun nodeId status busy found _ => Or.inr ?_
        obtain ⟨node, member, rfl, rfl⟩ := runtime.session.state.status_eq_some nodeId found
        exact unheld accounted (hands node member busy)
      exact ⟨account, rfl, hoarded edits accounted⟩

/-! ### Messages -/

/-- The cancellation of a node without a queue. -/
theorem spared_cancels {session : Session} {exempt : String → Prop} {canceled : NodeState}
    (accounted : session.Accounted config exempt account) (spares : session.CancelSpares canceled) :
    held account (.queue canceled.id) = [] ∧
      ∀ node ∈ (session.state.setNode canceled).blockedNodes, held account (.queue node.id) = [] :=
  ⟨unheld accounted spares.1, fun node member => unheld accounted (spares.2 node member)⟩

theorem answerAll_accounted (responses : List QuestionResponse) {session : Session}
    (accounted : session.Accounted config (fun _ => False) account)
    (spare : session.AnswersSpare responses) :
    (session.answerAll responses).1.Accounted config (fun _ => False) account := by
  induction responses generalizing session with
  | nil => exact accounted
  | cons response rest ih =>
      have edits : Edits (hoardScope (fun _ => False) account) session
          (session.answerIntervention response).1 := by
        refine session.answerIntervention_edits response (fun _ => hoards_open (by decide)) ?_
        intro target confirmed
        obtain ⟨own, blocked⟩ := spared_cancels accounted (spare.1 target confirmed)
        exact ⟨fun _ => Or.inr own, fun node member _ => Or.inr (blocked node member)⟩
      exact ih (hoarded edits accounted) spare.2

theorem recoverSession_accounted {session : Session}
    (accounted : session.Accounted config (fun _ => False) account) :
    session.recoverSession.Accounted config (fun _ => False) account := by
  refine hoarded (.persist (.edited (.refl session)
    ((Relation.ReflTransGen.single (expireWhere_edit _)).tail (recoverNodes_edit ?_)))) accounted
  intro node _ _
  split <;> exact hoards_open (by decide)

theorem interrupt_accounted {session : Session} (env : Env) {target : NodeState}
    (accounted : session.Accounted config (fun _ => False) account)
    (row : target ∈ session.state.nodes.rows)
    (hands : HandlesOver config session (.interrupt target)) (text : String) :
    ∃ later, items later = items account ++ [text] ∧
      (session.interrupt config env target text).Accounted config (fun _ => False) later := by
  obtain ⟨room, spares⟩ := hands
  obtain ⟨own, blocked⟩ := spared_cancels accounted spares
  have edits := interrupted_edits session row
    (show (hoardScope (fun _ => False) account).moves target.id target.status .canceled from
      fun _ => Or.inr own) fun node member _ => Or.inr (blocked node member)
  exact ⟨_, items_append _ _ _, followup_accounted (hoarded edits accounted) room text _ _⟩

/-- No message has been queued, and no node was derived. -/
theorem unrouted_accounts {state : OrchestrationState} (unqueued : state.queue = .empty)
    (plain : ∀ node ∈ state.nodes.rows, node.derived = false) :
    Accounts config (fun _ => False) [] state ∧ Drawn state := by
  refine ⟨⟨fun nodeId => ?_, fun _ some_text => absurd rfl some_text,
    fun _ some_text => absurd rfl some_text, fun node member follows => ?_⟩,
    fun node member derived => ?_⟩
  · simp [queued, unqueued, Dict.getD]
  · exact absurd follows.1 (by simp [plain node member])
  · exact absurd derived (by simp [plain node member])

/-- A new plan begins with no words. -/
theorem planned_accounts {nodes : List PlanNodeDraft} {state : OrchestrationState}
    (planned : Planned nodes state) :
    Accounts config (fun _ => False) [] state ∧ Drawn state := by
  refine unrouted_accounts planned.queue fun node member => ?_
  obtain ⟨draft, _, rfl⟩ := planned.nodes node member
  rfl

theorem planAndLaunch_accounted (runtime : Runtime) (env : Env)
    (drafts : List (Option (List PlanNodeDraft))) (mentions : List String) :
    (runtime.planAndLaunch config env drafts mentions).session.Accounted config (fun _ => False)
      [] := by
  obtain ⟨nodes, state, _, begun, edited, stored⟩ := planAndLaunch_planned
    (hoardScope (fun _ => False) []) config runtime env drafts mentions
  obtain ⟨accounts, drawn⟩ := @planned_accounts config _ _ begun
  have edits : Edits (hoardScope (fun _ => False) []) ⟨state, state⟩
      ⟨(runtime.planAndLaunch config env drafts mentions).session.state, state⟩ :=
    .edited (.refl _) edited
  have launched := hoarded edits (Session.accounted_of_stored accounts drawn)
  exact ⟨launched.memory, stored ▸ launched.memory, launched.drawn, stored ▸ launched.drawn⟩

/-- What the handler routes is added to the account; a new plan begins another. -/
theorem handle_accounted (env : Env) (inbound : Inbound)
    (drafts : List (Option (List PlanNodeDraft))) {handler : Handler}
    (apt : Apt runtime.session.state handler)
    (accounted : runtime.session.Accounted config (fun _ => False) account)
    (hands : HandlesOver config runtime.session handler) :
    ∃ later, items later = (if handler.plans then [] else if handler.routes then
        items account ++ [inbound.request] else items account) ∧
      (runtime.handle config env inbound drafts handler).session.Accounted config (fun _ => False)
        later := by
  cases handler with
  | planAndLaunch => exact ⟨[], rfl, planAndLaunch_accounted runtime env drafts _⟩
  | newPlan =>
      simp only [handle, finish_session]
      exact ⟨[], rfl, planAndLaunch_accounted runtime env drafts _⟩
  | reject | complete => exact ⟨account, rfl, accounted⟩
  | recover =>
      simp only [handle, startRunner_session]
      exact ⟨account, rfl, recoverSession_accounted accounted⟩
  | reemitQuestions =>
      exact ⟨account, rfl, hoarded (emitPendingQuestions_edits _) accounted⟩
  | answers responses =>
      have answered := answerAll_accounted responses accounted hands
      refine ⟨account, rfl, ?_⟩
      simp only [handle]
      split
      · rw [startRunner_session]
        exact hoarded (emitPendingQuestions_edits _) answered
      · exact answered
  | noop =>
      simp only [handle, finish_session]
      exact ⟨account, rfl, accounted⟩
  | enqueue target quoteId =>
      simp only [handle, finish_session]
      have takes : target.Takes config := by
        apply NodeState.takes_of_open
        have status := apt.2
        revert status
        cases target.status <;> decide
      exact ⟨_, items_append _ _ _, enqueue_accounted accounted apt.1 takes _ _ _⟩
  | spawnFollowup target =>
      simp only [handle, finish_session]
      exact ⟨_, items_append _ _ _, followup_accounted accounted hands _ _ _⟩
  | interrupt target =>
      simp only [handle, finish_session]
      exact interrupt_accounted env accounted apt.1 hands _

end Steps

end Runtime

namespace Routing

/-- In memory and in the store, every message that was routed is in one place. -/
def Conserves (config : ExecutorConfig) (routing : Routing) : Prop :=
  Conserved config routing.routed routing.runtime.session.state ∧
    Conserved config routing.routed routing.runtime.session.saved

/-- What keeps the words in a step of the session. -/
def HandsOn (config : ExecutorConfig) (routing : Routing) (event : Event) : Prop :=
  routing.runtime.HandsOn config event

instance (config : ExecutorConfig) (routing : Routing) (event : Event) :
    Decidable (routing.HandsOn config event) :=
  inferInstanceAs (Decidable (routing.runtime.HandsOn config event))

/-- Before the first message of the conversation. -/
def empty : Routing := { runtime := .loaded {} }

/-- One account holds in memory and in the store. -/
def AccountInv (config : ExecutorConfig) (routing : Routing) : Prop :=
  ∃ account, items account = routing.routed ∧
    routing.runtime.session.Accounted config (fun _ => False) account

section Runs

variable {config : ExecutorConfig} {account : Account String Place}

theorem AccountInv.conserves {routing : Routing} (inv : AccountInv config routing) :
    routing.Conserves config := by
  obtain ⟨account, same, accounted⟩ := inv
  exact ⟨⟨account, same, accounted.memory⟩, account, same, accounted.stored⟩

/-- The output of a node is cut, and nothing else. -/
theorem restored_accounts {exempt : String → Prop} {state : OrchestrationState}
    (accounts : Accounts config exempt account state) :
    Accounts config exempt account state.restored := by
  unfold restored
  refine @Accounts.rows config exempt account state accounts
    (fun node => { node with output := truncate node.output }) (fun _ => rfl) (fun _ _ => ?_)
    fun _ _ _ taking => Or.inr ?_
  · exact ⟨rfl, rfl, rfl, rfl, rfl, rfl⟩
  · exact taking.same rfl rfl

theorem loaded_accounted {session : Session}
    (accounted : session.Accounted config (fun _ => False) account) :
    (Runtime.loaded session.saved).session.Accounted config (fun _ => False) account where
  memory := restored_accounts accounted.stored
  stored := accounted.stored
  drawn := by
    intro node member
    obtain ⟨before, inside, rfl⟩ := List.mem_map.mp member
    exact accounted.drawnStored before inside
  drawnStored := accounted.drawnStored

theorem step_accounted (config : ExecutorConfig) (routing : Routing) (event : Event)
    (next : Routing) (inv : AccountInv config routing)
    (hands : routing.HandsOn config event) (stepped : routing.step config event = some next) : AccountInv config next := by
  obtain ⟨account, same, accounted⟩ := inv
  obtain ⟨runtime, taken, rfl⟩ := Option.map_eq_some_iff.mp stepped
  cases event with
  | reload =>
      have loaded : runtime = .loaded routing.runtime.session.saved := by
        rcases Runtime.step_cases taken with same | ⟨_, same⟩
        · exact same
        · exact (Option.some.inj same).symm
      rw [loaded]
      exact ⟨account, same, loaded_accounted accounted⟩
  | message inbound env drafts =>
      rw [Runtime.step_message taken]
      obtain ⟨later, kept, held⟩ := Runtime.handle_accounted env inbound drafts
        (routing.runtime.classify_apt inbound) accounted hands
      exact ⟨later, kept.trans (by rw [same]; rfl), held⟩
  | _ =>
      obtain ⟨_, advanced⟩ := Runtime.step_inner rfl taken
      obtain ⟨later, kept, held⟩ := Runtime.inner_accounted rfl accounted hands advanced
      exact ⟨later, kept.trans same, held⟩

theorem empty_accounted (config : ExecutorConfig) : AccountInv config empty := by
  obtain ⟨accounts, drawn⟩ :=
    @Runtime.unrouted_accounts config {} rfl fun _ inside => absurd inside List.not_mem_nil
  have stored : Session.Accounted config (fun _ => False) [] ⟨{}, {}⟩ :=
    Session.accounted_of_stored accounts drawn
  exact ⟨[], rfl, loaded_accounted stored⟩

end Runs

end Routing

/-! ### Every run -/

section Messages

variable (config : ExecutorConfig) (events : List Event)

end Messages

section Routed

def roomEnv : Env := ⟨["writer"], "now", fun drawn => toString drawn⟩

def queuesTwice : List Event := [
  .message { taskId := "t1", text := "write" } roomEnv
    [some [⟨"n1", "first", "writer", .empty, []⟩]],
  .clearWake, .dispatch, .start 0,
  .message { taskId := "t2", text := "shorter" } roomEnv [],
  .message { taskId := "t3", text := "in verse" } roomEnv []]

def completesPoem : Event :=
  .outcome 0 roomEnv { ended := .completed, output := some "prose" } none

end Routed

end Choirworks.Orchestration
