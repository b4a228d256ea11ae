import Choirworks.Library.Runs
import Choirworks.Orchestration.Message

/-!
A conversation around its session: the visible turns with the snapshots that
were stored on them, the turn that is spoken in, and the ways a stored state
comes back into memory. A message opens an evicted session; a rewind puts the
snapshot of an earlier turn into the contexts store; a loop that raises stores
the session and evicts it; the end of the process only evicts it.
-/

namespace Choirworks.Orchestration

/-- A visible turn, with the last snapshot that its task was given. -/
structure Turn where
  taskId : String
  human : Bool
  snapshot : Option OrchestrationState := none
deriving DecidableEq

structure Conversation where
  runtime : Runtime
  turns : List Turn := []
  current : String := ""
deriving DecidableEq

/-- `stored` tells whether the step has persisted the session. -/
inductive ConversationEvent where
  | message (human : Bool) (inbound : Inbound) (env : Env)
      (drafts : List (Option (List PlanNodeDraft))) (stored : Bool)
  | session (event : Event) (stored : Bool)
  | raise
  | crash
  | rewind (taskId : String)

/-- The events in which the session itself takes a step. -/
def ConversationEvent.steps : ConversationEvent → Bool
  | .message _ _ _ _ _ | .session _ _ => true
  | .raise | .crash | .rewind _ => false

/-- The steps that a session in memory takes by itself. -/
def Event.inner : Event → Bool
  | .message _ _ _ | .reload => false
  | _ => true

/-- `ensure_session`. -/
def Runtime.ensureSession (runtime : Runtime) : Runtime :=
  if runtime.evicted then .loaded runtime.session.saved else runtime

def Runtime.active (runtime : Runtime) : Bool := !runtime.evicted && runtime.alive

/-- `restore_state`: the snapshot of the turn in front of the one named, which
is visible; `none` where that turn has none. -/
def restoreState (turns : List Turn) (beforeTaskId : String) : Option OrchestrationState :=
  match (turns.takeWhile fun turn => turn.taskId ≠ beforeTaskId).getLast? with
  | none => some {}
  | some checkpoint => checkpoint.snapshot.map (·.restored)

/-- Only a session in memory takes a step by itself. -/
theorem Runtime.step_inner {config : ExecutorConfig} {runtime next : Runtime} {event : Event}
    (isInner : event.inner = true) (stepped : runtime.step config event = some next) :
    runtime.evicted = false ∧ runtime.advance config event = some next := by
  cases present : runtime.evicted with
  | false => exact ⟨rfl, by simpa [step, present] using stepped⟩
  | true =>
      cases event with
      | message | reload => cases isInner
      | _ => simp [step, present] at stepped

namespace Conversation

/-- A conversation without a message. -/
def empty : Conversation := { runtime := (Runtime.loaded {}).evict }

def turn? (conversation : Conversation) (taskId : String) : Option Turn :=
  conversation.turns.find? fun turn => turn.taskId = taskId

/-- A snapshot that is persisted goes to the task of the current turn too. -/
def record (conversation : Conversation) (runtime : Runtime) (stored : Bool) :
    Option Conversation :=
  if stored then
    some { conversation with
      runtime
      turns := conversation.turns.map fun turn =>
        if turn.taskId = conversation.current then
          { turn with snapshot := some runtime.session.saved }
        else turn }
  else if runtime.session.saved = conversation.runtime.session.saved then
    some { conversation with runtime }
  else none

/-- The turn of the message, new unless its task is visible, is spoken in now. -/
def enter (conversation : Conversation) (human : Bool) (taskId : String) : Conversation :=
  { conversation with
    current := taskId
    turns :=
      if (conversation.turn? taskId).isSome then conversation.turns
      else conversation.turns ++ [{ taskId, human }] }

def rewind (conversation : Conversation) (taskId : String) : Option Conversation :=
  match conversation.turn? taskId with
  | none => none
  | some turn =>
      if conversation.runtime.active ∨ !turn.human then none
      else
        (restoreState conversation.turns taskId).map fun state =>
          let session := { conversation.runtime.session with saved := state }
          { conversation with
            runtime := { conversation.runtime with session }.evict
            turns := conversation.turns.takeWhile fun turn => turn.taskId ≠ taskId }

def step (config : ExecutorConfig) (conversation : Conversation) :
    ConversationEvent → Option Conversation
  | .message human inbound env drafts stored =>
      -- the recovery speaks in the newest turn that is not over
      if inbound.recover ∧ conversation.turn? inbound.taskId = none then none
      else
        (conversation.runtime.ensureSession.step config (.message inbound env drafts)).bind
          fun runtime => (conversation.enter human inbound.taskId).record runtime stored
  | .session event stored =>
      if event.inner then
        (conversation.runtime.step config event).bind fun runtime =>
          conversation.record runtime stored
      else none
  | .raise =>
      if conversation.runtime.active then
        let session := conversation.runtime.session.persist
        conversation.record { conversation.runtime with session }.evict true
      else none
  | .crash => some { conversation with runtime := conversation.runtime.evict }
  | .rewind taskId => conversation.rewind taskId

/-- The session in which the step classifies a message, or in which the loop
decides what to dispatch or how to go on. -/
def decidesIn (conversation : Conversation) : ConversationEvent → Option Runtime
  | .message _ inbound _ _ _ =>
      if inbound.recover then none else some conversation.runtime.ensureSession
  | .session .dispatch _ =>
      if !conversation.runtime.evicted ∧ conversation.runtime.runner = .locking then
        some conversation.runtime
      else none
  | .session (.flow _ _) _ =>
      if !conversation.runtime.evicted ∧ conversation.runtime.runner = .flow then
        some conversation.runtime
      else none
  | _ => none

/-! ### What a step does to the session -/

section Steps

variable {config : ExecutorConfig} {conversation next : Conversation}

theorem record_runtime {runtime : Runtime} {stored : Bool}
    (recorded : conversation.record runtime stored = some next) : next.runtime = runtime := by
  unfold record at recorded
  split at recorded
  · cases recorded
    rfl
  · split at recorded
    · cases recorded
      rfl
    · cases recorded

/-- A step is one of the session, opened for a message, or takes it out of memory. -/
theorem step_cases {event : ConversationEvent}
    (stepped : conversation.step config event = some next) :
    (∃ human inbound env drafts stored,
      event = .message human inbound env drafts stored ∧
        conversation.runtime.ensureSession.step config (.message inbound env drafts) =
          some next.runtime) ∨
      (∃ inner stored, event = .session inner stored ∧ inner.inner = true ∧
        conversation.runtime.step config inner = some next.runtime) ∨
      (event.steps = false ∧ next.runtime.evicted = true) := by
  cases event with
  | message human inbound env drafts stored =>
      simp only [step] at stepped
      split at stepped
      · cases stepped
      · obtain ⟨runtime, taken, recorded⟩ := Option.bind_eq_some_iff.mp stepped
        rw [record_runtime recorded]
        exact Or.inl ⟨human, inbound, env, drafts, stored, rfl, taken⟩
  | session inner stored =>
      simp only [step] at stepped
      split at stepped
      · rename_i isInner
        obtain ⟨runtime, taken, recorded⟩ := Option.bind_eq_some_iff.mp stepped
        rw [record_runtime recorded]
        exact Or.inr (Or.inl ⟨inner, stored, rfl, isInner, taken⟩)
      · cases stepped
  | raise =>
      simp only [step] at stepped
      split at stepped
      · rw [record_runtime stepped]
        exact Or.inr (Or.inr ⟨rfl, rfl⟩)
      · cases stepped
  | crash =>
      cases stepped
      exact Or.inr (Or.inr ⟨rfl, rfl⟩)
  | rewind taskId =>
      simp only [step, rewind] at stepped
      split at stepped
      · cases stepped
      · split at stepped
        · cases stepped
        · obtain ⟨state, _, rfl⟩ := Option.map_eq_some_iff.mp stepped
          exact Or.inr (Or.inr ⟨rfl, rfl⟩)

end Steps

end Conversation

end Choirworks.Orchestration
