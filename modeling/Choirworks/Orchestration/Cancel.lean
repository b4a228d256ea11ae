import Choirworks.Library.Runs
import Choirworks.Orchestration.Message

/-!
What the cancellation of a task leaves behind. It closes what is active or
ready in a session that is in memory; nodes that wait or were reset by a
recovery, open questions, and sessions that are only in the store stay as they
are.
-/

namespace Choirworks.Orchestration

namespace OrchestrationState

/-- Nothing is left to run, to answer or to wait for. -/
def NothingLeft (state : OrchestrationState) : Prop :=
  state.hasPendingWork = false ∧ state.pendingInterventions = []

/-- What a cancellation does not reach is absent. -/
def CancelReaches (state : OrchestrationState) : Prop :=
  (∀ node ∈ state.nodes.rows, node.status ∉ [.pending, .recover, .inputRequired]) ∧
    state.pendingInterventions = []

instance (state : OrchestrationState) : Decidable state.NothingLeft :=
  inferInstanceAs (Decidable (_ ∧ _))

instance (state : OrchestrationState) : Decidable state.CancelReaches :=
  inferInstanceAs (Decidable (_ ∧ _))

theorem hasPendingWork_false (state : OrchestrationState) :
    state.hasPendingWork = false ↔ ∀ node ∈ state.nodes.rows, node.status ∈ terminalNodeStatuses := by
  have split : ∀ status : NodeStatus,
      status ∉ pendingNodeStatuses ++ activeNodeStatuses ++ inputNodeStatuses ↔
        status ∈ terminalNodeStatuses := by
    intro status
    cases status <;> decide
  simp only [hasPendingWork, List.any_eq_false, decide_eq_true_eq, split]

end OrchestrationState

/-- Cancelling ends every node, unless one is pending, recovering or waits for
an answer. -/
theorem Session.cancelAll_ended (session : Session) :
    (∀ node ∈ session.cancelAll.state.nodes.rows, node.status ∈ terminalNodeStatuses) ↔
      ∀ node ∈ session.state.nodes.rows,
        node.status ∉ [.pending, .recover, .inputRequired] := by
  let reached := (session.state.nodes.rows.filter fun node =>
    node.status ∈ activeNodeStatuses ++ [.ready]).map (·.id)
  have canceled : session.cancelAll.state = session.state.moveNodes reached .canceled := rfl
  have reached_iff : ∀ node ∈ session.state.nodes.rows,
      node.id ∈ reached ↔ node.status ∈ activeNodeStatuses ++ [.ready] := by
    intro node row
    constructor
    · intro listed
      obtain ⟨other, inside, same⟩ := List.mem_map.mp listed
      obtain ⟨row', status⟩ := List.mem_filter.mp inside
      obtain rfl : other = node := session.state.nodes.row_unique row' row same
      exact of_decide_eq_true status
    · intro status
      exact List.mem_map_of_mem (List.mem_filter.mpr ⟨row, decide_eq_true status⟩)
  have split : ∀ status : NodeStatus, status ∉ activeNodeStatuses ++ [.ready] →
      (status ∈ terminalNodeStatuses ↔ status ∉ [.pending, .recover, .inputRequired]) := by
    intro status
    cases status <;> decide
  rw [canceled]
  constructor
  · intro ended node row
    by_cases closes : node.status ∈ activeNodeStatuses ++ [.ready]
    · revert closes
      cases node.status <;> decide
    · have stays := ended node ((session.state.mem_moveNodes _ _ node).mpr
        (Or.inr ⟨row, fun listed => closes ((reached_iff node row).mp listed)⟩))
      exact (split _ closes).mp stays
  · intro absent node member
    rcases (session.state.mem_moveNodes _ _ node).mp member with ⟨old, _, _, rfl⟩ | ⟨row, outside⟩
    · exact (by decide : NodeStatus.canceled ∈ terminalNodeStatuses)
    · have stays := fun closes => outside ((reached_iff node row).mpr closes)
      exact (split _ stays).mpr (absent node row)

namespace Runtime

/-- `ChoirWorksAgentExecutor.cancel`: a session that is not in memory is left
alone. -/
def cancelTask (runtime : Runtime) : Runtime :=
  if runtime.evicted then runtime
  else { runtime with session := runtime.session.cancelAll }.evict

/-- When a cancellation can close everything there is. -/
def Cancelable (runtime : Runtime) : Prop :=
  if runtime.evicted then runtime.session.saved.NothingLeft else runtime.session.state.CancelReaches

instance (runtime : Runtime) : Decidable runtime.Cancelable := by
  unfold Cancelable
  infer_instance

/-- Without pending work or interventions no message but a restart of the plan
touches the nodes. -/
theorem nothing_left_closed (config : ExecutorConfig) (env : Env) (runtime : Runtime)
    (left : runtime.session.state.NothingLeft) (asleep : runtime.alive = false)
    (inbound : Inbound) (drafts : List (Option (List PlanNodeDraft)))
    (external : inbound.recover = false) :
    (runtime.classify inbound).plans = true ∨
      let next := runtime.handle config env inbound drafts (runtime.classify inbound)
      next.session.state = runtime.session.state ∧ next.alive = false := by
  obtain ⟨noWork, none_pending⟩ := left
  have unresolved : ∀ responses, runtime.session.answerAll responses = (runtime.session, false) := by
    intro responses
    induction responses with
    | nil => rfl
    | cons response rest ih =>
        have unawaited : ∀ intervention, ¬runtime.session.Awaited response intervention := by
          intro intervention awaited
          have member : intervention ∈ runtime.session.state.pendingInterventions :=
            List.mem_filter.mpr ⟨Table.mem_of_find? awaited.found, by simpa using awaited.pending⟩
          rw [none_pending] at member
          cases member
        have refused : runtime.session.answerIntervention response = (runtime.session, false) := by
          have answers := runtime.session.answers response
          generalize runtime.session.answerIntervention response = result at answers ⊢
          cases answers with
          | ignored => rfl
          | stale awaited => exact absurd awaited (unawaited _)
          | declined awaited => exact absurd awaited (unawaited _)
          | canceled awaited => exact absurd awaited (unawaited _)
          | continued awaited => exact absurd awaited (unawaited _)
        simp only [Session.answerAll, refused, ih, Bool.or_self]
  unfold classify classifyInbound
  simp only [external, Bool.false_eq_true, ↓reduceIte, none_pending, ne_eq, not_true_eq_false,
    asleep, noWork]
  cases inbound.responses with
  | error text =>
      right
      exact ⟨rfl, asleep⟩
  | ok responses =>
      cases responses with
      | nil =>
          dsimp only
          split
          · right
            exact ⟨rfl, rfl⟩
          · left
            rfl
      | cons response rest =>
          right
          simp only [handle, unresolved]
          exact ⟨rfl, asleep⟩

end Runtime

/-- After a cancellation nothing is left in the store exactly if no node is
pending, recovering or waiting for input and no question is open; for a session
that was not in memory, exactly if nothing was left before. -/
theorem cancel_leaves_nothing_iff (runtime : Runtime) :
    runtime.cancelTask.session.saved.NothingLeft ↔ runtime.Cancelable := by
  unfold Runtime.cancelTask Runtime.Cancelable
  split
  · exact Iff.rfl
  · have saved : ({ runtime with session := runtime.session.cancelAll }.evict).session.saved =
        runtime.session.cancelAll.state := rfl
    have questions : runtime.session.cancelAll.state.pendingInterventions =
        runtime.session.state.pendingInterventions := rfl
    rw [saved, OrchestrationState.NothingLeft, OrchestrationState.CancelReaches,
      OrchestrationState.hasPendingWork_false, Session.cancelAll_ended, questions]

section Waiting

/-! A plan of two nodes, of which the second waits for the first. -/

def cancelEnv : Env := ⟨["writer"], "now", fun drawn => toString drawn⟩

def planned : List Event := [
  .message { taskId := "t1", text := "write" } cancelEnv
    [some [⟨"n1", "first", "writer", .empty, []⟩, ⟨"n2", "second", "writer", .empty, ["n1"]⟩]],
  .clearWake, .dispatch]

/-- The waiting node is still pending work when the task has been cancelled. -/
theorem waiting_node_left :
    ¬ ∀ (config : ExecutorConfig) (events : List Event) (reached : Runtime),
      Runs.run (Runtime.step config) (.loaded {}) events = some reached →
        reached.cancelTask.session.saved.NothingLeft := by
  intro claim
  have ends : Runs.Ends (Runtime.step {}) (.loaded {}) planned
      fun runtime => ¬ runtime.cancelTask.session.saved.NothingLeft := by
    decide +kernel
  obtain ⟨reached, ran, left⟩ := ends
  exact left (claim {} planned reached ran)

end Waiting

end Choirworks.Orchestration
