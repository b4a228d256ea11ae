import Choirworks.A2a.Remote

/-!
What a task snapshot keeps on its way into content events: the parts of its
artifacts, a failure, and the message of a state that ends the interaction or
pauses it. Only the message of a completed task with artifacts is dropped.
-/

namespace Choirworks.A2a

open Workflow (Part taskResponseBoundaryStates)

def Event.artifactParts (event : Event) : List Part :=
  match event.body with
  | .artifact _ parts _ _ => parts
  | .status .. | .message .. => []

/-- The event is a status event with the state and the message of the snapshot. -/
def Event.Carries (event : Event) (task : RemoteTask) : Prop :=
  event.body = .status task.state task.statusParts

structure Lossless (task : RemoteTask) : Prop where
  some_event : eventsFromTask task ≠ []
  artifacts : (eventsFromTask task).flatMap Event.artifactParts = task.artifactParts
  failure : task.state ∈ failureTerminalStates →
    ∃ event ∈ eventsFromTask task, ∃ parts, event.body = .status task.state parts
  message : task.state ∈ taskResponseBoundaryStates → task.statusParts ≠ [] →
    ∃ event ∈ eventsFromTask task, event.Carries task

section Snapshot

variable (task : RemoteTask)

/-- The parts of the artifacts as one event, final unless the state is provisional. -/
def RemoteTask.artifactEvents : List Event :=
  if task.artifactParts = [] then []
  else
    [{ taskId := task.id
       contextId := task.contextId
       body := .artifact task.id task.artifactParts false
         (task.state ∉ Workflow.nonFinalTaskStates) }]

def RemoteTask.KeepsStatus : Prop :=
  task.state ∈ failureTerminalStates ∨
    (task.statusParts ≠ [] ∧
      (task.state ∈ [.inputRequired, .authRequired] ∨
        (task.artifactParts = [] ∧ task.state ∈ taskResponseBoundaryStates)))

/-- A snapshot with neither an artifact nor a status to keep. -/
def RemoteTask.fallback : Event :=
  match if task.state ∈ taskResponseBoundaryStates then task.lastAgentMessage else none with
  | some message => message.event
  | none => task.statusEvent

instance : Decidable task.KeepsStatus := inferInstanceAs (Decidable (_ ∨ _))

def RemoteTask.statusEvents : List Event :=
  if task.KeepsStatus then [task.statusEvent] else []

theorem events_from_task_eq : eventsFromTask task =
    if task.artifactEvents ++ task.statusEvents ≠ [] then task.artifactEvents ++ task.statusEvents
    else [task.fallback] := by
  by_cases some_event : task.artifactEvents ++ task.statusEvents ≠ []
  · rw [if_pos some_event]
    exact if_pos some_event
  · rw [if_neg some_event]
    refine (if_neg some_event).trans ?_
    unfold RemoteTask.fallback
    cases if task.state ∈ taskResponseBoundaryStates then task.lastAgentMessage else none <;> rfl

theorem artifact_events_parts :
    task.artifactEvents.flatMap Event.artifactParts = task.artifactParts := by
  unfold RemoteTask.artifactEvents
  split
  · rename_i none
    rw [none]
    rfl
  · simp [Event.artifactParts]

theorem fallback_no_artifact : task.fallback.artifactParts = [] := by
  unfold RemoteTask.fallback
  split <;> rfl

theorem events_from_task_some : eventsFromTask task ≠ [] := by
  rw [events_from_task_eq]
  split
  · assumption
  · exact List.cons_ne_nil _ _

theorem events_artifact_parts :
    (eventsFromTask task).flatMap Event.artifactParts = task.artifactParts := by
  have parts := artifact_events_parts task
  have status : task.statusEvents.flatMap Event.artifactParts = [] := by
    unfold RemoteTask.statusEvents
    split <;> rfl
  rw [events_from_task_eq]
  split
  · rw [List.flatMap_append, parts, status, List.append_nil]
  · rename_i none
    have empty := (List.append_eq_nil_iff.mp (not_not.mp none)).1
    rw [List.flatMap_singleton, fallback_no_artifact, ← parts, empty]
    rfl

variable {task}

theorem status_kept (keeps : task.KeepsStatus) : task.statusEvent ∈ eventsFromTask task := by
  have kept : task.statusEvents = [task.statusEvent] := if_pos keeps
  have some_event : task.artifactEvents ++ task.statusEvents ≠ [] := by simp [kept]
  rw [events_from_task_eq, if_pos some_event, kept]
  exact List.mem_append_right _ List.mem_cons_self

/-- With artifacts the only status event is the kept one. -/
theorem carried_keeps (artifacts : task.artifactParts ≠ []) {event : Event}
    (member : event ∈ eventsFromTask task) (carries : event.Carries task) : task.KeepsStatus := by
  by_contra drops
  have none : task.statusEvents = [] := if_neg drops
  have single : task.artifactEvents ≠ [] := by simp [RemoteTask.artifactEvents, artifacts]
  rw [events_from_task_eq, none, List.append_nil, if_pos single] at member
  simp only [RemoteTask.artifactEvents, artifacts, ↓reduceIte, List.mem_singleton] at member
  rw [member] at carries
  cases carries

/-- A snapshot loses nothing exactly if it is not that of a completed task with both
artifacts and a status message. -/
theorem lossless_iff (task : RemoteTask) :
    Lossless task ↔
      (task.state = .completed → task.artifactParts = [] ∨ task.statusParts = []) := by
  constructor
  · intro lossless completed
    by_contra both
    obtain ⟨artifacts, spoken⟩ := not_or.mp both
    obtain ⟨event, member, carries⟩ := lossless.message (by simp [completed,
      taskResponseBoundaryStates]) spoken
    have keeps := carried_keeps artifacts member carries
    simp [RemoteTask.KeepsStatus, completed, artifacts, failureTerminalStates] at keeps
  · intro apart
    constructor
    case some_event => exact events_from_task_some task
    case artifacts => exact events_artifact_parts task
    case failure => exact fun failed => ⟨_, status_kept (Or.inl failed), _, rfl⟩
    case message =>
      intro boundary spoken
      refine ⟨_, status_kept ?_, rfl⟩
      unfold RemoteTask.KeepsStatus
      cases state : task.state with
      | completed =>
          have silent := (apart state).resolve_right spoken
          simp [spoken, silent, taskResponseBoundaryStates]
      | inputRequired | authRequired => simp [spoken]
      | failed | canceled | rejected => simp [failureTerminalStates]
      | unspecified | submitted | working => simp [state, taskResponseBoundaryStates] at boundary

end Snapshot

section Sample

/-! A completed task with an artifact and a status message. -/

def answeredTask : RemoteTask where
  id := "t1"
  contextId := "c1"
  state := .completed
  statusParts := [⟨"done", false, none⟩]
  artifacts := [("a1", [⟨"report", false, none⟩])]

theorem completed_message_dropped : ¬ ∀ task : RemoteTask, Lossless task := by
  intro claim
  obtain ⟨event, member, carries⟩ := (claim answeredTask).message (by decide) (by decide)
  have shown : eventsFromTask answeredTask =
      [{ taskId := "t1", contextId := "c1"
         body := .artifact "t1" [⟨"report", false, none⟩] false true }] := by decide
  rw [shown] at member
  rw [List.mem_singleton.mp member] at carries
  cases carries

end Sample

end Choirworks.A2a
