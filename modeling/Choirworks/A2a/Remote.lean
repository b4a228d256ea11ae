import Choirworks.Library.Table
import Choirworks.Workflow.Events

/-!
`RemoteA2aAgent`: what the responses of a remote agent become. Every event is
stamped with the ids of the calling task; the ids it came with are kept in its
metadata. A task snapshot is turned into content events.
-/

namespace Choirworks.A2a

open Workflow (TaskState Part taskResponseBoundaryStates nonFinalTaskStates)

inductive Role where
  | unspecified | user | agent
deriving DecidableEq

inductive Body where
  | status (state : TaskState) (parts : List Part)
  | artifact (artifactId : String) (parts : List Part) (append lastChunk : Bool)
  | message (role : Role) (parts : List Part)
deriving DecidableEq

/-- An event with the metadata that says where it came from. -/
structure Event where
  taskId : String
  contextId : String
  author : String := ""
  remoteTaskId : Option String := none
  remoteContextId : Option String := none
  body : Body
deriving DecidableEq

/-- The states in which a task has ended. -/
def terminalStates : List TaskState := [.completed, .failed, .canceled, .rejected]

def failureTerminalStates : List TaskState := [.failed, .rejected, .canceled]

/-- A status event with a terminal state. -/
def Event.Terminal (event : Event) : Prop :=
  match event.body with
  | .status state _ => state ∈ terminalStates
  | .artifact .. | .message .. => False

instance (event : Event) : Decidable event.Terminal := by
  unfold Event.Terminal
  cases event.body <;> infer_instance

structure RemoteMessage where
  taskId : String
  contextId : String
  role : Role
  parts : List Part
deriving DecidableEq

/-- A task snapshot of a remote agent. -/
structure RemoteTask where
  id : String
  contextId : String
  state : TaskState
  /-- The parts of the status message. -/
  statusParts : List Part := []
  artifacts : List (String × List Part) := []
  history : List RemoteMessage := []
deriving DecidableEq

inductive Response where
  | message (event : RemoteMessage)
  | statusUpdate (taskId contextId : String) (state : TaskState) (parts : List Part)
  | artifactUpdate (taskId contextId artifactId : String) (parts : List Part)
      (append lastChunk : Bool)
  | task (task : RemoteTask)
  | empty
deriving DecidableEq

def RemoteMessage.event (message : RemoteMessage) : Event where
  taskId := message.taskId
  contextId := message.contextId
  body := .message message.role message.parts

def RemoteTask.artifactParts (task : RemoteTask) : List Part := task.artifacts.flatMap Prod.snd

def RemoteTask.statusEvent (task : RemoteTask) : Event where
  taskId := task.id
  contextId := task.contextId
  body := .status task.state task.statusParts

/-- The newest message of the agent that has parts. -/
def RemoteTask.lastAgentMessage (task : RemoteTask) : Option RemoteMessage :=
  task.history.reverse.find? fun message => message.role = .agent ∧ message.parts ≠ []

/-- `_events_from_task`. -/
def eventsFromTask (task : RemoteTask) : List Event :=
  let artifactEvents : List Event :=
    if task.artifactParts = [] then []
    else
      [{ taskId := task.id
         contextId := task.contextId
         body := .artifact task.id task.artifactParts false
           (task.state ∉ nonFinalTaskStates) }]
  let keepsStatus :=
    task.state ∈ failureTerminalStates ∨
      (task.statusParts ≠ [] ∧
        (task.state ∈ [.inputRequired, .authRequired] ∨
          (task.artifactParts = [] ∧ task.state ∈ taskResponseBoundaryStates)))
  let events := artifactEvents ++ if keepsStatus then [task.statusEvent] else []
  if events ≠ [] then events
  else
    match if task.state ∈ taskResponseBoundaryStates then task.lastAgentMessage else none with
    | some message => [message.event]
    | none => [task.statusEvent]

/-- `_aggregate_artifact_update`: pieces are collected by artifact, and the last
appended one is followed by the whole artifact. -/
def aggregateArtifactUpdate (buffers : Dict String (List Part))
    (taskId contextId artifactId : String) (parts : List Part) (append lastChunk : Bool) :
    Dict String (List Part) × List Event :=
  let buffer := if append then buffers.getD artifactId [] ++ parts else parts
  let event (parts : List Part) (append : Bool) : Event :=
    { taskId, contextId, body := .artifact artifactId parts append lastChunk }
  if lastChunk then
    (buffers.erase artifactId,
      event parts append :: if append then [event buffer false] else [])
  else (buffers.set artifactId buffer, [event parts append])

/-- The event under the ids of the calling task, with its own in the metadata. -/
def Event.relayed (name taskId contextId : String) (event : Event) : Event where
  taskId
  contextId
  author := name
  remoteTaskId := some event.taskId
  remoteContextId :=
    if event.contextId ≠ "" then some event.contextId else event.remoteContextId
  body := event.body

/-- `_handle_a2a_response`. -/
def handleA2aResponse (name taskId contextId : String) (buffers : Dict String (List Part)) :
    Response → Dict String (List Part) × List Event
  | .message message => (buffers, [message.event.relayed name taskId contextId])
  | .statusUpdate remoteId remoteContext state parts =>
      (buffers,
        [({ taskId := remoteId, contextId := remoteContext, body := .status state parts } :
          Event).relayed name taskId contextId])
  | .artifactUpdate remoteId remoteContext artifactId parts append lastChunk =>
      let (behind, events) :=
        aggregateArtifactUpdate buffers remoteId remoteContext artifactId parts append lastChunk
      (behind, events.map (Event.relayed name taskId contextId))
  | .task task => (buffers, (eventsFromTask task).map (Event.relayed name taskId contextId))
  | .empty => (buffers, [])

/-- The failure event of an agent that cannot be reached or breaks off. -/
def failedEvent (name taskId contextId text : String) : Event where
  taskId
  contextId
  author := name
  body := .status .failed [{ text, thought := false, kind := none }]

/-! ### Responses that end a task -/

/-- The response tells that the remote task has ended: a terminal status update,
the snapshot of a failed task, or the snapshot of a completed one that has
neither artifacts nor, unless it comes with a status message, a message of the
agent to show instead. -/
def Response.EndsTask : Response → Prop
  | .statusUpdate _ _ state _ => state ∈ terminalStates
  | .task snapshot =>
      snapshot.state ∈ failureTerminalStates ∨
        (snapshot.state = .completed ∧ snapshot.artifactParts = [] ∧
          (snapshot.statusParts ≠ [] ∨ snapshot.lastAgentMessage = none))
  | .message _ | .artifactUpdate .. | .empty => False

instance (response : Response) : Decidable response.EndsTask := by
  unfold Response.EndsTask
  cases response <;> infer_instance

@[simp] theorem relayed_terminal (name taskId contextId : String) (event : Event) :
    (event.relayed name taskId contextId).Terminal ↔ event.Terminal :=
  Iff.rfl

theorem status_event_terminal (task : RemoteTask) :
    task.statusEvent.Terminal ↔ task.state ∈ terminalStates :=
  Iff.rfl

theorem message_event_plain (message : RemoteMessage) : ¬ message.event.Terminal :=
  fun terminal => terminal

/-- A snapshot becomes a terminal status event exactly if it ends the task. -/
theorem events_from_task_terminal (task : RemoteTask) :
    (∃ event ∈ eventsFromTask task, event.Terminal) ↔ (Response.task task).EndsTask := by
  unfold eventsFromTask Response.EndsTask
  by_cases silent : task.artifactParts = []
  · by_cases unspoken : task.statusParts = []
    · cases last : task.lastAgentMessage with
      | none =>
          cases state : task.state <;>
            simp [silent, unspoken, state, last, status_event_terminal, terminalStates,
              failureTerminalStates, taskResponseBoundaryStates]
      | some message =>
          cases state : task.state <;>
            simp [silent, unspoken, state, last, status_event_terminal, message_event_plain,
              terminalStates, failureTerminalStates, taskResponseBoundaryStates]
    · cases state : task.state <;>
        simp [silent, unspoken, state, status_event_terminal, terminalStates,
          failureTerminalStates, taskResponseBoundaryStates]
  · -- the artifact is shown, and a completed task with artifacts keeps no status
    cases state : task.state <;>
      simp [silent, state, Event.Terminal, RemoteTask.statusEvent, terminalStates,
        failureTerminalStates]

theorem aggregate_plain (buffers : Dict String (List Part)) (taskId contextId artifactId : String)
    (parts : List Part) (append lastChunk : Bool) :
    ∀ event ∈ (aggregateArtifactUpdate buffers taskId contextId artifactId parts append
      lastChunk).2, ¬ event.Terminal := by
  intro event member terminal
  have artifact : ∃ shown whole, event.body = .artifact artifactId shown whole lastChunk := by
    unfold aggregateArtifactUpdate at member
    cases lastChunk with
    | false => exact ⟨parts, append, by rw [List.mem_singleton.mp member]⟩
    | true =>
        rcases List.mem_cons.mp member with rfl | whole
        · exact ⟨parts, append, rfl⟩
        · cases append with
          | false => cases whole
          | true => exact ⟨_, false, by rw [List.mem_singleton.mp whole]⟩
  obtain ⟨shown, whole, body⟩ := artifact
  simp [Event.Terminal, body] at terminal

/-- A response becomes a terminal status event exactly if it ends the remote task. -/
theorem handle_response_terminal (name taskId contextId : String)
    (buffers : Dict String (List Part)) (response : Response) :
    (∃ event ∈ (handleA2aResponse name taskId contextId buffers response).2, event.Terminal) ↔
      response.EndsTask := by
  cases response with
  | message message => simp [handleA2aResponse, message_event_plain, Response.EndsTask]
  | statusUpdate remoteId remoteContext state parts =>
      simp [handleA2aResponse, Event.Terminal, Event.relayed, Response.EndsTask]
  | artifactUpdate remoteId remoteContext artifactId parts append lastChunk =>
      have plain := aggregate_plain buffers remoteId remoteContext artifactId parts append lastChunk
      simpa [handleA2aResponse, Response.EndsTask] using plain
  | task snapshot =>
      rw [← events_from_task_terminal]
      simp [handleA2aResponse]
  | empty => simp [handleA2aResponse, Response.EndsTask]

end Choirworks.A2a
