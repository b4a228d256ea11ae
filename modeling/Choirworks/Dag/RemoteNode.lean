import Choirworks.A2a.Aggregation
import Choirworks.A2a.Snapshots
import Choirworks.Workflow.Recording

/-!
`run_remote_node`: what asking a remote agent comes to for the node that is
dispatched to it. The agent answers with a stream of updates or hands over its
task as a snapshot; the first event with a text is the output, and the first
failure, or else the first pause, is the error of the node.
-/

namespace Choirworks.Workflow

/-- What `extract_text` takes from parts. -/
def textOf (parts : List Part) : String :=
  Text.join "" <| (parts.filter fun part =>
    !part.isFunctionCall && !part.isFunctionResponse && !part.thought).map (·.text)

/-- The text of the parts, if they have any. -/
def spoken (parts : List Part) : Option String :=
  if textOf parts = "" then none else some (textOf parts)

/-- The name of the state in the protocol. -/
def TaskState.name : TaskState → String
  | .unspecified => "TASK_STATE_UNSPECIFIED"
  | .submitted => "TASK_STATE_SUBMITTED"
  | .working => "TASK_STATE_WORKING"
  | .inputRequired => "TASK_STATE_INPUT_REQUIRED"
  | .authRequired => "TASK_STATE_AUTH_REQUIRED"
  | .completed => "TASK_STATE_COMPLETED"
  | .failed => "TASK_STATE_FAILED"
  | .canceled => "TASK_STATE_CANCELED"
  | .rejected => "TASK_STATE_REJECTED"

end Choirworks.Workflow

namespace Choirworks.Dag

open A2a (RemoteTask Response ArtifactUpdate handleA2aResponse eventsFromTask failedEvent
  failureTerminalStates)
open Workflow (A2AEvent EventMeta Part TaskState promotedText spoken textOf
  taskResponseBoundaryStates nonFinalTaskStates)

def pauseStates : List TaskState := [.inputRequired, .authRequired]

/-- A call of a remote agent: it cannot be resolved, or it answers and may break off. -/
inductive Contact where
  | unresolved (error : String)
  | answered (responses : List Response) (broken : Option String)
deriving DecidableEq

/-- The event as its readers see it. -/
def eventContent (event : A2a.Event) : A2AEvent :=
  let metadata : EventMeta := ⟨event.author, none, ⟨"", none, none⟩, none, none, none⟩
  match event.body with
  | .status state parts => .status state parts metadata
  | .artifact _ parts append lastChunk => .artifact parts append lastChunk metadata
  | .message _ parts => .message parts metadata

section Call

variable (name taskId contextId : String)

/-- The responses one after the other. -/
def relayAll : Dict String (List Part) → List Response → List A2a.Event
  | _, [] => []
  | buffers, response :: rest =>
      let (behind, events) := handleA2aResponse name taskId contextId buffers response
      events ++ relayAll behind rest

/-- The events of `RemoteA2aAgent._run_async_impl`. -/
def contactEvents : Contact → List A2a.Event
  | .unresolved error =>
      [failedEvent name taskId contextId
        ("Failed to initialize remote A2A agent " ++ name ++ " - " ++ error)]
  | .answered responses broken =>
      relayAll name taskId contextId .empty responses ++
        (broken.map fun error => failedEvent name taskId contextId
          ("Failed to send message to remote A2A agent " ++ name ++ " - " ++ error)).toList

end Call

/-- The text of a failure, if the event is one. -/
def failureText : A2AEvent → Option String
  | .status state parts _ =>
      if state ∈ failureTerminalStates then
        some ((spoken parts).getD ("remote task ended in " ++ state.name))
      else none
  | .artifact .. | .message .. => none

def pauseText : A2AEvent → Option String
  | .status state parts _ =>
      if state ∈ pauseStates then
        some ("remote task paused in " ++ state.name ++
          ((spoken parts).map (": " ++ ·)).getD "" ++ " (resume not supported in v0)")
      else none
  | .artifact .. | .message .. => none

/-- What the loop over the events knows, and what it has handed on: the complete
events to the invocation of the caller, all of them to its queue. -/
structure Heard where
  output : Option String := none
  failure : Option String := none
  pause : Option String := none
  events : List A2AEvent := []
  queue : List A2AEvent := []

namespace Heard

def hear (heard : Heard) (event : A2AEvent) : Heard :=
  let shown :=
    match heard.output, promotedText event with
    | none, some text => event.withOutput (.string text)
    | _, _ => event
  { output := heard.output <|> promotedText event
    failure := heard.failure <|> failureText event
    pause := heard.pause <|> pauseText event
    events := if shown.isPartial then heard.events else heard.events ++ [shown]
    queue := heard.queue ++ [shown] }

def result (name : String) (heard : Heard) : Except String String :=
  match heard.failure, heard.pause with
  | some text, _ => .error ("remote agent " ++ name ++ " failed: " ++ text)
  | none, some text => .error ("remote agent " ++ name ++ ": " ++ text)
  | none, none => .ok (heard.output.getD "")

end Heard

def heardOf (name taskId contextId : String) (contact : Contact) : Heard :=
  ((contactEvents name taskId contextId contact).map eventContent).foldl Heard.hear {}

/-- The result of the task that is dispatched for a node. -/
def runRemoteNode (name taskId contextId : String) (contact : Contact) : Except String String :=
  (heardOf name taskId contextId contact).result name

/-! ### The loop over the events -/

section Hearing

/-- A field that only its first hit sets. -/
theorem first_kept {State Given Value : Type} {step : State → Given → State}
    {read : State → Option Value} {hit : Given → Option Value}
    (kept : ∀ state event, read (step state event) = (read state).or (hit event))
    (state : State) (events : List Given) :
    read (events.foldl step state) = (read state).or (events.findSome? hit) := by
  induction events generalizing state with
  | nil => simp
  | cons event rest ih =>
      rw [List.foldl_cons, ih, kept, List.findSome?_cons, Option.or_assoc]
      cases hit event <;> rfl

/-- The conversation of the caller is given the complete events of its queue. -/
theorem heard_events (heard : Heard) (events : List A2AEvent)
    (kept : heard.events = heard.queue.filter fun event => !event.isPartial) :
    (events.foldl Heard.hear heard).events =
      (events.foldl Heard.hear heard).queue.filter fun event => !event.isPartial := by
  induction events generalizing heard with
  | nil => exact kept
  | cons event rest ih =>
      obtain ⟨shown, events, queue⟩ : ∃ shown : A2AEvent,
          (heard.hear event).events =
              (if shown.isPartial then heard.events else heard.events ++ [shown]) ∧
            (heard.hear event).queue = heard.queue ++ [shown] := ⟨_, rfl, rfl⟩
      refine ih (heard.hear event) ?_
      rw [events, queue, List.filter_append, kept]
      cases complete : shown.isPartial <;> simp [complete]

/-- The findings of the loop. -/
theorem run_remote_node_eq (name taskId contextId : String) (contact : Contact) :
    runRemoteNode name taskId contextId contact =
      Heard.result name
        { output := (contactEvents name taskId contextId contact).findSome?
            (promotedText ∘ eventContent)
          failure := (contactEvents name taskId contextId contact).findSome?
            (failureText ∘ eventContent)
          pause := (contactEvents name taskId contextId contact).findSome?
            (pauseText ∘ eventContent) } := by
  unfold runRemoteNode heardOf
  generalize contactEvents name taskId contextId contact = events
  have output := @first_kept _ _ _ Heard.hear Heard.output promotedText
    (fun heard event => by simp [Heard.hear]) {} (events.map eventContent)
  have failure := @first_kept _ _ _ Heard.hear Heard.failure failureText
    (fun heard event => by simp [Heard.hear]) {} (events.map eventContent)
  have pause := @first_kept _ _ _ Heard.hear Heard.pause pauseText
    (fun heard event => by simp [Heard.hear]) {} (events.map eventContent)
  simp only [Option.none_or, List.findSome?_map] at output failure pause
  simp only [Heard.result, output, failure, pause]

end Hearing

/-! ### The events of a response -/

section Events

variable {name taskId contextId : String}

@[simp] theorem body_relayed (event : A2a.Event) :
    (event.relayed name taskId contextId).body = event.body :=
  rfl

theorem text_append (front back : List Part) :
    textOf (front ++ back) = textOf front ++ textOf back := by
  simp [textOf, Text.join_append]

theorem promoted_spoken (event : A2AEvent) :
    promotedText event =
      if event.isPartial || event.isProvisional then none else spoken event.contentParts := by
  have text : event.extractText = textOf event.contentParts := rfl
  unfold promotedText spoken
  rw [text]
  cases event.isPartial <;> cases event.isProvisional <;> simp

/-- What is promoted of an event. -/
theorem promoted_eq (event : A2a.Event) :
    promotedText (eventContent event) =
      match event.body with
      | .status state parts => if state ∈ nonFinalTaskStates then none else spoken parts
      | .artifact _ parts append lastChunk => if !append && lastChunk then spoken parts else none
      | .message _ parts => spoken parts := by
  obtain ⟨_, _, _, _, _, body⟩ := event
  rw [promoted_spoken]
  cases body with
  | status state parts =>
      cases state <;>
        simp [eventContent, A2AEvent.isPartial, A2AEvent.isProvisional, A2AEvent.contentParts,
          nonFinalTaskStates, taskResponseBoundaryStates]
  | artifact artifactId parts append lastChunk =>
      cases append <;> cases lastChunk <;>
        simp [eventContent, A2AEvent.isPartial, A2AEvent.isProvisional, A2AEvent.contentParts]
  | message role parts => rfl

end Events

/-! ### Which calls complete the node -/

def ReportsFailure : Response → Prop
  | .statusUpdate _ _ state _ => state ∈ failureTerminalStates
  | .task snapshot => snapshot.state ∈ failureTerminalStates
  | .message _ | .artifactUpdate .. | .empty => False

/-- A snapshot without a status message is taken for paused only if it has nothing
else to show. -/
def ReportsPause : Response → Prop
  | .statusUpdate _ _ state _ => state ∈ pauseStates
  | .task snapshot =>
      snapshot.state ∈ pauseStates ∧
        (snapshot.statusParts ≠ [] ∨
          (snapshot.artifactParts = [] ∧ snapshot.lastAgentMessage = none))
  | .message _ | .artifactUpdate .. | .empty => False

def Contact.Completes : Contact → Prop
  | .unresolved _ => False
  | .answered responses broken =>
      broken = none ∧ ∀ response ∈ responses, ¬ ReportsFailure response ∧ ¬ ReportsPause response

section Completes

variable (name taskId contextId : String)

/-- The fields of an update that a response has. -/
def updateOf (taskId contextId artifactId : String) (parts : List Part) (append lastChunk : Bool) :
    ArtifactUpdate Part Unit :=
  ⟨taskId, contextId, ⟨artifactId, "", "", parts, (), []⟩, append, lastChunk, ()⟩

theorem handled_update (buffers : Dict String (List Part))
    (remoteId remoteContext artifactId : String) (parts : List Part) (append lastChunk : Bool) :
    handleA2aResponse name taskId contextId buffers
        (.artifactUpdate remoteId remoteContext artifactId parts append lastChunk) =
      let (behind, updates) :=
        (updateOf remoteId remoteContext artifactId parts append lastChunk).aggregate buffers
      (behind, updates.map fun update => update.event.relayed name taskId contextId) := by
  have aggregated := ArtifactUpdate.aggregate_event buffers
    (updateOf remoteId remoteContext artifactId parts append lastChunk)
  simp only [updateOf, ArtifactUpdate.artifactId] at aggregated ⊢
  simp only [handleA2aResponse, aggregated, List.map_map, Function.comp_def]

/-- What a status event with one of the states makes, and no other event. -/
def TellsOf (hit : A2a.Event → Option String) (states : List TaskState) : Prop :=
  ∀ event, (hit event).isSome ↔ ∃ state ∈ states, ∃ parts, event.body = .status state parts

theorem failure_tells : TellsOf (failureText ∘ eventContent) failureTerminalStates := by
  rintro ⟨_, _, _, _, _, body⟩
  cases body <;> simp [eventContent, failureText]

theorem pause_tells : TellsOf (pauseText ∘ eventContent) pauseStates := by
  rintro ⟨_, _, _, _, _, body⟩
  cases body <;> simp [eventContent, pauseText]

/-- The status of the snapshot is kept, or there is nothing else to show. -/
def ShowsStatus (task : RemoteTask) : Prop :=
  task.KeepsStatus ∨
    (task.artifactParts = [] ∧
      (task.state ∈ taskResponseBoundaryStates → task.lastAgentMessage = none))

instance (task : RemoteTask) : Decidable (ShowsStatus task) :=
  inferInstanceAs (Decidable (_ ∨ _))

theorem artifact_events_body {task : RemoteTask} {event : A2a.Event}
    (member : event ∈ task.artifactEvents) :
    ∃ parts lastChunk, event.body = .artifact task.id parts false lastChunk := by
  unfold RemoteTask.artifactEvents at member
  split at member
  · cases member
  · exact ⟨_, _, by rw [List.mem_singleton.mp member]⟩

/-- The status events of a snapshot. -/
theorem snapshot_status {task : RemoteTask} {state : TaskState} {parts : List Part} :
    (∃ event ∈ eventsFromTask task, event.body = .status state parts) ↔
      ShowsStatus task ∧ task.state = state ∧ task.statusParts = parts := by
  have artifacts : ∀ event ∈ task.artifactEvents, event.body ≠ .status state parts := by
    intro event member same
    obtain ⟨_, _, artifact⟩ := artifact_events_body member
    rw [artifact] at same
    cases same
  have status : task.statusEvent.body = .status state parts ↔
      task.state = state ∧ task.statusParts = parts := by
    simp [RemoteTask.statusEvent]
  rw [A2a.events_from_task_eq]
  by_cases keeps : task.KeepsStatus
  · have kept : task.statusEvents = [task.statusEvent] := if_pos keeps
    rw [if_pos (by simp [kept]), kept]
    simp only [List.mem_append, List.mem_singleton, or_and_right, exists_or, exists_eq_left, status]
    simp only [ShowsStatus, keeps, true_or, true_and, or_iff_right_iff_imp]
    rintro ⟨event, member, same⟩
    exact absurd same (artifacts event member)
  · have dropped : task.statusEvents = [] := if_neg keeps
    rw [dropped, List.append_nil]
    by_cases silent : task.artifactParts = []
    · have none_shown : task.artifactEvents = [] := if_pos silent
      rw [if_neg (by simp [none_shown])]
      unfold RemoteTask.fallback
      by_cases boundary : task.state ∈ taskResponseBoundaryStates
      · cases last : task.lastAgentMessage with
        | none => simp [ShowsStatus, boundary, silent, last, status]
        | some found => simp [ShowsStatus, boundary, keeps, last, A2a.RemoteMessage.event]
      · simp [ShowsStatus, boundary, silent, status]
    · have shown : task.artifactEvents ≠ [] := by simp [RemoteTask.artifactEvents, silent]
      rw [if_pos shown]
      simp only [ShowsStatus, keeps, silent, false_and, or_self, iff_false]
      rintro ⟨event, member, same⟩
      exact artifacts event member same

/-- The response reports one of the states. -/
def Reports (states : List TaskState) : Response → Prop
  | .statusUpdate _ _ state _ => state ∈ states
  | .task snapshot => snapshot.state ∈ states ∧ ShowsStatus snapshot
  | .message _ | .artifactUpdate .. | .empty => False

theorem handled_reports {hit : A2a.Event → Option String} {states : List TaskState}
    (tells : TellsOf hit states) (buffers : Dict String (List Part)) (response : Response) :
    (∃ event ∈ (handleA2aResponse name taskId contextId buffers response).2,
      (hit event).isSome) ↔ Reports states response := by
  simp only [tells _]
  cases response with
  | message message => simp [handleA2aResponse, Reports, A2a.RemoteMessage.event]
  | statusUpdate remoteId remoteContext state parts => simp [handleA2aResponse, Reports]
  | artifactUpdate remoteId remoteContext artifactId parts append lastChunk =>
      rw [handled_update]
      simp only [Reports, iff_false]
      rintro ⟨_, member, state, _, shown, body⟩
      obtain ⟨update, _, rfl⟩ := List.mem_map.mp member
      cases body
  | task snapshot =>
      constructor
      · rintro ⟨_, member, _, listed, parts, body⟩
        obtain ⟨event, found, rfl⟩ := List.mem_map.mp member
        obtain ⟨shows, rfl, -⟩ := snapshot_status.mp ⟨event, found, body⟩
        exact ⟨listed, shows⟩
      · rintro ⟨listed, shows⟩
        obtain ⟨event, found, body⟩ := snapshot_status.mpr ⟨shows, rfl, rfl⟩
        exact ⟨_, List.mem_map_of_mem found, _, listed, _, body⟩
  | empty => simp [handleA2aResponse, Reports]

theorem reports_failure (response : Response) :
    Reports failureTerminalStates response ↔ ReportsFailure response := by
  cases response with
  | task snapshot =>
      exact ⟨And.left, fun failed => ⟨failed, Or.inl (Or.inl failed)⟩⟩
  | message | statusUpdate | artifactUpdate | empty => exact Iff.rfl

theorem reports_pause (response : Response) :
    Reports pauseStates response ↔ ReportsPause response := by
  cases response with
  | task snapshot =>
      refine and_congr_right fun paused => ?_
      have alive : snapshot.state ∉ failureTerminalStates := by
        intro failed
        cases state : snapshot.state <;>
          simp [state, pauseStates, failureTerminalStates] at paused failed
      have boundary : snapshot.state ∈ taskResponseBoundaryStates := by
        cases state : snapshot.state <;>
          simp [state, pauseStates, taskResponseBoundaryStates] at paused ⊢
      have pausing : snapshot.state ∈ [TaskState.inputRequired, .authRequired] := paused
      simp [ShowsStatus, RemoteTask.KeepsStatus, alive, boundary, pausing]
  | message | statusUpdate | artifactUpdate | empty => exact Iff.rfl

/-- Whatever has been collected of artifacts, a finding is made of what is reported. -/
theorem relayed_reports {hit : A2a.Event → Option String} {states : List TaskState}
    (tells : TellsOf hit states) (buffers : Dict String (List Part)) (responses : List Response) :
    (relayAll name taskId contextId buffers responses).findSome? hit = none ↔
      ∀ response ∈ responses, ¬ Reports states response := by
  induction responses generalizing buffers with
  | nil => simp [relayAll]
  | cons response rest ih =>
      have here := (not_congr (handled_reports name taskId contextId tells buffers response)).symm
      simp only [not_exists, not_and, Option.not_isSome_iff_eq_none] at here
      rw [relayAll, List.findSome?_append, Option.or_eq_none_iff, ih, List.findSome?_eq_none_iff,
        ← here, List.forall_mem_cons]

theorem result_ok {heard : Heard} {output : String} :
    heard.result name = .ok output ↔
      heard.failure = none ∧ heard.pause = none ∧ heard.output.getD "" = output := by
  obtain ⟨_, failure, pause, _, _⟩ := heard
  cases failure <;> cases pause <;> simp [Heard.result]

theorem failed_event_fails (text : String) :
    failureText (eventContent (failedEvent name taskId contextId text)) ≠ none := by
  simp [failedEvent, eventContent, failureText, failureTerminalStates]

/-- A node that is dispatched to a remote agent completes exactly if the agent has been
resolved, has not broken off and has reported neither a failure nor a pause, whatever
else it has answered and in whatever order. -/
theorem remote_node_completes (contact : Contact) :
    (∃ output, runRemoteNode name taskId contextId contact = .ok output) ↔ contact.Completes := by
  simp only [run_remote_node_eq, result_ok]
  cases contact with
  | unresolved error =>
      have fails := failed_event_fails name taskId contextId
        ("Failed to initialize remote A2A agent " ++ name ++ " - " ++ error)
      simp [contactEvents, Contact.Completes, fails]
  | answered responses broken =>
      have failures := relayed_reports name taskId contextId failure_tells .empty responses
      have pauses := relayed_reports name taskId contextId pause_tells .empty responses
      simp only [reports_failure] at failures
      simp only [reports_pause] at pauses
      cases broken with
      | none => simp [contactEvents, Contact.Completes, failures, pauses, forall_and]
      | some error =>
          have fails := failed_event_fails name taskId contextId
            ("Failed to send message to remote A2A agent " ++ name ++ " - " ++ error)
          simp [contactEvents, Contact.Completes, fails]

end Completes

/-! ### Streams and snapshots -/

/-- The artifacts that updates close, with the parts written up to then. -/
def closed {Part Metadata : Type} (before : List (ArtifactUpdate Part Metadata)) :
    List (ArtifactUpdate Part Metadata) → List (String × List Part)
  | [] => []
  | update :: rest =>
      (if update.lastChunk then [(update.artifactId, update.collected before)] else []) ++
        closed (before ++ [update]) rest

def update? : Response → Option (ArtifactUpdate Part Unit)
  | .artifactUpdate taskId contextId artifactId parts append lastChunk =>
      some (updateOf taskId contextId artifactId parts append lastChunk)
  | .message _ | .statusUpdate .. | .task _ | .empty => none

/-- The response comes while the task is under way. -/
def UnderWay : Response → Prop
  | .statusUpdate _ _ state _ => state ∉ taskResponseBoundaryStates
  | .task snapshot => snapshot.state ∉ taskResponseBoundaryStates
  | .artifactUpdate .. | .empty => True
  | .message _ => False

/-- The responses write the artifacts of the task, in pieces cut anywhere and mixed in
any way, and close them in any order. -/
structure Streams (responses : List Response) (task : RemoteTask) : Prop where
  under_way : ∀ response ∈ responses, UnderWay response
  artifacts : (closed [] (responses.filterMap update?)).Perm task.artifacts

/-- The update that ends the stream of a task. -/
def statusUpdate (task : RemoteTask) : Response :=
  .statusUpdate task.id task.contextId task.state task.statusParts

section Stream

variable (name taskId contextId : String)

theorem relay_append (buffers : Dict String (List Part)) (front back : List Response) :
    ∃ behind, relayAll name taskId contextId buffers (front ++ back) =
      relayAll name taskId contextId buffers front ++
        relayAll name taskId contextId behind back := by
  induction front generalizing buffers with
  | nil => exact ⟨buffers, rfl⟩
  | cons response rest ih =>
      obtain ⟨behind, split⟩ := ih (handleA2aResponse name taskId contextId buffers response).1
      exact ⟨behind, by simp only [List.cons_append, relayAll, split, List.append_assoc]⟩

theorem provisional {state : TaskState} (open_state : state ∉ taskResponseBoundaryStates) :
    state ∈ nonFinalTaskStates := by
  cases state <;> simp [taskResponseBoundaryStates, nonFinalTaskStates] at open_state ⊢

/-- A snapshot of a task under way has nothing to promote. -/
theorem snapshot_provisional {task : RemoteTask}
    (open_state : task.state ∉ taskResponseBoundaryStates) :
    ∀ event ∈ eventsFromTask task, promotedText (eventContent event) = none := by
  have nonFinal := provisional open_state
  have status : promotedText (eventContent task.statusEvent) = none := by
    rw [promoted_eq]
    exact if_pos nonFinal
  intro event member
  rw [A2a.events_from_task_eq] at member
  split at member
  · rcases List.mem_append.mp member with artifact | kept
    · unfold RemoteTask.artifactEvents at artifact
      split at artifact
      · cases artifact
      · rw [List.mem_singleton.mp artifact, promoted_eq]
        simp [nonFinal]
    · unfold RemoteTask.statusEvents at kept
      split at kept
      · rw [List.mem_singleton.mp kept, status]
      · cases kept
  · have fallback : task.fallback = task.statusEvent := by simp [RemoteTask.fallback, open_state]
    rw [List.mem_singleton.mp member, fallback, status]

/-- The event of an update and, behind an appended last chunk, that of the artifact. -/
theorem update_promotes (before : List (ArtifactUpdate Part Unit))
    (update : ArtifactUpdate Part Unit) :
    ((update.aggregate (ArtifactUpdate.aggregateAll .empty before).1).2.map fun found =>
        found.event.relayed name taskId contextId).findSome? (promotedText ∘ eventContent) =
      if update.lastChunk then spoken (update.collected before) else none := by
  have known : (ArtifactUpdate.aggregateAll .empty before).1.getD update.artifactId [] =
      (ArtifactUpdate.gathered update.artifactId before.reverse).getD [] := by
    rw [Dict.getD, ArtifactUpdate.buffer_gathered]
  rw [ArtifactUpdate.aggregate_events known]
  cases last : update.lastChunk <;> cases append : update.append <;>
    simp [promoted_eq, ArtifactUpdate.event, ArtifactUpdate.final, ArtifactUpdate.collected,
      last, append]

/-- A response of a task under way that is not an update leaves nothing. -/
theorem quiet_response (buffers : Dict String (List Part)) {response : Response}
    (here : UnderWay response) (other : update? response = none) :
    (handleA2aResponse name taskId contextId buffers response).1 = buffers ∧
      (handleA2aResponse name taskId contextId buffers response).2.findSome?
        (promotedText ∘ eventContent) = none := by
  rw [List.findSome?_eq_none_iff]
  refine ⟨?_, fun event member => ?_⟩
  · cases response with
    | artifactUpdate => cases other
    | message | statusUpdate | task | empty => rfl
  · cases response with
    | message message => exact here.elim
    | statusUpdate remoteId remoteContext state parts =>
        rw [List.mem_singleton.mp member, Function.comp_apply, promoted_eq]
        exact if_pos (provisional here)
    | artifactUpdate => cases other
    | task snapshot =>
        obtain ⟨source, listed, rfl⟩ := List.mem_map.mp member
        have silent := snapshot_provisional here source listed
        rw [promoted_eq] at silent
        rw [Function.comp_apply, promoted_eq]
        exact silent
    | empty => cases member

/-- What the events of a task under way promote is the first closed artifact with a text. -/
theorem stream_promotes (before : List (ArtifactUpdate Part Unit)) (responses : List Response)
    (under_way : ∀ response ∈ responses, UnderWay response) :
    (relayAll name taskId contextId (ArtifactUpdate.aggregateAll .empty before).1
        responses).findSome? (promotedText ∘ eventContent) =
      (closed before (responses.filterMap update?)).findSome? fun artifact =>
        spoken artifact.2 := by
  induction responses generalizing before with
  | nil => rfl
  | cons response rest ih =>
      have later := fun before => ih before fun found listed => under_way found (.tail _ listed)
      have here := under_way response (.head _)
      rw [relayAll, List.findSome?_append]
      cases found : update? response with
      | none =>
          obtain ⟨same, silent⟩ := quiet_response name taskId contextId
            (ArtifactUpdate.aggregateAll .empty before).1 here found
          rw [silent, same, Option.none_or, later, List.filterMap_cons_none found]
      | some update =>
          have behind : (update.aggregate (ArtifactUpdate.aggregateAll .empty before).1).1 =
              (ArtifactUpdate.aggregateAll .empty (before ++ [update])).1 := by
            rw [ArtifactUpdate.aggregate_all_append]
            rfl
          rw [List.filterMap_cons_some found]
          cases response with
          | artifactUpdate remoteId remoteContext artifactId parts append lastChunk =>
              cases found
              rw [handled_update, behind, later, update_promotes, closed, List.findSome?_append]
              cases lastChunk <;> simp [updateOf]
          | message | statusUpdate | task | empty => cases found

theorem under_way_plain {states : List TaskState}
    (within : ∀ state ∈ states, state ∈ taskResponseBoundaryStates) {response : Response}
    (here : UnderWay response) : ¬ Reports states response := by
  cases response with
  | statusUpdate _ _ state _ => exact fun listed => here (within state listed)
  | task snapshot => exact fun listed => here (within _ listed.1)
  | message | artifactUpdate | empty => exact id

theorem failures_boundary :
    ∀ state ∈ failureTerminalStates, state ∈ taskResponseBoundaryStates := by
  decide

theorem pauses_boundary : ∀ state ∈ pauseStates, state ∈ taskResponseBoundaryStates := by
  decide

/-- What does not read the metadata of an event depends on its body. -/
theorem content_same {read : A2AEvent → Option String}
    (plain : ∀ event metadata, read (A2AEvent.withMeta event metadata) = read event)
    (event other : A2a.Event) (same : event.body = other.body) :
    (read ∘ eventContent) event = (read ∘ eventContent) other := by
  have content : eventContent event =
      (eventContent other).withMeta (eventContent event).metadata := by
    obtain ⟨_, _, _, _, _, body⟩ := event
    obtain ⟨_, _, _, _, _, _⟩ := other
    obtain rfl : body = _ := same
    cases body <;> rfl
  rw [Function.comp_apply, content, plain, Function.comp_apply]

theorem failure_same : ∀ event other : A2a.Event, event.body = other.body →
    (failureText ∘ eventContent) event = (failureText ∘ eventContent) other :=
  content_same fun event _ => by cases event <;> rfl

theorem pause_same : ∀ event other : A2a.Event, event.body = other.body →
    (pauseText ∘ eventContent) event = (pauseText ∘ eventContent) other :=
  content_same fun event _ => by cases event <;> rfl

theorem promoted_same : ∀ event other : A2a.Event, event.body = other.body →
    (promotedText ∘ eventContent) event = (promotedText ∘ eventContent) other :=
  content_same fun event _ => by cases event <;> rfl

/-- The stream of a task: its first closed artifact with a text, and its last status. -/
theorem streamed_eq {responses : List Response} {task : RemoteTask}
    (under_way : ∀ response ∈ responses, UnderWay response) :
    runRemoteNode name taskId contextId (.answered (responses ++ [statusUpdate task]) none) =
      Heard.result name
        { output := ((closed [] (responses.filterMap update?)).findSome? fun artifact =>
            spoken artifact.2).or (promotedText (eventContent task.statusEvent))
          failure := failureText (eventContent task.statusEvent)
          pause := pauseText (eventContent task.statusEvent) } := by
  obtain ⟨behind, split⟩ := relay_append name taskId contextId .empty responses [statusUpdate task]
  have outputs := stream_promotes name taskId contextId [] responses under_way
  have failures := (relayed_reports name taskId contextId failure_tells .empty responses).mpr
    fun response listed => under_way_plain failures_boundary (under_way response listed)
  have pauses := (relayed_reports name taskId contextId pause_tells .empty responses).mpr
    fun response listed => under_way_plain pauses_boundary (under_way response listed)
  have last : relayAll name taskId contextId behind [statusUpdate task] =
      [task.statusEvent.relayed name taskId contextId] := rfl
  have body := @body_relayed name taskId contextId task.statusEvent
  rw [run_remote_node_eq]
  simp only [contactEvents, split, last, Option.map_none, Option.toList_none, List.append_nil,
    List.findSome?_append, List.findSome?_singleton, failure_same _ _ body, pause_same _ _ body,
    promoted_same _ _ body]
  rw [failures, pauses, ← outputs]
  rfl

/-- Of a snapshot a finding about the status is made where the status is shown. -/
theorem snapshot_finding {hit : A2a.Event → Option String} {states : List TaskState}
    (tells : TellsOf hit states)
    (same : ∀ event other : A2a.Event, event.body = other.body → hit event = hit other)
    (task : RemoteTask) :
    (eventsFromTask task).findSome? hit =
      if ShowsStatus task then hit task.statusEvent else none := by
  cases found : (eventsFromTask task).findSome? hit with
  | none =>
      rw [List.findSome?_eq_none_iff] at found
      split
      · rename_i shows
        obtain ⟨event, member, body⟩ := snapshot_status.mpr ⟨shows, rfl, rfl⟩
        rw [← same event task.statusEvent body, found event member]
      · rfl
  | some text =>
      obtain ⟨event, member, hits⟩ := List.exists_of_findSome?_eq_some found
      obtain ⟨state, _, parts, body⟩ := (tells event).mp (by rw [hits]; rfl)
      obtain ⟨shows, rfl, rfl⟩ := snapshot_status.mp ⟨event, member, body⟩
      rw [if_pos shows, ← same event task.statusEvent body, hits]

theorem relayed_same {hit : A2a.Event → Option String}
    (same : ∀ event other : A2a.Event, event.body = other.body → hit event = hit other)
    (events : List A2a.Event) :
    (events.map fun event => event.relayed name taskId contextId).findSome? hit =
      events.findSome? hit := by
  rw [List.findSome?_map]
  congr 1
  funext event
  exact same _ _ rfl

theorem snapshot_eq (task : RemoteTask) :
    runRemoteNode name taskId contextId (.answered [.task task] none) =
      Heard.result name
        { output := (eventsFromTask task).findSome? (promotedText ∘ eventContent)
          failure := if ShowsStatus task then failureText (eventContent task.statusEvent) else none
          pause :=
            if ShowsStatus task then pauseText (eventContent task.statusEvent) else none } := by
  have failure := snapshot_finding failure_tells failure_same task
  have pause := snapshot_finding pause_tells pause_same task
  rw [run_remote_node_eq]
  simp only [contactEvents, relayAll, handleA2aResponse, List.append_nil, Option.map_none,
    Option.toList_none]
  rw [relayed_same name taskId contextId failure_same,
    relayed_same name taskId contextId pause_same,
    relayed_same name taskId contextId promoted_same, failure, pause]
  rfl

end Stream

/-! ### One task told in two ways -/

/-- The artifacts that have a text, by their texts. -/
def artifactTexts (task : RemoteTask) : List String :=
  task.artifacts.filterMap fun artifact => spoken artifact.2

def lastText (task : RemoteTask) : String :=
  (task.lastAgentMessage.bind fun message => spoken message.parts).getD ""

/-- What a snapshot must be like for the node to end as it does with the stream. -/
def ReadsAlike (task : RemoteTask) : Prop :=
  match task.state with
  | .completed =>
      if task.artifactParts = [] then task.statusParts = [] → lastText task = ""
      else (artifactTexts task).length ≤ 1 ∧
        (artifactTexts task = [] → textOf task.statusParts = "")
  | .inputRequired | .authRequired =>
      task.statusParts ≠ [] ∨ (task.artifactParts = [] ∧ task.lastAgentMessage = none)
  | .unspecified | .submitted | .working | .failed | .canceled | .rejected => True

instance (task : RemoteTask) : Decidable (ReadsAlike task) := by
  unfold ReadsAlike
  cases task.state <;> infer_instance

section Alike

theorem spoken_text (parts : List Part) : (spoken parts).getD "" = textOf parts := by
  unfold spoken
  split
  · rename_i blank
    exact blank.symm
  · rfl

theorem spoken_nonempty {parts : List Part} {text : String} (said : spoken parts = some text) :
    text ≠ "" := by
  unfold spoken at said
  split at said
  · cases said
  · rename_i filled
    cases said
    exact filled

theorem texts_nonempty (task : RemoteTask) : ∀ text ∈ artifactTexts task, text ≠ "" := by
  intro text listed
  obtain ⟨artifact, _, said⟩ := List.mem_filterMap.mp listed
  exact spoken_nonempty said

theorem texts_joined (task : RemoteTask) :
    textOf task.artifactParts = Text.join "" (artifactTexts task) := by
  unfold RemoteTask.artifactParts artifactTexts
  induction task.artifacts with
  | nil => simp [textOf]
  | cons artifact rest ih =>
      rw [List.flatMap_cons, text_append, ih]
      cases said : spoken artifact.2 with
      | none =>
          have blank : textOf artifact.2 = "" := by rw [← spoken_text, said]; rfl
          simp only [List.filterMap_cons, said, blank, String.empty_append]
      | some text =>
          have full : textOf artifact.2 = text := by rw [← spoken_text, said]; rfl
          simp only [List.filterMap_cons, said, full, Text.join_cons]

theorem texts_silent {task : RemoteTask} (silent : task.artifactParts = []) :
    artifactTexts task = [] := by
  refine List.filterMap_eq_nil_iff.mpr fun artifact listed => ?_
  have empty : artifact.2 = [] := List.flatMap_eq_nil_iff.mp silent artifact listed
  simp [empty, spoken, textOf]

theorem joined_length {firsts texts : List String} (same : firsts.Perm texts) :
    (Text.join "" firsts).length = (Text.join "" texts).length := by
  induction same with
  | nil => rfl
  | cons text _ ih => simp only [Text.join_cons, String.length_append, ih]
  | swap first second rest =>
      simp only [Text.join_cons, String.length_append]
      omega
  | trans _ _ first second => exact first.trans second

/-- One of several texts is all of them exactly if there are no others. -/
theorem first_is_all {firsts texts : List String} (same : firsts.Perm texts)
    (filled : ∀ text ∈ texts, text ≠ "") (other : String) :
    firsts.head?.getD other = Text.join "" texts ↔
      texts.length ≤ 1 ∧ (texts = [] → other = "") := by
  cases firsts with
  | nil =>
      obtain rfl : texts = [] := same.nil_eq.symm
      simp
  | cons first rest =>
      cases rest with
      | nil =>
          obtain rfl : texts = [first] := (List.perm_singleton.mp same.symm)
          simp [Text.join_cons]
      | cons second rest =>
          have longer := same.length_eq
          have second_filled : second ≠ "" := filled second (same.subset (by simp))
          have total : (Text.join "" texts).length =
              first.length + (second.length + (Text.join "" rest).length) := by
            rw [← joined_length same, Text.join_cons, Text.join_cons, String.length_append,
              String.length_append]
          have some_length : 0 < second.length := by
            rw [Nat.pos_iff_ne_zero]
            simpa using second_filled
          constructor
          · intro all
            have lengths := congrArg String.length all
            simp only [List.head?_cons, Option.getD_some, total] at lengths
            omega
          · intro few
            simp only [List.length_cons] at longer
            omega

theorem message_promotes (message : A2a.RemoteMessage) :
    promotedText (eventContent message.event) = spoken message.parts := by
  rw [promoted_eq]
  rfl

theorem status_promotes {task : RemoteTask} (completed : task.state = .completed) :
    promotedText (eventContent task.statusEvent) = spoken task.statusParts := by
  rw [promoted_eq]
  simp [RemoteTask.statusEvent, completed, nonFinalTaskStates]

/-- The output that the snapshot of a completed task gives. -/
theorem completed_output {task : RemoteTask} (completed : task.state = .completed) :
    ((eventsFromTask task).findSome? (promotedText ∘ eventContent)).getD "" =
      if task.artifactParts ≠ [] then textOf task.artifactParts
      else if task.statusParts ≠ [] then textOf task.statusParts
      else lastText task := by
  have alive : task.state ∉ failureTerminalStates := by simp [completed, failureTerminalStates]
  have boundary : task.state ∈ taskResponseBoundaryStates := by
    simp [completed, taskResponseBoundaryStates]
  have status := status_promotes completed
  rw [A2a.events_from_task_eq]
  by_cases silent : task.artifactParts = []
  · have none_shown : task.artifactEvents = [] := if_pos silent
    by_cases unspoken : task.statusParts = []
    · have drops : ¬ task.KeepsStatus := by simp [RemoteTask.KeepsStatus, alive, unspoken]
      have dropped : task.statusEvents = [] := if_neg drops
      rw [none_shown, dropped, if_neg (by simp)]
      unfold RemoteTask.fallback lastText
      cases last : task.lastAgentMessage with
      | none =>
          have blank : spoken [] = none := by simp [spoken, textOf]
          simp [silent, unspoken, status, blank]
      | some message => simp [silent, unspoken, boundary, message_promotes]
    · have keeps : task.KeepsStatus := by
        simp [RemoteTask.KeepsStatus, silent, unspoken, boundary]
      have kept : task.statusEvents = [task.statusEvent] := if_pos keeps
      rw [none_shown, kept, if_pos (by simp)]
      simp [silent, unspoken, status, spoken_text]
  · have drops : ¬ task.KeepsStatus := by
      simp [RemoteTask.KeepsStatus, silent, completed, failureTerminalStates]
    have dropped : task.statusEvents = [] := if_neg drops
    have shown : task.artifactEvents =
        [{ taskId := task.id, contextId := task.contextId,
           body := .artifact task.id task.artifactParts false true }] := by
      simp [RemoteTask.artifactEvents, silent, completed, nonFinalTaskStates]
    rw [shown, dropped, if_pos (by simp), if_pos silent]
    simp [promoted_eq, spoken_text]

theorem stream_output {firsts : List (String × List Part)} {task : RemoteTask}
    (completed : task.state = .completed) :
    (((firsts.findSome? fun artifact => spoken artifact.2).or
        (promotedText (eventContent task.statusEvent))).getD "") =
      (firsts.filterMap fun artifact => spoken artifact.2).head?.getD
        (textOf task.statusParts) := by
  rw [status_promotes completed, List.head?_filterMap]
  cases firsts.findSome? fun artifact => spoken artifact.2 with
  | none => exact spoken_text task.statusParts
  | some text => rfl

/-- Whether a remote agent streams its answer or hands it over as the snapshot of its
task, the node that is dispatched to it ends the same, with the same output or the
same error, exactly if the snapshot reads alike. -/
theorem streamed_alike_iff (name taskId contextId : String) {responses : List Response}
    {task : RemoteTask} (ended : task.state ∈ taskResponseBoundaryStates)
    (streams : Streams responses task) :
    runRemoteNode name taskId contextId (.answered (responses ++ [statusUpdate task]) none) =
        runRemoteNode name taskId contextId (.answered [.task task] none) ↔
      ReadsAlike task := by
  rw [streamed_eq name taskId contextId streams.under_way, snapshot_eq]
  by_cases failed : task.state ∈ failureTerminalStates
  · -- both are given the failure
    have shows : ShowsStatus task := Or.inl (Or.inl failed)
    have fails : (failureText (eventContent task.statusEvent)).isSome :=
      (failure_tells _).mpr ⟨_, failed, _, rfl⟩
    obtain ⟨text, failure⟩ := Option.isSome_iff_exists.mp fails
    have alike : ReadsAlike task := by
      cases state : task.state <;> simp [state, failureTerminalStates] at failed <;>
        simp [ReadsAlike, state]
    simp [Heard.result, shows, failure, alike]
  · have no_failure : failureText (eventContent task.statusEvent) = none := by
      by_contra fails
      obtain ⟨state, listed, parts, body⟩ :=
        (failure_tells task.statusEvent).mp (Option.isSome_iff_ne_none.mpr fails)
      cases body
      exact failed listed
    by_cases paused : task.state ∈ pauseStates
    · -- without the status the snapshot reads as completed
      have pauses : (pauseText (eventContent task.statusEvent)).isSome :=
        (pause_tells _).mpr ⟨_, paused, _, rfl⟩
      obtain ⟨text, pause⟩ := Option.isSome_iff_exists.mp pauses
      have shown : ShowsStatus task ↔ ReadsAlike task := by
        refine (and_congr_right_iff.mp (reports_pause (.task task)) paused).trans ?_
        cases state : task.state <;> simp [state, pauseStates] at paused <;>
          simp [ReadsAlike, state]
      rw [← shown]
      by_cases shows : ShowsStatus task <;> simp [Heard.result, shows, no_failure, pause]
    · have completed : task.state = .completed := by
        cases state : task.state <;>
          simp [state, taskResponseBoundaryStates, failureTerminalStates, pauseStates] at *
      have no_pause : pauseText (eventContent task.statusEvent) = none := by
        by_contra pauses
        obtain ⟨state, listed, parts, body⟩ :=
          (pause_tells task.statusEvent).mp (Option.isSome_iff_ne_none.mpr pauses)
        cases body
        exact paused listed
      have texts := first_is_all
        (streams.artifacts.filterMap fun artifact : String × List Part => spoken artifact.2)
        (texts_nonempty task) (textOf task.statusParts)
      simp only [no_failure, no_pause, ite_self, Heard.result, Except.ok.injEq,
        stream_output completed, completed_output completed]
      rw [show ReadsAlike task ↔ _ by rw [ReadsAlike, completed]]
      by_cases silent : task.artifactParts = []
      · have none_said := texts_silent silent
        have none_closed : (closed [] (responses.filterMap update?)).filterMap
            (fun artifact : String × List Part => spoken artifact.2) = [] :=
          (none_said ▸ streams.artifacts.filterMap _ : List.Perm _ []).eq_nil
        rw [if_neg (not_not.mpr silent), if_pos silent, none_closed, List.head?_nil,
          Option.getD_none]
        by_cases unspoken : task.statusParts = []
        · have blank : textOf [] = "" := by simp [textOf]
          rw [if_neg (not_not.mpr unspoken), unspoken, blank]
          exact ⟨fun same _ => same.symm, fun blank_text => (blank_text rfl).symm⟩
        · rw [if_pos unspoken]
          simp [unspoken]
      · rw [if_pos silent, if_neg silent, texts_joined]
        exact texts

end Alike

section Sample

/-! A report in two pieces around a thought of its own artifact, and the task it is
the answer of. -/

def reportPart (text : String) : Part := ⟨text, false, none⟩

def reportedTask : RemoteTask where
  id := "t1"
  contextId := "c1"
  state := .completed
  statusParts := [reportPart "done"]
  artifacts :=
    [("a1", [reportPart "Sunny", reportPart " and dry"]), ("a2", [⟨"looked up", true, none⟩])]

def reportedStream : List Response :=
  [ .task { id := "t1", contextId := "c1", state := .submitted },
    .statusUpdate "t1" "c1" .working [reportPart "looking it up"],
    .artifactUpdate "t1" "c1" "a1" [reportPart "Sunny"] false false,
    .artifactUpdate "t1" "c1" "a2" [⟨"looked up", true, none⟩] false true,
    .artifactUpdate "t1" "c1" "a1" [reportPart " and dry"] true true ]

theorem reported_streams : Streams reportedStream reportedTask where
  under_way := by
    simp [reportedStream, UnderWay, taskResponseBoundaryStates]
  artifacts := by decide

theorem reported_alike :
    runRemoteNode "guide" "t0" "c0"
        (.answered (reportedStream ++ [statusUpdate reportedTask]) none) =
      runRemoteNode "guide" "t0" "c0" (.answered [.task reportedTask] none) :=
  (streamed_alike_iff "guide" "t0" "c0" (by decide) reported_streams).mpr (by decide +kernel)

end Sample

end Choirworks.Dag
