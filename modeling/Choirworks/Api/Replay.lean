import Choirworks.Library.Json
import Choirworks.Orchestration.Streaming
import Mathlib.Data.List.Sort

/-!
The replay of a stored conversation: the tasks of a context as the stream
events a client would have seen. A history artifact carries only a role and a
text, so the replay finds by the text which intervention it announced or
answered. `replayTasks` keeps apart what each artifact adds.
-/

namespace Choirworks.Api

open Orchestration Orchestration.Streaming

abbrev Metadata := List (String × Json)

/-- `string_value` of a field: absent fields and other values give the empty string. -/
def stringValue (metadata : Metadata) (field : String) : String :=
  match metadata.lookup field with
  | some (.string value) => value
  | _ => ""

structure Part where
  text : String := ""
  data : Option Json := none
  metadata : Metadata := []

/-- The texts of the parts, joined. -/
def partsText (parts : List Part) : String :=
  Text.join "" ((parts.map Part.text).filter fun text => text ≠ "")

inductive Role where
  | unspecified | user | agent
deriving DecidableEq

structure Message where
  messageId : String
  role : Role
  parts : List Part

structure Artifact where
  artifactId : String
  name : String := ""
  parts : List Part
  metadata : Metadata := []

/-- A field of the first part's metadata. -/
def Artifact.field (artifact : Artifact) (name : String) : String :=
  match artifact.parts with
  | [] => ""
  | first :: _ => stringValue first.metadata name

def Artifact.kind (artifact : Artifact) : String := artifact.field "cw_type"

def Artifact.role (artifact : Artifact) : String := artifact.field "role"

def Artifact.text (artifact : Artifact) : String := partsText artifact.parts

structure Task where
  id : String
  contextId : String
  state : TaskState
  history : List Message := []
  artifacts : List Artifact := []

/-! ### The events -/

structure NodeDelta where
  status : NodeStatus
  output : String
  error : String
  name : String
  agentName : String

structure InterventionDelta where
  status : InterventionStatus
  nodeId : String
  kind : InterventionKind
  question : String
  responder : String
  questionType : QuestionType
  options : List String
  multi : Bool
  requester : String
  answer : Option Answer

/-- `cw_delta`; `none` is an absent key. -/
structure StateDelta where
  nodes : Option (List (String × NodeDelta)) := none
  members : Option (List Member) := none
  interventions : Option (List (String × InterventionDelta)) := none

/-- The id of a user message: the stored message's, or a drawn one. -/
inductive MessageId where
  | stored (id : String)
  | drawn
deriving DecidableEq

inductive StreamResponse where
  | task (task : Task)
  | message (id : MessageId) (role : Role) (taskId contextId : String) (parts : List Part)
  | artifactUpdate (taskId contextId : String) (artifact : Artifact) (append lastChunk : Bool)
  | statusUpdate (taskId contextId : String) (state : TaskState) (delta : StateDelta)

/-- `_intervention_delta`. -/
def interventionDelta (intervention : Intervention) : InterventionDelta where
  status := intervention.status
  nodeId := intervention.nodeId
  kind := intervention.kind
  question := intervention.question
  responder := intervention.responder.getD ""
  questionType := intervention.questionType
  options := intervention.options
  multi := intervention.multi
  requester := intervention.requester
  answer := intervention.answer

def nodeDelta (node : NodeState) : NodeDelta where
  status := node.status
  output := node.output.getD ""
  error := node.error.getD ""
  name := node.name
  agentName := node.agentName

/-- `_state_delta_event`: the whole state, entries without an id left out. -/
def stateDeltaEvent (state : OrchestrationState) (contextId taskId : String)
    (taskState : TaskState) : StreamResponse :=
  .statusUpdate taskId contextId taskState
    { nodes := some ((state.nodes.rows.filter fun node => node.id ≠ "").map fun node =>
        (node.id, nodeDelta node))
      members := some state.members.rows
      interventions := some ((state.interventions.rows.filter fun entry => entry.id ≠ "").map
        fun entry => (entry.id, interventionDelta entry)) }

def artifactUpdate (taskId contextId : String) (artifact : Artifact) : StreamResponse :=
  .artifactUpdate taskId contextId artifact false true

def messageEvent (taskId contextId : String) (messageId : MessageId) (text : String) :
    StreamResponse :=
  .message messageId .user taskId contextId [{ text }]

/-- `_intervention_delta_event`; a given status goes without the answer. -/
def interventionDeltaEvent (task : Task) (contextId : String) (intervention : Intervention)
    (status : Option InterventionStatus) : StreamResponse :=
  let delta := interventionDelta intervention
  let shown := match status with
    | none => delta
    | some status => { delta with status, answer := none }
  .statusUpdate task.id contextId task.state { interventions := some [(intervention.id, shown)] }

/-! ### Finding the intervention of a text -/

def findQuestion (interventions : List Intervention) (claimed : List String) (text : String) :
    Option Intervention :=
  interventions.find? fun intervention =>
    intervention.id ∉ claimed ∧ intervention.question = text

def findAnswer (interventions : List Intervention) (claimed answered : List String)
    (text : String) : Option Intervention :=
  interventions.find? fun intervention =>
    (intervention.id ∈ claimed ∧ intervention.id ∉ answered) ∧
      intervention.status = .resolved ∧ intervention.renderAnswer = text

/-- The interventions of the state by creation time; equal times keep their order. -/
def byCreation (state : Option OrchestrationState) : List Intervention :=
  match state with
  | none => []
  | some state =>
      state.interventions.rows.insertionSort fun left right => left.createdAt ≤ right.createdAt

/-! ### The loop -/

/-- The sets the loop carries, and the message ids of the current task by text. -/
structure Cursor where
  claimed : List String := []
  answered : List String := []
  pendingUserIds : Dict String (List String) := .empty

/-- `pending_user_ids`: the ids of the user messages of a history by their text. -/
def pendingUserIds (history : List Message) : Dict String (List String) :=
  history.foldl (fun ids message =>
    if message.role = .user then
      let text := partsText message.parts
      ids.set text (ids.getD text [] ++ [message.messageId])
    else ids) .empty

/-- `ids.pop(0) if ids else uuid4().hex`. -/
def popUserId (ids : Dict String (List String)) (text : String) :
    MessageId × Dict String (List String) :=
  match ids.getD text [] with
  | [] => (.drawn, ids)
  | id :: rest => (.stored id, ids.set text rest)

/-- `_replay_history_artifact`; `none` falls back to the generic artifact update. -/
def replayHistoryArtifact (interventions : List Intervention) (contextId : String) (task : Task)
    (cursor : Cursor) (artifact : Artifact) : Option (Cursor × StreamResponse) :=
  let text := artifact.text
  if text = "" then none
  else if artifact.role = "user" then
    match findAnswer interventions cursor.claimed cursor.answered text with
    | some answer =>
        some ({ cursor with answered := answer.id :: cursor.answered },
          interventionDeltaEvent task contextId answer none)
    | none =>
        let (messageId, ids) := popUserId cursor.pendingUserIds text
        some ({ cursor with pendingUserIds := ids }, messageEvent task.id contextId messageId text)
  else if artifact.role = "assistant" then
    match findQuestion interventions cursor.claimed text with
    | some question =>
        some ({ cursor with claimed := question.id :: cursor.claimed },
          interventionDeltaEvent task contextId question (some .pending))
    | none => none
  else none

/-- An artifact that no history event stands for: thoughts and function calls
verbatim, everything else as one part with the joined text. -/
def genericUpdate (contextId : String) (task : Task) (artifact : Artifact) : List StreamResponse :=
  match artifact.parts with
  | [] => []
  | first :: _ =>
      if artifact.kind = "thought" ∨ artifact.kind = "function_call" then
        [artifactUpdate task.id contextId artifact]
      else if artifact.text = "" then []
      else
        [artifactUpdate task.id contextId
          { artifact with parts := [{ text := artifact.text, metadata := first.metadata }] }]

/-- One round of the inner loop: the cursor behind it and the events it appends. -/
def replayArtifact (interventions : List Intervention) (contextId : String) (task : Task)
    (cursor : Cursor) (artifact : Artifact) : Cursor × List StreamResponse :=
  let handled :=
    if artifact.kind = "history" then
      replayHistoryArtifact interventions contextId task cursor artifact
    else none
  match handled with
  | some (next, event) => (next, [event])
  | none => (cursor, genericUpdate contextId task artifact)

def replayArtifacts (interventions : List Intervention) (contextId : String) (task : Task) :
    Cursor → List Artifact → Cursor × List (List StreamResponse)
  | cursor, [] => (cursor, [])
  | cursor, artifact :: rest =>
      let (next, added) := replayArtifact interventions contextId task cursor artifact
      let (final, later) := replayArtifacts interventions contextId task next rest
      (final, added :: later)

/-- The tasks, each with what its artifacts add. -/
def replayTasks (interventions : List Intervention) (contextId : String) :
    Cursor → List Task → List (Task × List (List StreamResponse))
  | _, [] => []
  | cursor, task :: rest =>
      let start := { cursor with pendingUserIds := pendingUserIds task.history }
      let (next, added) := replayArtifacts interventions contextId task start task.artifacts
      (task, added) :: replayTasks interventions contextId next rest

/-- The stored task without its artifacts and its history. -/
def taskEvent (task : Task) : StreamResponse := .task { task with history := [], artifacts := [] }

/-- `synthesize_replay_events`. -/
def synthesizeReplayEvents (tasks : List Task) (contextId : String)
    (state : Option OrchestrationState) : List StreamResponse :=
  match tasks.getLast? with
  | none => []
  | some last =>
      (replayTasks (byCreation state) contextId {} tasks).flatMap (fun (task, added) =>
        taskEvent task :: added.flatten) ++
        match state with
        | none => []
        | some state => [stateDeltaEvent state contextId last.id last.state]

end Choirworks.Api
