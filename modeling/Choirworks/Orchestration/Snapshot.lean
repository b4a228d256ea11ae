import Choirworks.Library.Json
import Choirworks.Orchestration.State

/-!
The persisted snapshot: `state_to_json`, `state_from_json` and the codecs of the
records. Maps are stored as lists and keyed again on reading; every record is
stored under its own key. The parser of the JSON library is a parameter that
reads back what was written.
-/

namespace Choirworks.Orchestration

open Json

/-! ### Enumerations -/

def NodeStatus.members : List NodeStatus :=
  [.pending, .ready, .submitted, .working, .inputRequired, .recover, .completed, .failed, .canceled,
    .invalidated]

def InterventionStatus.value : InterventionStatus → String
  | .pending => "pending"
  | .resolved => "resolved"
  | .expired => "expired"

def InterventionStatus.members : List InterventionStatus := [.pending, .resolved, .expired]

def InterventionKind.value : InterventionKind → String
  | .question => "question"
  | .confirmCancel => "confirm_cancel"

def InterventionKind.members : List InterventionKind := [.question, .confirmCancel]

def QuestionType.value : QuestionType → String
  | .input => "input"
  | .select => "select"
  | .confirm => "confirm"

def QuestionType.members : List QuestionType := [.input, .select, .confirm]

theorem NodeStatus.members_complete (member : NodeStatus) : member ∈ NodeStatus.members := by
  cases member <;> decide

theorem NodeStatus.value_injective : Function.Injective NodeStatus.value := by
  intro left right same
  cases left <;> cases right <;> first | rfl | exact absurd same (by decide)

theorem InterventionStatus.members_complete (member : InterventionStatus) : member ∈ InterventionStatus.members := by
  cases member <;> decide

theorem InterventionStatus.value_injective : Function.Injective InterventionStatus.value := by
  intro left right same
  cases left <;> cases right <;> first | rfl | exact absurd same (by decide)

theorem InterventionKind.members_complete (member : InterventionKind) : member ∈ InterventionKind.members := by
  cases member <;> decide

theorem InterventionKind.value_injective : Function.Injective InterventionKind.value := by
  intro left right same
  cases left <;> cases right <;> first | rfl | exact absurd same (by decide)

theorem QuestionType.members_complete (member : QuestionType) : member ∈ QuestionType.members := by
  cases member <;> decide

theorem QuestionType.value_injective : Function.Injective QuestionType.value := by
  intro left right same
  cases left <;> cases right <;> first | rfl | exact absurd same (by decide)

/-! ### Records -/

def NodeState.dict (node : NodeState) : List (String × Json) := [
  ("id", .string node.id),
  ("name", .string node.name),
  ("agent_name", .string node.agentName),
  ("status", .string node.status.value),
  ("attempt", .number node.attempt),
  ("a2a_task_id", ofOptional node.a2aTaskId),
  ("output", ofOptional (OrchestrationState.truncate node.output)),
  ("error", ofOptional node.error),
  ("deps", ofStrings node.deps),
  ("input_text", .string node.inputText),
  ("derived", .bool node.derived),
  ("question", ofOptional node.question),
  ("answer_text", ofOptional node.answerText),
  ("answer_from", ofOptional node.answerFrom),
  ("assist_requested_by", ofOptional node.assistRequestedBy),
  ("adopted_helpers", ofStrings node.adoptedHelpers)]

def NodeState.toDict (node : NodeState) : Json := .object node.dict

def Member.dict (member : Member) : List (String × Json) := [
  ("agent_name", .string member.name),
  ("reason", .string member.reason),
  ("joined_at", .string member.joinedAt)]

def Member.toDict (member : Member) : Json := .object member.dict

def answerToJson : Option Answer → Json
  | none => .null
  | some (.text value) => .string value
  | some (.choices values) => ofStrings values
  | some (.flag value) => .bool value

def Intervention.dict (intervention : Intervention) : List (String × Json) := [
  ("id", .string intervention.id),
  ("node_id", .string intervention.nodeId),
  ("question", .string intervention.question),
  ("status", .string intervention.status.value),
  ("answer", answerToJson intervention.answer),
  ("responder", ofOptional intervention.responder),
  ("kind", .string intervention.kind.value),
  ("question_type", .string intervention.questionType.value),
  ("options", ofStrings intervention.options),
  ("multi", .bool intervention.multi),
  ("requester", .string intervention.requester),
  ("created_at", .string intervention.createdAt),
  ("announced", .bool intervention.announced)]

def Intervention.toDict (intervention : Intervention) : Json := .object intervention.dict

def QueuedMessage.dict (message : QueuedMessage) : List (String × Json) := [
  ("id", .string message.id),
  ("text", .string message.text),
  ("sender", .string message.sender),
  ("quote_id", ofOptional message.quoteId),
  ("created_at", .string message.createdAt)]

def QueuedMessage.toDict (message : QueuedMessage) : Json := .object message.dict

section Read

-- the time at which the snapshot is read
variable (host : Host) (now : String)

def NodeState.fromDict (json : Json) : Except String NodeState := do
  let data ← fields json
  let status ← enumField host "NodeStatus" NodeStatus.members NodeStatus.value data "status" .pending
  let attempt ← intField host data "attempt" 0
  let a2aTaskId ← optionalField data "a2a_task_id"
  let output ← optionalField data "output"
  let error ← optionalField data "error"
  let deps ← strsField host data "deps"
  let question ← optionalField data "question"
  let answerText ← optionalField data "answer_text"
  let answerFrom ← optionalField data "answer_from"
  let assistRequestedBy ← optionalField data "assist_requested_by"
  let adoptedHelpers ← strsField host data "adopted_helpers"
  return {
    id := strField host data "id" ""
    name := strField host data "name" ""
    agentName := strField host data "agent_name" ""
    status, attempt, a2aTaskId, output, error, deps
    inputText := strField host data "input_text" ""
    derived := boolField data "derived" false
    question, answerText, answerFrom, assistRequestedBy, adoptedHelpers }

def Member.fromDict (json : Json) : Except String Member := do
  let data ← fields json
  return {
    name := strField host data "agent_name" ""
    reason := strField host data "reason" ""
    joinedAt := strField host data "joined_at" now }

/-- The text of a list item that is one. -/
def textItem : Json → Option String
  | .string value => some value
  | _ => none

def answerFromJson : Json → Except String (Option Answer)
  | .null => .ok none
  | .string value => .ok (some (.text value))
  | .bool value => .ok (some (.flag value))
  | .array items =>
      match items.mapM textItem with
      | some values => .ok (some (.choices values))
      | none => .error ("invalid intervention answer: " ++ host.repr (.array items))
  | other => .error ("invalid intervention answer: " ++ host.repr other)

/-- Anything but a list of options counts as none. -/
def optionsFromJson : Option Json → List String
  | some (.array items) => items.map (str host)
  | _ => []

def Intervention.fromDict (json : Json) : Except String Intervention := do
  let data ← fields json
  let status ← enumField host "InterventionStatus" InterventionStatus.members
    InterventionStatus.value data "status" .pending
  let answer ← answerFromJson host ((get? data "answer").getD .null)
  let responder ← optionalField data "responder"
  let kind ← enumField host "InterventionKind" InterventionKind.members InterventionKind.value data
    "kind" .question
  let questionType ← enumField host "QuestionType" QuestionType.members QuestionType.value data
    "question_type" .input
  return {
    id := strField host data "id" ""
    nodeId := strField host data "node_id" ""
    question := strField host data "question" ""
    status, answer, responder, kind, questionType
    options := optionsFromJson host (get? data "options")
    multi := boolField data "multi" false
    requester := strField host data "requester" ""
    createdAt := strField host data "created_at" now
    announced := boolField data "announced" false }

def QueuedMessage.fromDict (json : Json) : Except String QueuedMessage := do
  let data ← fields json
  let quoteId ← optionalField data "quote_id"
  return {
    id := strField host data "id" ""
    text := strField host data "text" ""
    sender := strField host data "sender" "user"
    quoteId
    createdAt := strField host data "created_at" now }

/-! ### The state -/

def queueEntry (entry : String × Json) : Except String (String × List QueuedMessage) := do
  let messages ← items entry.2
  let read ← messages.mapM (QueuedMessage.fromDict host now)
  return (entry.1, read)

/-- `(data.get("queue") or {}).items()`. -/
def queueEntries (data : List (String × Json)) : Except String (List (String × Json)) :=
  match get? data "queue" with
  | none => .ok []
  | some stored =>
      if stored.truth then
        match stored with
        | .object entries => .ok entries
        | other => .error ("'" ++ other.typeName ++ "' object has no attribute 'items'")
      else .ok []

def OrchestrationState.fromDict (json : Json) : Except String OrchestrationState :=
  match json with
  | .object data => do
      let planVersion ← intField host data "plan_version" 1
      let nodes ← (← itemsField data "nodes").mapM (NodeState.fromDict host)
      let members ← (← itemsField data "members").mapM (Member.fromDict host now)
      let interventions ← (← itemsField data "interventions").mapM (Intervention.fromDict host now)
      let queue ← (← queueEntries data).mapM (queueEntry host now)
      let derivedCount ← intField host data "derived_count" 0
      let patchCount ← intField host data "patch_count" 0
      let revisionCount ← intField host data "revision_count" 0
      let nextMessage ← intField host data "next_message" 1
      return {
        planId := strField host data "plan_id" ""
        planVersion
        nodes := .ofList NodeState.id nodes
        members := .ofList Member.name members
        interventions := .ofList Intervention.id interventions
        queue := .ofList Prod.fst queue
        derivedCount, patchCount, revisionCount, nextMessage }
  | _ => .error "state snapshot must be a JSON object"

end Read

def OrchestrationState.dict (state : OrchestrationState) : List (String × Json) := [
  ("plan_id", .string state.planId),
  ("plan_version", .number state.planVersion),
  ("nodes", .array (state.nodes.rows.map NodeState.toDict)),
  ("members", .array (state.members.rows.map Member.toDict)),
  ("interventions", .array (state.interventions.rows.map Intervention.toDict)),
  ("queue", .object (state.queue.rows.map fun entry =>
    (entry.1, .array (entry.2.map QueuedMessage.toDict)))),
  ("derived_count", .number state.derivedCount),
  ("patch_count", .number state.patchCount),
  ("revision_count", .number state.revisionCount),
  ("next_message", .number state.nextMessage)]

def OrchestrationState.toDict (state : OrchestrationState) : Json := .object state.dict

def stateToJson (state : OrchestrationState) : String := dumps state.toDict

def stateFromJson (loads : String → Except String Json) (host : Host) (now raw : String) :
    Except String OrchestrationState := do
  let parsed ← loads raw
  OrchestrationState.fromDict host now parsed

/-! ### Round trips -/

section RoundTrip

variable (host : Host) (now : String)

open OrchestrationState (truncate restored)

theorem truncate_twice (text : Option String) : truncate (truncate text) = truncate text := by
  cases text with
  | none => rfl
  | some text => simp [truncate, List.take_take]

theorem node_round_trip (node : NodeState) :
    NodeState.fromDict host node.toDict = .ok { node with output := truncate node.output } := by
  have status : enumField host "NodeStatus" NodeStatus.members NodeStatus.value node.dict "status"
      .pending = .ok node.status :=
    enum_field_value NodeStatus.members_complete NodeStatus.value_injective rfl
  have attempt : intField host node.dict "attempt" 0 = .ok node.attempt := int_field_number rfl
  have task : optionalField node.dict "a2a_task_id" = .ok node.a2aTaskId := optional_field_optional rfl
  have output : optionalField node.dict "output" = .ok (truncate node.output) :=
    optional_field_optional rfl
  have error : optionalField node.dict "error" = .ok node.error := optional_field_optional rfl
  have deps : strsField host node.dict "deps" = .ok node.deps := strs_field_strings rfl
  have question : optionalField node.dict "question" = .ok node.question :=
    optional_field_optional rfl
  have answerText : optionalField node.dict "answer_text" = .ok node.answerText :=
    optional_field_optional rfl
  have answerFrom : optionalField node.dict "answer_from" = .ok node.answerFrom :=
    optional_field_optional rfl
  have requester : optionalField node.dict "assist_requested_by" = .ok node.assistRequestedBy :=
    optional_field_optional rfl
  have helpers : strsField host node.dict "adopted_helpers" = .ok node.adoptedHelpers :=
    strs_field_strings rfl
  simp only [NodeState.fromDict, NodeState.toDict, fields, bind, Except.bind, status, attempt, task,
    output, error, deps, question, answerText, answerFrom, requester, helpers]
  rfl

theorem member_round_trip (member : Member) :
    Member.fromDict host now member.toDict = .ok member := rfl

theorem answer_round_trip (answer : Option Answer) :
    answerFromJson host (answerToJson answer) = .ok answer := by
  rcases answer with _ | ⟨value⟩ | ⟨values⟩ | ⟨value⟩
  · rfl
  · rfl
  · have texts : (values.map Json.string).mapM textItem = some values := by
      induction values with
      | nil => rfl
      | cons value rest ih => simp [textItem, ih]
    simp [answerToJson, ofStrings, answerFromJson, texts]
  · rfl

theorem intervention_round_trip (intervention : Intervention) :
    Intervention.fromDict host now intervention.toDict = .ok intervention := by
  have status : enumField host "InterventionStatus" InterventionStatus.members
      InterventionStatus.value intervention.dict "status" .pending = .ok intervention.status :=
    enum_field_value InterventionStatus.members_complete InterventionStatus.value_injective rfl
  have answer : answerFromJson host ((get? intervention.dict "answer").getD .null) =
      .ok intervention.answer := answer_round_trip host intervention.answer
  have responder : optionalField intervention.dict "responder" = .ok intervention.responder :=
    optional_field_optional rfl
  have kind : enumField host "InterventionKind" InterventionKind.members InterventionKind.value
      intervention.dict "kind" .question = .ok intervention.kind :=
    enum_field_value InterventionKind.members_complete InterventionKind.value_injective rfl
  have questionType : enumField host "QuestionType" QuestionType.members QuestionType.value
      intervention.dict "question_type" .input = .ok intervention.questionType :=
    enum_field_value QuestionType.members_complete QuestionType.value_injective rfl
  have options : optionsFromJson host (get? intervention.dict "options") = intervention.options := by
    show (intervention.options.map Json.string).map (str host) = _
    simp [Function.comp_def, str]
  simp only [Intervention.fromDict, Intervention.toDict, fields, bind, Except.bind, status, answer,
    responder, kind, questionType, options]
  rfl

theorem message_round_trip (message : QueuedMessage) :
    QueuedMessage.fromDict host now message.toDict = .ok message := by
  have quote : optionalField message.dict "quote_id" = .ok message.quoteId :=
    optional_field_optional rfl
  simp only [QueuedMessage.fromDict, QueuedMessage.toDict, fields, bind, Except.bind, quote]
  rfl

theorem queue_round_trip (queue : List (String × List QueuedMessage)) :
    (queue.map fun entry => (entry.1, Json.array (entry.2.map QueuedMessage.toDict))).mapM
      (queueEntry host now) = .ok queue := by
  induction queue with
  | nil => rfl
  | cons entry rest ih =>
      have messages : (entry.2.map QueuedMessage.toDict).mapM (QueuedMessage.fromDict host now) =
          .ok entry.2 := by
        simpa using codec_list _ _ id entry.2 fun message _ => message_round_trip host now message
      rw [List.map_cons, List.mapM_cons, ih]
      simp only [queueEntry, items, bind, Except.bind, messages]
      rfl

variable (state : OrchestrationState)

theorem queue_entries : queueEntries state.dict = .ok (state.queue.rows.map fun entry =>
    (entry.1, Json.array (entry.2.map QueuedMessage.toDict))) := by
  have stored : get? state.dict "queue" = some (.object (state.queue.rows.map fun entry =>
    (entry.1, Json.array (entry.2.map QueuedMessage.toDict)))) := rfl
  rw [queueEntries, stored]
  cases state.queue.rows with
  | nil => rfl
  | cons entry rest => rfl

theorem state_round_trip :
    OrchestrationState.fromDict host now state.toDict = .ok state.restored := by
  have version : intField host state.dict "plan_version" 1 = .ok state.planVersion :=
    int_field_number rfl
  have nodeItems : itemsField state.dict "nodes" = .ok (state.nodes.rows.map NodeState.toDict) :=
    items_field_array rfl
  have nodes : (state.nodes.rows.map NodeState.toDict).mapM (NodeState.fromDict host) =
      .ok (state.nodes.rows.map fun node => { node with output := truncate node.output }) :=
    codec_list _ _ _ _ fun node _ => node_round_trip host node
  have memberItems : itemsField state.dict "members" =
      .ok (state.members.rows.map Member.toDict) := items_field_array rfl
  have members : (state.members.rows.map Member.toDict).mapM (Member.fromDict host now) =
      .ok state.members.rows := by
    simpa using codec_list _ _ id _ fun member _ => member_round_trip host now member
  have interventionItems : itemsField state.dict "interventions" =
      .ok (state.interventions.rows.map Intervention.toDict) := items_field_array rfl
  have interventions : (state.interventions.rows.map Intervention.toDict).mapM
      (Intervention.fromDict host now) = .ok state.interventions.rows := by
    simpa using codec_list _ _ id _ fun intervention _ =>
      intervention_round_trip host now intervention
  have derived : intField host state.dict "derived_count" 0 = .ok state.derivedCount :=
    int_field_number rfl
  have patches : intField host state.dict "patch_count" 0 = .ok state.patchCount :=
    int_field_number rfl
  have revisions : intField host state.dict "revision_count" 0 = .ok state.revisionCount :=
    int_field_number rfl
  have next : intField host state.dict "next_message" 1 = .ok state.nextMessage :=
    int_field_number rfl
  have plan : strField host state.dict "plan_id" "" = state.planId := str_field_string rfl
  -- the rows come back under the keys they had
  have keyed : Table.ofList NodeState.id
      (state.nodes.rows.map fun node => { node with output := truncate node.output }) =
      state.restored.nodes := Table.ofList_self state.restored.nodes
  simp only [OrchestrationState.fromDict, OrchestrationState.toDict, bind, Except.bind, version,
    nodeItems, nodes, memberItems, members, interventionItems, interventions, queue_entries,
    queue_round_trip, derived, patches, revisions, next, plan, keyed, Table.ofList_self]
  rfl

/-- A restored state is written as the state it comes from. -/
theorem restored_to_dict : state.restored.toDict = state.toDict := by
  have nodes : state.restored.nodes.rows.map NodeState.toDict =
      state.nodes.rows.map NodeState.toDict := by
    show (state.nodes.rows.map fun node => { node with output := truncate node.output }).map
      NodeState.toDict = _
    rw [List.map_map]
    apply List.map_congr_left
    intro node _
    simp only [Function.comp_apply, NodeState.toDict, NodeState.dict, truncate_twice]
  simp only [OrchestrationState.toDict, OrchestrationState.dict, nodes]
  rfl

/-- The stored snapshot is read as the state with its outputs cut, which is
written as the same text again. -/
theorem snapshot_round_trip (loads : String → Except String Json)
    (inverse : loads (dumps state.toDict) = .ok state.toDict) :
    stateFromJson loads host now (stateToJson state) = .ok state.restored ∧
      stateToJson state.restored = stateToJson state := by
  constructor
  · rw [stateFromJson, stateToJson, inverse]
    exact state_round_trip host now state
  · rw [stateToJson, stateToJson, restored_to_dict]

def sampleOutput : String := String.ofList (List.replicate 2001 'x')

def sampleDep : NodeState :=
  { id := "n1", name := "n1", agentName := "a", status := .completed, attempt := 2,
    output := some sampleOutput, deps := ["n0"] }

def sampleNode : NodeState :=
  { id := "n2", name := "n2", agentName := "b", status := .inputRequired, deps := ["n1"],
    question := some "q" }

/-- A record of every kind, a pending and an answered intervention. -/
def sampleState : OrchestrationState where
  planId := "p2"
  planVersion := 3
  nodes := .ofList NodeState.id [sampleDep, sampleNode]
  members := .ofList Member.name [⟨"a", "plan", "t0"⟩]
  interventions := .ofList Intervention.id [
    { id := "i1", nodeId := "n2", question := "q", questionType := .select, options := ["x", "y"],
      createdAt := "t1" },
    { id := "i2", nodeId := "n1", question := "q", status := .resolved, answer := some (.flag true),
      responder := some "human", kind := .confirmCancel, questionType := .confirm,
      createdAt := "t2" }]
  queue := .ofList Prod.fst [("n2", [⟨"qm1", "hi", "user", some "n1", "t3"⟩])]
  nextMessage := 2

def sampleLoads (text : String) : Except String Json :=
  if text = dumps sampleState.toDict then .ok sampleState.toDict else .error "malformed"

theorem sample_loads : sampleLoads (dumps sampleState.toDict) = .ok sampleState.toDict := if_pos rfl

theorem sample_round_trip :
    stateFromJson sampleLoads ⟨dumps, fun _ => .error "malformed"⟩ "t9" (stateToJson sampleState) =
        .ok sampleState.restored ∧
      stateToJson sampleState.restored = stateToJson sampleState :=
  snapshot_round_trip _ _ sampleState _ sample_loads

end RoundTrip

end Choirworks.Orchestration
