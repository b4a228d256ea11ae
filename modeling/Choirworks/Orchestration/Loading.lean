import Choirworks.Library.Untyped
import Choirworks.Orchestration.Snapshot

/-!
Loading a snapshot of any shape: `state_from_json` over untyped documents with the
exceptions it raises, and the two readers that turn two of these into no state,
`load_state` and `SessionManager.load_state`. The fields that the decoder keeps as
they are stay untyped. The parser of the JSON library is a parameter.
-/

namespace Choirworks.Orchestration.Loading

open Untyped

/-! ### Records -/

structure NodeState where
  id : String
  name : String
  agentName : String
  status : NodeStatus
  attempt : Int
  a2aTaskId : Untyped
  output : Untyped
  error : Untyped
  deps : List String
  inputText : String
  derived : Bool
  question : Untyped
  answerText : Untyped
  answerFrom : Untyped
  assistRequestedBy : Untyped
  adoptedHelpers : List String

structure Intervention where
  id : String
  nodeId : String
  question : String
  status : InterventionStatus
  answer : Option Answer
  responder : Untyped
  kind : InterventionKind
  questionType : QuestionType
  options : List String
  multi : Bool
  requester : String
  createdAt : String
  announced : Bool

structure QueuedMessage where
  id : String
  text : String
  sender : String
  quoteId : Untyped
  createdAt : String

structure OrchestrationState where
  planId : String
  planVersion : Int
  nodes : Table NodeState.id
  members : Table Member.name
  interventions : Table Intervention.id
  queue : Table (Prod.fst : String × List QueuedMessage → String)
  derivedCount : Int
  patchCount : Int
  revisionCount : Int
  nextMessage : Int

section Read

-- the time at which the snapshot is read
variable (host : Host) (now : String)

def NodeState.fromDict (json : Untyped) : Except Raised NodeState := do
  let data ← fields json
  let id ← strField host data "id" ""
  let name ← strField host data "name" ""
  let agentName ← strField host data "agent_name" ""
  let status ← memberField host data "status" NodeStatus.members NodeStatus.value .pending
  let attempt ← intField host data "attempt" 0
  let deps ← eachField data "deps" (str host)
  let inputText ← strField host data "input_text" ""
  let adoptedHelpers ← eachField data "adopted_helpers" (str host)
  return {
    id, name, agentName, status, attempt
    a2aTaskId := field data "a2a_task_id"
    output := field data "output"
    error := field data "error"
    deps, inputText
    derived := boolField data "derived" false
    question := field data "question"
    answerText := field data "answer_text"
    answerFrom := field data "answer_from"
    assistRequestedBy := field data "assist_requested_by"
    adoptedHelpers }

def Member.fromDict (json : Untyped) : Except Raised Member := do
  let data ← fields json
  let name ← strField host data "agent_name" ""
  let reason ← strField host data "reason" ""
  let joinedAt ← strField host data "joined_at" now
  return { name, reason, joinedAt }

/-- The text of a list item that is one. -/
def textItem : Untyped → Option String
  | .string value => some value
  | _ => none

def answerFromJson : Untyped → Except Raised (Option Answer)
  | .null => .ok none
  | .string value => .ok (some (.text value))
  | .bool value => .ok (some (.flag value))
  | .array items =>
      match items.mapM textItem with
      | some values => .ok (some (.choices values))
      | none => invalid host (.array items)
  | other => invalid host other

/-- Anything but a list of options counts as none. -/
def optionsFromJson : Untyped → Except Raised (List String)
  | .array items => items.mapM (str host)
  | _ => .ok []

def Intervention.fromDict (json : Untyped) : Except Raised Intervention := do
  let data ← fields json
  let id ← strField host data "id" ""
  let nodeId ← strField host data "node_id" ""
  let question ← strField host data "question" ""
  let status ← memberField host data "status" InterventionStatus.members InterventionStatus.value
    .pending
  let answer ← ((get? data "answer").map (answerFromJson host)).getD (.ok none)
  let kind ← memberField host data "kind" InterventionKind.members InterventionKind.value .question
  let questionType ← memberField host data "question_type" QuestionType.members QuestionType.value
    .input
  let options ← ((get? data "options").map (optionsFromJson host)).getD (.ok [])
  let requester ← strField host data "requester" ""
  let createdAt ← strField host data "created_at" now
  return {
    id, nodeId, question, status, answer
    responder := field data "responder"
    kind, questionType, options
    multi := boolField data "multi" false
    requester, createdAt
    announced := boolField data "announced" false }

def QueuedMessage.fromDict (json : Untyped) : Except Raised QueuedMessage := do
  let data ← fields json
  let id ← strField host data "id" ""
  let text ← strField host data "text" ""
  let sender ← strField host data "sender" "user"
  let createdAt ← strField host data "created_at" now
  return { id, text, sender, quoteId := field data "quote_id", createdAt }

def queueEntry (entry : String × Untyped) : Except Raised (String × List QueuedMessage) := do
  let messages ← each (QueuedMessage.fromDict host now) entry.2
  return (entry.1, messages)

/-- `(data.get("queue") or {}).items()`. -/
def queueEntries (stored : Untyped) : Except Raised (List (String × Untyped)) :=
  if stored.truth then
    match stored with
    | .object entries => .ok entries
    | _ => .error .attribute
  else .ok []

def queueFromJson (stored : Untyped) : Except Raised (List (String × List QueuedMessage)) := do
  (← queueEntries stored).mapM (queueEntry host now)

def OrchestrationState.fromDict (json : Untyped) : Except Raised OrchestrationState :=
  match json with
  | .object data => do
      let planId ← strField host data "plan_id" ""
      let planVersion ← intField host data "plan_version" 1
      let nodes ← eachField data "nodes" (NodeState.fromDict host)
      let members ← eachField data "members" (Member.fromDict host now)
      let interventions ← eachField data "interventions" (Intervention.fromDict host now)
      let queue ← ((get? data "queue").map (queueFromJson host now)).getD (.ok [])
      let derivedCount ← intField host data "derived_count" 0
      let patchCount ← intField host data "patch_count" 0
      let revisionCount ← intField host data "revision_count" 0
      let nextMessage ← intField host data "next_message" 1
      return {
        planId, planVersion
        nodes := .ofList NodeState.id nodes
        members := .ofList Member.name members
        interventions := .ofList Intervention.id interventions
        queue := .ofList Prod.fst queue
        derivedCount, patchCount, revisionCount, nextMessage }
  | _ => .error .value

end Read

/-! ### Reading a stored text -/

/-- The parser of the JSON library with the rest of the host. -/
structure Runtime extends Host where
  loads : String → Except Raised Untyped
  nowIso : String

variable (runtime : Runtime)

def stateFromJson (raw : String) : Except Raised OrchestrationState := do
  let parsed ← runtime.loads raw
  OrchestrationState.fromDict runtime.toHost runtime.nowIso parsed

/-- The metadata of a persisted task. -/
structure Task where
  metadata : List (String × Untyped)

def stateJsonKey : String := "choirworks.state"

def handled (fault : Raised) : Bool := fault == .value || fault == .type

/-- `except (ValueError, TypeError): return None`. -/
def tolerated {α : Type} (read : Except Raised α) : Except Raised (Option α) :=
  match read with
  | .ok value => .ok (some value)
  | .error fault => if handled fault then .ok none else .error fault

def loadState : Option Task → Except Raised (Option OrchestrationState)
  | none => .ok none
  | some task =>
      if task.metadata.isEmpty then .ok none
      else
        match get? task.metadata stateJsonKey with
        | some (.string raw) =>
            if raw = "" then .ok none else tolerated (stateFromJson runtime raw)
        | _ => .ok none

structure ContextRecord where
  state : String

/-- `load_state` of the session manager over its store. -/
def SessionManager.loadState (get : String → Option ContextRecord) (contextId : String) :
    Except Raised (Option OrchestrationState) :=
  match get contextId with
  | none => .ok none
  | some record => tolerated (stateFromJson runtime record.state)

/-! ### The survey of a snapshot -/

section Survey

variable (host : Host)

def nodeSchema : Schema := [
  ("id", textFaults host),
  ("name", textFaults host),
  ("agent_name", textFaults host),
  ("status", memberFaults host (NodeStatus.members.map NodeStatus.value)),
  ("attempt", numberFaults host),
  ("deps", listFaults (textFaults host)),
  ("input_text", textFaults host),
  ("adopted_helpers", listFaults (textFaults host))]

def memberSchema : Schema := [
  ("agent_name", textFaults host),
  ("reason", textFaults host),
  ("joined_at", textFaults host)]

/-- An answer is a text, a flag, a list of texts or none at all. -/
def answerFaults : Untyped → List Raised
  | .null | .string _ | .bool _ => []
  | .array items =>
      if items.all fun item => (textItem item).isSome then [] else refusal host (.array items)
  | other => refusal host other

def optionsFaults : Untyped → List Raised
  | .array items => items.flatMap (textFaults host)
  | _ => []

def interventionSchema : Schema := [
  ("id", textFaults host),
  ("node_id", textFaults host),
  ("question", textFaults host),
  ("status", memberFaults host (InterventionStatus.members.map InterventionStatus.value)),
  ("answer", answerFaults host),
  ("kind", memberFaults host (InterventionKind.members.map InterventionKind.value)),
  ("question_type", memberFaults host (QuestionType.members.map QuestionType.value)),
  ("options", optionsFaults host),
  ("requester", textFaults host),
  ("created_at", textFaults host)]

def messageSchema : Schema := [
  ("id", textFaults host),
  ("text", textFaults host),
  ("sender", textFaults host),
  ("created_at", textFaults host)]

/-- Whatever counts as false is an empty queue; the rest has to be an object of lists. -/
def queueFaults : Untyped → List Raised
  | .object entries =>
      entries.flatMap fun entry => listFaults (recordFaults (messageSchema host)) entry.2
  | other => if other.truth then [.attribute] else []

def stateSchema : Schema := [
  ("plan_id", textFaults host),
  ("plan_version", numberFaults host),
  ("nodes", listFaults (recordFaults (nodeSchema host))),
  ("members", listFaults (recordFaults (memberSchema host))),
  ("interventions", listFaults (recordFaults (interventionSchema host))),
  ("queue", queueFaults host),
  ("derived_count", numberFaults host),
  ("patch_count", numberFaults host),
  ("revision_count", numberFaults host),
  ("next_message", numberFaults host)]

def snapshotFaults : Untyped → List Raised
  | .object data => (stateSchema host).faults data
  | _ => [.value]

end Survey

/-- A text that is no document has the fault that the parser finds. -/
def storedFaults (raw : String) : List Raised :=
  match runtime.loads raw with
  | .ok parsed => snapshotFaults runtime.toHost parsed
  | .error fault => [fault]

/-! ### The decoder follows the survey -/

section Follows

variable {host : Host} {now : String}

theorem node_reports (json : Untyped) :
    Reports (NodeState.fromDict host json) (recordFaults (nodeSchema host) json) := by
  apply record_reports
  intro data
  simp only [Schema.faults, nodeSchema, List.flatMap_cons, List.flatMap_nil]
  refine (str_field_reports "id" "").bind fun id => ?_
  refine (str_field_reports "name" "").bind fun name => ?_
  refine (str_field_reports "agent_name" "").bind fun agentName => ?_
  refine (member_field_reports "status" _ _ _).bind fun status => ?_
  refine (int_field_reports "attempt" 0).bind fun attempt => ?_
  refine (each_field_reports "deps" str_reports).bind fun deps => ?_
  refine (str_field_reports "input_text" "").bind fun inputText => ?_
  exact (each_field_reports "adopted_helpers" str_reports).bind fun _ => .ok _

theorem member_reports (json : Untyped) :
    Reports (Member.fromDict host now json) (recordFaults (memberSchema host) json) := by
  apply record_reports
  intro data
  simp only [Schema.faults, memberSchema, List.flatMap_cons, List.flatMap_nil]
  refine (str_field_reports "agent_name" "").bind fun name => ?_
  refine (str_field_reports "reason" "").bind fun reason => ?_
  exact (str_field_reports "joined_at" now).bind fun _ => .ok _

theorem answer_reports (json : Untyped) :
    Reports (answerFromJson host json) (answerFaults host json) := by
  cases json with
  | null => exact .ok _
  | bool value => exact .ok _
  | string value => exact .ok _
  | array items =>
      have texts : (items.mapM textItem).isSome = items.all fun item => (textItem item).isSome := by
        induction items with
        | nil => rfl
        | cons item rest ih =>
            rw [List.all_cons, ← ih, List.mapM_cons]
            cases textItem item <;> cases rest.mapM textItem <;> rfl
      rw [answerFromJson, answerFaults, ← texts]
      cases items.mapM textItem with
      | none => exact invalid_reports _
      | some values => exact .ok _
  | integer value => exact invalid_reports _
  | float value => exact invalid_reports _
  | object fields => exact invalid_reports _

theorem options_reports (json : Untyped) :
    Reports (optionsFromJson host json) (optionsFaults host json) := by
  cases json with
  | array items => exact .mapM items _ str_reports
  | _ => rfl

theorem intervention_reports (json : Untyped) :
    Reports (Intervention.fromDict host now json) (recordFaults (interventionSchema host) json) := by
  apply record_reports
  intro data
  simp only [Schema.faults, interventionSchema, List.flatMap_cons, List.flatMap_nil]
  refine (str_field_reports "id" "").bind fun id => ?_
  refine (str_field_reports "node_id" "").bind fun nodeId => ?_
  refine (str_field_reports "question" "").bind fun question => ?_
  refine (member_field_reports "status" _ _ _).bind fun status => ?_
  refine (field_reports answer_reports none).bind fun answer => ?_
  refine (member_field_reports "kind" _ _ _).bind fun kind => ?_
  refine (member_field_reports "question_type" _ _ _).bind fun questionType => ?_
  refine (field_reports options_reports []).bind fun options => ?_
  refine (str_field_reports "requester" "").bind fun requester => ?_
  exact (str_field_reports "created_at" now).bind fun _ => .ok _

theorem message_reports (json : Untyped) :
    Reports (QueuedMessage.fromDict host now json) (recordFaults (messageSchema host) json) := by
  apply record_reports
  intro data
  simp only [Schema.faults, messageSchema, List.flatMap_cons, List.flatMap_nil]
  refine (str_field_reports "id" "").bind fun id => ?_
  refine (str_field_reports "text" "").bind fun text => ?_
  refine (str_field_reports "sender" "user").bind fun sender => ?_
  exact (str_field_reports "created_at" now).bind fun _ => .ok _

/-- What counts as true and is no object has no `items`. -/
theorem queue_foreign {json : Untyped} (foreign : ∀ entries, json ≠ .object entries) :
    Reports (queueFromJson host now json) (if json.truth then [.attribute] else []) := by
  by_cases full : json.truth = true
  · have fails : queueEntries json = .error .attribute := by
      rw [queueEntries.eq_def, if_pos full]
      cases json with
      | object entries => exact absurd rfl (foreign entries)
      | _ => rfl
    rw [queueFromJson, fails, if_pos full]
    exact .error _
  · have empty : queueEntries json = .ok [] := by rw [queueEntries.eq_def, if_neg full]
    rw [queueFromJson, empty, if_neg full]
    exact .ok []

theorem queue_reports (json : Untyped) :
    Reports (queueFromJson host now json) (queueFaults host json) := by
  have entry : ∀ entry : String × Untyped, Reports (queueEntry host now entry)
      (listFaults (recordFaults (messageSchema host)) entry.2) :=
    fun entry => (each_reports message_reports entry.2).finish _
  cases json with
  | object entries =>
      cases entries with
      | nil => exact .ok []
      | cons first rest => exact .mapM (first :: rest) _ entry
  | null => exact queue_foreign (by simp)
  | bool value => exact queue_foreign (by simp)
  | integer value => exact queue_foreign (by simp)
  | float value => exact queue_foreign (by simp)
  | string value => exact queue_foreign (by simp)
  | array items => exact queue_foreign (by simp)

theorem snapshot_reports (json : Untyped) :
    Reports (OrchestrationState.fromDict host now json) (snapshotFaults host json) := by
  cases json with
  | object data =>
      simp only [OrchestrationState.fromDict, snapshotFaults, Schema.faults, stateSchema,
        List.flatMap_cons, List.flatMap_nil]
      refine (str_field_reports "plan_id" "").bind fun planId => ?_
      refine (int_field_reports "plan_version" 1).bind fun planVersion => ?_
      refine (each_field_reports "nodes" node_reports).bind fun nodes => ?_
      refine (each_field_reports "members" member_reports).bind fun members => ?_
      refine (each_field_reports "interventions" intervention_reports).bind fun interventions => ?_
      refine (field_reports queue_reports []).bind fun queue => ?_
      refine (int_field_reports "derived_count" 0).bind fun derivedCount => ?_
      refine (int_field_reports "patch_count" 0).bind fun patchCount => ?_
      refine (int_field_reports "revision_count" 0).bind fun revisionCount => ?_
      exact (int_field_reports "next_message" 1).bind fun _ => .ok _
  | _ => rfl

end Follows

/-- The reader of a stored text fails with its first fault. -/
theorem state_from_json_reports (raw : String) :
    Reports (stateFromJson runtime raw) (storedFaults runtime raw) := by
  rw [stateFromJson, storedFaults]
  cases runtime.loads raw with
  | ok parsed => exact snapshot_reports parsed
  | error fault => exact .error fault

/-! ### Refusals -/

/-- Nothing is raised. -/
def Returns {α : Type} (read : Except Raised α) : Prop := ∃ value, read = .ok value

/-- No fault at all, or a first one that the readers handle. -/
def Refusable (raw : String) : Prop :=
  ∀ fault ∈ (storedFaults runtime raw).head?, handled fault = true

instance (raw : String) : Decidable (Refusable runtime raw) :=
  inferInstanceAs (Decidable (∀ fault ∈ (storedFaults runtime raw).head?, _))

theorem tolerated_returns {α : Type} {read : Except Raised α} {faults : List Raised}
    (reports : Reports read faults) :
    Returns (tolerated read) ↔ ∀ fault ∈ faults.head?, handled fault = true := by
  cases read with
  | ok value =>
      have clean : faults = [] := reports
      simp [clean, tolerated, Returns]
  | error fault =>
      have head : faults.head? = some fault := reports
      by_cases may : handled fault = true <;> simp [head, tolerated, Returns, may]

/-- Both readers return exactly where the first fault of the stored text is one
that they handle: not an attribute of something that is no object, an infinite
number or a value that is nested too deep. -/
theorem load_state_returns_iff (raw : String) (task : Task)
    (get : String → Option ContextRecord) (contextId : String)
    (kept : get? task.metadata stateJsonKey = some (.string raw))
    (row : get contextId = some ⟨raw⟩) :
    (Returns (loadState runtime (some task)) ∧
      Returns (SessionManager.loadState runtime get contextId)) ↔ Refusable runtime raw := by
  have reads := tolerated_returns (state_from_json_reports runtime raw)
  have managed : SessionManager.loadState runtime get contextId =
      tolerated (stateFromJson runtime raw) := by
    rw [SessionManager.loadState, row]
  have some_fields : task.metadata.isEmpty = false := by
    cases fields : task.metadata with
    | nil =>
        rw [fields] at kept
        cases kept
    | cons => rfl
  have loaded : loadState runtime (some task) =
      if raw = "" then .ok none else tolerated (stateFromJson runtime raw) := by
    rw [loadState, some_fields, kept]
    rfl
  rw [managed, loaded]
  constructor
  · exact fun both => reads.mp both.2
  · intro refusable
    have returns := reads.mpr refusable
    by_cases empty : raw = ""
    · rw [if_pos empty]
      exact ⟨⟨none, rfl⟩, returns⟩
    · rw [if_neg empty]
      exact ⟨returns, returns⟩

/-! ### What the program has written -/

mutual

/-- A document of the writer among those of the parser. -/
def ofJson : Json → Untyped
  | .null => .null
  | .bool value => .bool value
  | .number value => .integer value
  | .string value => .string value
  | .array items => .array (ofItems items)
  | .object fields => .object (ofFields fields)

def ofItems : List Json → List Untyped
  | [] => []
  | item :: rest => ofJson item :: ofItems rest

def ofFields : List (String × Json) → List (String × Untyped)
  | [] => []
  | (name, value) :: rest => (name, ofJson value) :: ofFields rest

end

section Written

variable {host : Host} {faults : Untyped → List Raised}

theorem ofItems_eq_map (items : List Json) : ofItems items = items.map ofJson := by
  induction items with
  | nil => rfl
  | cons item rest ih => rw [ofItems, ih, List.map_cons]

theorem field_clean {data : List (String × Untyped)} {name : String} {value : Untyped}
    (stored : get? data name = some value) (clean : faults value = []) :
    fieldFaults data name faults = [] := by
  rw [fieldFaults, stored]
  exact clean

theorem items_clean {items : List Json} (clean : ∀ item ∈ items, faults (ofJson item) = []) :
    listFaults faults (ofJson (.array items)) = [] := by
  rw [ofJson, ofItems_eq_map, listFaults, List.flatMap_eq_nil_iff]
  intro item member
  obtain ⟨written, inside, rfl⟩ := List.mem_map.mp member
  exact clean written inside

variable (host) in
theorem strings_clean (values : List String) :
    listFaults (textFaults host) (ofJson (Json.ofStrings values)) = [] := by
  apply items_clean
  intro item member
  obtain ⟨value, _, rfl⟩ := List.mem_map.mp member
  rfl

variable (host) in
theorem enum_clean {Member : Type} {members : List Member} (value : Member → String)
    (listed : ∀ candidate, candidate ∈ members) (member : Member) :
    memberFaults host (members.map value) (.string (value member)) = [] :=
  if_pos (List.mem_map_of_mem (listed member))

theorem node_clean (node : Orchestration.NodeState) :
    recordFaults (nodeSchema host) (ofJson node.toDict) = [] := by
  have status := enum_clean host NodeStatus.value NodeStatus.members_complete node.status
  have deps := strings_clean host node.deps
  have helpers := strings_clean host node.adoptedHelpers
  rw [Orchestration.NodeState.toDict, ofJson, recordFaults, Schema.faults, List.flatMap_eq_nil_iff]
  intro row member
  simp only [nodeSchema, List.mem_cons, List.not_mem_nil, or_false] at member
  rcases member with rfl | rfl | rfl | rfl | rfl | rfl | rfl | rfl
  · exact field_clean rfl rfl
  · exact field_clean rfl rfl
  · exact field_clean rfl rfl
  · exact field_clean rfl status
  · exact field_clean rfl rfl
  · exact field_clean rfl deps
  · exact field_clean rfl rfl
  · exact field_clean rfl helpers

theorem member_clean (joined : Orchestration.Member) :
    recordFaults (memberSchema host) (ofJson joined.toDict) = [] := by
  rw [Orchestration.Member.toDict, ofJson, recordFaults, Schema.faults, List.flatMap_eq_nil_iff]
  intro row member
  simp only [memberSchema, List.mem_cons, List.not_mem_nil, or_false] at member
  rcases member with rfl | rfl | rfl <;> exact field_clean rfl rfl

theorem answer_clean (answer : Option Answer) :
    answerFaults host (ofJson (answerToJson answer)) = [] := by
  cases answer with
  | none => rfl
  | some answer =>
      cases answer with
      | text value => rfl
      | flag value => rfl
      | choices values =>
          rw [answerToJson, Json.ofStrings, ofJson, ofItems_eq_map, answerFaults, if_pos]
          rw [List.all_eq_true]
          intro item member
          obtain ⟨written, inside, rfl⟩ := List.mem_map.mp member
          obtain ⟨value, _, rfl⟩ := List.mem_map.mp inside
          rfl

theorem intervention_clean (intervention : Orchestration.Intervention) :
    recordFaults (interventionSchema host) (ofJson intervention.toDict) = [] := by
  have status := enum_clean host InterventionStatus.value InterventionStatus.members_complete
    intervention.status
  have kind := enum_clean host InterventionKind.value InterventionKind.members_complete
    intervention.kind
  have type := enum_clean host QuestionType.value QuestionType.members_complete
    intervention.questionType
  have answer := @answer_clean host intervention.answer
  have options := strings_clean host intervention.options
  rw [Orchestration.Intervention.toDict, ofJson, recordFaults, Schema.faults,
    List.flatMap_eq_nil_iff]
  intro row member
  simp only [interventionSchema, List.mem_cons, List.not_mem_nil, or_false] at member
  rcases member with rfl | rfl | rfl | rfl | rfl | rfl | rfl | rfl | rfl | rfl
  · exact field_clean rfl rfl
  · exact field_clean rfl rfl
  · exact field_clean rfl rfl
  · exact field_clean rfl status
  · exact field_clean rfl answer
  · exact field_clean rfl kind
  · exact field_clean rfl type
  · exact field_clean rfl options
  · exact field_clean rfl rfl
  · exact field_clean rfl rfl

theorem message_clean (message : Orchestration.QueuedMessage) :
    recordFaults (messageSchema host) (ofJson message.toDict) = [] := by
  rw [Orchestration.QueuedMessage.toDict, ofJson, recordFaults, Schema.faults,
    List.flatMap_eq_nil_iff]
  intro row member
  simp only [messageSchema, List.mem_cons, List.not_mem_nil, or_false] at member
  rcases member with rfl | rfl | rfl | rfl <;> exact field_clean rfl rfl

theorem rows_clean {Row : Type} {encode : Row → Json} (rows : List Row)
    (clean : ∀ row, faults (ofJson (encode row)) = []) :
    listFaults faults (ofJson (.array (rows.map encode))) = [] := by
  apply items_clean
  intro item member
  obtain ⟨row, _, rfl⟩ := List.mem_map.mp member
  exact clean row

theorem queue_clean (queue : List (String × List Orchestration.QueuedMessage)) :
    queueFaults host (ofJson (.object (queue.map fun entry =>
      (entry.1, .array (entry.2.map Orchestration.QueuedMessage.toDict))))) = [] := by
  rw [ofJson, queueFaults]
  induction queue with
  | nil => rfl
  | cons entry rest ih =>
      rw [List.map_cons, ofFields, List.flatMap_cons, ih, List.append_nil]
      exact rows_clean entry.2 message_clean

/-- What `state_to_json` writes has no fault. -/
theorem snapshot_clean (state : Orchestration.OrchestrationState) :
    snapshotFaults host (ofJson state.toDict) = [] := by
  have nodes := rows_clean state.nodes.rows (@node_clean host)
  have members := rows_clean state.members.rows (@member_clean host)
  have interventions := rows_clean state.interventions.rows (@intervention_clean host)
  have queue := @queue_clean host state.queue.rows
  rw [Orchestration.OrchestrationState.toDict, ofJson, snapshotFaults, Schema.faults,
    List.flatMap_eq_nil_iff]
  intro row member
  simp only [stateSchema, List.mem_cons, List.not_mem_nil, or_false] at member
  rcases member with rfl | rfl | rfl | rfl | rfl | rfl | rfl | rfl | rfl | rfl
  · exact field_clean rfl rfl
  · exact field_clean rfl rfl
  · exact field_clean rfl nodes
  · exact field_clean rfl members
  · exact field_clean rfl interventions
  · exact field_clean rfl queue
  · exact field_clean rfl rfl
  · exact field_clean rfl rfl
  · exact field_clean rfl rfl
  · exact field_clean rfl rfl

end Written

/-- A snapshot that the program has written itself is read, and never refused. -/
theorem written_is_read (state : Orchestration.OrchestrationState) {raw : String}
    (parsed : runtime.loads raw = .ok (ofJson state.toDict)) :
    ∃ loaded, stateFromJson runtime raw = .ok loaded := by
  apply (state_from_json_reports runtime raw).reads_iff.mpr
  rw [storedFaults, parsed]
  exact snapshot_clean state

section Samples

def sampleText : String := "\x7b\"nodes\": [1]\x7d"

/-- A host that knows two documents. -/
def sampleRuntime : Runtime where
  repr := fun _ => "object"
  tooDeep := fun _ => false
  parseInt := fun _ => none
  loads := fun text =>
    if text = sampleText then .ok (.object [("nodes", .array [.integer 1])])
    else if text = "[]" then .ok (.array [])
    else .error .value
  nowIso := "now"

def sampleTask (raw : String) : Task := ⟨[(stateJsonKey, .string raw)]⟩

/-- A snapshot that is no object is refused by both. -/
theorem list_is_refused :
    Returns (loadState sampleRuntime (some (sampleTask "[]"))) ∧
      Returns (SessionManager.loadState sampleRuntime (fun _ => some ⟨"[]"⟩) "c1") := by
  refine (load_state_returns_iff sampleRuntime "[]" (sampleTask "[]") (fun _ => some ⟨"[]"⟩) "c1"
    rfl rfl).mpr ?_
  decide

/-- A number among the nodes has no `get`. -/
theorem number_for_node_raises :
    ¬ ∀ (runtime : Runtime) (raw : String) (task : Task) (get : String → Option ContextRecord)
      (contextId : String), get? task.metadata stateJsonKey = some (.string raw) →
        get contextId = some ⟨raw⟩ → Returns (loadState runtime (some task)) ∧
          Returns (SessionManager.loadState runtime get contextId) := by
  intro claim
  obtain ⟨⟨_, returned⟩, _⟩ := claim sampleRuntime sampleText (sampleTask sampleText)
    (fun _ => some ⟨sampleText⟩) "c1" rfl rfl
  have raised : loadState sampleRuntime (some (sampleTask sampleText)) = .error .attribute := rfl
  rw [raised] at returned
  cases returned

end Samples

end Choirworks.Orchestration.Loading
