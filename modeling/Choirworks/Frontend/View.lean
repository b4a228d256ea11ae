import Choirworks.Library.Json

/-!
The view that the frontend keeps of a conversation, the stream events that it is
made from, and what is read from their parts.
-/

namespace Choirworks.Frontend

/-- The fields of an object (`ProtoStruct`). -/
abbrev Struct := List (String × Json)

namespace Struct

/-- The field, if it is a string (`typeof value === "string"`). -/
def text? (fields : Struct) (name : String) : Option String :=
  match Json.get? fields name with
  | some (.string value) => some value
  | _ => none

/-- The fields of a field; what is no object has none that are read. -/
def inner (fields : Struct) (name : String) : Struct :=
  match Json.get? fields name with
  | some (.object inner) => inner
  | _ => []

/-- `Array.isArray(value)`. -/
def items? (fields : Struct) (name : String) : Option (List Json) :=
  match Json.get? fields name with
  | some (.array items) => some items
  | _ => none

/-- The objects of an array. -/
def structs (fields : Struct) (name : String) : List Struct :=
  ((items? fields name).getD []).map fun
    | .object inner => inner
    | _ => []

/-- `value === wanted` for a Boolean. -/
def isBool (fields : Struct) (name : String) (wanted : Bool) : Bool :=
  match Json.get? fields name with
  | some (.bool value) => value == wanted
  | _ => false

end Struct

mutual

/-- `String(value)`. -/
def toText : Json → String
  | .null => "null"
  | .bool value => if value then "true" else "false"
  | .number value => toString value
  | .string value => value
  | .array items => ",".intercalate (itemTexts items)
  | .object _ => "[object Object]"

/-- A missing item of an array is written as nothing. -/
def itemTexts : List Json → List String
  | [] => []
  | .null :: items => "" :: itemTexts items
  | item :: items => toText item :: itemTexts items

end

/-- `String(value ?? fallback)`. -/
def Struct.coerced (fields : Struct) (name fallback : String) : String :=
  match Json.get? fields name with
  | none | some .null => fallback
  | some value => toText value

/-! ### Stream events -/

inductive Content where
  | text (value : String)
  | data (value : Struct)
  | other

structure Part where
  content : Content
  metadata : Struct := []

inductive Role where
  | user
  | other
deriving DecidableEq

structure Message where
  messageId : Option String
  role : Role
  parts : List Part
  metadata : Struct := []
  taskId : Option String := none

structure Artifact where
  artifactId : Option String
  parts : List Part
  metadata : Struct := []

/-- States are given by their names. -/
structure TaskStatus where
  state : Option String
  message : Option Message := none

structure Task where
  id : Option String
  contextId : Option String
  status : Option TaskStatus
  history : List Message := []
  artifacts : List Artifact := []

/-- What the orchestration reports as changed, by node and by intervention. -/
structure StateDelta where
  nodes : Dict String Struct := .empty
  members : List Struct := []
  interventions : Dict String Struct := .empty

/-- `cwDelta` is the delta in the metadata, `metadata` the rest of them. -/
structure StatusUpdate where
  status : Option TaskStatus
  cwDelta : Option StateDelta := none
  metadata : Struct := []

structure ArtifactUpdate where
  artifact : Artifact
  append : Bool
  lastChunk : Bool

inductive StreamEvent where
  | task (task : Task)
  | statusUpdate (update : StatusUpdate)
  | artifactUpdate (update : ArtifactUpdate)
  | message (message : Message)
  | other

/-! ### The view -/

inductive ChatRole where
  | user
  | assistant
  | agent
deriving DecidableEq

structure ChatMessage where
  id : String
  role : ChatRole
  sender : Option String
  text : String
  mentions : List String
  quoteId : Option String
  nodeId : Option String
  taskId : Option String
  seq : Nat
  thinking : Bool
  dispatch : Bool := false
deriving DecidableEq

structure SystemNotification where
  id : String
  kind : String
  text : String
  agentName : Option String := none
  nodeId : Option String := none
  seq : Nat
deriving DecidableEq

structure WorkingBubble where
  artifactId : String
  nodeId : String
  author : String
  text : String
deriving DecidableEq

structure RoomMember where
  conversationId : String
  agentName : String
  reason : Option String
  joinedAt : Option String
deriving DecidableEq

structure TaskNodeInfo where
  id : String
  name : String
  agentName : String
  status : String
  output : Option String := none
  error : Option String := none
  inputText : Option String := none
deriving DecidableEq

structure InterventionInfo where
  id : String
  status : String
  nodeId : String
  kind : String
  question : Option String
deriving DecidableEq

inductive QuestionType where
  | input
  | select
  | confirm
deriving DecidableEq

/-- A delta may bring any status, so that it is a text. -/
structure QuestionInfo where
  id : String
  nodeId : String
  requester : String
  kind : String
  question : String
  questionType : QuestionType
  options : List String
  multi : Bool
  status : String
  answer : Json
  error : Option String := none
  seq : Nat

structure ConversationView where
  taskId : String
  contextId : String
  state : String
  messages : List ChatMessage
  notifications : List SystemNotification
  members : List RoomMember
  nodes : List TaskNodeInfo
  interventions : Dict String InterventionInfo
  questions : Dict String QuestionInfo
  activeArtifactIds : List String
  workingBubbles : List WorkingBubble
  seenArtifactIds : List String
  lastSeq : Nat

def emptyConversation : ConversationView where
  taskId := ""
  contextId := ""
  state := "TASK_STATE_SUBMITTED"
  messages := []
  notifications := []
  members := []
  nodes := []
  interventions := .empty
  questions := .empty
  activeArtifactIds := []
  workingBubbles := []
  seenArtifactIds := []
  lastSeq := 0

/-! ### Reading parts -/

def roomMetaKey : String := "https://github.com/Javey/choirworks/extensions/room/v1"

def planningRole : String := "规划大脑"

def requesterName (value : Option String) : String :=
  let name := value.getD ""
  if name ≠ "" ∧ name ≠ "assistant" then name else planningRole

def stateName (state : Option String) : String := state.getD "TASK_STATE_UNSPECIFIED"

def Part.text (part : Part) : String :=
  match part.content with
  | .text value => value
  | _ => ""

def textOfParts (parts : List Part) : String := "\n".intercalate (parts.map Part.text)

def roomMetaOf (metadata : Struct) : Struct := metadata.inner roomMetaKey

/-- An unknown type of question is read as `input`. -/
def questionTypeOf (rawType : String) : QuestionType :=
  if rawType = "select" then .select
  else if rawType = "confirm" then .confirm
  else .input

/-- The question of a part that carries one. -/
def questionOfPart (part : Part) : Option QuestionInfo :=
  match part.content with
  | .data data =>
      if part.metadata.text? "cw_type" ≠ some "question" then none
      else
        let id := data.coerced "intervention_id" ""
        if id = "" then none
        else some {
          id
          nodeId := data.coerced "node_id" ""
          requester := requesterName (data.text? "requester")
          kind := data.coerced "kind" "question"
          question := data.coerced "question" ""
          questionType := questionTypeOf (data.coerced "question_type" "input")
          options := ((data.items? "options").getD []).map toText
          multi := data.isBool "multi" true
          status := "pending"
          answer := .null
          seq := 0 }
  | _ => none

def questionPartsOf (parts : List Part) : List QuestionInfo := parts.filterMap questionOfPart

/-- A user message carrying an answer: shown by the question card, not a bubble. -/
def isQuestionResponse (parts : List Part) : Bool :=
  parts.any fun part =>
    match part.content with
    | .data _ => part.metadata.text? "cw_type" == some "question_response"
    | _ => false

/-- `{ ...prev, ...info, seq: prev.seq }`: a question part says nothing about errors. -/
def askAgain (seq : Nat) (prev : Option QuestionInfo) (info : QuestionInfo) : QuestionInfo :=
  match prev with
  | some prev => { info with error := prev.error, seq := prev.seq }
  | none => { info with seq }

def upsertQuestion (seq : Nat) (questions : Dict String QuestionInfo) (info : QuestionInfo) :
    Dict String QuestionInfo :=
  questions.set info.id (askAgain seq (questions.get? info.id) info)

def upsertQuestions (questions : Dict String QuestionInfo) (incoming : List QuestionInfo)
    (seq : Nat) : Dict String QuestionInfo :=
  incoming.foldl (upsertQuestion seq) questions

end Choirworks.Frontend
