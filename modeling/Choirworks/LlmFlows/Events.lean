import Choirworks.Workflow.Events

/-!
The events of the new package with the data of their function calls. What a
model answers is an `LLMResponse`; an agent turns it into an artifact event.
-/

namespace Choirworks.LlmFlows

structure FunctionCall where
  id : String
  name : String
  args : Json := .object []

structure FunctionResponse where
  id : String
  name : String
  response : Json

/-- A fragment of an answer. -/
structure LLMResponsePart where
  text : Option String := none
  thought : Bool := false
  functionCall : Option FunctionCall := none
  functionResponse : Option FunctionResponse := none

/-- `content` is the parts, if there are any contents. -/
structure LLMResponse where
  content : Option (List LLMResponsePart) := none
  errorCode : Option String := none
  errorMessage : Option String := none

def LLMResponse.fromFunctionResponse (call : FunctionCall) (response : Json) : LLMResponse where
  content := some [{ functionResponse := some ⟨call.id, call.name, response⟩ }]

/-- A part of an event: the `type` and the `thought` mark of its metadata tell
the kinds apart. -/
inductive Part where
  | text (text : String) (thought : Bool)
  | functionCall (call : FunctionCall)
  | functionResponse (response : FunctionResponse)

structure EventMeta where
  author : String := ""
  path : String := ""
  branch : Option String := none
  isolationScope : Option String := none

inductive Role where
  | user | agent
deriving DecidableEq

inductive Event where
  | message (role : Role) (parts : List Part) (metadata : EventMeta)
  | status (state : Workflow.TaskState) (parts : List Part) (metadata : EventMeta)
  | artifact (artifactId : String) (parts : List Part) (append lastChunk : Bool)
      (metadata : EventMeta)

/-- The text of a part; empty for the other kinds. -/
def Part.textOf : Part → String
  | .text content _ => content
  | _ => ""

def Part.isThought : Part → Bool
  | .text _ thought => thought
  | _ => false

def Part.isFunctionCall : Part → Bool
  | .functionCall _ => true
  | _ => false

namespace Event

def metadata : Event → EventMeta
  | .message _ _ found | .status _ _ found | .artifact _ _ _ _ found => found

def withMeta (event : Event) (metadata : EventMeta) : Event :=
  match event with
  | .message role parts _ => .message role parts metadata
  | .status state parts _ => .status state parts metadata
  | .artifact artifactId parts append lastChunk _ =>
      .artifact artifactId parts append lastChunk metadata

def isFinalArtifact : Event → Bool
  | .artifact _ _ append lastChunk _ => !append && lastChunk
  | _ => false

def isPartial : Event → Bool
  | .artifact _ _ append lastChunk _ => !(!append && lastChunk)
  | _ => false

/-- `event_content_parts`: the parts that carry presentable content. -/
def contentParts : Event → List Part
  | .message _ parts _ => parts
  | .artifact _ parts append lastChunk _ => if !append && lastChunk then parts else []
  | .status state parts _ => if state ∈ Workflow.taskResponseBoundaryStates then parts else []

def hasFunctionCalls (event : Event) : Bool := event.contentParts.any Part.isFunctionCall

/-- `extract_text` without thoughts. -/
def extractText (event : Event) : String :=
  Text.join "" ((event.contentParts.filter fun part => !part.isThought).map Part.textOf)

end Event

/-! ### Joined texts -/

/-! ### From an answer to an event -/

section Artifact

variable (stored : Json → Json)

/-- What a fragment becomes in an event. `stored` is what the event's data gives
back for a value that was put into it. -/
def LLMResponsePart.eventParts (part : LLMResponsePart) : List Part :=
  (match part.text with
    | some text => [.text text part.thought]
    | none => []) ++
  (match part.functionCall with
    | some call => [.functionCall { call with args := stored call.args }]
    | none => []) ++
  (match part.functionResponse with
    | some found => [.functionResponse { found with response := stored found.response }]
    | none => [])

/-- `to_a2a_artifact`; the answer has contents. -/
def toA2aArtifact (response : LLMResponse) (artifactId : String) (append lastChunk : Bool) : Event :=
  .artifact artifactId ((response.content.getD []).flatMap (LLMResponsePart.eventParts stored))
    append lastChunk {}

end Artifact

end Choirworks.LlmFlows
