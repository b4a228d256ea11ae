import Choirworks.Library.Text

/-!
The chat messages of a session and the artifact parts that persist them. A
part is read by its `cw_type`; a text part carries its content, a data part
the payload of a function call with the exact strings of the live messages.
-/

namespace Choirworks.History

inductive ChatMessage where
  | user (content : String)
  | assistant (content : String)
  | toolCall (callId name arguments : String)
  | tool (callId content : String)
deriving DecidableEq

/-- The `role` field: a tool call is an assistant message. -/
def ChatMessage.role : ChatMessage → String
  | .user _ => "user"
  | .assistant _ | .toolCall .. => "assistant"
  | .tool .. => "tool"

/-- Empty contents and calls without name and arguments give no line. -/
def ChatMessage.lines : ChatMessage → List String
  | .user content => if content = "" then [] else ["[user] " ++ content]
  | .assistant content => if content = "" then [] else ["[assistant] " ++ content]
  | .toolCall _ name arguments =>
      if name = "" ∧ arguments = "" then [] else ["[tool_call] " ++ name ++ " " ++ arguments]
  | .tool _ content => if content = "" then [] else ["[tool] " ++ content]

def messagesText (messages : List ChatMessage) : String :=
  Text.join "\n" (messages.flatMap ChatMessage.lines)

inductive CwType where
  | thought | text | functionCall | question | decision | history | compaction
deriving DecidableEq

/-- A function-call payload; an absent string is empty, and `functionArgs` and
`functionResult` stand for the JSON text of the structured fields. -/
structure Payload where
  functionName : String
  callId : String
  argsJson : String
  resultJson : String
  functionArgs : String
  functionResult : String
deriving DecidableEq

inductive Content where
  | text (text : String)
  | data (payload : Payload)
  | other
deriving DecidableEq

structure Part where
  cwType : Option CwType
  role : Option String
  compactedCount : Option Nat
  content : Content
deriving DecidableEq

abbrev Artifact := List Part

/-- The assistant call and the tool result of a payload. `fresh` is the id drawn
when the payload has none. -/
def toolExchangeFromData (fresh : String) (payload : Payload) : List ChatMessage :=
  if payload.functionName = "" then []
  else
    let callId := if payload.callId = "" then fresh else payload.callId
    let argsJson := if payload.argsJson = "" then payload.functionArgs else payload.argsJson
    let resultJson := if payload.resultJson = "" then payload.functionResult else payload.resultJson
    [.toolCall callId payload.functionName argsJson, .tool callId resultJson]

end Choirworks.History
