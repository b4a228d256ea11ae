import Choirworks.Library.Grouping
import Choirworks.LlmFlows.Events

/-!
What the model client makes of a completion. A streamed completion comes in
deltas; the tool calls in it are collected under their index and given out
behind the texts. A completion that comes at once is one message.
-/

namespace Choirworks.LlmFlows

open Text (join_append join_cons)

/-- A piece of a tool call. -/
structure CallDelta where
  index : Nat
  id : Option String := none
  name : Option String := none
  arguments : Option String := none

/-- A piece of the answer. -/
structure Delta where
  reasoning : Option String := none
  content : Option String := none
  calls : List CallDelta := []

structure CompletionCall where
  id : String
  name : String
  arguments : String

structure Completion where
  reasoning : Option String := none
  content : Option String := none
  calls : List CompletionCall := []

structure ToolCallBuffer where
  index : Nat
  id : String
  name : String
  args : List String := []

/-- An empty text counts as none. -/
def texted (text : Option String) : Bool := text.getD "" ≠ ""

@[simp] theorem texted_none : texted none = false := rfl

section Client

variable (loads : String → Except String Json)

/-- `_build_parts`. -/
def buildParts (reasoning content : Option String) : List LLMResponsePart :=
  (if texted reasoning then [{ text := reasoning, thought := true }] else []) ++
    (if texted content then [{ text := content, thought := false }] else [])

def textResponses (reasoning content : Option String) : List LLMResponse :=
  match buildParts reasoning content with
  | [] => []
  | parts => [{ content := some parts }]

/-- `_build_function_call_response`; `loads` reads JSON, or says what is wrong. -/
def buildFunctionCallResponse (name arguments callId : String) : LLMResponse :=
  let answer (args : Json) (problem : Option String) : LLMResponse :=
    { content := some [{ functionCall := some { id := callId, name, args } }]
      errorCode := problem.map fun _ => "MALFORMED_FUNCTION_CALL"
      errorMessage := problem }
  if name = "" then answer (.object []) (some ("missing function name, call_id=" ++ callId))
  else if arguments = "" then answer (.object []) none
  else
    match loads arguments with
    | .ok args => answer args none
    | .error problem =>
        answer (.object []) (some ("invalid arguments JSON for " ++ name ++ ": " ++ problem))

/-- A piece of a call changes the buffer of its index, or opens it. -/
def takeCall (buffer : Option ToolCallBuffer) (call : CallDelta) : ToolCallBuffer :=
  let opened : ToolCallBuffer :=
    buffer.getD { index := call.index, id := call.id.getD "", name := call.name.getD "" }
  { index := call.index
    id := if texted call.id then call.id.getD "" else opened.id
    name := if texted call.name then call.name.getD "" else opened.name
    args := if texted call.arguments then opened.args ++ [call.arguments.getD ""] else opened.args }

def toolCallBuffers (deltas : List Delta) : Table ToolCallBuffer.index :=
  (deltas.flatMap (·.calls)).foldl (Table.absorb takeCall CallDelta.index) .empty

/-- `_stream`. -/
def streamResponses (deltas : List Delta) : List LLMResponse :=
  (deltas.flatMap fun delta => textResponses delta.reasoning delta.content) ++
    (toolCallBuffers deltas).rows.map fun buffer =>
      buildFunctionCallResponse loads buffer.name (Text.join "" buffer.args) buffer.id

/-- `_text`. -/
def messageResponses (message : Completion) : List LLMResponse :=
  textResponses message.reasoning message.content ++
    message.calls.map fun call => buildFunctionCallResponse loads call.name call.arguments call.id

end Client

/-! ### Splitting a completion -/

/-- Pieces that carry a text and no other, one of them if there is any. -/
def Carries (pieces : List (Option String)) (text : String) : Prop :=
  (∀ piece ∈ pieces, texted piece → piece = some text) ∧ (text ≠ "" → some text ∈ pieces)

/-- The pieces of a call. -/
structure SplitsCall (pieces : List CallDelta) (call : CompletionCall) : Prop where
  id : Carries (pieces.map (·.id)) call.id
  name : Carries (pieces.map (·.name)) call.name
  arguments : Text.join "" (pieces.map fun piece => piece.arguments.getD "") = call.arguments

/-- The deltas carry the message in pieces, those of its calls in any mixture. -/
structure Splits (deltas : List Delta) (message : Completion) : Prop where
  reasoning : Text.join "" (deltas.map fun delta => delta.reasoning.getD "") =
    message.reasoning.getD ""
  content : Text.join "" (deltas.map fun delta => delta.content.getD "") = message.content.getD ""
  calls : List.Forall₂
    (fun index call =>
      SplitsCall ((deltas.flatMap (·.calls)).filter fun piece => piece.index = index) call)
    ((deltas.flatMap (·.calls)).map (·.index)).eraseDups message.calls

/-! ### The calls -/

/-- The last piece that says something. -/
def latest (pieces : List (Option String)) : String :=
  pieces.foldl (fun text piece => if texted piece then piece.getD "" else text) ""

theorem latest_snoc (pieces : List (Option String)) (piece : Option String) :
    latest (pieces ++ [piece]) = if texted piece then piece.getD "" else latest pieces := by
  rw [latest, List.foldl_append]
  rfl

theorem latest_of_same {pieces : List (Option String)} {text : String}
    (same : ∀ piece ∈ pieces, texted piece → piece = some text) :
    latest pieces = if ∃ piece ∈ pieces, texted piece then text else "" := by
  induction pieces using List.reverseRecOn with
  | nil => simp [latest]
  | append_singleton pieces piece ih =>
      rw [latest_snoc]
      by_cases spoken : texted piece
      · have carried := same piece (by simp) spoken
        rw [if_pos spoken, if_pos ⟨piece, by simp, spoken⟩, carried, Option.getD_some]
      · rw [if_neg spoken, ih fun other member => same other (by simp [member])]
        simp [spoken]

theorem latest_carried {pieces : List (Option String)} {text : String}
    (carries : Carries pieces text) : latest pieces = text := by
  rw [latest_of_same carries.1]
  by_cases empty : text = ""
  · rw [empty, ite_self]
  · rw [if_pos ⟨some text, carries.2 empty, by simpa [texted] using empty⟩]

/-- The buffer of an index that has not come up. -/
def ToolCallBuffer.unopened (index : Nat) : ToolCallBuffer := { index, id := "", name := "" }

theorem untexted {text : Option String} (silent : ¬texted text) : text.getD "" = "" := by
  simpa [texted] using silent

/-- One piece: a field that it fills is its own, another stays. -/
theorem takeCall_fields (index : Nat) (buffer : Option ToolCallBuffer) (piece : CallDelta) :
    let old := buffer.getD (.unopened index)
    (takeCall buffer piece).id = (if texted piece.id then piece.id.getD "" else old.id) ∧
      (takeCall buffer piece).name = (if texted piece.name then piece.name.getD "" else old.name) ∧
        Text.join "" (takeCall buffer piece).args =
          Text.join "" old.args ++ piece.arguments.getD "" := by
  refine ⟨?_, ?_, ?_⟩
  · cases buffer with
    | some buffer => rfl
    | none =>
        by_cases filled : texted piece.id
        · simp [takeCall, filled]
        · simp [takeCall, filled, untexted filled, ToolCallBuffer.unopened]
  · cases buffer with
    | some buffer => rfl
    | none =>
        by_cases filled : texted piece.name
        · simp [takeCall, filled]
        · simp [takeCall, filled, untexted filled, ToolCallBuffer.unopened]
  · have opened : (buffer.getD (.unopened index)).args =
        (buffer.getD { index := piece.index, id := piece.id.getD "", name := piece.name.getD "" }).args := by
      cases buffer <;> rfl
    by_cases filled : texted piece.arguments
    · simp [takeCall, filled, opened, join_append, join_cons]
    · simp [takeCall, filled, opened, untexted filled]

/-- The buffer of an index says what the pieces of the index said last, and has
the arguments of all of them. -/
theorem buffered (index : Nat) (pieces : List CallDelta) :
    let buffer := (Table.gathered takeCall pieces).getD (.unopened index)
    buffer.id = latest (pieces.map (·.id)) ∧ buffer.name = latest (pieces.map (·.name)) ∧
      Text.join "" buffer.args =
        Text.join "" (pieces.map fun piece => piece.arguments.getD "") := by
  induction pieces using List.reverseRecOn with
  | nil => exact ⟨rfl, rfl, rfl⟩
  | append_singleton pieces piece ih =>
      dsimp only at ih ⊢
      obtain ⟨sameId, sameName, sameArgs⟩ := ih
      obtain ⟨takenId, takenName, takenArgs⟩ :=
        takeCall_fields index (Table.gathered takeCall pieces) piece
      rw [Table.gathered_snoc, Option.getD_some, takenId, takenName, takenArgs]
      simp only [List.map_append, List.map_singleton, latest_snoc, join_append, ← sameId,
        ← sameName, ← sameArgs]
      simp [join_cons]

theorem response_of_split {loads : String → Except String Json} (index : Nat)
    {pieces : List CallDelta} {call : CompletionCall} (split : SplitsCall pieces call) :
    let buffer := (Table.gathered takeCall pieces).getD (.unopened index)
    buildFunctionCallResponse loads buffer.name (Text.join "" buffer.args) buffer.id =
      buildFunctionCallResponse loads call.name call.arguments call.id := by
  obtain ⟨sameId, sameName, sameArgs⟩ := buffered index pieces
  dsimp only
  rw [sameId, sameName, sameArgs, latest_carried split.id, latest_carried split.name,
    split.arguments]

/-- Behind the texts of a stream come the calls of the message. -/
theorem stream_calls {loads : String → Except String Json} {deltas : List Delta}
    {message : Completion} (splits : Splits deltas message) :
    (toolCallBuffers deltas).rows.map (fun buffer =>
        buildFunctionCallResponse loads buffer.name (Text.join "" buffer.args) buffer.id) =
      message.calls.map fun call =>
        buildFunctionCallResponse loads call.name call.arguments call.id := by
  let built (buffer : Option ToolCallBuffer) : LLMResponse :=
    let buffer := buffer.getD (.unopened 0)
    buildFunctionCallResponse loads buffer.name (Text.join "" buffer.args) buffer.id
  have rows := @Table.rows_absorbed _ _ _ ToolCallBuffer.index _ CallDelta.index takeCall
    (fun _ _ => rfl) (deltas.flatMap (·.calls))
  calc
    _ = ((toolCallBuffers deltas).rows.map some).map built := by
      rw [List.map_map]
      rfl
    _ = (((deltas.flatMap (·.calls)).map (·.index)).eraseDups.map fun index =>
          Table.gathered takeCall
            ((deltas.flatMap (·.calls)).filter fun piece => piece.index = index)).map built := by
      rw [toolCallBuffers, rows]
    _ = _ := by
      rw [List.map_map]
      have paired := splits.calls
      revert paired
      generalize ((deltas.flatMap (·.calls)).map (·.index)).eraseDups = indices
      generalize message.calls = calls
      intro paired
      induction paired with
      | nil => rfl
      | cons split _ ih =>
          rw [List.map_cons, List.map_cons, ih]
          exact congrArg (· :: _) (response_of_split 0 split)

end Choirworks.LlmFlows
