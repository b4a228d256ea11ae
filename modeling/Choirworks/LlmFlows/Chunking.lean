import Choirworks.LlmFlows.Agent

/-!
A completion can come at once or in deltas that carry it in pieces, the pieces
of its calls in any mixture. The agent makes the same of both: its runs differ
in the partial events alone.
-/

namespace Choirworks.LlmFlows

open Text (join_append join_cons)

/-! ### Answers that are the same in sum -/

/-- The answers have the same texts, however these are cut. -/
structure Alike (left right : Answer) : Prop where
  thoughts : Text.join "" left.thoughts = Text.join "" right.thoughts
  thought : left.thoughts = [] ↔ right.thoughts = []
  texts : left.text = right.text
  said : left.texts = [] ↔ right.texts = []
  calls : left.calls = right.calls
  errorMessage : left.errorMessage = right.errorMessage

theorem Alike.addPart {left right : Answer} (alike : Alike left right) (part : LLMResponsePart) :
    Alike (left.addPart part) (right.addPart part) := by
  have texts := alike.texts
  unfold Answer.text at texts
  constructor
  case thoughts => simp only [Answer.addPart, join_append, alike.thoughts]
  case thought => simp only [Answer.addPart, List.append_eq_nil_iff, alike.thought]
  case texts => simp only [Answer.text, Answer.addPart, join_append, texts]
  case said => simp only [Answer.addPart, List.append_eq_nil_iff, alike.said]
  case calls => simp only [Answer.addPart, alike.calls]
  case errorMessage => exact alike.errorMessage

theorem Alike.addParts {left right : Answer} (alike : Alike left right)
    (parts : List LLMResponsePart) :
    Alike (parts.foldl Answer.addPart left) (parts.foldl Answer.addPart right) := by
  induction parts generalizing left right with
  | nil => exact alike
  | cons part rest ih => exact ih (alike.addPart part)

theorem Alike.add {left right : Answer} (alike : Alike left right) (response : LLMResponse) :
    Alike (left.add response) (right.add response) := by
  unfold Answer.add
  split
  · exact alike
  · rename_i parts _
    have added := alike.addParts parts
    dsimp only
    split
    · exact ⟨added.thoughts, added.thought, added.texts, added.said, added.calls, rfl⟩
    · exact added

theorem Alike.addAll {left right : Answer} (alike : Alike left right)
    (responses : List LLMResponse) :
    Alike (responses.foldl Answer.add left) (responses.foldl Answer.add right) := by
  induction responses generalizing left right with
  | nil => exact alike
  | cons response rest ih => exact ih (alike.add response)

/-! ### The texts of a stream -/

/-- A text, if it is not empty. -/
def worded (text : String) : List String := if text = "" then [] else [text]

theorem join_worded (text : String) : Text.join "" (worded text) = text := by
  unfold worded
  split
  · simp [*]
  · simp [join_cons]

theorem worded_of_texted {text : Option String} (filled : texted text) :
    worded (text.getD "") = text.toList := by
  cases text with
  | none => simp [texted] at filled
  | some text =>
      have some_text : text ≠ "" := by simpa [texted] using filled
      simp [worded, some_text]

theorem worded_of_untexted {text : Option String} (silent : ¬texted text) :
    worded (text.getD "") = [] := by
  rw [untexted silent, worded, if_pos rfl]

/-- The text responses of a piece add its texts. -/
theorem add_texts (answer : Answer) (reasoning content : Option String) :
    (textResponses reasoning content).foldl Answer.add answer =
      { answer with
        thoughts := answer.thoughts ++ worded (reasoning.getD "")
        texts := answer.texts ++ worded (content.getD "") } := by
  by_cases thought : texted reasoning <;> by_cases said : texted content <;>
    simp [textResponses, buildParts, thought, said, Answer.add, Answer.addPart, worded_of_texted,
      worded_of_untexted]

theorem add_deltas (answer : Answer) (deltas : List Delta) :
    (deltas.flatMap fun delta => textResponses delta.reasoning delta.content).foldl Answer.add
        answer =
      { answer with
        thoughts := answer.thoughts ++ deltas.flatMap fun delta => worded (delta.reasoning.getD "")
        texts := answer.texts ++ deltas.flatMap fun delta => worded (delta.content.getD "") } := by
  induction deltas generalizing answer with
  | nil => simp
  | cons delta rest ih =>
      rw [List.flatMap_cons, List.foldl_append, add_texts, ih]
      simp only [List.flatMap_cons, List.append_assoc]

theorem join_pieces {Piece : Type} (pieces : List Piece) (text : Piece → String) :
    Text.join "" (pieces.flatMap fun piece => worded (text piece)) =
      Text.join "" (pieces.map text) := by
  induction pieces with
  | nil => rfl
  | cons piece rest ih => rw [List.flatMap_cons, join_append, join_worded, ih, List.map_cons, join_cons]

/-- The pieces of an empty text are empty. -/
theorem pieces_empty {Piece : Type} (pieces : List Piece) (text : Piece → String) :
    (pieces.flatMap fun piece => worded (text piece)) = [] ↔
      worded (Text.join "" (pieces.map text)) = [] := by
  have empty : ∀ text : String, worded text = [] ↔ text = "" := by
    intro text
    unfold worded
    split <;> simp [*]
  induction pieces with
  | nil => simp [empty]
  | cons piece rest ih =>
      simp only [empty] at ih ⊢
      simp only [List.flatMap_cons, List.append_eq_nil_iff, ih, empty, List.map_cons, join_cons,
        String.append_eq_empty_iff]

/-- A streamed completion adds up to the same answer as the whole one. -/
theorem answers_alike {loads : String → Except String Json} {deltas : List Delta}
    {message : Completion} (splits : Splits deltas message) :
    Alike (answerOf (streamResponses loads deltas)) (answerOf (messageResponses loads message)) := by
  unfold answerOf streamResponses messageResponses
  rw [List.foldl_append, List.foldl_append, stream_calls splits, add_deltas, add_texts]
  apply Alike.addAll
  constructor
  case thoughts => simp only [List.nil_append, join_pieces, splits.reasoning, join_worded]
  case thought => simp only [List.nil_append, pieces_empty, splits.reasoning]
  case texts => simp only [Answer.text, List.nil_append, join_pieces, splits.content, join_worded]
  case said => simp only [List.nil_append, pieces_empty, splits.content]
  case calls => rfl
  case errorMessage => rfl

/-! ### Runs that differ in partial events -/

section Runs

variable {host : Host} {agent : LLMAgent} {ctx : NodeContext}

namespace AgentRun

/-- A run without the partial events it has yielded. -/
def core (run : AgentRun) : AgentRun :=
  { run with yielded := run.yielded.filter fun event => !event.isPartial }

theorem core_core (run : AgentRun) : run.core.core = run.core := by
  simp [core, List.filter_filter]

theorem stop_core (run : AgentRun) (phase : Phase) : (run.stop phase).core = run.core.stop phase := by
  unfold stop
  rw [show run.core.phase = run.phase from rfl]
  split <;> rfl

theorem emit_core (run : AgentRun) (event : Event) :
    (run.emit agent ctx event).core = (run.core.emit agent ctx event).core := by
  have same_phase : run.core.phase = run.phase := rfl
  have same_output : run.core.output = run.output := rfl
  have same_events : run.core.events = run.events := rfl
  unfold emit
  rw [same_phase, same_output, same_events]
  split
  · exact (core_core run).symm
  · dsimp only
    split <;> simp [core, List.filter_filter]

theorem rejectCalls_core (artifactIds : Nat → String) (error : String) (index : Nat) (run : AgentRun)
    (calls : List FunctionCall) :
    (run.rejectCalls host agent ctx artifactIds error index calls).core =
      (run.core.rejectCalls host agent ctx artifactIds error index calls).core := by
  induction calls generalizing index run with
  | nil => exact (core_core run).symm
  | cons call rest ih =>
      simp only [rejectCalls]
      rw [ih, emit_core, ← ih]

theorem executeTools_core (artifactIds : Nat → String)
    (results : Nat → Except String Json) (index : Nat) (run : AgentRun)
    (calls : List FunctionCall) :
    (run.executeTools host agent ctx artifactIds results index calls).core =
      (run.core.executeTools host agent ctx artifactIds results index calls).core := by
  induction calls generalizing index run with
  | nil => exact (core_core run).symm
  | cons call rest ih =>
      simp only [executeTools]
      split
      · rw [stop_core, stop_core, core_core]
      · split
        · rw [stop_core, stop_core, core_core]
        · rw [ih, emit_core, ← ih]

theorem close_core (run : AgentRun) (round : Round) (answer : Answer) :
    (run.close host agent ctx round answer).core =
      (run.core.close host agent ctx round answer).core := by
  unfold close
  split
  · exact (core_core run).symm
  · exact emit_core run _

theorem retry_core (run : AgentRun) : (run.retry agent).core = run.core.retry agent := by
  unfold retry
  dsimp only
  rw [show run.core.retryCount = run.retryCount from rfl]
  split
  · exact stop_core _ _
  · rfl

theorem answered_core (run : AgentRun) (round : Round) (answer : Answer) :
    (run.answered host agent ctx round answer).core =
      (run.core.answered host agent ctx round answer).core := by
  unfold answered
  split
  · rw [stop_core, stop_core, core_core]
  · dsimp only
    split
    · rw [stop_core, stop_core, close_core]
    · split
      · rw [retry_core, rejectCalls_core, close_core, ← rejectCalls_core, ← retry_core]
      · rw [executeTools_core, close_core, ← executeTools_core]

theorem emit_incomplete_core (run : AgentRun) {event : Event} (incomplete : event.isPartial = true) :
    (run.emit agent ctx event).core = run.core := by
  have still : (enrich agent ctx event).isPartial = true := by
    cases event <;> exact incomplete
  have unfinished : (enrich agent ctx event).isFinalArtifact = false := by
    cases event <;> first | rfl | exact (Bool.not_eq_true' _).mp incomplete
  have kept : processOutput agent run.output (enrich agent ctx event) = .ok run.output := by
    simp [processOutput, unfinished]
  unfold emit
  split
  · rfl
  · simp [kept, still, core]

theorem stream_core (artifactId : String) (run : AgentRun) (answer : Answer)
    (responses : List LLMResponse) :
    (run.stream host agent ctx artifactId answer responses).core = run.core := by
  induction responses generalizing run answer with
  | nil => rfl
  | cons response rest ih =>
      rw [stream]
      split
      · exact ih run answer
      · rw [ih]
        exact emit_incomplete_core run (by simp [toA2aArtifact, Event.isPartial])

end AgentRun

theorem Alike.finalParts {left right : Answer} (alike : Alike left right) :
    left.finalParts = right.finalParts := by
  simp only [Answer.finalParts, alike.thoughts, alike.thought, alike.texts, alike.said, alike.calls,
    ne_eq]

theorem Alike.answered {left right : Answer} (alike : Alike left right) (run : AgentRun)
    (round : Round) :
    run.answered host agent ctx round left = run.answered host agent ctx round right := by
  have structured_same : structured agent left = structured agent right := by
    simp only [structured, alike.calls, alike.texts]
  have closed_same : run.close host agent ctx round left = run.close host agent ctx round right := by
    simp only [AgentRun.close, alike.finalParts]
  simp only [AgentRun.answered, structured_same, closed_same, alike.calls, alike.errorMessage]

/-- One exchange with a model that carries a message, at once or in pieces. -/
structure Exchange where
  artifactIds : Nat → String
  deltas : List Delta
  message : Completion
  splits : Splits deltas message
  results : Nat → Except String Json

namespace Exchange

variable (loads : String → Except String Json) (exchange : Exchange)

def streamed : Round where
  artifactIds := exchange.artifactIds
  responses := streamResponses loads exchange.deltas
  results := exchange.results

def whole : Round where
  artifactIds := exchange.artifactIds
  responses := messageResponses loads exchange.message
  results := exchange.results

end Exchange

variable {loads : String → Except String Json}

/-- What the agent does behind an answer takes no more of the round than both have. -/
theorem answered_rounds (run : AgentRun) (exchange : Exchange) (answer : Answer) :
    run.answered host agent ctx (exchange.streamed loads) answer =
      run.answered host agent ctx (exchange.whole loads) answer := rfl

theorem round_core {left right : AgentRun} (same : left.core = right.core)
    (exchange : Exchange) :
    (left.round host agent ctx (exchange.streamed loads)).core =
      (right.round host agent ctx (exchange.whole loads)).core := by
  have same_events : left.core.events = right.core.events := congrArg AgentRun.events same
  change left.events = right.events at same_events
  unfold AgentRun.round
  rw [same_events]
  split
  · rw [AgentRun.stop_core, AgentRun.stop_core, same]
  · rename_i messages _
    have asked : (left.request agent messages).core = (right.request agent messages).core :=
      congrArg (AgentRun.request agent · messages) same
    have alike := @answers_alike loads _ _ exchange.splits
    calc
      _ = (((left.request agent messages).stream host agent ctx (exchange.artifactIds 0) {}
            (streamResponses loads exchange.deltas)).answered host agent ctx
              (exchange.whole loads) (answerOf (messageResponses loads exchange.message))).core := by
        rw [← answered_rounds, ← alike.answered]
        rfl
      _ = (((right.request agent messages).stream host agent ctx (exchange.artifactIds 0) {}
            (messageResponses loads exchange.message)).answered host agent ctx
              (exchange.whole loads) (answerOf (messageResponses loads exchange.message))).core := by
        have streams : ((left.request agent messages).stream host agent ctx
              (exchange.artifactIds 0) {} (streamResponses loads exchange.deltas)).core =
            ((right.request agent messages).stream host agent ctx (exchange.artifactIds 0) {}
              (messageResponses loads exchange.message)).core := by
          rw [AgentRun.stream_core, AgentRun.stream_core, asked]
        rw [AgentRun.answered_core, streams, ← AgentRun.answered_core]
      _ = _ := rfl

end Runs

end Choirworks.LlmFlows
