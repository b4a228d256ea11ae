import Choirworks.History.Builder

/-!
The functions that write the message list. Each appends to the live list and
emits an artifact; replaying the artifact gives back the appended messages,
whatever ids a replay would draw. `Mirrors` is the relation between a live
list, the cached compaction state and the replay of the stored artifacts.
-/

namespace Choirworks.History

/-- A generated id, a tool name and a rendered JSON document are never empty. -/
abbrev NonEmpty := { text : String // text ≠ "" }

inductive Role where
  | user | assistant
deriving DecidableEq

def Role.message : Role → String → ChatMessage
  | .user, content => .user content
  | .assistant, content => .assistant content

def Role.name : Role → String
  | .user => "user"
  | .assistant => "assistant"

inductive Recording where
  /-- `record_message`. -/
  | message (role : Role) (content : String)
  /-- `record_decision`. -/
  | decision (content : String)
  /-- `emit_function_call`; `fresh` is used when no call id is given. -/
  | functionCall (name : NonEmpty) (callId : String) (fresh argsJson resultJson : NonEmpty)
  /-- `emit_function_error`; `errorJson` is the error as a JSON string. -/
  | functionError (name : NonEmpty) (callId : String) (fresh : NonEmpty)
      (argsJson errorJson : String)
  /-- A streamed chunk of thinking or text. -/
  | chunk (thought : Bool) (text : String)
deriving DecidableEq

def textPart (cwType : CwType) (role : Option Role) (content : String) : Part where
  cwType := some cwType
  role := role.map Role.name
  compactedCount := none
  content := .text content

/-- `function_call_event`: the data part of a tool exchange. The structured
arguments and result are the values of the two documents. -/
def functionCallPart (name callId argsJson resultJson : String) : Part where
  cwType := some .functionCall
  role := none
  compactedCount := none
  content := .data ⟨name, callId, argsJson, resultJson, argsJson, resultJson⟩

def toolExchange (name callId argsJson resultJson : String) : List ChatMessage :=
  [.toolCall callId name argsJson, .tool callId resultJson]

def orElse (text fallback : String) : String := if text = "" then fallback else text

def errorResult (errorJson : String) : String :=
  "\x7b\"success\":false,\"error\":" ++ errorJson ++ "\x7d"

/-- What a recording appends to the live list. -/
def Recording.messages : Recording → List ChatMessage
  | .message role content => [role.message content]
  | .decision content => [.assistant content]
  | .functionCall name callId fresh argsJson resultJson =>
      toolExchange name (orElse callId fresh) argsJson resultJson
  | .functionError name callId fresh argsJson errorJson =>
      toolExchange name (orElse callId fresh) (orElse argsJson "\x7b\x7d") (errorResult errorJson)
  | .chunk _ _ => []

/-- The part of the artifact it emits. -/
def Recording.part : Recording → Part
  | .message role content => textPart .history (some role) content
  | .decision content => textPart .decision (some .assistant) content
  | .functionCall name callId fresh argsJson resultJson =>
      functionCallPart name (orElse callId fresh) argsJson resultJson
  | .functionError name callId fresh argsJson errorJson =>
      functionCallPart name (orElse callId fresh) (orElse argsJson "\x7b\x7d")
        (errorResult errorJson)
  | .chunk thought text => textPart (if thought then .thought else .text) none text

/-- `emit_compaction`. -/
def compactionPart (state : CompactionState) : Part where
  cwType := some .compaction
  role := none
  compactedCount := some state.compactedCount
  content := .text state.summary

theorem or_else_ne {text fallback : String} (filled : fallback ≠ "") : orElse text fallback ≠ "" := by
  unfold orElse
  split
  · exact filled
  · assumption

theorem error_result_ne (errorJson : String) : errorResult errorJson ≠ "" := by
  intro empty
  have last := (String.append_eq_empty_iff.mp empty).2
  exact absurd last (by decide)

theorem function_call_messages (fresh : Nat → String) (position : Nat)
    {name callId argsJson resultJson : String} (named : name ≠ "") (called : callId ≠ "")
    (args : argsJson ≠ "") (result : resultJson ≠ "") :
    partMessages fresh position (functionCallPart name callId argsJson resultJson) =
      toolExchange name callId argsJson resultJson := by
  simp [partMessages, functionCallPart, toolExchangeFromData, toolExchange, named, called, args,
    result]

/-- Replaying a recorded artifact appends the messages of the live list. -/
theorem recording_messages (recording : Recording) (fresh : Nat → String) (position : Nat) :
    partMessages fresh position recording.part = recording.messages := by
  cases recording with
  | message role content => cases role <;> rfl
  | decision content => rfl
  | functionCall name callId drawn argsJson resultJson =>
      exact function_call_messages fresh position name.2 (or_else_ne drawn.2) argsJson.2 resultJson.2
  | functionError name callId drawn argsJson errorJson =>
      exact function_call_messages fresh position name.2 (or_else_ne drawn.2)
        (or_else_ne (by decide)) (error_result_ne errorJson)
  | chunk thought text => cases thought <;> rfl

theorem recording_compaction (recording : Recording) : partCompaction recording.part = none := by
  cases recording with
  | chunk thought text => cases thought <;> rfl
  | _ => rfl

theorem replay_recording (fresh : Nat → String) (replayed : Replayed) (recording : Recording) :
    replayPart fresh replayed recording.part =
      { replayed with raw := replayed.raw ++ recording.messages } := by
  simp [replayPart, recording_messages, recording_compaction]

theorem replay_compaction (fresh : Nat → String) (replayed : Replayed) (state : CompactionState) :
    replayPart fresh replayed (compactionPart state) = { replayed with latest := some state } := by
  simp [replayPart, partMessages, partCompaction, compactionPart]

theorem replay_parts_append (fresh : Nat → String) (replayed : Replayed) (left right : List Part) :
    replayParts fresh replayed (left ++ right) =
      replayParts fresh (replayParts fresh replayed left) right :=
  List.foldl_append ..

/-- The live list and the cached state are those of the replay. -/
structure Mirrors (replayed : Replayed) (messages : List ChatMessage)
    (cached : Option CompactionState) : Prop where
  messages : messages = replayed.messages
  cached : cached = replayed.latest
  bounded : ∀ state ∈ replayed.latest, state.compactedCount ≤ replayed.raw.length

section Mirrors

variable {replayed : Replayed} {messages : List ChatMessage} {cached : Option CompactionState}

theorem Mirrors.record (mirrors : Mirrors replayed messages cached) (added : List ChatMessage) :
    Mirrors { replayed with raw := replayed.raw ++ added } (messages ++ added) cached := by
  obtain ⟨raw, latest⟩ := replayed
  obtain ⟨same, cachedSame, bounded⟩ := mirrors
  constructor
  case messages =>
    cases latest with
    | none => simp [same, Replayed.messages]
    | some state =>
        have inside := bounded state rfl
        simp [same, Replayed.messages, List.drop_append_of_le_length inside]
  case cached => exact cachedSame
  case bounded =>
    intro state known
    have inside : state.compactedCount ≤ raw.length := bounded state known
    simp only [List.length_append]
    omega

theorem back_to_call_le (messages : List ChatMessage) (split : Nat) :
    backToCall messages split ≤ split := by
  induction split with
  | zero => exact Nat.le_refl 0
  | succ split ih =>
      unfold backToCall
      split
      · omega
      · exact Nat.le_refl _

/-- What a request takes of the list: at least one message, and the rest. -/
theorem request_parts {builder : HistoryBuilder} {cache : CompactionCache} {contextId : String}
    {request : HistoryBuilder.Request}
    (asked : builder.request? cache contextId messages = some request) :
    request.state = cache.get? contextId ∧ request.old ≠ [] ∧
      messages = request.old ++ request.recent := by
  unfold HistoryBuilder.request? at asked
  split at asked
  · cases asked
  · dsimp only at asked
    split at asked
    · cases asked
    · rename_i positive
      cases asked
      refine ⟨rfl, ?_, (List.take_append_drop _ messages).symm⟩
      have bound := back_to_call_le messages (messages.length - builder.retention)
      intro empty
      rw [List.take_eq_nil_iff] at empty
      rcases empty with none | none
      · exact positive none
      · subst none
        have zero : builder.splitPoint [] ≤ 0 :=
          Nat.le_trans bound (Nat.sub_le 0 builder.retention)
        exact positive (Nat.le_zero.mp zero)

/-- A compaction counts the raw messages that its new list leaves out. -/
theorem Mirrors.compact (mirrors : Mirrors replayed messages cached)
    {request : HistoryBuilder.Request} (state : request.state = cached) (some_old : request.old ≠ [])
    (split : messages = request.old ++ request.recent) (answer : String) :
    Mirrors { replayed with latest := some (request.result answer) } (request.messages answer)
      (some (request.result answer)) := by
  obtain ⟨raw, latest⟩ := replayed
  obtain ⟨same, cachedSame, bounded⟩ := mirrors
  obtain ⟨requestState, old, recent⟩ := request
  dsimp only at same cachedSame state some_old split
  subst cachedSame state
  have counts : (HistoryBuilder.Request.result ⟨requestState, old, recent⟩ answer).compactedCount ≤
        raw.length ∧
      recent = raw.drop
        (HistoryBuilder.Request.result ⟨requestState, old, recent⟩ answer).compactedCount := by
    cases requestState with
    | none =>
        have whole : raw = old ++ recent := same.symm.trans split
        simp [HistoryBuilder.Request.result, whole]
    | some previous =>
        -- the first message of the list is the previous summary
        obtain ⟨first, rest, rfl⟩ := List.exists_cons_of_ne_nil some_old
        have inside : previous.compactedCount ≤ raw.length := bounded previous rfl
        have whole : raw.drop previous.compactedCount = rest ++ recent := by
          have lists := same.symm.trans split
          simp only [Replayed.messages, List.cons_append, List.cons.injEq] at lists
          exact lists.2
        have lengths := congrArg List.length whole
        simp only [List.length_drop, List.length_append] at lengths
        simp only [HistoryBuilder.Request.result, HistoryBuilder.Request.newMessages,
          List.drop_succ_cons, List.drop_zero]
        refine ⟨by omega, ?_⟩
        rw [← List.drop_drop, whole, List.drop_left]
  constructor
  case messages =>
    simp only [HistoryBuilder.Request.messages, Replayed.messages, ← counts.2]
  case cached => rfl
  case bounded =>
    intro state known
    cases known
    exact counts.1

end Mirrors

end Choirworks.History
