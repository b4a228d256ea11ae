import Mathlib.Data.List.Infix
import Choirworks.History.Builder

/-!
`HistoryBuilder.compact` over any list of chat messages, with settings of any
sign, next to the history as it would be had nothing been compacted. A
compaction cuts the list in two: what is in front goes into the summary, what is
behind stays. The count of a first compaction is the place of the cut, which
lies behind the end of the list if the retention is negative.
-/

namespace Choirworks.History.Folding

structure ToolCall where
  name : String
  arguments : String
deriving DecidableEq

/-- A message as a dictionary; missing fields are empty. -/
structure Message where
  role : String
  content : String := ""
  toolCalls : List ToolCall := []
deriving DecidableEq

def Message.lines (message : Message) : List String :=
  (if message.content = "" then [] else ["[" ++ message.role ++ "] " ++ message.content]) ++
    message.toolCalls.flatMap fun call =>
      if call.name = "" ∧ call.arguments = "" then []
      else ["[tool_call] " ++ call.name ++ " " ++ call.arguments]

def messagesText (messages : List Message) : String :=
  Text.join "\n" (messages.flatMap Message.lines)

def summaryMessage (summary : String) : Message := { role := "assistant", content := summary }

structure Settings where
  countTokens : String → Int
  /-- `int(context window * compaction_threshold)`. -/
  threshold : Int
  retention : Int

def backToCall (messages : List Message) : Nat → Nat
  | 0 => 0
  | split + 1 =>
      if (messages[split + 1]?.map Message.role) = some "tool" then backToCall messages split
      else split + 1

def Settings.splitPoint (settings : Settings) (messages : List Message) : Nat :=
  backToCall messages (messages.length - settings.retention).toNat

/-- The new list, the result to persist, and the text given to the summariser. -/
structure Compacted where
  messages : List Message
  result : CompactionState
  prompt : Option String

def compact (settings : Settings) (summarise : String → String) (state : Option CompactionState)
    (messages : List Message) : Option Compacted :=
  if settings.countTokens (messagesText messages) ≤ settings.threshold then none
  else
    let split := settings.splitPoint messages
    if split = 0 then none
    else
      let old := messages.take split
      let recent := messages.drop split
      match state with
      | some state =>
          let newMessages := old.drop 1
          let newText := messagesText newMessages
          let prompt := "Previous summary:\n" ++ state.summary ++ "\n\nNew messages:\n" ++ newText
          let summary := if newText = "" then state.summary else summarise prompt
          some
            { messages := summaryMessage summary :: recent
              result := ⟨state.compactedCount + newMessages.length, summary⟩
              prompt := if newText = "" then none else some prompt }
      | none =>
          let summary := summarise (messagesText old)
          some
            { messages := summaryMessage summary :: recent
              result := ⟨split, summary⟩
              prompt := some (messagesText old) }

/-! ### What a compaction has to do -/

/-- The list stands for the history `raw`: the state says how much of it the
summary in front covers. -/
def Covers (raw : List Message) (state : Option CompactionState) (messages : List Message) : Prop :=
  match state with
  | none => messages = raw
  | some state =>
      state.compactedCount ≤ raw.length ∧
        messages = summaryMessage state.summary :: raw.drop state.compactedCount

/-- The text that a summary of the messages is asked for with: none of them may
have anything to say. -/
def asked (state : Option CompactionState) (dropped : List Message) : Option String :=
  match state with
  | none => some (messagesText dropped)
  | some state =>
      if dropped.flatMap Message.lines = [] then none
      else some ("Previous summary:\n" ++ state.summary ++ "\n\nNew messages:\n" ++
        messagesText dropped)

/-- The history is cut in what the summary covers and what stays. -/
def Partitions (raw : List Message) (summarise : String → String) (state : Option CompactionState)
    (messages : List Message) (compacted : Compacted) : Prop :=
  ∃ dropped kept : List Message,
    messages = (state.map fun state => summaryMessage state.summary).toList ++ dropped ++ kept ∧
    compacted.messages = summaryMessage compacted.result.summary :: kept ∧
    (∀ first ∈ kept.head?, first.role ≠ "tool") ∧
    compacted.prompt = asked state dropped ∧
    some compacted.result.summary =
      (compacted.prompt.map summarise).or (state.map CompactionState.summary) ∧
    ∃ gone, raw = gone ++ kept ∧ compacted.result.compactedCount = gone.length

section Texts

variable {lines : List String}

theorem join_empty (written : ∀ line ∈ lines, line ≠ "") (silent : Text.join "\n" lines = "") :
    lines = [] := by
  cases lines with
  | nil => rfl
  | cons line rest =>
      have first := written line List.mem_cons_self
      cases rest with
      | nil => exact absurd (by simpa [Text.join] using silent) first
      | cons next others =>
          rw [Text.join, String.intercalate_cons_of_ne_nil (List.cons_ne_nil next others)] at silent
          simp [first] at silent

theorem lines_written (message : Message) : ∀ line ∈ message.lines, line ≠ "" := by
  intro line listed
  simp only [Message.lines, List.mem_append, List.mem_flatMap] at listed
  rcases listed with said | ⟨call, _, called⟩
  · split at said
    · cases said
    · obtain rfl := List.mem_singleton.mp said
      simp
  · split at called
    · cases called
    · obtain rfl := List.mem_singleton.mp called
      simp

/-- No text means no message with something to say. -/
theorem messages_text_empty (messages : List Message) :
    messagesText messages = "" ↔ messages.flatMap Message.lines = [] := by
  constructor
  · refine join_empty ?_
    intro line listed
    obtain ⟨message, _, said⟩ := List.mem_flatMap.mp listed
    exact lines_written message line said
  · intro silent
    rw [messagesText, silent]
    rfl

end Texts

/-! ### The cut -/

section Cut

variable {messages : List Message}

theorem back_to_call_le (start : Nat) : backToCall messages start ≤ start := by
  induction start with
  | zero => exact Nat.le_refl 0
  | succ start ih =>
      rw [backToCall]
      split
      · exact Nat.le_succ_of_le ih
      · exact Nat.le_refl _

/-- Unless it is at the start, the cut leaves no tool message in front. -/
theorem back_to_call_role (start : Nat) (inside : backToCall messages start ≠ 0) :
    ∀ first ∈ (messages.drop (backToCall messages start)).head?, first.role ≠ "tool" := by
  induction start with
  | zero => exact absurd rfl inside
  | succ start ih =>
      rw [backToCall] at inside ⊢
      split
      · rename_i back
        rw [if_pos back] at inside
        exact ih inside
      · rename_i stays
        intro first found
        rw [List.head?_drop, Option.mem_def] at found
        rw [found] at stays
        exact fun role => stays (congrArg some role)

end Cut

section Compact

variable {settings : Settings} {summarise : String → String} {state : Option CompactionState}
  {raw messages : List Message} {compacted : Compacted}

/-- A compaction with a result cuts somewhere behind the start. -/
theorem compact_cuts (compacts : compact settings summarise state messages = some compacted) :
    settings.splitPoint messages ≠ 0 := by
  unfold compact at compacts
  split at compacts
  · cases compacts
  · dsimp only at compacts
    split at compacts
    · cases compacts
    · assumption

theorem split_inside (positive : 0 ≤ settings.retention) :
    settings.splitPoint messages ≤ messages.length := by
  have back : settings.splitPoint messages ≤ (messages.length - settings.retention).toNat :=
    back_to_call_le _
  omega

theorem take_length_inside (split : Nat) (messages : List Message) :
    (messages.take split).length = split ↔ split ≤ messages.length := by
  rw [List.length_take]
  omega

/-- A first compaction. -/
theorem first_partitions_iff
    (compacts : compact settings summarise none messages = some compacted) :
    Partitions messages summarise none messages compacted ↔
      settings.splitPoint messages ≤ messages.length := by
  have inside := compact_cuts compacts
  have role := back_to_call_role _ inside
  unfold compact at compacts
  split at compacts
  · cases compacts
  · simp only [inside, ↓reduceIte, Option.some.injEq] at compacts
    subst compacts
    have halves := List.take_append_drop (settings.splitPoint messages) messages
    constructor
    · rintro ⟨dropped, kept, whole, same, _, _, _, gone, split, count⟩
      obtain rfl : messages.drop (settings.splitPoint messages) = kept :=
        (List.cons.inj same).2
      have length := congrArg List.length (split.symm.trans halves.symm)
      rw [List.length_append, List.length_append] at length
      refine (take_length_inside _ _).mp ?_
      dsimp only at count
      omega
    · intro short
      refine ⟨messages.take (settings.splitPoint messages),
        messages.drop (settings.splitPoint messages), ?_, rfl, role, rfl, rfl, _, halves.symm, ?_⟩
      · exact halves.symm
      · exact ((take_length_inside _ _).mpr short).symm

/-- A later compaction is right whatever the retention is. -/
theorem later_partitions {state : CompactionState}
    (covers : Covers raw (some state) messages)
    (compacts : compact settings summarise (some state) messages = some compacted) :
    Partitions raw summarise (some state) messages compacted := by
  obtain ⟨known, shape⟩ := covers
  have inside := compact_cuts compacts
  have role : ∀ first ∈ (messages.drop (settings.splitPoint messages)).head?,
      first.role ≠ "tool" := back_to_call_role _ inside
  unfold compact at compacts
  split at compacts
  · cases compacts
  · simp only [inside, ↓reduceIte, Option.some.injEq] at compacts
    generalize settings.splitPoint messages = split at *
    obtain ⟨place, rfl⟩ := Nat.exists_eq_succ_of_ne_zero inside
    subst shape
    simp only [Nat.succ_eq_add_one, List.take_succ_cons, List.drop_succ_cons, List.drop_zero]
      at compacts role
    generalize rest_same : raw.drop state.compactedCount = rest at *
    subst compacts
    have halves := List.take_append_drop place rest
    have gone : raw = (raw.take state.compactedCount ++ rest.take place) ++ rest.drop place := by
      rw [List.append_assoc, halves, ← rest_same, List.take_append_drop]
    refine ⟨rest.take place, rest.drop place, ?_, rfl, role, ?_, ?_, _, gone, ?_⟩
    · simp [halves]
    · simp only [asked, messages_text_empty]
    · -- The summary is the answer, or stays where there was nothing to ask.
      by_cases silent : messagesText (rest.take place) = "" <;> simp [silent]
    · simp only [List.length_append, List.length_take]
      omega

/-- A compaction that returns a result partitions the history exactly if the
retention is not negative, or it follows an earlier one. -/
theorem compact_partitions_iff (covers : Covers raw state messages)
    (compacts : compact settings summarise state messages = some compacted) :
    Partitions raw summarise state messages compacted ↔ 0 ≤ settings.retention ∨ state ≠ none := by
  cases state with
  | some state =>
      have partitions := later_partitions covers compacts
      exact ⟨fun _ => Or.inr (Option.some_ne_none state), fun _ => partitions⟩
  | none =>
      have same : messages = raw := covers
      subst same
      rw [first_partitions_iff compacts]
      constructor
      · intro short
        left
        by_contra negative
        -- The cut starts behind the end, where no tool message moves it back.
        have stays : settings.splitPoint messages = (messages.length - settings.retention).toNat := by
          have behind : messages.length < (messages.length - settings.retention).toNat := by omega
          rw [Settings.splitPoint]
          generalize (messages.length - settings.retention).toNat = start at behind
          cases start with
          | zero => rfl
          | succ start =>
              rw [backToCall, List.getElem?_eq_none (Nat.le_of_lt behind)]
              simp
        omega
      · rintro (positive | clash)
        · exact split_inside positive
        · exact absurd rfl clash

/-- The state of the result covers the new list. -/
theorem Partitions.covers (partitions : Partitions raw summarise state messages compacted) :
    Covers raw (some compacted.result) compacted.messages := by
  obtain ⟨_, kept, _, same, _, _, _, gone, split, count⟩ := partitions
  rw [Covers, same, count, split, List.drop_left, List.length_append]
  exact ⟨Nat.le_add_right _ _, rfl⟩

theorem Covers.record (covers : Covers raw state messages) (message : Message) :
    Covers (raw ++ [message]) state (messages ++ [message]) := by
  cases state with
  | none => exact congrArg (· ++ [message]) covers
  | some state =>
      obtain ⟨known, shape⟩ := covers
      constructor
      · rw [List.length_append]
        exact Nat.le_add_right_of_le known
      · rw [shape, List.drop_append_of_le_length known]
        rfl

end Compact

/-! A user says three things, and nothing is to be retained, or less. -/

def sampleMessages : List Message := ["a", "b", "c"].map fun text => { role := "user", content := text }

def sampleSettings (retention : Int) : Settings := ⟨fun _ => 1, 0, retention⟩

theorem sample_partitions :
    ∃ compacted, compact (sampleSettings 1) (fun _ => "s") none sampleMessages = some compacted ∧
      (Partitions sampleMessages (fun _ => "s") none sampleMessages compacted ↔
        0 ≤ (sampleSettings 1).retention ∨ (none : Option CompactionState) ≠ none) := by
  obtain ⟨compacted, compacts⟩ := Option.isSome_iff_exists.mp
    (by decide : (compact (sampleSettings 1) (fun _ => "s") none sampleMessages).isSome = true)
  exact ⟨compacted, compacts, compact_partitions_iff rfl compacts⟩

/-- With a negative retention the count of a first compaction is too high. -/
theorem negative_retention_miscounts :
    ¬ ∀ (settings : Settings) (summarise : String → String) (state : Option CompactionState)
      (raw messages : List Message) (compacted : Compacted), Covers raw state messages →
        compact settings summarise state messages = some compacted →
          Partitions raw summarise state messages compacted := by
  intro claim
  obtain ⟨compacted, compacts⟩ := Option.isSome_iff_exists.mp
    (by decide : (compact (sampleSettings (-2)) (fun _ => "s") none sampleMessages).isSome = true)
  have partitions := claim _ _ none sampleMessages _ _ rfl compacts
  exact absurd ((first_partitions_iff compacts).mp partitions) (by decide)

/-! ### Any number of compactions -/

inductive Turn where
  | record (message : Message)
  | compact (settings : Settings) (summarise : String → String)

/-- The list, the state and the history behind them. -/
structure Kept where
  raw : List Message := []
  state : Option CompactionState := none
  messages : List Message := []

def Kept.take (kept : Kept) : Turn → Kept
  | .record message =>
      { kept with raw := kept.raw ++ [message], messages := kept.messages ++ [message] }
  | .compact settings summarise =>
      match compact settings summarise kept.state kept.messages with
      | none => kept
      | some compacted =>
          { kept with state := some compacted.result, messages := compacted.messages }

/-- With retentions that are not negative every list stands for its history. -/
theorem turns_cover (turns : List Turn)
    (positive : ∀ settings summarise, .compact settings summarise ∈ turns →
      0 ≤ settings.retention) :
    Covers (turns.foldl Kept.take {}).raw (turns.foldl Kept.take {}).state
      (turns.foldl Kept.take {}).messages := by
  have all : ∀ (kept : Kept), Covers kept.raw kept.state kept.messages →
      Covers (turns.foldl Kept.take kept).raw (turns.foldl Kept.take kept).state
        (turns.foldl Kept.take kept).messages := by
    induction turns with
    | nil => exact fun _ covers => covers
    | cons turn rest ih =>
        intro kept covers
        refine ih (fun settings summarise listed =>
          positive settings summarise (List.mem_cons_of_mem turn listed)) _ ?_
        cases turn with
        | record message => exact covers.record message
        | compact settings summarise =>
            simp only [Kept.take]
            split
            · exact covers
            · rename_i compacted compacts
              have kept_positive := positive settings summarise List.mem_cons_self
              exact ((compact_partitions_iff covers compacts).mpr (Or.inl kept_positive)).covers
  exact all {} rfl

/-! ### The lists of a session -/

/-- The messages that a session records, as dictionaries. -/
def message : ChatMessage → Message
  | .user content => { role := "user", content }
  | .assistant content => { role := "assistant", content }
  | .toolCall _ name arguments => { role := "assistant", toolCalls := [⟨name, arguments⟩] }
  | .tool _ content => { role := "tool", content }

theorem message_role (chat : ChatMessage) : (message chat).role = chat.role := by
  cases chat <;> rfl

theorem message_lines (chat : ChatMessage) : (message chat).lines = chat.lines := by
  cases chat with
  | toolCall callId name arguments =>
      by_cases silent : name = "" ∧ arguments = "" <;> simp [message, Message.lines,
        ChatMessage.lines, silent]
  | user content | assistant content | tool callId content =>
      by_cases silent : content = "" <;>
        simp [message, Message.lines, ChatMessage.lines, silent]

theorem messages_text_same (messages : List ChatMessage) :
    messagesText (messages.map message) = History.messagesText messages := by
  rw [messagesText, History.messagesText, List.flatMap_map]
  simp only [message_lines]

theorem back_to_call_same (messages : List ChatMessage) (start : Nat) :
    backToCall (messages.map message) start = History.backToCall messages start := by
  induction start with
  | zero => rfl
  | succ start ih =>
      rw [backToCall, History.backToCall, ih, List.getElem?_map, Option.map_map]
      simp only [Function.comp_def, message_role]

/-- The settings of a builder. -/
def settingsOf (builder : HistoryBuilder) : Settings where
  countTokens text := builder.countTokens text
  threshold := builder.threshold
  retention := builder.retention

/-- The compaction of a session is the one of its list, with the state cached
for the context. -/
theorem compact_same (builder : HistoryBuilder) (cache : CompactionCache)
    (contextId answer : String) (messages : List ChatMessage) :
    (compact (settingsOf builder) (fun _ => answer) (cache.get? contextId)
        (messages.map message)).map (fun compacted => (compacted.messages, compacted.result)) =
      (builder.compact cache contextId answer messages).2.1.map fun result =>
        ((builder.compact cache contextId answer messages).1.map message, result) := by
  have cut : (settingsOf builder).splitPoint (messages.map message) = builder.splitPoint messages := by
    rw [Settings.splitPoint, HistoryBuilder.splitPoint, back_to_call_same, List.length_map]
    exact congrArg _ (Int.toNat_sub _ _)
  have few : (settingsOf builder).countTokens (messagesText (messages.map message)) ≤
        (settingsOf builder).threshold ↔
      builder.countTokens (History.messagesText messages) ≤ builder.threshold := by
    rw [messages_text_same]
    exact Int.ofNat_le
  have inside : (settingsOf builder).splitPoint (messages.map message) ≤
      (messages.map message).length := split_inside (Int.natCast_nonneg _)
  rw [cut, List.length_map] at inside
  unfold compact HistoryBuilder.compact HistoryBuilder.request?
  simp only [few, cut, ← List.map_take, ← List.map_drop]
  by_cases short : builder.countTokens (History.messagesText messages) ≤ builder.threshold
  · simp only [short, ↓reduceIte, Option.map_none]
  · by_cases start : builder.splitPoint messages = 0
    · simp only [short, start, ↓reduceIte, Option.map_none]
    · simp only [short, start, ↓reduceIte]
      cases cache.get? contextId with
      | none =>
          have length := (List.length_take_of_le inside)
          simp only [HistoryBuilder.Request.result, HistoryBuilder.Request.messages, length]
          rfl
      | some state =>
          simp only [HistoryBuilder.Request.result, HistoryBuilder.Request.messages,
            HistoryBuilder.Request.prompt, HistoryBuilder.Request.newMessages, messages_text_same,
            List.length_map]
          simp [message, summaryMessage]

end Choirworks.History.Folding
