import Choirworks.History.Tasks

/-!
`HistoryBuilder`: the message list rebuilt from the artifacts of the visible
tasks, and its compaction into a summary. The compaction state of a context is
cached in the process; `compact` trusts it to say whether the list starts with
a summary. The summariser is a language model: its answer is a parameter.
-/

namespace Choirworks.History

structure CompactionState where
  compactedCount : Nat
  summary : String
deriving DecidableEq

/-- What the replay of artifacts has read so far: the raw messages and the
latest compaction. -/
structure Replayed where
  raw : List ChatMessage
  latest : Option CompactionState
deriving DecidableEq

def Replayed.empty : Replayed := ⟨[], none⟩

/-- The messages of a part; `fresh` draws the ids that payloads lack. -/
def partMessages (fresh : Nat → String) (position : Nat) (part : Part) : List ChatMessage :=
  match part.cwType, part.content with
  | some .decision, .text content | some .history, .text content =>
      [if part.role.getD "assistant" = "user" then .user content else .assistant content]
  | some .functionCall, .data payload => toolExchangeFromData (fresh position) payload
  | _, _ => []

def partCompaction (part : Part) : Option CompactionState :=
  match part.cwType, part.content with
  | some .compaction, .text summary => some ⟨part.compactedCount.getD 0, summary⟩
  | _, _ => none

def replayPart (fresh : Nat → String) (replayed : Replayed) (part : Part) : Replayed where
  raw := replayed.raw ++ partMessages fresh replayed.raw.length part
  latest := (partCompaction part).or replayed.latest

def replayParts (fresh : Nat → String) (replayed : Replayed) (parts : List Part) : Replayed :=
  parts.foldl (replayPart fresh) replayed

def Task.parts (task : Task) : List Part := task.artifacts.flatten

def excluded (exclude : String) (task : Task) : Bool := exclude ≠ "" && task.id = exclude

def replayTasks (fresh : Nat → String) (exclude : String) (tasks : List Task) : Replayed :=
  replayParts fresh .empty
    ((tasks.filter fun task => !excluded exclude task).flatMap Task.parts)

/-- The list that a replay stands for. -/
def Replayed.messages (replayed : Replayed) : List ChatMessage :=
  match replayed.latest with
  | some state => .assistant state.summary :: replayed.raw.drop state.compactedCount
  | none => replayed.raw

structure HistoryBuilder where
  countTokens : String → Nat
  /-- `int(context window * compaction_threshold)`. -/
  threshold : Nat
  retention : Nat

abbrev CompactionCache := Dict String CompactionState

/-- `rebuild`; `none` stands for a store that raises. A cached state is only
replaced, never removed. -/
def rebuild (fresh : Nat → String) (cache : CompactionCache) (contextId exclude : String)
    (listed : Option (List (List Task))) : List ChatMessage × CompactionCache :=
  if contextId = "" then ([], cache)
  else match listed with
    | none => ([], cache)
    | some pages =>
        let replayed := replayTasks fresh exclude (listAllTasks pages)
        match replayed.latest with
        | some state => (replayed.messages, cache.set contextId state)
        | none => (replayed.messages, cache)

/-- The cut moves back while it would leave a tool message in front. -/
def backToCall (messages : List ChatMessage) : Nat → Nat
  | 0 => 0
  | split + 1 =>
      if (messages[split + 1]?.map ChatMessage.role) = some "tool" then backToCall messages split
      else split + 1

namespace HistoryBuilder

def splitPoint (builder : HistoryBuilder) (messages : List ChatMessage) : Nat :=
  backToCall messages (messages.length - builder.retention)

/-- A compaction up to its call of the summariser, which runs while other tasks
go on: what it read of list and cache. -/
structure Request where
  state : Option CompactionState
  old : List ChatMessage
  recent : List ChatMessage
deriving DecidableEq

def request? (builder : HistoryBuilder) (cache : CompactionCache) (contextId : String)
    (messages : List ChatMessage) : Option Request :=
  if builder.countTokens (messagesText messages) ≤ builder.threshold then none
  else
    let split := builder.splitPoint messages
    if split = 0 then none
    else some ⟨cache.get? contextId, messages.take split, messages.drop split⟩

/-- The messages a summary has to cover besides the previous summary. -/
def Request.newMessages (request : Request) : List ChatMessage :=
  match request.state with
  | some _ => request.old.drop 1
  | none => request.old

/-- The text given to the summariser; `none` keeps the previous summary. -/
def Request.prompt (request : Request) : Option String :=
  match request.state with
  | some state =>
      if messagesText request.newMessages = "" then none
      else some ("Previous summary:\n" ++ state.summary ++ "\n\nNew messages:\n" ++
        messagesText request.newMessages)
  | none => some (messagesText request.old)

def Request.result (request : Request) (answer : String) : CompactionState :=
  match request.state with
  | some state =>
      ⟨state.compactedCount + request.newMessages.length,
        if request.prompt = none then state.summary else answer⟩
  | none => ⟨request.old.length, answer⟩

def Request.messages (request : Request) (answer : String) : List ChatMessage :=
  .assistant (request.result answer).summary :: request.recent

/-- `compact`: the new list, the result to persist and the cache. -/
def compact (builder : HistoryBuilder) (cache : CompactionCache) (contextId answer : String)
    (messages : List ChatMessage) :
    List ChatMessage × Option CompactionState × CompactionCache :=
  match builder.request? cache contextId messages with
  | none => (messages, none, cache)
  | some request =>
      (request.messages answer, some (request.result answer),
        cache.set contextId (request.result answer))

end HistoryBuilder

end Choirworks.History
