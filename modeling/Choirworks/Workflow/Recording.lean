import Choirworks.Library.Runs
import Choirworks.Workflow.Rehydration

/-!
Node runs as they are recorded. Each runner marks the events of its node with the
path of the run, appends the complete ones to the log that all runs share and
forwards every one; a replayed run is given events of the log once more. The
nodes run side by side: a label is one step of one of them.
-/

namespace Choirworks.Workflow

namespace A2AEvent

def withMeta (event : A2AEvent) (metadata : EventMeta) : A2AEvent :=
  match event with
  | .status state parts _ => .status state parts metadata
  | .artifact parts append lastChunk _ => .artifact parts append lastChunk metadata
  | .message parts _ => .message parts metadata

def withOutput (event : A2AEvent) (value : Json) : A2AEvent :=
  event.withMeta { event.metadata with output := some value }

/-- Its own text as the output, where there is one. -/
def withTextOutput (event : A2AEvent) : A2AEvent :=
  if event.extractText = "" then event else event.withOutput (.string event.extractText)

def hasFunctionCalls (event : A2AEvent) : Bool := event.contentParts.any Part.isFunctionCall

/-- A status whose content is provisional. -/
def isProvisional : A2AEvent → Bool
  | .status state _ _ => state ∈ nonFinalTaskStates
  | .artifact .. | .message .. => false

end A2AEvent

/-- What the text of a response is validated with, if the agent has a schema. -/
abbrev OutputSchema := Option (String → Except String Json)

inductive NodeKind where
  | agent (outputSchema : OutputSchema)
  | remote
  /-- A node whose output is not that of an event. -/
  | other

/-- The run of a node, with what its context takes from that of its parent. -/
structure NodeRunner where
  nodeName : String
  runId : String := "1"
  parentPath : String := ""
  branch : Option String := none
  isolationScope : Option String := none

/-- The output that the last of the events with one has. -/
def lastOutput (events : List A2AEvent) : Option Json :=
  events.foldl (fun output event => event.output <|> output) none

namespace NodeRunner

def segment (runner : NodeRunner) : String :=
  if runner.runId = "" then runner.nodeName else runner.nodeName ++ "@" ++ runner.runId

def nodePath (runner : NodeRunner) : String :=
  ((NodePath.fromString runner.parentPath).append runner.segment).toText

/-- `_enrich_event`. -/
def enrich (runner : NodeRunner) (event : A2AEvent) : A2AEvent :=
  let found := event.metadata
  event.withMeta
    { found with
      author := if found.author = "" then runner.nodeName else found.author
      nodeInfo :=
        if found.nodeInfo.path = "" then { found.nodeInfo with path := runner.nodePath }
        else found.nodeInfo
      branch := found.branch <|> runner.branch
      isolationScope := found.isolationScope <|> runner.isolationScope }

/-- `run_replayed`, less the barrier: what it emits, and the output of its context. -/
def runReplayed (runner : NodeRunner) (events : List A2AEvent) (output : Option Json) :
    List A2AEvent × Option Json :=
  let emitted := events.map runner.enrich
  (emitted, output <|> lastOutput emitted)

end NodeRunner

/-- A run with its context; `sent` has the events it has forwarded. -/
structure NodeRun where
  runner : NodeRunner
  kind : NodeKind
  output : Option Json := none
  promoted : Bool := false
  error : Option String := none
  ended : Bool := false
  sent : List A2AEvent := []

/-- `process_llm_agent_output`: the output of the context and the event. -/
def processLlmAgentOutput (outputSchema : OutputSchema) (output : Option Json) (event : A2AEvent) :
    Except String (Option Json × A2AEvent) :=
  if !event.isFinalArtifact || event.hasFunctionCalls then .ok (output, event)
  else
    let text := event.extractText
    match outputSchema with
    | none => .ok (some (.string text), event.withTextOutput)
    | some validate =>
        if Text.strip text.toList = [] then .ok (none, event.withTextOutput)
        else (validate text).map fun value => (some value, event.withTextOutput)

/-- `_promote_response_to_output`: the text, if the event is the response. -/
def promotedText (event : A2AEvent) : Option String :=
  if event.isPartial || event.isProvisional || event.extractText = "" then none
  else some event.extractText

namespace NodeRun

/-- What becomes of an event on its way from the node to the runner. -/
def promote (run : NodeRun) (event : A2AEvent) : Except String (NodeRun × A2AEvent) :=
  match run.kind with
  | .other => .ok (run, event)
  | .agent outputSchema =>
      (processLlmAgentOutput outputSchema run.output event).map fun (output, event) =>
        ({ run with output }, event)
  | .remote =>
      match run.promoted, promotedText event with
      | false, some text =>
          .ok ({ run with output := some (.string text), promoted := true },
            event.withOutput (.string text))
      | _, _ => .ok (run, event)

def fail (run : NodeRun) (error : String) : NodeRun :=
  { run with error := some error, ended := true }

end NodeRun

/-- What the runs of an invocation share, and the runs. -/
structure Invocation where
  events : List A2AEvent := []
  queue : List A2AEvent := []
  runs : List NodeRun := []

/-- A node of another kind ends with the output that its context is given. -/
inductive RunnerAct where
  | start (runner : NodeRunner) (kind : NodeKind)
  | emit (index : Nat) (event : A2AEvent)
  | finish (index : Nat) (output : Option Json)
  | fail (index : Nat) (error : String)

namespace Invocation

/-- `_enqueue_event`. -/
def enqueue (invocation : Invocation) (index : Nat) (run : NodeRun) (event : A2AEvent) :
    Invocation :=
  let sent := run.runner.enrich event
  { events := if sent.isPartial then invocation.events else invocation.events ++ [sent]
    queue := invocation.queue ++ [sent]
    runs := invocation.runs.set index { run with sent := run.sent ++ [sent] } }

def step (invocation : Invocation) : RunnerAct → Option Invocation
  | .start runner kind => some { invocation with runs := invocation.runs ++ [{ runner, kind }] }
  | .emit index event =>
      match invocation.runs[index]? with
      | none => none
      | some run =>
          if run.ended then none
          else match run.promote event with
            | .error text => some { invocation with runs := invocation.runs.set index (run.fail text) }
            | .ok (next, event) => some (invocation.enqueue index next event)
  | .finish index output =>
      match invocation.runs[index]? with
      | none => none
      | some run =>
          if run.ended then none
          else
            let output := match run.kind with
              | .other => output
              | .agent _ | .remote => run.output
            some { invocation with
              runs := invocation.runs.set index { run with output, ended := true } }
  | .fail index text =>
      match invocation.runs[index]? with
      | none => none
      | some run =>
          if run.ended then none
          else some { invocation with runs := invocation.runs.set index (run.fail text) }

/-- The run ids of a node differ, and its events come to the runner unmarked. -/
def Orderly (invocation : Invocation) : RunnerAct → Prop
  | .start runner _ =>
      runner.nodeName ≠ "" ∧ '/' ∉ runner.segment.toList ∧ runner.runId ≠ "" ∧
        '@' ∉ runner.runId.toList ∧
          ∀ run ∈ invocation.runs, run.runner.nodePath ≠ runner.nodePath
  | .emit _ event => event.metadata.nodeInfo = ⟨"", none, none⟩ ∧ event.metadata.output = none
  | .finish .. | .fail .. => True

end Invocation

/-! ### Paths -/

namespace NodePath

theorem of_string_append (parentPath : String) {segment : String} (filled : segment ≠ "")
    (free : '/' ∉ segment.toList) :
    fromString ((fromString parentPath).append segment).toText =
      (fromString parentPath).append segment := by
  have whole : ((fromString parentPath).append segment).toText.toList =
      if parentPath = "" then segment.toList else parentPath.toList ++ '/' :: segment.toList := by
    unfold fromString append toText
    split
    · simp [Text.join]
    · obtain ⟨first, others, pieces, _⟩ := Text.split_pieces '/' parentPath.toList
      have parts := Text.join_split "/" '/' rfl parentPath.toList
      rw [pieces, List.map_cons] at parts
      dsimp only
      rw [pieces, List.map_cons, Text.join_snoc, String.toList_append, String.toList_append, parts,
        List.append_assoc]
      rfl
  have named : ((fromString parentPath).append segment).toText ≠ "" := by
    intro empty
    rw [empty] at whole
    split at whole
    · exact filled (String.toList_inj.mp whole.symm)
    · simp at whole
  conv_lhs => rw [fromString, if_neg named, whole]
  unfold fromString append
  split
  · rw [Text.split_free free]
    simp
  · rw [Text.split_snoc _ free]
    simp

theorem run_id_of_segment (name : String) {runId : String} (unmarked : '@' ∉ runId.toList)
    (free : '/' ∉ (name ++ "@" ++ runId).toList) :
    (fromString (name ++ "@" ++ runId)).runId = some runId := by
  have named : name ++ "@" ++ runId ≠ "" := by
    intro empty
    have := congrArg String.toList empty
    simp at this
  rw [fromString, if_neg named, Text.split_free free]
  have unmarked : '@' ∉ runId.toList.reverse := by simpa using unmarked
  simp [NodePath.runId, leafSegment, Text.cut_first unmarked]

end NodePath

/-! ### What a runner leaves of an event -/

namespace A2AEvent

variable (event : A2AEvent) (found : EventMeta)

@[simp] theorem with_meta_metadata : (event.withMeta found).metadata = found := by cases event <;> rfl

@[simp] theorem with_meta_again (other : EventMeta) :
    (event.withMeta found).withMeta other = event.withMeta other := by cases event <;> rfl

@[simp] theorem with_meta_content : (event.withMeta found).contentParts = event.contentParts := by
  cases event <;> rfl

@[simp] theorem with_meta_partial : (event.withMeta found).isPartial = event.isPartial := by
  cases event <;> rfl

@[simp] theorem with_meta_final : (event.withMeta found).isFinalArtifact = event.isFinalArtifact := by
  cases event <;> rfl

@[simp] theorem with_output_partial (value : Json) :
    (event.withOutput value).isPartial = event.isPartial := by
  simp [withOutput]

@[simp] theorem with_output_output (text : String) :
    (event.withOutput (.string text)).output = some (.string text) := by
  simp [withOutput, output]

@[simp] theorem with_text_content : event.withTextOutput.contentParts = event.contentParts := by
  unfold withTextOutput withOutput
  split <;> simp

@[simp] theorem with_text_final : event.withTextOutput.isFinalArtifact = event.isFinalArtifact := by
  unfold withTextOutput withOutput
  split <;> simp

@[simp] theorem with_text_partial : event.withTextOutput.isPartial = event.isPartial := by
  unfold withTextOutput withOutput
  split <;> simp

theorem with_text_info : event.withTextOutput.metadata.nodeInfo = event.metadata.nodeInfo := by
  unfold withTextOutput withOutput
  split <;> simp

theorem with_text_output (spoken : event.extractText ≠ "") :
    event.withTextOutput.output = some (.string event.extractText) := by
  rw [withTextOutput, if_neg spoken, with_output_output]

theorem final_complete {event : A2AEvent} (final : event.isFinalArtifact = true) :
    event.isPartial = false := by
  cases event <;> simp_all [isFinalArtifact, isPartial]

end A2AEvent

namespace NodeRunner

variable (runner : NodeRunner) (event : A2AEvent)

@[simp] theorem enrich_content : (runner.enrich event).contentParts = event.contentParts := by
  simp [enrich]

@[simp] theorem enrich_text : (runner.enrich event).extractText = event.extractText := by
  simp [A2AEvent.extractText]

@[simp] theorem enrich_calls : (runner.enrich event).hasFunctionCalls = event.hasFunctionCalls := by
  simp [A2AEvent.hasFunctionCalls]

@[simp] theorem enrich_partial : (runner.enrich event).isPartial = event.isPartial := by
  simp [enrich]

@[simp] theorem enrich_final : (runner.enrich event).isFinalArtifact = event.isFinalArtifact := by
  simp [enrich]

@[simp] theorem enrich_output : (runner.enrich event).output = event.output := by
  simp [enrich, A2AEvent.output]

/-- An event that a run has marked is not changed by its replay. -/
@[simp] theorem enrich_again : runner.enrich (runner.enrich event) = runner.enrich event := by
  cases event <;>
    simp only [enrich, A2AEvent.withMeta, A2AEvent.metadata] <;> congr 1 <;>
    simp only [EventMeta.mk.injEq, true_and] <;> grind

end NodeRunner

theorem last_output_snoc (events : List A2AEvent) (event : A2AEvent) :
    lastOutput (events ++ [event]) = (event.output <|> lastOutput events) := by
  simp [lastOutput]

/-! ### The output of a run and what its events tell of it -/

namespace NodeRun

/-- What the log keeps of a run. -/
def recorded (run : NodeRun) : List A2AEvent := run.sent.filter fun event => !event.isPartial

def recovered (run : NodeRun) : Option Json := lastOutput run.recorded

/-- The text of the last response of an agent. -/
def lastResponse (run : NodeRun) : Option String :=
  ((run.sent.filter fun event => event.isFinalArtifact && !event.hasFunctionCalls).map
    A2AEvent.extractText).getLast?

end NodeRun

/-- What a node makes of the output that its events tell. -/
def NodeKind.read : NodeKind → Option Json → Except String (Option Json)
  | .agent (some validate), some (.string text) => (validate text).map some
  | _, output => .ok output

/-- A response is the output as the schema reads it, and marked with its text. -/
theorem process_cases {outputSchema : OutputSchema} {output behind : Option Json}
    {event marked : A2AEvent}
    (processed : processLlmAgentOutput outputSchema output event = .ok (behind, marked)) :
    ((event.isFinalArtifact && !event.hasFunctionCalls) = false ∧ behind = output ∧ marked = event) ∨
      ((event.isFinalArtifact && !event.hasFunctionCalls) = true ∧
        marked = event.withTextOutput ∧
        (Text.strip event.extractText.toList ≠ [] →
          (NodeKind.agent outputSchema).read (some (.string event.extractText)) = .ok behind)) := by
  unfold processLlmAgentOutput at processed
  split at processed
  · rename_i other
    cases processed
    refine Or.inl ⟨?_, rfl, rfl⟩
    cases final : event.isFinalArtifact <;> simp_all
  · rename_i response
    refine Or.inr ⟨by simpa using response, ?_⟩
    cases outputSchema with
    | none =>
        cases processed
        exact ⟨rfl, fun _ => rfl⟩
    | some validate =>
        dsimp only at processed
        split at processed
        · rename_i blank
          cases processed
          exact ⟨rfl, fun spoken => absurd blank spoken⟩
        · cases validated : validate event.extractText with
          | error text =>
              rw [validated] at processed
              cases processed
          | ok value =>
              rw [validated] at processed
              cases processed
              exact ⟨rfl, fun _ => by simp [NodeKind.read, validated, Except.map]⟩

namespace NodeRun

/-- How far the events of a run tell its output. -/
def Sound (run : NodeRun) : Prop :=
  match run.kind with
  | .other => run.recovered = none
  | .remote => run.recovered = run.output ∧ (run.promoted = false → run.output = none)
  | .agent _ =>
      match run.lastResponse with
      | none => run.output = none ∧ run.recovered = none
      | some text => Text.strip text.toList ≠ [] →
          run.recovered = some (.string text) ∧ run.kind.read run.recovered = .ok run.output

/-- The last response of an agent is not blank. -/
def Spoken (run : NodeRun) : Prop :=
  match run.kind with
  | .agent _ => ∀ text, run.lastResponse = some text → Text.strip text.toList ≠ []
  | .remote => True
  | .other => False

/-- The run when it has forwarded the event. -/
def send (run : NodeRun) (event : A2AEvent) : NodeRun :=
  { run with sent := run.sent ++ [event] }

variable {run next : NodeRun} {event promoted : A2AEvent}

@[simp] theorem send_runner : (run.send event).runner = run.runner := rfl

@[simp] theorem send_kind : (run.send event).kind = run.kind := rfl

theorem send_recorded : (run.send event).recorded =
    if event.isPartial then run.recorded else run.recorded ++ [event] := by
  unfold recorded send
  rw [List.filter_append]
  split <;> rename_i complete <;> simp [complete]

theorem send_recovered : (run.send event).recovered =
    if event.isPartial then run.recovered else event.output <|> run.recovered := by
  unfold recovered
  rw [send_recorded]
  split
  · rfl
  · exact last_output_snoc _ _

theorem send_response : (run.send event).lastResponse =
    if event.isFinalArtifact && !event.hasFunctionCalls then some event.extractText
    else run.lastResponse := by
  unfold lastResponse send
  rw [List.filter_append]
  split
  · rename_i response
    simp [response]
  · rename_i other
    simp [other]

/-- An event without an output tells nothing. -/
theorem send_silent (unmarked : event.output = none) : (run.send event).recovered = run.recovered := by
  rw [send_recovered, unmarked]
  simp

theorem promote_keeps (promotes : run.promote event = .ok (next, promoted)) :
    next.runner = run.runner ∧ next.kind = run.kind ∧ next.sent = run.sent ∧
      promoted.metadata.nodeInfo = event.metadata.nodeInfo := by
  unfold promote at promotes
  split at promotes
  · cases promotes
    exact ⟨rfl, rfl, rfl, rfl⟩
  · cases processed : processLlmAgentOutput _ run.output event with
    | error text =>
        rw [processed] at promotes
        cases promotes
    | ok result =>
        rw [processed] at promotes
        cases promotes
        refine ⟨rfl, rfl, rfl, ?_⟩
        rcases process_cases processed with ⟨_, _, same⟩ | ⟨_, same, _⟩
        · rw [same]
        · rw [same, A2AEvent.with_text_info]
  · split at promotes
    · cases promotes
      exact ⟨rfl, rfl, rfl, by simp [A2AEvent.withOutput]⟩
    · cases promotes
      exact ⟨rfl, rfl, rfl, rfl⟩

theorem Sound.kept (sound : run.Sound) (kind : next.kind = run.kind) (sent : next.sent = run.sent)
    (promoted : next.promoted = run.promoted)
    (output : (∀ outputSchema, run.kind = .agent outputSchema → next.output = run.output) ∧
      (run.kind = .remote → next.output = run.output)) : next.Sound := by
  unfold Sound recovered recorded lastResponse at sound ⊢
  rw [kind, sent, promoted]
  cases same : run.kind with
  | other => rwa [same] at sound
  | remote => rwa [same, ← output.2 same] at sound
  | agent outputSchema => rwa [same, ← output.1 outputSchema same] at sound

/-- Forwarding an event keeps its text and its output. -/
theorem Sound.emit (sound : run.Sound) (unmarked : event.output = none)
    (promotes : run.promote event = .ok (next, promoted)) :
    (next.send (next.runner.enrich promoted)).Sound := by
  obtain ⟨sameRunner, sameKind, sameSent, _⟩ := promote_keeps promotes
  have recovered : next.recovered = run.recovered := by
    unfold recovered recorded
    rw [sameSent]
  have response : next.lastResponse = run.lastResponse := by
    unfold lastResponse
    rw [sameSent]
  unfold promote at promotes
  unfold Sound at sound ⊢
  cases kind : run.kind with
  | other =>
      rw [kind] at promotes sound
      cases promotes
      have silent : (run.send (run.runner.enrich event)).recovered = run.recovered :=
        send_silent (by simpa using unmarked)
      simp only [send, kind]
      exact silent.trans sound
  | remote =>
      rw [kind] at promotes sound
      dsimp only at promotes sound
      simp only [send_kind, sameKind, kind]
      split at promotes
      · rename_i text first found
        cases promotes
        have complete : event.isPartial = false := by
          unfold promotedText at found
          split at found
          · cases found
          · rename_i shown
            simp_all
        rw [send_recovered]
        simp [complete, send]
      · cases promotes
        rw [send_silent (by simpa using unmarked)]
        exact sound
  | agent outputSchema =>
      rw [kind] at promotes sound
      dsimp only at promotes sound
      cases processed : processLlmAgentOutput outputSchema run.output event with
      | error text =>
          rw [processed] at promotes
          cases promotes
      | ok result =>
          obtain ⟨behind, marked⟩ := result
          rw [processed] at promotes
          cases promotes
          simp only [send_kind, send_response]
          rcases process_cases processed with ⟨other, rfl, rfl⟩ | ⟨final, rfl, reads⟩
          · simp only [NodeRunner.enrich_final, NodeRunner.enrich_calls, other]
            rw [send_silent (by simpa using unmarked)]
            exact sound
          · have response : (event.withTextOutput.isFinalArtifact &&
                !event.withTextOutput.hasFunctionCalls) = true := by
              simpa [A2AEvent.hasFunctionCalls] using final
            have text : event.withTextOutput.extractText = event.extractText := by
              simp [A2AEvent.extractText]
            have complete : event.isPartial = false :=
              A2AEvent.final_complete (Bool.and_eq_true_iff.mp final).1
            simp only [NodeRunner.enrich_final, NodeRunner.enrich_calls, NodeRunner.enrich_text,
              response, if_true, text]
            intro spoken
            have told : event.extractText ≠ "" := by
              intro empty
              exact spoken (by rw [empty]; rfl)
            rw [send_recovered]
            simp only [NodeRunner.enrich_partial, NodeRunner.enrich_output,
              A2AEvent.with_text_partial, complete, A2AEvent.with_text_output _ told]
            exact ⟨rfl, reads spoken⟩

end NodeRun

/-! ### The log that the runs share -/

/-- The path of a run can be read back. -/
structure NodeRunner.Named (runner : NodeRunner) : Prop where
  segment : runner.segment = runner.nodeName ++ "@" ++ runner.runId
  free : '/' ∉ (runner.nodeName ++ "@" ++ runner.runId).toList
  unmarked : '@' ∉ runner.runId.toList

/-- The log `events` has of the run what it has forwarded. -/
structure NodeRun.Recorded (events : List A2AEvent) (run : NodeRun) : Prop where
  named : run.runner.Named
  sound : run.Sound
  marked : ∀ event ∈ run.sent, run.runner.enrich event = event
  own : (events.filter fun event => event.metadata.nodeInfo.path = run.runner.nodePath) = run.recorded

namespace Invocation

structure Recorded (invocation : Invocation) : Prop where
  each : ∀ (index : Nat) (run : NodeRun), invocation.runs[index]? = some run → run.Recorded invocation.events
  apart : ∀ (left right : Nat) (run other : NodeRun), invocation.runs[left]? = some run →
    invocation.runs[right]? = some other → run.runner.nodePath = other.runner.nodePath → left = right
  placed : ∀ event ∈ invocation.events, event.isPartial = false ∧
    ∃ (index : Nat) (run : NodeRun), invocation.runs[index]? = some run ∧
      event.metadata.nodeInfo = ⟨run.runner.nodePath, none, none⟩

variable {invocation : Invocation}

theorem recorded_start : Recorded {} := by
  constructor <;> simp

/-- A run takes the place of one with the same runner, and the log may grow. -/
theorem Recorded.update (recorded : invocation.Recorded) {index : Nat} {run next : NodeRun}
    (found : invocation.runs[index]? = some run) (runner : next.runner = run.runner)
    {events : List A2AEvent} (later : ∀ (index : Nat) (other : NodeRun), invocation.runs[index]? = some other →
      other.runner.nodePath ≠ run.runner.nodePath → other.Recorded events)
    (now : next.Recorded events)
    (grown : ∀ event ∈ events, event ∈ invocation.events ∨
      event.isPartial = false ∧ event.metadata.nodeInfo = ⟨run.runner.nodePath, none, none⟩)
    (queue : List A2AEvent) :
    Recorded ⟨events, queue, invocation.runs.set index next⟩ := by
  have lookup : ∀ (place : Nat) (other : NodeRun), (invocation.runs.set index next)[place]? = some other →
      place = index ∧ other = next ∨ place ≠ index ∧ invocation.runs[place]? = some other := by
    intro place other there
    rw [List.getElem?_set] at there
    split at there
    · split at there
      · cases there
        exact Or.inl ⟨Eq.symm ‹_›, rfl⟩
      · cases there
    · exact Or.inr ⟨Ne.symm ‹_›, there⟩
  have path : ∀ (place : Nat) (other : NodeRun), (invocation.runs.set index next)[place]? = some other →
      ∃ before : NodeRun, invocation.runs[place]? = some before ∧
        before.runner.nodePath = other.runner.nodePath := by
    intro place other there
    rcases lookup place other there with ⟨rfl, rfl⟩ | ⟨_, same⟩
    · exact ⟨run, found, by rw [runner]⟩
    · exact ⟨other, same, rfl⟩
  constructor
  case each =>
    intro place other there
    rcases lookup place other there with ⟨rfl, rfl⟩ | ⟨elsewhere, same⟩
    · exact now
    · exact later place other same fun equal =>
        elsewhere (recorded.apart place index other run same found equal)
  case apart =>
    intro left right one other first second equal
    obtain ⟨oneBefore, firstBefore, onePath⟩ := path left one first
    obtain ⟨otherBefore, secondBefore, otherPath⟩ := path right other second
    exact recorded.apart left right oneBefore otherBefore firstBefore secondBefore
      (by rw [onePath, otherPath, equal])
  case placed =>
    intro event member
    have stays : ∀ (place : Nat) (before : NodeRun), invocation.runs[place]? = some before →
        ∃ other : NodeRun, (invocation.runs.set index next)[place]? = some other ∧
          other.runner.nodePath = before.runner.nodePath := by
      intro place before there
      by_cases same : index = place
      · subst same
        have inside : index < invocation.runs.length := (List.getElem?_eq_some_iff.mp there).1
        rw [found] at there
        cases there
        exact ⟨next, by simp [inside], by rw [runner]⟩
      · exact ⟨before, by rw [List.getElem?_set_ne same, there], rfl⟩
    rcases grown event member with old | ⟨complete, info⟩
    · obtain ⟨complete, place, before, there, info⟩ := recorded.placed event old
      obtain ⟨other, kept, same⟩ := stays place before there
      exact ⟨complete, place, other, kept, by rw [info, same]⟩
    · obtain ⟨other, kept, same⟩ := stays index run found
      exact ⟨complete, index, other, kept, by rw [info, same]⟩

theorem Recorded.start (recorded : invocation.Recorded) {runner : NodeRunner} (kind : NodeKind)
    (orderly : invocation.Orderly (.start runner kind)) :
    Recorded { invocation with runs := invocation.runs ++ [{ runner, kind }] } := by
  obtain ⟨_, free, numbered, unmarked, fresh⟩ := orderly
  have segment : runner.segment = runner.nodeName ++ "@" ++ runner.runId := if_neg numbered
  have lookup : ∀ (place : Nat) (other : NodeRun),
      (invocation.runs ++ [{ runner := runner, kind := kind : NodeRun }])[place]? = some other →
      invocation.runs[place]? = some other ∨ place = invocation.runs.length ∧
        other = { runner, kind } := by
    intro place other there
    rw [List.getElem?_append] at there
    split at there
    · exact Or.inl there
    · obtain ⟨inside, same⟩ := List.getElem?_eq_some_iff.mp there
      simp at inside same
      exact Or.inr ⟨by omega, same.symm⟩
  constructor
  case each =>
    intro place other there
    rcases lookup place other there with old | ⟨_, rfl⟩
    · exact recorded.each place other old
    · refine ⟨⟨segment, segment ▸ free, unmarked⟩, ?_, by simp, ?_⟩
      · cases kind <;> simp [NodeRun.Sound, NodeRun.recovered, NodeRun.recorded, NodeRun.lastResponse,
          lastOutput]
      · refine List.filter_eq_nil_iff.mpr ?_
        intro event member same
        obtain ⟨_, index, run, found, info⟩ := recorded.placed event member
        rw [info] at same
        exact fresh run (List.mem_of_getElem? found) (by simpa using same)
  case apart =>
    intro left right one other first second equal
    rcases lookup left one first with old | ⟨atEnd, rfl⟩ <;>
      rcases lookup right other second with older | ⟨alsoAtEnd, rfl⟩
    · exact recorded.apart left right one other old older equal
    · exact absurd equal (fresh one (List.mem_of_getElem? old))
    · exact absurd equal.symm (fresh other (List.mem_of_getElem? older))
    · rw [atEnd, alsoAtEnd]
  case placed =>
    intro event member
    obtain ⟨complete, index, run, found, info⟩ := recorded.placed event member
    have inside : index < invocation.runs.length := (List.getElem?_eq_some_iff.mp found).1
    exact ⟨complete, index, run, by rw [List.getElem?_append_left inside, found], info⟩

theorem Recorded.ended (recorded : invocation.Recorded) {index : Nat} {run next : NodeRun}
    (found : invocation.runs[index]? = some run) (runner : next.runner = run.runner)
    (sent : next.sent = run.sent) (sound : next.Sound) :
    Recorded { invocation with runs := invocation.runs.set index next } := by
  obtain ⟨named, _, marked, own⟩ := recorded.each index run found
  refine recorded.update found runner (fun place other there _ => recorded.each place other there)
    ⟨runner ▸ named, sound, ?_, ?_⟩ (fun event member => Or.inl member) invocation.queue
  · rw [runner, sent]
    exact marked
  · rw [runner, own]
    simp [NodeRun.recorded, sent]

theorem Recorded.enqueue (recorded : invocation.Recorded) {index : Nat} {run next : NodeRun}
    {event : A2AEvent} (found : invocation.runs[index]? = some run)
    (runner : next.runner = run.runner) (sent : next.sent = run.sent)
    (sound : (next.send (next.runner.enrich event)).Sound)
    (unplaced : event.metadata.nodeInfo = ⟨"", none, none⟩) :
    (invocation.enqueue index next event).Recorded := by
  obtain ⟨named, _, marked, own⟩ := recorded.each index run found
  have info : (next.runner.enrich event).metadata.nodeInfo = ⟨run.runner.nodePath, none, none⟩ := by
    simp [NodeRunner.enrich, unplaced, runner]
  refine recorded.update found (by exact runner) ?_ ⟨runner ▸ named, sound, ?_, ?_⟩ ?_ _
  · intro place other there elsewhere
    obtain ⟨named, sound, marked, own⟩ := recorded.each place other there
    refine ⟨named, sound, marked, ?_⟩
    split
    · exact own
    · rw [List.filter_append, own]
      simp [info, Ne.symm elsewhere]
  · intro other member
    rcases List.mem_append.mp member with before | here
    · rw [sent] at before
      rw [NodeRun.send_runner, runner]
      exact marked other before
    · rw [List.mem_singleton.mp here]
      exact next.runner.enrich_again event
  · have before : next.recorded = run.recorded := by
      simp [NodeRun.recorded, sent]
    refine Eq.trans ?_ NodeRun.send_recorded.symm
    rw [before, ← own, NodeRun.send_runner]
    split
    · rw [runner]
    · rw [runner] at info
      rw [List.filter_append]
      simp [info, runner]
  · intro other member
    split at member
    · exact Or.inl member
    · rename_i complete
      rcases List.mem_append.mp member with before | here
      · exact Or.inl before
      · rw [List.mem_singleton.mp here]
        exact Or.inr ⟨by simpa using complete, info⟩

theorem step_recorded {act : RunnerAct} {next : Invocation} (recorded : invocation.Recorded)
    (orderly : invocation.Orderly act) (stepped : invocation.step act = some next) :
    next.Recorded := by
  cases act with
  | start runner kind =>
      cases stepped
      exact recorded.start kind orderly
  | emit index event =>
      simp only [step] at stepped
      split at stepped
      · cases stepped
      · rename_i run found
        split at stepped
        · cases stepped
        · have sound := (recorded.each index run found).sound
          split at stepped
          · cases stepped
            exact recorded.ended found rfl rfl (sound.kept rfl rfl rfl ⟨fun _ _ => rfl, fun _ => rfl⟩)
          · rename_i next promoted promotes
            cases stepped
            obtain ⟨runner, _, sent, info⟩ := NodeRun.promote_keeps promotes
            refine recorded.enqueue found runner sent (sound.emit ?_ promotes) ?_
            · simp [A2AEvent.output, orderly.2]
            · exact info.trans orderly.1
  | finish index output =>
      simp only [step] at stepped
      split at stepped
      · cases stepped
      · rename_i run found
        split at stepped
        · cases stepped
        · cases stepped
          refine recorded.ended found rfl rfl
            ((recorded.each index run found).sound.kept rfl rfl rfl ⟨?_, ?_⟩)
          · intro outputSchema same
            simp [same]
          · intro same
            simp [same]
  | fail index text =>
      simp only [step] at stepped
      split at stepped
      · cases stepped
      · rename_i run found
        split at stepped
        · cases stepped
        · cases stepped
          exact recorded.ended found rfl rfl
            ((recorded.each index run found).sound.kept rfl rfl rfl ⟨fun _ _ => rfl, fun _ => rfl⟩)

end Invocation

/-! ### What the scan reads of the log -/

theorem NodePath.direct_child_of_append (base : NodePath) (segment : String) :
    base.directChild? (base.append segment) = some (base.append segment) := by
  have whole : (base.append segment).segments.take (base.segments.length + 1) =
      (base.append segment).segments :=
    List.take_of_length_le (by simp [append])
  rw [directChild?, if_pos (by simp [isDescendantOf, append]), whole]

theorem entry_of_set (states : Dict String ChildScanState) (key segment : String)
    (state : ChildScanState) :
    entryOf (states.set key state) segment = if segment = key then state else entryOf states segment := by
  unfold entryOf
  rw [Dict.get?_set]
  split <;> rfl

/-- Where no event speaks for another node, the state of a child is what its own
events tell. -/
theorem reconstructed_child (basePath segment : String) {events : List A2AEvent}
    (own : ∀ event ∈ events, event.isPartial = false ∧ event.metadata.nodeInfo.outputFor = none) :
    entryOf (reconstructNodeStates events basePath true) segment =
      (events.filter fun event => event.path = (NodePath.fromString basePath).append segment).foldl
        (fun state event => state.record event true)
        (.start (NodePath.fromString segment).runId) := by
  induction events using List.reverseRecOn with
  | nil => simp [reconstructNodeStates, entryOf]
  | append_singleton events event ih =>
      have before := ih fun other member => own other (List.mem_append_left _ member)
      obtain ⟨complete, unaddressed⟩ := own event (by simp)
      have spokenFor : ∀ target, event.isOutputFor target = false := by
        simp [A2AEvent.isOutputFor, unaddressed]
      have direct := (NodePath.fromString basePath).direct_child_of_append segment
      unfold reconstructNodeStates at before ⊢
      rw [List.foldl_append, List.foldl_cons, List.foldl_nil, List.filter_append, List.foldl_append,
        ← before]
      cases found : (NodePath.fromString basePath).directChild? event.path with
      | none =>
          have elsewhere : event.path ≠ (NodePath.fromString basePath).append segment := by
            intro same
            rw [same, direct] at found
            cases found
          rw [reconstruct_skips found]
          simp [elsewhere]
      | some child =>
          have owner := NodePath.direct_child_append found
          rw [reconstruct_grouped found, complete, spokenFor]
          by_cases here : event.path = (NodePath.fromString basePath).append segment
          · rw [here, direct] at found
            cases found
            simp [here, entry_of_set, NodePath.append, NodePath.leafSegment]
          · have nothing : [event].filter (fun event =>
                event.path = (NodePath.fromString basePath).append segment) = [] := by
              simp [here]
            rw [nothing, List.foldl_nil]
            by_cases same : segment = child.leafSegment
            · have deeper : event.path ≠ child := by
                intro equal
                exact here (by rw [equal, same]; exact owner)
              simp [deeper, entry_of_set, same]
            · split <;> simp [entry_of_set, same]

/-- The state has the last output, and keeps its run id. -/
theorem recorded_state {events : List A2AEvent}
    (plain : ∀ event ∈ events, event.metadata.nodeInfo.messageAsOutput = none)
    (state : ChildScanState) :
    (events.foldl (fun state event => state.record event true) state).output =
        events.foldl (fun output event => event.output <|> output) state.output ∧
      (events.foldl (fun state event => state.record event true) state).runId = state.runId := by
  induction events generalizing state with
  | nil => exact ⟨rfl, rfl⟩
  | cons event rest ih =>
      have silent : event.outputText = "" := by
        simp [A2AEvent.outputText, plain event List.mem_cons_self]
      have now : (state.record event true).output = (event.output <|> state.output) := by
        cases output : event.output <;> simp [ChildScanState.record, output, silent]
      obtain ⟨output, runId⟩ :=
        ih (fun other member => plain other (List.mem_cons_of_mem _ member)) (state.record event true)
      exact ⟨by rw [List.foldl_cons, List.foldl_cons, output, now], by rw [List.foldl_cons, runId]; rfl⟩

/-! ### Live runs and replayed ones -/

/-- What a replay makes of the run: `own` are its events in the log, `state` is what the
scan has recovered of it. -/
structure NodeRun.Restored (run : NodeRun) (own : List A2AEvent) (state : ChildScanState) :
    Prop where
  complete : own = run.recorded
  same : run.runner.runReplayed own state.output = (own, state.output)
  runId : state.runId = some run.runner.runId
  output : run.Spoken → run.kind.read state.output = .ok run.output

theorem NodeRunner.Named.path {runner : NodeRunner} (named : runner.Named) :
    NodePath.fromString runner.nodePath =
      (NodePath.fromString runner.parentPath).append runner.segment := by
  apply NodePath.of_string_append
  · intro empty
    have := congrArg String.toList (named.segment.symm.trans empty)
    simp at this
  · rw [named.segment]
    exact named.free

/-- The events of a run with a response that is not blank tell its output. -/
theorem NodeRun.Sound.read {run : NodeRun} (sound : run.Sound) (spoken : run.Spoken) :
    run.kind.read run.recovered = .ok run.output := by
  unfold Sound at sound
  unfold Spoken at spoken
  cases kind : run.kind with
  | other =>
      rw [kind] at spoken
      cases spoken
  | remote =>
      rw [kind] at sound
      rw [sound.1]
      rfl
  | agent outputSchema =>
      rw [kind] at sound spoken
      cases response : run.lastResponse with
      | none =>
          rw [response] at sound
          rw [sound.1, sound.2]
          cases outputSchema <;> rfl
      | some text =>
          rw [response] at sound
          exact (sound (spoken text response)).2

namespace Invocation

theorem Recorded.restored {invocation : Invocation} (recorded : invocation.Recorded) {run : NodeRun}
    (member : run ∈ invocation.runs) :
    run.Restored
      (invocation.events.filter fun event => event.metadata.nodeInfo.path = run.runner.nodePath)
      (entryOf (reconstructNodeStates invocation.events run.runner.parentPath true)
        run.runner.segment) := by
  obtain ⟨index, inside, found⟩ := List.getElem_of_mem member
  have found : invocation.runs[index]? = some run := List.getElem?_eq_some_iff.mpr ⟨inside, found⟩
  obtain ⟨named, sound, marked, own⟩ := recorded.each index run found
  have placed : ∀ event ∈ invocation.events,
      (event.path = (NodePath.fromString run.runner.parentPath).append run.runner.segment ↔
        event.metadata.nodeInfo.path = run.runner.nodePath) := by
    intro event member
    obtain ⟨_, place, other, there, info⟩ := recorded.placed event member
    rw [A2AEvent.path, info, ← named.path]
    constructor
    · intro same
      have texts := congrArg NodePath.toText same
      rwa [(recorded.each place other there).named.path, named.path] at texts
    · intro same
      rw [same]
  have state : entryOf (reconstructNodeStates invocation.events run.runner.parentPath true)
      run.runner.segment =
      run.recorded.foldl (fun state event => state.record event true)
        (.start (some run.runner.runId)) := by
    rw [reconstructed_child run.runner.parentPath run.runner.segment ?_, ← own]
    · rw [List.filter_congr fun event member => decide_eq_decide.mpr (placed event member),
        named.segment, NodePath.run_id_of_segment run.runner.nodeName named.unmarked named.free]
    · intro event member
      obtain ⟨complete, _, _, _, info⟩ := recorded.placed event member
      exact ⟨complete, by rw [info]⟩
  have plain : ∀ event ∈ run.recorded, event.metadata.nodeInfo.messageAsOutput = none := by
    intro event member
    rw [← own] at member
    obtain ⟨_, _, _, _, info⟩ := recorded.placed event (List.mem_filter.mp member).1
    rw [info]
  obtain ⟨output, runId⟩ := recorded_state plain (.start (some run.runner.runId))
  rw [state, own]
  constructor
  case complete => rfl
  case same =>
    have again : run.recorded.map run.runner.enrich = run.recorded :=
      (List.map_congr_left fun event member => marked event (List.mem_filter.mp member).1).trans
        (List.map_id _)
    rw [NodeRunner.runReplayed, again, output]
    congr 1
    change (run.recovered <|> run.recovered) = run.recovered
    cases run.recovered <;> rfl
  case runId => exact runId
  case output =>
    intro spoken
    rw [output]
    exact sound.read spoken

def bare : EventMeta := ⟨"", none, ⟨"", none, none⟩, none, none, none⟩

/-- The draft of one run stands in the log behind the answer of another. -/
def twoAtWork : List RunnerAct :=
  [.start { nodeName := "writer", parentPath := "wf@1" } (.agent none),
    .start { nodeName := "guide", parentPath := "wf@1" } .remote,
    .emit 0 (.artifact [⟨"Dra", false, none⟩] false false bare),
    .emit 1 (.status .completed [⟨"To Rome", false, none⟩] bare),
    .emit 0 (.artifact [⟨"Draft", false, none⟩] false true bare), .finish 0 none, .finish 1 none]

end Invocation

end Choirworks.Workflow
