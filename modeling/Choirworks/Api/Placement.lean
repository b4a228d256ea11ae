import Choirworks.Api.Replay
import Choirworks.Library.Fronts

/-!
Where the replay places questions and answers. A recorded artifact comes with
what wrote it, which the stored artifact does not tell. The replay turns every
artifact into the event of what wrote it exactly if each text, where it stands,
points to the intervention it came from: the first one still unclaimed with
that question, or the first announced and unanswered one with that answer.
-/

namespace Choirworks.Api

open Orchestration Orchestration.Streaming

/-! ### What wrote an artifact -/

inductive Origin where
  /-- `emit_pending_questions` announced the intervention. -/
  | announcing (intervention : Intervention)
  /-- `answer_intervention` resolved the intervention. -/
  | answering (intervention : Intervention)
  /-- Any other user history artifact. -/
  | userMessage
  /-- Everything else: streamed texts, tool calls, decisions, and questions of
  interventions that the state no longer has. -/
  | other

def Artifact.History (artifact : Artifact) (role : String) : Prop :=
  artifact.kind = "history" ∧ artifact.role = role

instance (artifact : Artifact) (role : String) : Decidable (artifact.History role) :=
  inferInstanceAs (Decidable (_ ∧ _))

/-- What is known of the artifact from what wrote it: a question is recorded as
it is asked, an answer as it is rendered once the intervention is resolved. -/
def Origin.Fits (state : Option OrchestrationState) (artifact : Artifact) : Origin → Prop
  | .announcing intervention =>
      intervention ∈ byCreation state ∧ artifact.History "assistant" ∧
        artifact.text = intervention.question
  | .answering intervention =>
      intervention ∈ byCreation state ∧ artifact.History "user" ∧
        artifact.text = intervention.renderAnswer ∧ intervention.status = .resolved
  | .userMessage => artifact.History "user"
  | .other => ¬ artifact.History "user"

structure Recorded (state : Option OrchestrationState) where
  artifact : Artifact
  origin : Origin
  fits : origin.Fits state artifact

structure RecordedTask (state : Option OrchestrationState) where
  task : Task
  recorded : List (Recorded state)
  same : task.artifacts = recorded.map Recorded.artifact

def Origin.announcedId : Origin → Option String
  | .announcing intervention => some intervention.id
  | _ => none

def Origin.answeredId : Origin → Option String
  | .answering intervention => some intervention.id
  | _ => none

variable {state : Option OrchestrationState}

def announced (before : List (Recorded state)) : List String :=
  before.filterMap fun record => record.origin.announcedId

def answered (before : List (Recorded state)) : List String :=
  before.filterMap fun record => record.origin.answeredId

/-! ### The events an artifact should become -/

/-- The events an artifact adds are those of what wrote it: the pending delta of
the intervention it announced, the resolved delta of the one it answered, one
user message with its text; artifacts of any other kind become no such event. -/
def Placed (contextId : String) (task : Task) (record : Recorded state)
    (events : List StreamResponse) : Prop :=
  match record.origin with
  | .announcing intervention =>
      ∃ delta : InterventionDelta,
        events = [.statusUpdate task.id contextId task.state
          { interventions := some [(intervention.id, delta)] }] ∧
        delta.status = .pending ∧ delta.question = intervention.question ∧ delta.answer = none
  | .answering intervention =>
      ∃ delta : InterventionDelta,
        events = [.statusUpdate task.id contextId task.state
          { interventions := some [(intervention.id, delta)] }] ∧
        delta.status = .resolved ∧ delta.question = intervention.question ∧
          delta.answer = intervention.answer
  | .userMessage =>
      ∃ messageId, events = [messageEvent task.id contextId messageId record.artifact.text]
  | .other => ∀ event ∈ events, ∃ shown, event = artifactUpdate task.id contextId shown

/-- Every artifact of every task is placed, in the order of the artifacts. -/
def Positioned (contextId : String) (records : List (RecordedTask state)) : Prop :=
  List.Forall₂ (fun record block => List.Forall₂ (Placed contextId record.task) record.recorded
      (Prod.snd block))
    records (replayTasks (byCreation state) contextId {} (records.map RecordedTask.task))

/-- A question asked, a question answered, or a message of the user. -/
inductive Mark where
  | pending (id : String)
  | resolved (id : String)
  | said (text : String)
deriving DecidableEq

/-- What an event shows of these: the delta of one intervention alone, or a
user message. The delta of the whole state at the end is no such event. -/
def StreamResponse.mark : StreamResponse → Option Mark
  | .statusUpdate _ _ _ ⟨none, none, some [(id, delta)]⟩ =>
      match delta.status with
      | .pending => some (.pending id)
      | .resolved => some (.resolved id)
      | .expired => none
  | .message _ .user _ _ [part] => some (.said part.text)
  | _ => none

def Recorded.mark (record : Recorded state) : Option Mark :=
  match record.origin with
  | .announcing intervention => some (.pending intervention.id)
  | .answering intervention => some (.resolved intervention.id)
  | .userMessage => some (.said record.artifact.text)
  | .other => none

/-- The replay shows what was recorded: each artifact becomes its own event, and
the questions, answers and messages of the whole replay are those of the
artifacts in their order. -/
structure Faithful (contextId : String) (records : List (RecordedTask state)) : Prop where
  positioned : Positioned contextId records
  ordered : (synthesizeReplayEvents (records.map RecordedTask.task) contextId state).filterMap
      StreamResponse.mark =
    (records.flatMap RecordedTask.recorded).filterMap Recorded.mark

/-! ### When a text points to what wrote it -/

/-- The first wanted entry of a list. -/
def Foremost {Entry : Type} (listed : List Entry) (wanted : Entry → Prop) (entry : Entry) : Prop :=
  wanted entry ∧
    ∃ ahead behind, listed = ahead ++ entry :: behind ∧ ∀ other ∈ ahead, ¬ wanted other

/-- Announced before, not answered before, and resolved in the state. -/
def Awaited (before : List (Recorded state)) (intervention : Intervention) : Prop :=
  (intervention.id ∈ announced before ∧ intervention.id ∉ answered before) ∧
    intervention.status = .resolved

/-- The text of an artifact points to what wrote it, given the artifacts before:
a question to its intervention as the oldest one not announced yet that asks it,
an answer to its intervention as the oldest awaited one with that answer, and
the text of a user message to no awaited intervention. No assistant message
from elsewhere repeats a question that is still to be announced. -/
def Clear (before : List (Recorded state)) (record : Recorded state) : Prop :=
  match record.origin with
  | .announcing intervention =>
      intervention.question ≠ "" ∧
        Foremost (byCreation state) (fun other =>
          other.id ∉ announced before ∧ other.question = intervention.question) intervention
  | .answering intervention =>
      intervention.renderAnswer ≠ "" ∧
        Foremost (byCreation state) (fun other =>
          Awaited before other ∧ other.renderAnswer = intervention.renderAnswer) intervention
  | .userMessage =>
      record.artifact.text ≠ "" ∧
        ∀ other ∈ byCreation state, Awaited before other →
          other.renderAnswer ≠ record.artifact.text
  | .other =>
      record.artifact.History "assistant" → record.artifact.text ≠ "" →
        ∀ other ∈ byCreation state, other.id ∉ announced before →
          other.question ≠ record.artifact.text

/-! ### One artifact -/

theorem find_foremost {Entry : Type} {listed : List Entry} {wanted : Entry → Prop}
    [DecidablePred wanted] {entry : Entry} :
    listed.find? (fun other => wanted other) = some entry ↔ Foremost listed wanted entry := by
  rw [List.find?_eq_some_iff_append]
  simp [Foremost]

theorem by_creation_unique {left right : Intervention} (listed : left ∈ byCreation state)
    (other : right ∈ byCreation state) (same : left.id = right.id) : left = right := by
  cases state with
  | none => cases listed
  | some state =>
      rw [byCreation, List.mem_insertionSort] at listed other
      exact state.interventions.row_unique listed other same

/-- The sets of the loop are what the artifacts before have announced and answered. -/
structure Agrees (before : List (Recorded state)) (cursor : Cursor) : Prop where
  claimed : ∀ id, id ∈ cursor.claimed ↔ id ∈ announced before
  answered : ∀ id, id ∈ cursor.answered ↔ id ∈ answered before

variable {contextId : String} {task : Task} {before : List (Recorded state)} {cursor : Cursor}

theorem find_question_iff (agrees : Agrees before cursor) (text : String)
    (intervention : Intervention) :
    findQuestion (byCreation state) cursor.claimed text = some intervention ↔
      Foremost (byCreation state)
        (fun other => other.id ∉ announced before ∧ other.question = text) intervention := by
  rw [findQuestion, find_foremost]
  simp only [agrees.claimed]

theorem find_answer_iff (agrees : Agrees before cursor) (text : String)
    (intervention : Intervention) :
    findAnswer (byCreation state) cursor.claimed cursor.answered text = some intervention ↔
      Foremost (byCreation state)
        (fun other => Awaited before other ∧ other.renderAnswer = text) intervention := by
  rw [findAnswer, find_foremost]
  simp only [agrees.claimed, agrees.answered, Awaited, and_assoc]

theorem no_question_iff (agrees : Agrees before cursor) (text : String) :
    findQuestion (byCreation state) cursor.claimed text = none ↔
      ∀ other ∈ byCreation state, other.id ∉ announced before → other.question ≠ text := by
  simp [findQuestion, agrees.claimed]

theorem no_answer_iff (agrees : Agrees before cursor) (text : String) :
    findAnswer (byCreation state) cursor.claimed cursor.answered text = none ↔
      ∀ other ∈ byCreation state, Awaited before other → other.renderAnswer ≠ text := by
  simp [findAnswer, agrees.claimed, agrees.answered, Awaited]

/-! What the round of an artifact does, by its role. -/

variable {listed : List Intervention} {artifact : Artifact}

theorem generic_updates {event : StreamResponse}
    (member : event ∈ genericUpdate contextId task artifact) :
    ∃ shown, event = artifactUpdate task.id contextId shown := by
  unfold genericUpdate at member
  cases listedParts : artifact.parts with
  | nil => simp [listedParts] at member
  | cons first rest =>
      simp only [listedParts] at member
      split at member
      · exact ⟨artifact, List.mem_singleton.mp member⟩
      · split at member
        · cases member
        · exact ⟨_, List.mem_singleton.mp member⟩

theorem generic_silent (kind : artifact.kind = "history") (silent : artifact.text = "") :
    genericUpdate contextId task artifact = [] := by
  unfold genericUpdate
  cases artifact.parts with
  | nil => rfl
  | cons first rest =>
      have spoken : ¬ (artifact.kind = "thought" ∨ artifact.kind = "function_call") := by
        rw [kind]
        decide
      simp only [spoken, silent, ↓reduceIte]

theorem silent_round (kind : artifact.kind = "history") (silent : artifact.text = "") :
    replayArtifact listed contextId task cursor artifact = (cursor, []) := by
  simp only [replayArtifact, kind, replayHistoryArtifact, silent, ↓reduceIte,
    generic_silent kind silent]

theorem user_round (user : artifact.History "user") (spoken : artifact.text ≠ "") :
    replayArtifact listed contextId task cursor artifact =
      match findAnswer listed cursor.claimed cursor.answered artifact.text with
      | some answer =>
          ({ cursor with answered := answer.id :: cursor.answered },
            [interventionDeltaEvent task contextId answer none])
      | none =>
          let popped := popUserId cursor.pendingUserIds artifact.text
          ({ cursor with pendingUserIds := popped.2 },
            [messageEvent task.id contextId popped.1 artifact.text]) := by
  simp only [replayArtifact, user.1, replayHistoryArtifact, user.2, spoken, ↓reduceIte]
  cases findAnswer listed cursor.claimed cursor.answered artifact.text with
  | none => rfl
  | some answer => rfl

theorem assistant_round (assistant : artifact.History "assistant") (spoken : artifact.text ≠ "") :
    replayArtifact listed contextId task cursor artifact =
      match findQuestion listed cursor.claimed artifact.text with
      | some question =>
          ({ cursor with claimed := question.id :: cursor.claimed },
            [interventionDeltaEvent task contextId question (some .pending)])
      | none => (cursor, genericUpdate contextId task artifact) := by
  simp only [replayArtifact, assistant.1, replayHistoryArtifact, assistant.2, spoken, ↓reduceIte]
  cases findQuestion listed cursor.claimed artifact.text with
  | none => rfl
  | some question => rfl

theorem generic_round (user : ¬ artifact.History "user") (assistant : ¬ artifact.History "assistant") :
    replayArtifact listed contextId task cursor artifact =
      (cursor, genericUpdate contextId task artifact) := by
  unfold replayArtifact
  by_cases kind : artifact.kind = "history"
  · have notUser : artifact.role ≠ "user" := fun role => user ⟨kind, role⟩
    have notAssistant : artifact.role ≠ "assistant" := fun role => assistant ⟨kind, role⟩
    simp only [kind, replayHistoryArtifact, notUser, notAssistant, ↓reduceIte, ite_self]
  · simp only [kind, ↓reduceIte]

/-! Each origin is placed exactly if its text finds what it should. -/

theorem delta_event_id {intervention : Intervention} {status : Option InterventionStatus}
    {taskId : String} {taskState : TaskState} {id : String} {delta : InterventionDelta}
    (same : interventionDeltaEvent task contextId intervention status =
      .statusUpdate taskId contextId taskState { interventions := some [(id, delta)] }) :
    intervention.id = id := by
  unfold interventionDeltaEvent at same
  injection same with _ _ _ deltas
  injection deltas with _ _ entries
  injection entries with entries
  injection entries with entry _
  exact congrArg Prod.fst entry

theorem announcing_placed {intervention : Intervention} {fits}
    (spoken : artifact.text ≠ "") :
    Placed contextId task (⟨artifact, .announcing intervention, fits⟩ : Recorded state)
        (replayArtifact (byCreation state) contextId task cursor artifact).2 ↔
      findQuestion (byCreation state) cursor.claimed artifact.text = some intervention := by
  obtain ⟨member, assistant, _⟩ := fits
  rw [assistant_round assistant spoken]
  cases found : findQuestion (byCreation state) cursor.claimed artifact.text with
  | none =>
      simp only [Placed, reduceCtorEq, iff_false]
      rintro ⟨delta, events, _⟩
      have member : StreamResponse.statusUpdate task.id contextId task.state
            { interventions := some [(intervention.id, delta)] } ∈
          genericUpdate contextId task artifact := by
        rw [events]
        exact List.mem_singleton_self _
      obtain ⟨shown, clash⟩ := generic_updates member
      cases clash
  | some question =>
      constructor
      · rintro ⟨delta, events, _⟩
        have sameId := delta_event_id (List.singleton_injective events)
        exact congrArg some (by_creation_unique (List.mem_of_find?_eq_some found) member sameId)
      · rintro ⟨⟩
        exact ⟨_, rfl, rfl, rfl, rfl⟩

theorem answering_placed {intervention : Intervention} {fits}
    (spoken : artifact.text ≠ "") :
    Placed contextId task (⟨artifact, .answering intervention, fits⟩ : Recorded state)
        (replayArtifact (byCreation state) contextId task cursor artifact).2 ↔
      findAnswer (byCreation state) cursor.claimed cursor.answered artifact.text =
        some intervention := by
  obtain ⟨member, user, _, resolved⟩ := fits
  rw [user_round user spoken]
  cases found : findAnswer (byCreation state) cursor.claimed cursor.answered artifact.text with
  | none =>
      simp only [Placed, reduceCtorEq, iff_false]
      rintro ⟨delta, events, _⟩
      cases List.singleton_injective events
  | some answer =>
      constructor
      · rintro ⟨delta, events, _⟩
        have sameId := delta_event_id (List.singleton_injective events)
        exact congrArg some (by_creation_unique (List.mem_of_find?_eq_some found) member sameId)
      · rintro ⟨⟩
        exact ⟨_, rfl, resolved, rfl, rfl⟩

theorem message_placed {fits} (spoken : artifact.text ≠ "") :
    Placed contextId task (⟨artifact, .userMessage, fits⟩ : Recorded state)
        (replayArtifact (byCreation state) contextId task cursor artifact).2 ↔
      findAnswer (byCreation state) cursor.claimed cursor.answered artifact.text = none := by
  rw [user_round fits spoken]
  cases findAnswer (byCreation state) cursor.claimed cursor.answered artifact.text with
  | none => exact ⟨fun _ => rfl, fun _ => ⟨_, rfl⟩⟩
  | some answer =>
      simp only [Placed, reduceCtorEq, iff_false]
      rintro ⟨messageId, events⟩
      cases List.singleton_injective events

theorem other_placed {fits} :
    Placed contextId task (⟨artifact, .other, fits⟩ : Recorded state)
        (replayArtifact (byCreation state) contextId task cursor artifact).2 ↔
      (artifact.History "assistant" → artifact.text ≠ "" →
        findQuestion (byCreation state) cursor.claimed artifact.text = none) := by
  by_cases assistant : artifact.History "assistant"
  · by_cases silent : artifact.text = ""
    · simp [silent_round assistant.1 silent, Placed, silent]
    · rw [assistant_round assistant silent]
      cases findQuestion (byCreation state) cursor.claimed artifact.text with
      | none => exact ⟨fun _ _ _ => rfl, fun _ event => generic_updates⟩
      | some question =>
          constructor
          · intro placed
            obtain ⟨shown, clash⟩ := placed _ (List.mem_singleton_self _)
            cases clash
          · intro unclaimed
            cases unclaimed assistant silent
  · rw [generic_round fits assistant]
    exact ⟨fun _ history => absurd history assistant, fun _ event => generic_updates⟩

/-- An artifact is placed exactly if its text points to what wrote it. -/
theorem placed_iff_clear (agrees : Agrees before cursor) (record : Recorded state) :
    Placed contextId task record
        (replayArtifact (byCreation state) contextId task cursor record.artifact).2 ↔
      Clear before record := by
  obtain ⟨artifact, origin, fits⟩ := record
  cases origin with
  | announcing intervention =>
      have same : artifact.text = intervention.question := fits.2.2
      by_cases silent : artifact.text = ""
      · simp [silent_round fits.2.1.1 silent, Placed, Clear, ← same, silent]
      · rw [announcing_placed silent, find_question_iff agrees, same]
        exact (and_iff_right (same ▸ silent)).symm
  | answering intervention =>
      have same : artifact.text = intervention.renderAnswer := fits.2.2.1
      by_cases silent : artifact.text = ""
      · simp [silent_round fits.2.1.1 silent, Placed, Clear, ← same, silent]
      · rw [answering_placed silent, find_answer_iff agrees, same]
        exact (and_iff_right (same ▸ silent)).symm
  | userMessage =>
      by_cases silent : artifact.text = ""
      · simp [silent_round fits.1 silent, Placed, Clear, silent]
      · rw [message_placed silent, no_answer_iff agrees]
        exact (and_iff_right silent).symm
  | other =>
      rw [other_placed, no_question_iff agrees]
      rfl

/-- Behind an artifact that is placed, the sets of the loop are still right. -/
theorem clear_agrees (agrees : Agrees before cursor) {record : Recorded state}
    (clear : Clear before record) :
    Agrees (before ++ [record])
      (replayArtifact (byCreation state) contextId task cursor record.artifact).1 := by
  obtain ⟨artifact, origin, fits⟩ := record
  cases origin with
  | announcing intervention =>
      have same : artifact.text = intervention.question := fits.2.2
      have found := (find_question_iff agrees artifact.text intervention).mpr (same ▸ clear.2)
      rw [assistant_round fits.2.1 (same ▸ clear.1), found]
      constructor
      · intro id
        simp [announced, Origin.announcedId, agrees.claimed, or_comm]
      · intro id
        simpa [answered, Origin.answeredId] using agrees.answered id
  | answering intervention =>
      have same : artifact.text = intervention.renderAnswer := fits.2.2.1
      have found := (find_answer_iff agrees artifact.text intervention).mpr (same ▸ clear.2)
      rw [user_round fits.2.1 (same ▸ clear.1), found]
      constructor
      · intro id
        simpa [announced, Origin.announcedId] using agrees.claimed id
      · intro id
        simp [answered, Origin.answeredId, agrees.answered, or_comm]
  | userMessage =>
      rw [user_round fits clear.1, (no_answer_iff agrees artifact.text).mpr clear.2]
      constructor
      · intro id
        simpa [announced, Origin.announcedId] using agrees.claimed id
      · intro id
        simpa [answered, Origin.answeredId] using agrees.answered id
  | other =>
      -- an artifact of another origin takes no intervention
      have unmoved : (replayArtifact (byCreation state) contextId task cursor artifact).1 = cursor := by
        by_cases assistant : artifact.History "assistant"
        · by_cases silent : artifact.text = ""
          · rw [silent_round assistant.1 silent]
          · rw [assistant_round assistant silent,
              (no_question_iff agrees artifact.text).mpr (clear assistant silent)]
        · rw [generic_round fits assistant]
      rw [unmoved]
      constructor
      · intro id
        simpa [announced, Origin.announcedId] using agrees.claimed id
      · intro id
        simpa [answered, Origin.answeredId] using agrees.answered id

/-! ### All artifacts -/

theorem artifacts_placed (records : List (Recorded state)) (agrees : Agrees before cursor) :
    List.Forall₂ (Placed contextId task) records
        (replayArtifacts (byCreation state) contextId task cursor
          (records.map Recorded.artifact)).2 ↔
      Fronts.EachFrom Clear before records := by
  induction records generalizing before cursor with
  | nil => exact iff_of_true .nil trivial
  | cons record rest ih =>
      simp only [List.map_cons, replayArtifacts, List.forall₂_cons, placed_iff_clear agrees,
        Fronts.EachFrom]
      exact and_congr_right fun clear => ih (clear_agrees agrees clear)

theorem artifacts_agree (records : List (Recorded state)) (agrees : Agrees before cursor)
    (clear : Fronts.EachFrom Clear before records) :
    Agrees (before ++ records)
      (replayArtifacts (byCreation state) contextId task cursor
        (records.map Recorded.artifact)).1 := by
  induction records generalizing before cursor with
  | nil => simpa [replayArtifacts] using agrees
  | cons record rest ih =>
      rw [List.append_cons]
      exact ih (clear_agrees agrees clear.1) clear.2

theorem tasks_placed (records : List (RecordedTask state)) (agrees : Agrees before cursor) :
    List.Forall₂ (fun record block => List.Forall₂ (Placed contextId record.task) record.recorded
          (Prod.snd block))
        records (replayTasks (byCreation state) contextId cursor (records.map RecordedTask.task)) ↔
      Fronts.EachFrom Clear before (records.flatMap RecordedTask.recorded) := by
  induction records generalizing before cursor with
  | nil => exact iff_of_true .nil trivial
  | cons record rest ih =>
      -- the message ids of a task do not touch what was claimed and answered
      have started : Agrees before
          { cursor with pendingUserIds := pendingUserIds record.task.history } :=
        ⟨agrees.claimed, agrees.answered⟩
      simp only [List.map_cons, replayTasks, record.same, List.forall₂_cons, List.flatMap_cons,
        Fronts.each_from_append, artifacts_placed record.recorded started]
      exact and_congr_right fun clear => ih (artifacts_agree record.recorded started clear)

theorem agrees_start : Agrees ([] : List (Recorded state)) {} := by
  constructor
  · intro id
    simp [announced]
  · intro id
    simp [answered]

theorem placed_mark {record : Recorded state} {events : List StreamResponse}
    (placed : Placed contextId task record events) :
    events.filterMap StreamResponse.mark = record.mark.toList := by
  obtain ⟨artifact, origin, fits⟩ := record
  cases origin with
  | announcing intervention =>
      obtain ⟨delta, rfl, status, _⟩ := placed
      simp [StreamResponse.mark, Recorded.mark, status]
  | answering intervention =>
      obtain ⟨delta, rfl, status, _⟩ := placed
      simp [StreamResponse.mark, Recorded.mark, status]
  | userMessage =>
      obtain ⟨messageId, rfl⟩ := placed
      rfl
  | other =>
      simp only [Recorded.mark, Option.toList_none, List.filterMap_eq_nil_iff]
      intro event member
      obtain ⟨shown, rfl⟩ := placed event member
      rfl

theorem artifacts_marks {records : List (Recorded state)} {added : List (List StreamResponse)}
    (placed : List.Forall₂ (Placed contextId task) records added) :
    added.flatten.filterMap StreamResponse.mark = records.filterMap Recorded.mark := by
  induction placed with
  | nil => rfl
  | cons first _ ih =>
      rw [List.flatten_cons, List.filterMap_append, placed_mark first, ih, List.filterMap_cons]
      cases Recorded.mark _ with
      | none => rfl
      | some mark => rfl

theorem tasks_marks {records : List (RecordedTask state)}
    {blocks : List (Task × List (List StreamResponse))}
    (placed : List.Forall₂ (fun record block =>
      List.Forall₂ (Placed contextId record.task) record.recorded (Prod.snd block)) records blocks) :
    (blocks.flatMap fun (task, added) => taskEvent task :: added.flatten).filterMap
        StreamResponse.mark =
      (records.flatMap RecordedTask.recorded).filterMap Recorded.mark := by
  induction placed with
  | nil => rfl
  | cons first _ ih =>
      rw [List.flatMap_cons, List.flatMap_cons, List.filterMap_append, List.filterMap_append, ih,
        ← artifacts_marks first]
      rfl

theorem positioned_ordered {records : List (RecordedTask state)}
    (positioned : Positioned contextId records) :
    (synthesizeReplayEvents (records.map RecordedTask.task) contextId state).filterMap
        StreamResponse.mark =
      (records.flatMap RecordedTask.recorded).filterMap Recorded.mark := by
  unfold synthesizeReplayEvents
  cases newest : (records.map RecordedTask.task).getLast? with
  | none =>
      have empty : records = [] := List.map_eq_nil_iff.mp (List.getLast?_eq_none_iff.mp newest)
      rw [empty]
      rfl
  | some last =>
      simp only [List.filterMap_append, tasks_marks positioned]
      cases state with
      | none => exact List.append_nil _
      | some state => exact List.append_nil _

/-- The replay shows what was recorded exactly if each text points to what wrote
its artifact. -/
theorem faithful_iff_clear (state : Option OrchestrationState) (contextId : String)
    (records : List (RecordedTask state)) :
    Faithful contextId records ↔
      Fronts.Each Clear (records.flatMap RecordedTask.recorded) := by
  constructor
  · intro faithful
    exact (tasks_placed records agrees_start).mp faithful.positioned
  · intro clear
    have positioned : Positioned contextId records :=
      (tasks_placed records agrees_start).mpr clear
    exact ⟨positioned, positioned_ordered positioned⟩

/-! A message that was sent while a question was open, with the words that later
answered it on its card. -/

def deploy : Intervention where
  id := "i1"
  nodeId := "n1"
  question := "Deploy?"
  status := .resolved
  answer := some (.text "yes")
  responder := some "human"
  createdAt := "2025-01-01T00:00:00+00:00"

def deployState : OrchestrationState where
  interventions := .ofList Intervention.id [deploy]

def historyArtifact (artifactId role text : String) : Artifact where
  artifactId := artifactId
  parts := [{ text, metadata := [("cw_type", .string "history"), ("role", .string role)] }]

def deployTask : RecordedTask (some deployState) where
  task :=
    { id := "t1"
      contextId := "c1"
      state := .completed
      artifacts :=
        [historyArtifact "h1" "assistant" "Deploy?", historyArtifact "h2" "user" "yes",
          historyArtifact "h3" "user" "yes"] }
  recorded :=
    [⟨historyArtifact "h1" "assistant" "Deploy?", .announcing deploy, by
        exact ⟨by decide, by decide, by decide⟩⟩,
      ⟨historyArtifact "h2" "user" "yes", .userMessage, by
        exact ⟨by decide, by decide⟩⟩,
      ⟨historyArtifact "h3" "user" "yes", .answering deploy, by
        exact ⟨by decide, by decide, by decide, rfl⟩⟩]
  same := rfl

/-- The message is taken for the answer. -/
theorem message_taken_for_answer : ¬ Faithful "c1" [deployTask] := by
  intro faithful
  have clear := (tasks_placed [deployTask] agrees_start).mp faithful.positioned
  have apart : deploy.renderAnswer ≠ "yes" :=
    clear.2.1.2 deploy (by decide) ⟨by decide, rfl⟩
  exact apart rfl

end Choirworks.Api
