import Choirworks.Frontend.Reducer
import Mathlib.Data.List.Induction

/-!
The card of one question under the events of a stream. A delta writes what it
brings and keeps the rest; a question part writes the card anew, so that a
question that is settled must not be asked again.
-/

namespace Choirworks.Frontend

/-! ### Artifacts and messages write no questions -/

section Frame

variable (view : ConversationView) (seq : Nat)

@[simp] theorem bump_questions : (bump view seq).questions = view.questions := rfl

@[simp] theorem notify_questions (notice : SystemNotification) :
    (notify view notice seq).questions = view.questions := rfl

@[simp] theorem materialize_questions (bubble : WorkingBubble) :
    (materializeBubble view bubble seq).questions = view.questions := by
  simp only [materializeBubble]
  split
  · split <;> rfl
  · rfl

@[simp] theorem post_dispatch_questions (artifactId line : String) :
    (postDispatch view artifactId line seq).questions = view.questions := by
  simp only [postDispatch]
  split
  · split <;> rfl
  · rfl

theorem call_subagent_questions (artifactId : String) (args result : Struct) :
    (callSubagent view artifactId args result seq).questions = view.questions := by
  simp only [callSubagent]
  split
  · exact post_dispatch_questions view seq artifactId _
  · split
    · rfl
    · exact post_dispatch_questions view seq artifactId _

theorem create_plan_questions (args result : Struct) :
    (createPlan view args result seq).questions = view.questions := by
  simp only [createPlan]
  split <;> rfl

theorem function_call_questions {artifactId : String} {data : Struct} {next : ConversationView}
    (called : functionCall view artifactId data seq = some next) :
    next.questions = view.questions := by
  simp only [functionCall] at called
  split at called <;> cases called
  · exact create_plan_questions view seq _ _
  · rfl
  · exact call_subagent_questions view seq artifactId _ _
  · rfl

theorem stream_bubble_questions (update : TextUpdate) :
    (streamBubble view update seq).questions = view.questions := by
  simp only [streamBubble]
  split
  · exact materialize_questions _ seq _
  · rfl

theorem apply_text_questions (update : TextUpdate) :
    (applyText view update seq).questions = view.questions := by
  simp only [applyText]
  split
  · rfl
  · split
    · rfl
    · split
      · simp only [oneShotMessage]
        split <;> rfl
      · exact stream_bubble_questions view seq update

theorem artifact_questions (update : ArtifactUpdate) :
    (applyArtifactUpdate view update seq).questions = view.questions := by
  simp only [applyArtifactUpdate]
  split
  · rfl
  · rfl
  · split <;> rfl
  · cases called : (functionCallData update.artifact.parts).bind fun data =>
        functionCall view (textUpdateOf update seq).artifactId data seq with
    | none => exact apply_text_questions view seq _
    | some next =>
        obtain ⟨_, _, made⟩ := Option.bind_eq_some_iff.mp called
        exact function_call_questions view seq made

theorem seeded_questions (artifacts : List Artifact) (seeded : ConversationView × List String) :
    (artifacts.foldl (seedArtifact seq) seeded).1.questions = seeded.1.questions := by
  induction artifacts generalizing seeded with
  | nil => rfl
  | cons artifact rest ih =>
      rw [List.foldl_cons, ih]
      simp only [seedArtifact]
      split
      · rfl
      · exact artifact_questions _ seq _

theorem message_questions (message : Message) :
    (applyMessage view message seq).questions = view.questions := by
  simp only [applyMessage]
  generalize messageOf message _ seq = chatMessage
  split <;> rfl

end Frame

/-! ### What an event does to one card -/

/-- The question parts by which an event writes cards. -/
def asked : StreamEvent → List QuestionInfo
  | .task task => task.history.flatMap fun message => questionPartsOf message.parts
  | .statusUpdate update =>
      match update.cwDelta, update.metadata.text? "intervention_id",
        update.status.bind (·.message) with
      | none, none, some message => questionPartsOf message.parts
      | _, _, _ => []
  | _ => []

def rejectCard (reason : String) (card : QuestionInfo) : QuestionInfo :=
  { card with status := "rejected", error := some reason }

/-- A delta, a rejection, or the question parts, one after the other. -/
def cardEffect (id : String) (seq : Nat) (event : StreamEvent) (card : Option QuestionInfo) :
    Option QuestionInfo :=
  match event with
  | .statusUpdate ⟨_, some delta, _⟩ =>
      match delta.interventions.get? id with
      | some changes => some (questionOf card id changes seq)
      | none => card
  | .statusUpdate ⟨status, none, metadata⟩ =>
      match metadata.text? "intervention_id" with
      | some interventionId =>
          if interventionId = id ∧ id ≠ "" then
            card.map (rejectCard ((metadata.text? "reason").getD ""))
          else card
      | none =>
          ((asked (.statusUpdate ⟨status, none, metadata⟩)).filter (·.id = id)).foldl
            (fun card info => some (askAgain seq card info)) card
  | event =>
      ((asked event).filter (·.id = id)).foldl (fun card info => some (askAgain seq card info)) card

theorem upserted (questions : Dict String QuestionInfo) (incoming : List QuestionInfo) (seq : Nat)
    (id : String) : (upsertQuestions questions incoming seq).get? id =
      (incoming.filter (·.id = id)).foldl (fun card info => some (askAgain seq card info))
        (questions.get? id) := by
  unfold upsertQuestions
  induction incoming generalizing questions with
  | nil => rfl
  | cons info rest ih =>
      rw [List.foldl_cons, ih, upsertQuestion, Dict.get?_set]
      by_cases same : info.id = id
      · subst same
        simp
      · simp [same, Ne.symm same]

theorem scanned_questions (seq : Nat) (history : List Message) (scan : HistoryScan) :
    (history.foldl (scanMessage seq) scan).questions =
      scan.questions ++ history.flatMap fun message => questionPartsOf message.parts := by
  induction history generalizing scan with
  | nil => simp
  | cons message rest ih =>
      rw [List.foldl_cons, ih, List.flatMap_cons]
      by_cases none_ : questionPartsOf message.parts = []
      · simp only [scanMessage, none_, ne_eq, not_true_eq_false, if_false]
        split
        · rfl
        · split <;> rfl
      · simp [scanMessage, none_]

/-- The changes of a delta are by intervention, each at most once. -/
theorem changed (seq : Nat) (id : String) (rows : List (String × Struct))
    (once : (rows.map Prod.fst).Nodup) (questions : Dict String QuestionInfo) :
    (rows.foldl (applyQuestionChange seq) questions).get? id =
      match (rows.find? fun row => row.1 = id).map Prod.snd with
      | some changes => some (questionOf (questions.get? id) id changes seq)
      | none => questions.get? id := by
  induction rows generalizing questions with
  | nil => rfl
  | cons row rest ih =>
      obtain ⟨name, changes⟩ := row
      obtain ⟨fresh, once⟩ := List.nodup_cons.mp once
      rw [List.foldl_cons, ih once]
      by_cases same : name = id
      · subst same
        have gone : rest.find? (fun row => row.1 = name) = none := by
          rw [List.find?_eq_none]
          intro other member
          have different : other.1 ≠ name := fun same => fresh (List.mem_map.mpr ⟨other, member, same⟩)
          simpa using different
        simp [applyQuestionChange, gone]
      · simp [applyQuestionChange, same, Ne.symm same]

theorem card_after_task (view : ConversationView) (task : Task) (seq : Nat) (id : String) :
    (applyTask view task seq).questions.get? id =
      ((asked (.task task)).filter (·.id = id)).foldl
        (fun card info => some (askAgain seq card info)) (view.questions.get? id) := by
  simp only [applyTask, asked]
  rw [seeded_questions, mergeHistory, upserted, scanned_questions, List.nil_append]

theorem rejected (view : ConversationView) (interventionId reason id : String) :
    (rejectQuestion view interventionId reason).get? id =
      if interventionId = id ∧ id ≠ "" then (view.questions.get? id).map (rejectCard reason)
      else view.questions.get? id := by
  simp only [rejectQuestion]
  by_cases same : interventionId = id
  · subst same
    cases known : view.questions.get? interventionId with
    | none => simp [known]
    | some card =>
        by_cases blank : interventionId = ""
        · dsimp only
          rw [if_pos blank, if_neg (fun both => both.2 blank), known]
        · simp [blank, rejectCard]
  · rw [if_neg (fun both => same both.1)]
    cases view.questions.get? interventionId with
    | none => rfl
    | some card =>
        by_cases blank : interventionId = ""
        · simp [blank]
        · simp [blank, Ne.symm same]

theorem status_message_questions (view : ConversationView) (message : Message) (state : String)
    (seq : Nat) : (applyStatusMessage view message state seq).questions =
      upsertQuestions view.questions (questionPartsOf message.parts) seq := by
  simp only [applyStatusMessage]
  by_cases none_ : questionPartsOf message.parts = []
  · rw [none_, if_neg (by simp)]
    split
    · rfl
    · split <;> rfl
  · rw [if_pos none_]

/-- What an event does to a card is what it says about that question. -/
theorem card_after_event (view : ConversationView) (event : StreamEvent) (seq : Nat)
    (id : String) : (applyStreamEvent view event seq).questions.get? id =
      cardEffect id seq event (view.questions.get? id) := by
  cases event with
  | task task => exact card_after_task view task seq id
  | message message => exact congrArg (·.get? id) (message_questions view seq message)
  | other => rfl
  | artifactUpdate update =>
      simp only [applyStreamEvent, applyStreamEventInner]
      split
      · exact congrArg (·.get? id) (artifact_questions view seq update)
      · exact congrArg (·.get? id) (artifact_questions view seq update)
  | statusUpdate update =>
      obtain ⟨status, cwDelta, metadata⟩ := update
      cases cwDelta with
      | some delta => exact changed seq id delta.interventions.rows delta.interventions.unique _
      | none =>
          simp only [applyStreamEvent, applyStreamEventInner, applyStatusUpdate, cardEffect, asked]
          cases metadata.text? "intervention_id" with
          | some interventionId => exact rejected view interventionId _ id
          | none =>
              cases status.bind (·.message) with
              | none => rfl
              | some message =>
                  dsimp only
                  rw [status_message_questions, upserted]

/-! ### An event again -/

theorem or_text_again (first second : String) :
    orText first (orText first second) = orText first second := by
  simp only [orText]
  split <;> rfl

theorem or_text_settled (first second last : String) :
    orText first (orText (orText first (orText second last)) last) =
      orText first (orText second last) := by
  by_cases none_ : first = ""
  · by_cases empty : second = ""
    · simp [orText, none_, empty]
    · simp [orText, none_, empty]
  · simp [orText, none_]

theorem requester_name_again (value : Option String) :
    requesterName (some (requesterName value)) = requesterName value := by
  have planning : planningRole ≠ "" ∧ planningRole ≠ "assistant" := by decide
  by_cases known : value.getD "" ≠ "" ∧ value.getD "" ≠ "assistant"
  · simp [requesterName, known]
  · simp [requesterName, known, planning]

theorem question_of_again (prev : Option QuestionInfo) (id : String) (changes : Struct)
    (seq later : Nat) :
    questionOf (some (questionOf prev id changes seq)) id changes later =
      questionOf prev id changes seq := by
  simp only [questionOf, Option.map_some, Option.getD_some, or_text_again, or_text_settled,
    QuestionInfo.mk.injEq, true_and, and_true]
  refine ⟨?_, ?_, ?_, ?_, ?_⟩
  · cases changes.text? "requester" with
    | none => exact requester_name_again _
    | some name => rfl
  · cases changes.text? "question_type" <;> rfl
  · cases changes.items? "options" <;> rfl
  · cases Json.get? changes "multi" with
    | none => rfl
    | some value => cases value <;> rfl
  · cases Json.get? changes "answer" <;> rfl

/-- Question parts are pending and without an answer. -/
theorem question_of_part {part : Part} {info : QuestionInfo}
    (found : questionOfPart part = some info) :
    info.status = "pending" ∧ info.answer = .null ∧ info.error = none := by
  simp only [questionOfPart] at found
  split at found
  · split at found
    · cases found
    · split at found
      · cases found
      · cases found
        exact ⟨rfl, rfl, rfl⟩
  · cases found

theorem asked_plain {event : StreamEvent} {info : QuestionInfo} (member : info ∈ asked event) :
    info.status = "pending" ∧ info.answer = .null ∧ info.error = none := by
  have ofParts : ∀ parts, info ∈ questionPartsOf parts →
      info.status = "pending" ∧ info.answer = .null ∧ info.error = none := by
    intro parts inside
    obtain ⟨part, _, found⟩ := List.mem_filterMap.mp inside
    exact question_of_part found
  cases event with
  | task task =>
      obtain ⟨message, _, inside⟩ := List.mem_flatMap.mp member
      exact ofParts _ inside
  | statusUpdate update =>
      simp only [asked] at member
      split at member
      · exact ofParts _ member
      · cases member
  | artifactUpdate update => cases member
  | message message => cases member
  | other => cases member

/-- Of several parts for one question the last one stays. -/
theorem asked_last (seq : Nat) (infos : List QuestionInfo) (card : Option QuestionInfo)
    (plain : ∀ info ∈ infos, info.error = none) :
    infos.foldl (fun card info => some (askAgain seq card info)) card =
      match infos.getLast? with
      | none => card
      | some info => some
          { info with error := card.bind (·.error), seq := (card.map (·.seq)).getD seq } := by
  induction infos using List.reverseRecOn with
  | nil => rfl
  | append_singleton rest info ih =>
      rw [List.foldl_concat, ih fun other member => plain other (List.mem_append_left _ member),
        List.getLast?_concat]
      have bare : info.error = none := plain info (by simp)
      cases rest.getLast? with
      | none =>
          cases card with
          | none => simp [askAgain, ← bare]
          | some prev => rfl
      | some first => rfl

theorem card_effect_again (id : String) (seq later : Nat) (event : StreamEvent)
    (card : Option QuestionInfo) :
    cardEffect id later event (cardEffect id seq event card) = cardEffect id seq event card := by
  have again : ∀ infos : List QuestionInfo, (∀ info ∈ infos, info ∈ asked event) →
      infos.foldl (fun card info => some (askAgain later card info))
          (infos.foldl (fun card info => some (askAgain seq card info)) card) =
        infos.foldl (fun card info => some (askAgain seq card info)) card := by
    intro infos inside
    have plain : ∀ info ∈ infos, info.error = none := fun info member =>
      (asked_plain (inside info member)).2.2
    rw [asked_last later infos _ plain, asked_last seq infos card plain]
    cases infos.getLast? with
    | none => rfl
    | some info => rfl
  have ofEvent := again ((asked event).filter (·.id = id)) fun info member =>
    (List.mem_filter.mp member).1
  cases event with
  | task task => exact ofEvent
  | artifactUpdate update => rfl
  | message message => rfl
  | other => rfl
  | statusUpdate update =>
      obtain ⟨status, cwDelta, metadata⟩ := update
      cases cwDelta with
      | some delta =>
          simp only [cardEffect]
          cases delta.interventions.get? id with
          | none => rfl
          | some changes => exact congrArg some (question_of_again card id changes seq later)
      | none =>
          simp only [cardEffect]
          cases metadata.text? "intervention_id" with
          | none => exact ofEvent
          | some interventionId =>
              dsimp only
              split
              · cases card <;> rfl
              · rfl

/-! ### Runs -/

def applyEvents (view : ConversationView) (seq : Nat) : List StreamEvent → ConversationView
  | [] => view
  | event :: rest => applyEvents (applyStreamEvent view event seq) (seq + 1) rest

/-- The card of a question after the events. -/
def cardAfter (view : ConversationView) (seq : Nat) (events : List StreamEvent) (id : String) :
    Option QuestionInfo :=
  (applyEvents view seq events).questions.get? id

theorem apply_events_snoc (view : ConversationView) (seq : Nat) (events : List StreamEvent)
    (event : StreamEvent) : applyEvents view seq (events ++ [event]) =
      applyStreamEvent (applyEvents view seq events) event (seq + events.length) := by
  induction events generalizing view seq with
  | nil => rfl
  | cons first rest ih =>
      rw [List.cons_append, applyEvents, ih, applyEvents, List.length_cons]
      congr 1
      omega

theorem card_after_snoc (view : ConversationView) (seq : Nat) (events : List StreamEvent)
    (event : StreamEvent) (id : String) : cardAfter view seq (events ++ [event]) id =
      cardEffect id (seq + events.length) event (cardAfter view seq events id) := by
  rw [cardAfter, apply_events_snoc, card_after_event, cardAfter]

/-- A delta marks the question resolved or expired. -/
def Settles (id : String) : StreamEvent → Prop
  | .statusUpdate ⟨_, some delta, _⟩ => ∃ changes, delta.interventions.get? id = some changes ∧
      (changes.text? "status" = some "resolved" ∨ changes.text? "status" = some "expired")
  | _ => False

/-- A task snapshot or a question message. -/
def BringsQuestions (event : StreamEvent) : Prop :=
  (∃ task, event = .task task) ∨ asked event ≠ []

def Asks (id : String) (event : StreamEvent) : Prop := ∃ info ∈ asked event, info.id = id

def Open (card : Option QuestionInfo) : Prop :=
  ∃ info, card = some info ∧ info.status = "pending" ∧ info.answer = .null

/-- The status goes back to pending, or the answer is cleared. -/
def Reopened (before after : Option QuestionInfo) : Prop :=
  ∃ old new, before = some old ∧ after = some new ∧
    (old.status ≠ "pending" ∧ new.status = "pending" ∨ old.answer ≠ .null ∧ new.answer = .null)

section Run

variable (view : ConversationView) (seq : Nat) (events : List StreamEvent) (id : String)

def NeverReopens : Prop :=
  ∀ before settle between event after,
    events = (before ++ settle :: between) ++ event :: after →
    Settles id settle → BringsQuestions event →
    ¬ Reopened (cardAfter view seq (before ++ settle :: between) id)
      (cardAfter view seq ((before ++ settle :: between) ++ [event]) id)

def RepeatsChangeNothing : Prop :=
  ∀ before event after, events = before ++ event :: after →
    cardAfter view seq (before ++ [event] ++ [event]) id = cardAfter view seq (before ++ [event]) id

/-- Once it has been settled, the question is asked again only while it is open. -/
def AskedWhileOpen : Prop :=
  ∀ before settle between event after,
    events = (before ++ settle :: between) ++ event :: after →
    Settles id settle → Asks id event → Open (cardAfter view seq (before ++ settle :: between) id)

end Run

theorem asks_brings {event : StreamEvent} {id : String} (asks : Asks id event) :
    BringsQuestions event := by
  obtain ⟨info, member, _⟩ := asks
  exact Or.inr (List.ne_nil_of_mem member)

section Step

variable {event : StreamEvent} {id : String} {seq : Nat} {card : Option QuestionInfo}

/-- The last of the parts for the question is written, over what is kept of the card. -/
theorem asked_effect (brings : BringsQuestions event) : cardEffect id seq event card =
    match ((asked event).filter (·.id = id)).getLast? with
    | none => card
    | some info =>
        some { info with error := card.bind (·.error), seq := (card.map (·.seq)).getD seq } := by
  have plain : ∀ info ∈ (asked event).filter (·.id = id), info.error = none := fun info member =>
    (asked_plain (List.mem_filter.mp member).1).2.2
  rw [← asked_last seq _ card plain]
  cases event with
  | task task => rfl
  | artifactUpdate update => rfl
  | message message => rfl
  | other => rfl
  | statusUpdate update =>
      obtain ⟨status, cwDelta, metadata⟩ := update
      rcases brings with ⟨task, made⟩ | some_
      · cases made
      · cases cwDelta with
        | some delta => exact absurd rfl some_
        | none =>
            cases named : metadata.text? "intervention_id" with
            | none => simp only [cardEffect, named]
            | some interventionId => simp [asked, named] at some_

/-- A question that is asked is open. -/
theorem open_after (asks : Asks id event) : Open (cardEffect id seq event card) := by
  rw [asked_effect (asks_brings asks)]
  cases last : ((asked event).filter (·.id = id)).getLast? with
  | none =>
      obtain ⟨info, member, same⟩ := asks
      rw [List.getLast?_eq_none_iff, List.filter_eq_nil_iff] at last
      exact absurd same (by simpa using last info member)
  | some info =>
      have member := (List.mem_filter.mp (List.mem_of_getLast? last)).1
      exact ⟨_, rfl, (asked_plain member).1, (asked_plain member).2.1⟩

theorem unasked_effect (brings : BringsQuestions event) (unasked : ¬ Asks id event) :
    cardEffect id seq event card = card := by
  have none_ : (asked event).filter (·.id = id) = [] := by
    rw [List.filter_eq_nil_iff]
    intro info member same
    exact unasked ⟨info, member, by simpa using same⟩
  rw [asked_effect brings, none_]
  rfl

/-- No event removes a card. -/
theorem card_stays (known : card.isSome) : (cardEffect id seq event card).isSome := by
  by_cases brings : BringsQuestions event
  · by_cases asks : Asks id event
    · obtain ⟨info, made, _⟩ := @open_after event id seq card asks
      rw [made]
      rfl
    · rwa [unasked_effect brings asks]
  · cases event with
    | task task => exact absurd (Or.inl ⟨task, rfl⟩) brings
    | artifactUpdate update => exact known
    | message message => exact known
    | other => exact known
    | statusUpdate update =>
        have none_ : asked (.statusUpdate update) = [] := by
          by_contra some_
          exact brings (Or.inr some_)
        obtain ⟨status, cwDelta, metadata⟩ := update
        cases cwDelta with
        | some delta =>
            simp only [cardEffect]
            split
            · rfl
            · exact known
        | none =>
            simp only [cardEffect, none_]
            split
            · split
              · rwa [Option.isSome_map]
              · exact known
            · exact known

theorem settled_card (settles : Settles id event) : (cardEffect id seq event card).isSome := by
  unfold Settles at settles
  split at settles
  · obtain ⟨changes, found, _⟩ := settles
    simp [cardEffect, found]
  · cases settles

end Step

/-- The card of a question that has been settled is there from then on. -/
theorem card_after_settled {id : String} (view : ConversationView) (seq : Nat)
    (before between : List StreamEvent) {settle : StreamEvent} (settles : Settles id settle) :
    (cardAfter view seq (before ++ settle :: between) id).isSome := by
  induction between using List.reverseRecOn with
  | nil =>
      rw [card_after_snoc]
      exact settled_card settles
  | append_singleton rest event ih =>
      rw [← List.cons_append, ← List.append_assoc, card_after_snoc]
      exact card_stays ih

theorem never_reopens_iff (view : ConversationView) (seq : Nat) (events : List StreamEvent)
    (id : String) : NeverReopens view seq events id ↔ AskedWhileOpen view seq events id := by
  constructor
  · intro stays before settle between event after split settles asks
    have kept := stays before settle between event after split settles (asks_brings asks)
    obtain ⟨old, known⟩ := Option.isSome_iff_exists.mp
      (card_after_settled view seq before between settles)
    rw [card_after_snoc, known] at kept
    rw [known]
    obtain ⟨new, made, pending, cleared⟩ := @open_after event id _ (some old) asks
    refine ⟨old, rfl, ?_, ?_⟩
    · by_contra settled
      exact kept ⟨old, new, rfl, made, Or.inl ⟨settled, pending⟩⟩
    · by_contra answered
      exact kept ⟨old, new, rfl, made, Or.inr ⟨answered, cleared⟩⟩
  · intro opens before settle between event after split settles brings
    rintro ⟨old, new, known, made, changed⟩
    by_cases asks : Asks id event
    · obtain ⟨card, same, pending, unanswered⟩ := opens before settle between event after split
        settles asks
      rw [known] at same
      cases same
      rcases changed with ⟨settled, _⟩ | ⟨answered, _⟩
      · exact settled pending
      · exact answered unanswered
    · -- what does not name the question leaves its card as it is
      rw [card_after_snoc, unasked_effect brings asks, known] at made
      cases made
      rcases changed with ⟨settled, pending⟩ | ⟨answered, cleared⟩
      · exact settled pending
      · exact answered cleared

theorem repeats_change_nothing (view : ConversationView) (seq : Nat) (events : List StreamEvent)
    (id : String) : RepeatsChangeNothing view seq events id := by
  intro before event after _
  rw [card_after_snoc, card_after_snoc]
  exact card_effect_again id _ _ event _

/-- A settled question stays settled, and events may repeat, exactly if no question
part for it comes while it is settled. -/
theorem settled_questions_stay (view : ConversationView) (seq : Nat) (events : List StreamEvent)
    (id : String) :
    (NeverReopens view seq events id ∧ RepeatsChangeNothing view seq events id) ↔
      AskedWhileOpen view seq events id := by
  rw [never_reopens_iff]
  exact and_iff_left (repeats_change_nothing view seq events id)

/-! A question is asked and answered; then the client reconnects. -/

def questionMessage : Message where
  messageId := some "m1"
  role := .other
  parts := [⟨.data [("intervention_id", .string "iv1"), ("question", .string "Which one?")],
    [("cw_type", .string "question")]⟩]

def answerDelta : StateDelta :=
  { interventions := Dict.set .empty "iv1"
      [("status", .string "resolved"), ("answer", .string "yes")] }

def asking : StreamEvent :=
  .statusUpdate ⟨some ⟨some "TASK_STATE_INPUT_REQUIRED", some questionMessage⟩, none, []⟩

def answering : StreamEvent :=
  .statusUpdate ⟨some ⟨some "TASK_STATE_WORKING", none⟩, some answerDelta, []⟩

def reconnecting : StreamEvent :=
  .task ⟨some "t1", some "c1", some ⟨some "TASK_STATE_WORKING", none⟩, [questionMessage], []⟩

/-- The snapshot, whose history holds the question, opens it again. -/
theorem snapshot_reopens : ¬ ∀ (view : ConversationView) (seq : Nat) (events : List StreamEvent)
    (id : String), NeverReopens view seq events id ∧ RepeatsChangeNothing view seq events id := by
  intro claim
  have stays := (claim emptyConversation 0 [asking, answering, reconnecting] "iv1").1 [asking]
    answering [] reconnecting [] rfl ⟨_, rfl, Or.inl rfl⟩ (Or.inl ⟨_, rfl⟩)
  apply stays
  refine ⟨_, _, rfl, rfl, Or.inl ⟨?_, rfl⟩⟩
  decide

end Choirworks.Frontend
