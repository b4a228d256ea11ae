import Choirworks.LlmFlows.Agent

/-!
What a round adds to the conversation: one turn, the message of the assistant
with its calls and behind it one tool message for each call. The requests of a
run ask with the conversation before the run and the turns so far.
-/

namespace Choirworks.LlmFlows

open Text (join_append join_cons join_nil)

variable {host : Host} {agent : LLMAgent} {ctx : NodeContext}

/-! ### A turn -/

/-- The answers to the calls, from the one with the index on. -/
def responsesFrom (host : Host) (reply : Nat → Json) : Nat → List FunctionCall → List FunctionResponse
  | _, [] => []
  | index, call :: rest =>
      ⟨call.id, call.name, host.stored (reply index)⟩ :: responsesFrom host reply (index + 1) rest

/-- The reply to the call of an index: the error of a malformed answer, or what
the tool returns. -/
def Round.reply (round : Round) (answer : Answer) (index : Nat) : Json :=
  if answer.errorMessage ≠ "" then errorResponse answer.errorMessage
  else normalized ((round.results index).toOption.getD .null)

/-- The messages of a round. -/
def turn (host : Host) (round : Round) : List ChatMessage :=
  let answer := answerOf round.responses
  assistantMessages host answer.text
      (answer.calls.map fun call => { call with args := host.stored call.args }) ++
    (responsesFrom host (round.reply answer) 0 answer.calls).map (toolMessage host)

/-- Every call of an assistant message is answered right behind it, in its order,
and nothing else is. -/
inductive Answered : List ChatMessage → Prop where
  | none : Answered []
  | turn (content : Option String) {calls : List ToolCall} {tools rest : List ChatMessage}
      (paired : List.Forall₂ (fun call message => ∃ content, message = .tool content call.id)
        calls tools)
      (later : Answered rest) : Answered (.assistant content calls :: (tools ++ rest))

theorem Answered.append {front back : List ChatMessage} (first : Answered front)
    (second : Answered back) : Answered (front ++ back) := by
  induction first with
  | none => exact second
  | turn content paired _ ih =>
      rw [List.cons_append, List.append_assoc]
      exact .turn content paired ih

theorem responsesFrom_paired (reply : Nat → Json) (index : Nat) (calls : List FunctionCall) :
    List.Forall₂ (fun call message => ∃ content, message = ChatMessage.tool content call.id)
      ((calls.map fun call => { call with args := host.stored call.args }).map (toolCall host))
      ((responsesFrom host reply index calls).map (toolMessage host)) := by
  induction calls generalizing index with
  | nil => exact .nil
  | cons call rest ih => exact .cons ⟨_, rfl⟩ (ih (index + 1))

theorem responsesFrom_congr {left right : Nat → Json} (same : ∀ index, left index = right index)
    (index : Nat) (calls : List FunctionCall) :
    responsesFrom host left index calls = responsesFrom host right index calls := by
  rw [funext same]

theorem turn_answered (round : Round) : Answered (turn host round) := by
  unfold turn
  dsimp only
  set answer := answerOf round.responses
  have paired := @responsesFrom_paired host (round.reply answer) 0 answer.calls
  by_cases empty : answer.calls = []
  · rw [empty, List.map_nil, responsesFrom, List.map_nil, List.append_nil, assistantMessages]
    split
    · exact .turn _ .nil .none
    · exact .none
  · rw [assistantMessages, if_pos (Or.inr (by simpa using empty)), List.singleton_append]
    have answered := Answered.turn (if answer.text = "" then none else some answer.text) paired .none
    rwa [List.append_nil] at answered

theorem turns_answered (rounds : List Round) : Answered (rounds.flatMap (turn host)) := by
  induction rounds with
  | nil => exact .none
  | cons round rest ih => exact (turn_answered round).append ih

/-! ### The events of the agent in the conversation -/

theorem contents_append (view : View) (front back : List Event) :
    contents host agent.name view (front ++ back) =
      contents host agent.name view front ++ contents host agent.name view back := by
  simp only [contents, List.filter_append, List.flatMap_append]

/-- A complete artifact of the agent. -/
def finished (parts : List Part) (artifactId : String) : Event :=
  .artifact artifactId parts false true {}

/-- The agent reads its own artifacts, unless the node isolates them. -/
theorem contents_finished (parts : List Part) (artifactId : String) :
    contents host agent.name {} [enrich agent ctx (finished parts artifactId)] =
      if ctx.isolationScope = none then artifactMessages host parts else [] := by
  have own : isOtherAgentReply agent.name (enrich agent ctx (finished parts artifactId)) = false := by
    simp [isOtherAgentReply, enrich, finished, Event.withMeta, Event.metadata]
  have scope : (enrich agent ctx (finished parts artifactId)).metadata.isolationScope =
      ctx.isolationScope := rfl
  by_cases open_ : ctx.isolationScope = none
  · have admitted : View.admits {} (enrich agent ctx (finished parts artifactId)) = true := by
      simp [View.admits, scope, open_, filled]
    rw [if_pos open_, contents, List.filter_cons, if_pos admitted]
    simp only [List.filter_nil, List.flatMap_cons, List.flatMap_nil, List.append_nil,
      eventMessages, own]
    rfl
  · have refused : View.admits {} (enrich agent ctx (finished parts artifactId)) = false := by
      simp [View.admits, scope, open_]
    rw [if_neg open_, contents, List.filter_cons, if_neg (by simp [refused])]
    rfl

theorem artifactMessages_response (found : FunctionResponse) :
    artifactMessages host [.functionResponse found] = [toolMessage host found] := by
  simp [artifactMessages, callsOf, responsesOf, assistantMessages, Part.isThought, Part.textOf,
    join_cons]

/-- The parts of the event that a final response becomes. -/
def Answer.eventParts (host : Host) (answer : Answer) : List Part :=
  answer.finalParts.flatMap (LLMResponsePart.eventParts host.stored)

theorem Answer.eventParts_eq (answer : Answer) :
    answer.eventParts host =
      (if answer.thoughts ≠ [] then [.text (Text.join "" answer.thoughts) true] else []) ++
        (if answer.texts ≠ [] then [.text answer.text false] else []) ++
          answer.calls.map fun call => .functionCall { call with args := host.stored call.args } := by
  unfold eventParts finalParts
  rw [List.flatMap_append, List.flatMap_append, List.flatMap_map]
  congr 1
  · congr 1
    · split <;> rfl
    · split <;> rfl
  · exact (List.map_eq_flatMap ..).symm

theorem callsOf_append (front back : List Part) :
    callsOf (front ++ back) = callsOf front ++ callsOf back :=
  List.filterMap_append

theorem responsesOf_append (front back : List Part) :
    responsesOf (front ++ back) = responsesOf front ++ responsesOf back :=
  List.filterMap_append

theorem artifactMessages_answer (answer : Answer) :
    artifactMessages host (answer.eventParts host) =
      assistantMessages host answer.text
        (answer.calls.map fun call => { call with args := host.stored call.args }) := by
  let called (call : FunctionCall) : Part :=
    .functionCall { call with args := host.stored call.args }
  have calls : ∀ calls : List FunctionCall, callsOf (calls.map called) =
      calls.map fun call => { call with args := host.stored call.args } := by
    intro calls
    simp [callsOf, List.filterMap_map, called]
  have no_responses : ∀ calls : List FunctionCall, responsesOf (calls.map called) = [] := by
    intro calls
    simp [responsesOf, List.filterMap_map, called]
  have silent : ∀ calls : List FunctionCall,
      Text.join "" (((calls.map called).filter fun part => !part.isThought).map Part.textOf) = "" := by
    intro calls
    induction calls with
    | nil => simp
    | cons call rest ih => simpa [called, Part.isThought, Part.textOf, join_cons] using ih
  have no_text : answer.texts = [] → answer.text = "" := by
    intro empty
    rw [Answer.text, empty, join_nil]
  unfold artifactMessages
  rw [Answer.eventParts_eq]
  simp only [callsOf_append, responsesOf_append, List.filter_append, List.map_append, join_append]
  rw [calls, no_responses, silent]
  by_cases thought : answer.thoughts = [] <;> by_cases said : answer.texts = [] <;>
    simp [thought, said, callsOf, responsesOf, Part.isThought, Part.textOf, join_cons, no_text]

/-! ### The steps of a round -/

namespace AgentRun

/-- What a part of a round leaves alone. -/
structure Within (run next : AgentRun) : Prop where
  requests : next.requests = run.requests
  retryCount : next.retryCount = run.retryCount
  /-- A loop that has ended stays so. -/
  running : next.phase = .running → run.phase = .running

theorem Within.refl (run : AgentRun) : Within run run := ⟨rfl, rfl, id⟩

theorem Within.trans {run middle next : AgentRun} (first : Within run middle)
    (second : Within middle next) : Within run next where
  requests := second.requests.trans first.requests
  retryCount := second.retryCount.trans first.retryCount
  running := fun going => first.running (second.running going)

theorem stop_within (run : AgentRun) (phase : Phase) : Within run (run.stop phase) := by
  unfold stop
  split
  · rename_i going
    exact ⟨rfl, rfl, fun _ => going⟩
  · exact .refl run

theorem emit_within (run : AgentRun) (event : Event) : Within run (run.emit agent ctx event) := by
  unfold emit
  split
  · exact .refl run
  · rename_i going
    have running : run.phase = .running := not_not.mp going
    dsimp only
    split
    · exact ⟨rfl, rfl, fun _ => running⟩
    · exact ⟨rfl, rfl, fun _ => running⟩

theorem emit_incomplete (run : AgentRun) {event : Event} (incomplete : event.isPartial = true) :
    (run.emit agent ctx event).events = run.events := by
  have still : (enrich agent ctx event).isPartial = true := by
    cases event <;> exact incomplete
  unfold emit
  split
  · rfl
  · dsimp only
    split <;> simp [still]

theorem emit_finished (run : AgentRun) (parts : List Part) (artifactId : String)
    (going : (run.emit agent ctx (finished parts artifactId)).phase = .running) :
    (run.emit agent ctx (finished parts artifactId)).events =
      run.events ++ [enrich agent ctx (finished parts artifactId)] := by
  have running := (emit_within run (finished parts artifactId)).running going
  have complete : (enrich agent ctx (finished parts artifactId)).isPartial = false := rfl
  unfold emit
  rw [if_neg (not_not.mpr running)]
  dsimp only
  split <;> simp [complete]

/-- The conversation grows by messages, where the agent can read them. -/
def Adds (host : Host) (agent : LLMAgent) (ctx : NodeContext) (run next : AgentRun)
    (messages : List ChatMessage) : Prop :=
  contents host agent.name {} next.events = contents host agent.name {} run.events ++
    if ctx.isolationScope = none then messages else []

theorem Adds.trans {run middle next : AgentRun} {front back : List ChatMessage}
    (first : Adds host agent ctx run middle front) (second : Adds host agent ctx middle next back) :
    Adds host agent ctx run next (front ++ back) := by
  unfold Adds at *
  rw [second, first, List.append_assoc]
  split <;> simp

theorem adds_finished (run : AgentRun) (parts : List Part) (artifactId : String)
    (going : (run.emit agent ctx (finished parts artifactId)).phase = .running) :
    Adds host agent ctx run (run.emit agent ctx (finished parts artifactId))
      (artifactMessages host parts) := by
  rw [Adds, emit_finished run parts artifactId going, contents_append, contents_finished]

theorem adds_response (run : AgentRun) (artifactId : String) (call : FunctionCall) (response : Json)
    (going : (run.emit agent ctx (responseEvent host artifactId call response)).phase = .running) :
    Adds host agent ctx run (run.emit agent ctx (responseEvent host artifactId call response))
      [toolMessage host ⟨call.id, call.name, host.stored response⟩] := by
  have added := @adds_finished host agent ctx run
    [.functionResponse ⟨call.id, call.name, host.stored response⟩] artifactId going
  rwa [artifactMessages_response] at added

theorem stream_within (artifactId : String) (run : AgentRun) (answer : Answer)
    (responses : List LLMResponse) :
    Within run (run.stream host agent ctx artifactId answer responses) ∧
      (run.stream host agent ctx artifactId answer responses).events = run.events := by
  induction responses generalizing run answer with
  | nil => exact ⟨.refl run, rfl⟩
  | cons response rest ih =>
      rw [stream]
      split
      · exact ih run answer
      · dsimp only
        set event := toA2aArtifact host.stored response artifactId
          (answer.thoughts ≠ [] ∨ answer.texts ≠ []) false
        have incomplete : event.isPartial = true := by simp [event, toA2aArtifact, Event.isPartial]
        obtain ⟨within, same⟩ := ih (run.emit agent ctx event) (answer.add response)
        exact ⟨(emit_within run event).trans within, same.trans (emit_incomplete run incomplete)⟩

theorem rejectCalls_within (artifactIds : Nat → String) (error : String) (index : Nat) (run : AgentRun)
    (calls : List FunctionCall) :
    Within run (run.rejectCalls host agent ctx artifactIds error index calls) := by
  induction calls generalizing index run with
  | nil => exact .refl run
  | cons call rest ih => exact (emit_within run _).trans (ih (index + 1) _)

theorem rejectCalls_adds (artifactIds : Nat → String) (error : String) (index : Nat) (run : AgentRun)
    (calls : List FunctionCall)
    (going : (run.rejectCalls host agent ctx artifactIds error index calls).phase = .running) :
    Adds host agent ctx run (run.rejectCalls host agent ctx artifactIds error index calls)
      ((responsesFrom host (fun _ => errorResponse error) index calls).map (toolMessage host)) := by
  induction calls generalizing index run with
  | nil => simp [rejectCalls, Adds, responsesFrom]
  | cons call rest ih =>
      rw [rejectCalls] at going ⊢
      have emitted := (rejectCalls_within artifactIds error (index + 1) _ rest).running going
      exact (adds_response run _ call _ emitted).trans (ih (index + 1) _ going)

theorem executeTools_within (artifactIds : Nat → String)
    (results : Nat → Except String Json) (index : Nat) (run : AgentRun)
    (calls : List FunctionCall) :
    Within run (run.executeTools host agent ctx artifactIds results index calls) := by
  induction calls generalizing index run with
  | nil => exact .refl run
  | cons call rest ih =>
      rw [executeTools]
      split
      · exact stop_within run _
      · split
        · exact stop_within run _
        · exact (emit_within run _).trans (ih (index + 1) _)

theorem stop_raised (run : AgentRun) (text : String) : (run.stop (.raised text)).phase ≠ .running := by
  unfold stop
  split
  · simp
  · assumption

theorem executeTools_adds (artifactIds : Nat → String)
    (results : Nat → Except String Json) (index : Nat) (run : AgentRun)
    (calls : List FunctionCall)
    (going : (run.executeTools host agent ctx artifactIds results index calls).phase = .running) :
    Adds host agent ctx run (run.executeTools host agent ctx artifactIds results index calls)
      ((responsesFrom host (fun index => normalized ((results index).toOption.getD .null))
        index calls).map (toolMessage host)) := by
  induction calls generalizing index run with
  | nil => simp [executeTools, Adds, responsesFrom]
  | cons call rest ih =>
      rw [executeTools] at going ⊢
      split at going
      · exact absurd going (stop_raised run _)
      · rename_i known
        rw [if_neg known]
        cases returned : results index with
        | error text =>
            rw [returned] at going
            exact absurd going (stop_raised run text)
        | ok result =>
            rw [returned] at going
            dsimp only at going ⊢
            have emitted := (executeTools_within artifactIds results (index + 1) _ rest).running going
            rw [responsesFrom, returned]
            exact (adds_response run _ call _ emitted).trans (ih (index + 1) _ going)

/-- A round whose answer is malformed: it calls functions and reports an error. -/
def Malformed (round : Round) : Prop :=
  round.failure = none ∧ (answerOf round.responses).calls ≠ [] ∧
    (answerOf round.responses).errorMessage ≠ ""

instance (round : Round) : Decidable (Malformed round) := by
  unfold Malformed
  infer_instance

/-- What a round that goes on has done to the run. -/
structure Onward (host : Host) (agent : LLMAgent) (ctx : NodeContext) (run next : AgentRun)
    (round : Round) : Prop where
  running : run.phase = .running
  adds : Adds host agent ctx run next (turn host round)
  counted : next.retryCount = run.retryCount + if Malformed round then 1 else 0
  below : Malformed round → (next.retryCount : Int) < agent.maxRetries

theorem close_within (run : AgentRun) (round : Round) (answer : Answer) :
    Within run (run.close host agent ctx round answer) := by
  unfold close
  split
  · exact .refl run
  · exact emit_within run _

theorem close_adds (run : AgentRun) (round : Round) (answer : Answer)
    (going : (run.close host agent ctx round answer).phase = .running) :
    Adds host agent ctx run (run.close host agent ctx round answer)
      (assistantMessages host answer.text
        (answer.calls.map fun call => { call with args := host.stored call.args })) := by
  rw [← artifactMessages_answer]
  unfold close at going ⊢
  cases parts : answer.finalParts with
  | nil =>
      have no_parts : answer.eventParts host = [] := by rw [Answer.eventParts, parts, List.flatMap_nil]
      simp [Adds, no_parts, artifactMessages, assistantMessages, callsOf, responsesOf]
  | cons first rest =>
      rw [parts] at going
      rw [Answer.eventParts, parts]
      exact adds_finished run _ _ going

/-- Where the round goes on behind a malformed answer, its calls have been answered
with the error, and the agent may retry. -/
theorem retried_onward {run closed : AgentRun} {round : Round} (within : Within run closed)
    (malformed : Malformed round)
    (added : closed.phase = .running → Adds host agent ctx run closed
      (assistantMessages host (answerOf round.responses).text
        ((answerOf round.responses).calls.map fun call =>
          { call with args := host.stored call.args })))
    (below : ¬agent.maxRetries ≤ (((closed.rejectCalls host agent ctx round.artifactIds
      (answerOf round.responses).errorMessage 0 (answerOf round.responses).calls).retryCount + 1 :
        Nat) : Int))
    (going : (closed.rejectCalls host agent ctx round.artifactIds (answerOf round.responses).errorMessage 0
      (answerOf round.responses).calls).phase = .running) :
    let rejected := closed.rejectCalls host agent ctx round.artifactIds
      (answerOf round.responses).errorMessage 0 (answerOf round.responses).calls
    Onward host agent ctx run { rejected with retryCount := rejected.retryCount + 1 } round := by
  set answer := answerOf round.responses with summed
  have inside := @rejectCalls_within host agent ctx round.artifactIds
    answer.errorMessage 0 closed answer.calls
  have before := inside.running going
  have rejected := rejectCalls_adds round.artifactIds answer.errorMessage 0 closed answer.calls going
  have reply : ∀ index, errorResponse answer.errorMessage = round.reply answer index :=
    fun index => by rw [Round.reply, if_pos malformed.2.2]
  constructor
  case running => exact within.running before
  case adds =>
    rw [responsesFrom_congr reply] at rejected
    exact (added before).trans rejected
  case counted => rw [if_pos malformed, inside.retryCount, within.retryCount]
  case below => exact fun _ => Int.not_le.mp below

theorem executed_onward {run closed : AgentRun} {round : Round} (within : Within run closed)
    (sound : ¬Malformed round) (silent : (answerOf round.responses).errorMessage = "")
    (added : closed.phase = .running → Adds host agent ctx run closed
      (assistantMessages host (answerOf round.responses).text
        ((answerOf round.responses).calls.map fun call =>
          { call with args := host.stored call.args })))
    (going : (closed.executeTools host agent ctx round.artifactIds round.results 0
      (answerOf round.responses).calls).phase = .running) :
    Onward host agent ctx run (closed.executeTools host agent ctx round.artifactIds round.results 0
      (answerOf round.responses).calls) round := by
  set answer := answerOf round.responses with summed
  have inside := @executeTools_within host agent ctx round.artifactIds round.results 0 closed
    answer.calls
  have before := inside.running going
  have executed := executeTools_adds round.artifactIds round.results 0 closed answer.calls going
  have reply : ∀ index, normalized ((round.results index).toOption.getD .null) =
      round.reply answer index := fun index => by rw [Round.reply, if_neg (by simp [silent])]
  constructor
  case running => exact within.running before
  case adds =>
    rw [responsesFrom_congr reply] at executed
    exact (added before).trans executed
  case counted => rw [if_neg sound, inside.retryCount, within.retryCount]; rfl
  case below => exact fun malformed => absurd malformed sound

theorem stop_ended (run : AgentRun) {phase : Phase} (ended : phase ≠ .running) :
    (run.stop phase).phase ≠ .running := by
  unfold stop
  split
  · exact ended
  · assumption

/-- The part of a round behind the answer: it makes no request, and where the loop
goes on it has added the turn. -/
theorem answered_spec (run : AgentRun) (round : Round) (unfailed : round.failure = none) :
    (run.answered host agent ctx round (answerOf round.responses)).requests = run.requests ∧
      ((run.answered host agent ctx round (answerOf round.responses)).phase = .running →
        Onward host agent ctx run
          (run.answered host agent ctx round (answerOf round.responses)) round) := by
  unfold answered
  split
  case h_1 text _ =>
    exact ⟨(stop_within run _).requests, fun going => absurd going (stop_ended run (by simp))⟩
  case h_2 =>
    have within := @close_within host agent ctx run round
      (answerOf round.responses)
    have added := @close_adds host agent ctx run round
      (answerOf round.responses)
    dsimp only
    split
    case isTrue =>
      exact ⟨(within.trans (stop_within _ _)).requests,
        fun going => absurd going (stop_ended _ (by simp))⟩
    case isFalse called =>
      split
      case isTrue error =>
        have malformed : Malformed round := ⟨unfailed, called, error⟩
        have inside := within.trans (@rejectCalls_within host agent ctx
          round.artifactIds (answerOf round.responses).errorMessage 0 _ (answerOf round.responses).calls)
        unfold retry
        dsimp only
        split
        case isTrue =>
          refine ⟨?_, fun going => absurd going (stop_ended _ (by simp))⟩
          rw [(stop_within _ _).requests]
          exact inside.requests
        case isFalse below =>
          refine ⟨inside.requests, fun going => retried_onward within malformed added below going⟩
      case isFalse silent =>
        have inside := @executeTools_within host agent ctx round.artifactIds round.results 0
          (run.close host agent ctx round (answerOf round.responses))
          (answerOf round.responses).calls
        refine ⟨(within.trans inside).requests, fun going => ?_⟩
        exact executed_onward within (fun malformed => silent malformed.2.2) (not_not.mp silent)
          added going

/-- The request of a round that starts in the run. -/
def asks (host : Host) (agent : LLMAgent) (run : AgentRun) : LLMRequest where
  messages := contents host agent.name {} run.events
  tools := agent.tools
  systemInstruction := filled agent.instruction

/-- A round makes one request, and where the loop goes on it has added its turn.
An agent without a name makes none. -/
theorem round_spec (run : AgentRun) (round : Round) :
    (run.round host agent ctx round).requests =
        run.requests ++ (if agent.name = "" then [] else [asks host agent run]) ∧
      ((run.round host agent ctx round).phase = .running →
        Onward host agent ctx run (run.round host agent ctx round) round) := by
  unfold AgentRun.round getContents
  by_cases unnamed : agent.name = ""
  · simp only [if_pos unnamed, List.append_nil]
    exact ⟨(stop_within run _).requests, fun going => absurd going (stop_ended run (by simp))⟩
  · simp only [if_neg unnamed]
    set asked := run.request agent (contents host agent.name {} run.events)
    obtain ⟨within, same_events⟩ := @stream_within host agent ctx
      (round.artifactIds 0) asked {} round.responses
    have requests : asked.requests = run.requests ++ [asks host agent run] := rfl
    cases failed : round.failure with
    | some text =>
        refine ⟨?_, fun going => absurd going (stop_ended _ (by simp))⟩
        rw [(stop_within _ _).requests, within.requests, requests]
    | none =>
        obtain ⟨kept, onward⟩ := @answered_spec host agent ctx
          (asked.stream host agent ctx (round.artifactIds 0) {} round.responses) round failed
        refine ⟨by rw [kept, within.requests, requests], fun going => ?_⟩
        have gone := onward going
        constructor
        case running => exact within.running gone.running
        case adds =>
          have added := gone.adds
          rw [Adds, same_events] at added
          exact added
        case counted => rw [gone.counted, within.retryCount]; rfl
        case below => exact gone.below

end AgentRun

/-! ### Runs -/

section Runs

theorem filled_filled (text : Option String) : filled (filled text) = filled text := by
  cases text with
  | none => rfl
  | some text => by_cases empty : text = "" <;> simp [filled, empty]

/-- An agent without a name gets no round done. -/
theorem named_of_running {run : AgentRun} {round : Round}
    (going : (run.round host agent ctx round).phase = .running) : agent.name ≠ "" := by
  intro unnamed
  unfold AgentRun.round getContents at going
  simp only [if_pos unnamed] at going
  exact AgentRun.stop_ended run (by simp) going

theorem step_some {run next : AgentRun} {round : Round}
    (taken : AgentRun.step host agent ctx run round = some next) :
    run.phase = .running ∧ next = run.round host agent ctx round := by
  unfold AgentRun.step at taken
  split at taken
  · rename_i going
    exact ⟨going, (Option.some.inj taken).symm⟩
  · cases taken

/-- What the requests of a run ask with, round by round. -/
theorem requests_of_run (rounds : List Round) (run final : AgentRun)
    (ran : Runs.run (AgentRun.step host agent ctx) run rounds = some final) :
    ∃ made, final.requests = run.requests ++ made ∧ made.length ≤ rounds.length ∧
      ∀ index request, made[index]? = some request →
        request.messages = contents host agent.name {} run.events ++
            (if ctx.isolationScope = none then (rounds.take index).flatMap (turn host) else []) ∧
          request.systemInstruction = filled agent.instruction := by
  induction rounds generalizing run with
  | nil =>
      cases ran
      exact ⟨[], by simp, by simp, by simp⟩
  | cons round rest ih =>
      cases taken : AgentRun.step host agent ctx run round with
      | none => simp [Runs.run, taken] at ran
      | some next =>
          simp only [Runs.run, taken] at ran
          obtain ⟨made, requested, few, each⟩ := ih next ran
          have stepped := (step_some taken).2
          obtain ⟨requests, onward⟩ := @AgentRun.round_spec host agent ctx run round
          rw [← stepped] at requests onward
          have first : ∀ request ∈ if agent.name = "" then [] else [AgentRun.asks host agent run],
              request = AgentRun.asks host agent run := by
            split <;> simp
          refine ⟨_, by rw [requested, requests, List.append_assoc], ?_, ?_⟩
          · rw [List.length_append, List.length_cons]
            split <;> simp <;> omega
          · intro index request found
            by_cases going : next.phase = .running
            · have gone := onward going
              rw [if_neg (named_of_running (stepped ▸ going))] at found
              cases index with
              | zero =>
                  cases found
                  simp [AgentRun.asks]
              | succ index =>
                  obtain ⟨asked, instructed⟩ := each index request found
                  refine ⟨?_, instructed⟩
                  rw [asked, gone.adds, List.append_assoc, List.take_succ_cons, List.flatMap_cons]
                  split <;> simp
            · -- a loop that has ended makes no further request
              have none_later : rest = [] := by
                cases rest with
                | nil => rfl
                | cons later rest => simp [Runs.run, AgentRun.step, going] at ran
              subst none_later
              obtain rfl : made = [] := List.length_eq_zero_iff.mp (Nat.le_zero.mp few)
              rw [List.append_nil] at found
              have asked := first request (List.mem_of_getElem? found)
              have at_start : index = 0 := by
                have inside := (List.getElem?_eq_some_iff.mp found).1
                split at inside <;> simp at inside
                exact inside
              subst asked at_start
              simp [AgentRun.asks]

/-- Every request of a node's run asks with the instruction, the conversation before
the run and, unless the node isolates its events, the turns of the rounds so far; in
these each call is answered right behind its message. -/
theorem request_messages (includeContents : Bool) (events : List Event) (nodeInput : Option Json)
    (rounds : List Round) (final : AgentRun)
    (ran : Runs.run (AgentRun.step host agent ctx)
      (AgentRun.begin includeContents events nodeInput) rounds = some final)
    (index : Nat) (request : LLMRequest) (made : final.requests[index]? = some request) :
    ∃ turns, Answered turns ∧
      turns = (if ctx.isolationScope = none then (rounds.take index).flatMap (turn host) else []) ∧
      request.sent = (filled agent.instruction).toList.map ChatMessage.system ++
        contents host agent.name {} (AgentRun.begin includeContents events nodeInput).events ++
          turns := by
  obtain ⟨requests, all, _, each⟩ := requests_of_run rounds _ final ran
  have begun : (AgentRun.begin includeContents events nodeInput).requests = [] := rfl
  rw [begun, List.nil_append] at all
  obtain ⟨asked, instructed⟩ := each index request (all ▸ made)
  refine ⟨_, ?_, rfl, ?_⟩
  · split
    · exact turns_answered _
    · exact .none
  · rw [LLMRequest.sent, asked, instructed, filled_filled, List.append_assoc]

/-- An agent that searches and then answers. -/
def searcher : LLMAgent := { name := "writer", instruction := "Be brief.", tools := ["search"] }

def plainHost : Host := ⟨Json.dumps, Json.dumps, id⟩

def searching : List Round :=
  [ { artifactIds := toString
      responses := [{ content := some [{ functionCall := some { id := "call", name := "search" } }] }]
      results := fun _ => .ok (.string "a hit") },
    { artifactIds := toString
      responses := [{ content := some [{ text := some "Found it." }] }]
      results := fun _ => .ok .null } ]

def searched : AgentRun :=
  searching.foldl (AgentRun.round plainHost searcher {}) (AgentRun.begin true [] (some (.string "?")))

theorem request_messages_searched :
    ∃ turns, Answered turns ∧
      turns = ((searching.take 1).flatMap (turn plainHost)) ∧
      (searched.requests.getD 1 ⟨[], [], none⟩).sent =
        [ChatMessage.system "Be brief."] ++
          contents plainHost "writer" {} (AgentRun.begin true [] (some (.string "?"))).events ++
            turns :=
  @request_messages plainHost searcher {} true [] (some (.string "?")) searching searched rfl 1 _ rfl

/-- The retries that are left bound the malformed rounds to come. -/
theorem malformed_rounds (rounds : List Round) (run final : AgentRun)
    (ran : Runs.run (AgentRun.step host agent ctx) run rounds = some final)
    (left : run.retryCount = 0 ∨ (run.retryCount : Int) < agent.maxRetries) :
    ((run.retryCount + rounds.countP fun round => AgentRun.Malformed round : Nat) : Int) ≤
      max 1 agent.maxRetries := by
  induction rounds generalizing run with
  | nil =>
      rw [List.countP_nil]
      omega
  | cons round rest ih =>
      cases taken : AgentRun.step host agent ctx run round with
      | none => simp [Runs.run, taken] at ran
      | some next =>
          simp only [Runs.run, taken] at ran
          obtain ⟨_, rfl⟩ := step_some taken
          have onward := (@AgentRun.round_spec host agent ctx run round).2
          rw [List.countP_cons]
          by_cases going : (run.round host agent ctx round).phase = .running
          · have gone := onward going
            have counted := gone.counted
            have below := gone.below
            have rounds_left := ih _ ran (by
              by_cases malformed : AgentRun.Malformed round
              · exact Or.inr (below malformed)
              · rw [if_neg malformed] at counted
                rw [counted]
                exact left)
            simp only [decide_eq_true_eq]
            omega
          · obtain rfl : rest = [] := by
              cases rest with
              | nil => rfl
              | cons later rest => simp [Runs.run, AgentRun.step, going] at ran
            rw [List.countP_nil]
            simp only [decide_eq_true_eq]
            split <;> omega

/-- However long a run is and whatever the model answers, at most `max_retries` of
its answers are malformed, or one if there are no retries. -/
theorem malformed_bounded (includeContents : Bool) (events : List Event) (nodeInput : Option Json)
    (rounds : List Round) (final : AgentRun)
    (ran : Runs.run (AgentRun.step host agent ctx)
      (AgentRun.begin includeContents events nodeInput) rounds = some final) :
    ((rounds.countP fun round => AgentRun.Malformed round : Nat) : Int) ≤
      max 1 agent.maxRetries := by
  have bounded := malformed_rounds rounds _ final ran (Or.inl rfl)
  have begun : (AgentRun.begin includeContents events nodeInput).retryCount = 0 := rfl
  rwa [begun, Nat.zero_add] at bounded

theorem malformed_bounded_searched :
    ((searching.countP fun round => AgentRun.Malformed round : Nat) : Int) ≤ max 1 3 :=
  @malformed_bounded plainHost searcher {} true [] (some (.string "?")) searching searched rfl

end Runs

end Choirworks.LlmFlows
