import Choirworks.Core.Llm
import Choirworks.History.Messages
import Choirworks.Library.Runs

/-!
A model that is asked for one tool call, and asked again until it makes a valid one.
Each attempt streams its thoughts and texts into artifacts of its own, which are
sealed when it ends; what was wrong with a call is added to the conversation. The
planner and the agents that decide by a final tool both do this.
-/

namespace Choirworks.Core

open History (ChatMessage)
open LlmFlows (Delta texted)

/-! ### Chunks -/

inductive ChunkKind where
  | thought | text
deriving DecidableEq

/-- A chunk of an artifact. Every attempt draws a fresh id for either kind. -/
structure Chunk where
  attempt : Nat
  kind : ChunkKind
  text : String
  append : Bool
  lastChunk : Bool
deriving DecidableEq

def worded (text : Option String) : List String := if texted text then [text.getD ""] else []

def piecesOf (kind : ChunkKind) (delta : Delta) : List String :=
  match kind with
  | .thought => worded delta.reasoning
  | .text => worded delta.content

/-- The pieces of a kind that a stream brings. -/
def pieces (kind : ChunkKind) (deltas : List Delta) : List String :=
  deltas.flatMap (piecesOf kind)

/-- The chunks of the deltas behind those that have brought the parts so far. -/
def chunks (attempt : Nat) : (reasoningParts contentParts : List String) → List Delta → List Chunk
  | _, _, [] => []
  | reasoningParts, contentParts, delta :: rest =>
      (worded delta.reasoning).map (fun text =>
          ⟨attempt, .thought, text, reasoningParts ≠ [], false⟩) ++
        (worded delta.content).map (fun text =>
          ⟨attempt, .text, text, contentParts ≠ [], false⟩) ++
        chunks attempt (reasoningParts ++ worded delta.reasoning)
          (contentParts ++ worded delta.content) rest

def sealChunk (attempt : Nat) (kind : ChunkKind) (deltas : List Delta) : List Chunk :=
  let text := Text.join "" (pieces kind deltas)
  if text = "" then [] else [⟨attempt, kind, text, false, true⟩]

/-- `_close_attempt` and `_seal`. -/
def sealAttempt (attempt : Nat) (deltas : List Delta) : List Chunk :=
  sealChunk attempt .thought deltas ++ sealChunk attempt .text deltas

/-! ### Attempts -/

/-- What was wrong with a call. -/
structure Fault where
  error : String
  payload : String
deriving DecidableEq

def feedback (fault : Fault) : String :=
  "Your previous tool call was invalid.\nTool call args:\n" ++ fault.payload ++ "\n\nError: " ++
    fault.error ++ "\nReturn a corrected tool call."

/-- What becomes of an attempt; an error that nothing here handles goes through. -/
inductive Verdict (Answer : Type) where
  | answered (answer : Answer)
  | faulty (fault : Fault)
  | broken (error : String)

/-- `reports` says whether a failed attempt is reported before the next, `reseals`
whether the last one is sealed once more when there is none. -/
structure Caller (Args Answer : Type) where
  toolName : String
  tools : List (FunctionTool Args)
  attempts : Nat
  accept : ToolCallResult Args → Except Fault Answer
  reports : Bool
  reseals : Bool

inductive Emission where
  | chunk (chunk : Chunk)
  | functionError (error argsJson : String)
deriving DecidableEq

inductive Ending (Answer : Type) where
  | answered (answer : Answer)
  | exhausted (lastFault : Option Fault)
  | broken (error : String)

structure Talk (Answer : Type) where
  messages : List ChatMessage
  attempt : Nat := 0
  requests : List (List ChatMessage) := []
  emitted : List Emission := []
  ending : Option (Ending Answer) := none

section Attempts

variable {Args Answer : Type} (caller : Caller Args Answer)

def Caller.judge (completion : Completion) : Verdict Answer :=
  match stream caller.tools completion with
  | .noCall => .faulty ⟨"model did not call the " ++ caller.toolName ++ " tool", ""⟩
  | .refused error => .faulty ⟨error, ""⟩
  | .unparsed payload cause => .faulty ⟨cause, payload⟩
  | .broken error => .broken error
  | .called call =>
      match caller.accept call with
      | .ok answer => .answered answer
      | .error fault => .faulty fault

/-- What is emitted behind the chunks of an attempt. -/
def Caller.closing (attempt : Nat) (completion : Completion) : List Emission :=
  let sealing := (sealAttempt attempt completion.deltas).map .chunk
  match caller.judge completion with
  | .broken _ => []
  | .answered _ => sealing
  | .faulty fault =>
      if attempt + 1 < caller.attempts then
        sealing ++ if caller.reports then [.functionError fault.error fault.payload] else []
      else if caller.reseals then sealing ++ sealing
      else sealing

def Caller.emissions (attempt : Nat) (completion : Completion) : List Emission :=
  (chunks attempt [] [] completion.deltas).map .chunk ++ caller.closing attempt completion

/-- What the next request says of the attempt. -/
def Caller.complaint (completion : Completion) : List ChatMessage :=
  match caller.judge completion with
  | .faulty fault => [.user (feedback fault)]
  | .answered _ | .broken _ => []

/-- How the attempt ends the talk, if it does. -/
def Caller.conclude (attempt : Nat) (completion : Completion) : Option (Ending Answer) :=
  match caller.judge completion with
  | .broken error => some (.broken error)
  | .answered answer => some (.answered answer)
  | .faulty fault =>
      if attempt + 1 < caller.attempts then none else some (.exhausted (some fault))

namespace Talk

def begin (messages : List ChatMessage) : Talk Answer where
  messages
  ending := if caller.attempts = 0 then some (.exhausted none) else none

/-- One request and its answer. -/
def step (talk : Talk Answer) (completion : Completion) : Option (Talk Answer) :=
  match talk.ending with
  | some _ => none
  | none => some {
      messages := talk.messages ++ caller.complaint completion
      attempt := talk.attempt + 1
      requests := talk.requests ++ [talk.messages]
      emitted := talk.emitted ++ caller.emissions talk.attempt completion
      ending := caller.conclude talk.attempt completion }

end Talk

end Attempts

/-! ### Runs -/

section Runs

variable {Args Answer : Type} {caller : Caller Args Answer} {opening : List ChatMessage}
  {completions : List Completion} {completion : Completion} {talk next : Talk Answer}

/-- The emissions of all attempts. -/
def Caller.allEmissions (caller : Caller Args Answer) (completions : List Completion) :
    List Emission :=
  completions.zipIdx.flatMap fun made => caller.emissions made.2 made.1

/-- How the talk has ended behind these attempts. -/
def Caller.endingOf (caller : Caller Args Answer) (completions : List Completion) :
    Option (Ending Answer) :=
  match completions.getLast? with
  | none => if caller.attempts = 0 then some (.exhausted none) else none
  | some last => caller.conclude (completions.length - 1) last

/-- The attempt was in vain. -/
def Caller.Rejects (caller : Caller Args Answer) (completion : Completion) : Prop :=
  ∃ fault, caller.judge completion = .faulty fault

/-- A talk in which these completions have come in. -/
structure Told (caller : Caller Args Answer) (opening : List ChatMessage)
    (completions : List Completion) (talk : Talk Answer) : Prop where
  messages : talk.messages = opening ++ completions.flatMap caller.complaint
  attempt : talk.attempt = completions.length
  requests : talk.requests = (List.range completions.length).map fun made =>
    opening ++ (completions.take made).flatMap caller.complaint
  emitted : talk.emitted = caller.allEmissions completions
  ending : talk.ending = caller.endingOf completions
  within : completions.length ≤ caller.attempts
  rejected : ∀ completion ∈ completions.dropLast, caller.Rejects completion

theorem told_begin : Told caller opening [] (.begin caller opening) where
  messages := by simp [Talk.begin]
  attempt := rfl
  requests := rfl
  emitted := rfl
  ending := rfl
  within := Nat.zero_le _
  rejected := by simp

theorem conclude_none {attempt : Nat} :
    caller.conclude attempt completion = none ↔
      caller.Rejects completion ∧ attempt + 1 < caller.attempts := by
  unfold Caller.conclude Caller.Rejects
  cases judged : caller.judge completion with
  | answered answer => simp
  | faulty fault => simp
  | broken error => simp

/-- While a talk goes on, all attempts were in vain and there is another one. -/
theorem Told.going (told : Told caller opening completions talk) (open_ : talk.ending = none) :
    completions.length < caller.attempts ∧
      ∀ completion ∈ completions, caller.Rejects completion := by
  have ending := told.ending
  rw [open_] at ending
  unfold Caller.endingOf at ending
  cases last : completions.getLast? with
  | none =>
      rw [List.getLast?_eq_none_iff] at last
      subst last
      simp only [List.getLast?_nil] at ending
      refine ⟨?_, by simp⟩
      by_contra none_
      rw [if_pos (by simpa using none_)] at ending
      cases ending
  | some completion =>
      rw [last] at ending
      obtain ⟨rejects, another⟩ := conclude_none.mp ending.symm
      obtain ⟨front, rfl⟩ := List.getLast?_eq_some_iff.mp last
      have rejected := told.rejected
      rw [List.dropLast_concat] at rejected
      rw [List.length_append, List.length_singleton] at another ⊢
      refine ⟨by omega, fun other member => ?_⟩
      rcases List.mem_append.mp member with earlier | now
      · exact rejected other earlier
      · rw [List.mem_singleton.mp now]
        exact rejects

theorem Told.step (told : Told caller opening completions talk)
    (stepped : talk.step caller completion = some next) :
    Told caller opening (completions ++ [completion]) next := by
  unfold Talk.step at stepped
  split at stepped
  · cases stepped
  · rename_i open_
    cases stepped
    obtain ⟨room, rejected⟩ := told.going open_
    constructor
    case messages => simp [told.messages]
    case attempt => simp [told.attempt]
    case requests =>
      simp only [told.requests, told.messages, List.length_append, List.length_singleton,
        List.range_succ, List.map_append, List.map_singleton, List.take_left]
      congr 1
      apply List.map_congr_left
      intro made inside
      have short : made ≤ completions.length := Nat.le_of_lt (List.mem_range.mp inside)
      rw [List.take_append_of_le_length short]
    case emitted =>
      simp [told.emitted, told.attempt, Caller.allEmissions, List.zipIdx_append]
    case ending => simp [Caller.endingOf, told.attempt]
    case within =>
      rw [List.length_append, List.length_singleton]
      exact room
    case rejected =>
      rw [List.dropLast_concat]
      exact rejected

theorem told_run (ran : Runs.run (Talk.step caller) (.begin caller opening) completions =
    some talk) : Told caller opening completions talk := by
  induction completions using List.reverseRecOn generalizing talk with
  | nil =>
      cases ran
      exact told_begin
  | append_singleton completions completion ih =>
      rw [Runs.run_append] at ran
      cases before : Runs.run (Talk.step caller) (.begin caller opening) completions with
      | none => simp [before] at ran
      | some middle =>
          rw [before] at ran
          have stepped : Talk.step caller middle completion = some talk := by
            simp only [Option.bind_some, Runs.run] at ran
            split at ran
            · cases ran
            · rename_i next stepped
              rw [stepped]
              exact ran
          exact (ih before).step stepped

/-- Whatever the model answers, the talk comes to an end. -/
theorem talk_ends (caller : Caller Args Answer) (opening : List ChatMessage)
    (answers : Nat → Completion) :
    ∃ made talk, Runs.run (Talk.step caller) (.begin caller opening)
      ((List.range made).map answers) = some talk ∧ talk.ending ≠ none := by
  -- by induction on the attempts that are left
  suffices ends : ∀ left made talk, caller.attempts - made ≤ left →
      Runs.run (Talk.step caller) (.begin caller opening) ((List.range made).map answers) =
        some talk →
      ∃ made talk, Runs.run (Talk.step caller) (.begin caller opening)
        ((List.range made).map answers) = some talk ∧ talk.ending ≠ none from
    ends caller.attempts 0 _ (by omega) rfl
  intro left
  induction left with
  | zero =>
      intro made talk few ran
      refine ⟨made, talk, ran, fun open_ => ?_⟩
      have room := ((told_run ran).going open_).1
      rw [List.length_map, List.length_range] at room
      omega
  | succ left ih =>
      intro made talk few ran
      by_cases open_ : talk.ending = none
      · apply ih (made + 1) _ (by omega)
        rw [List.range_succ, List.map_append, Runs.run_append, ran, Option.bind_some]
        simp only [List.map_singleton, Runs.run, Talk.step, open_]
        rfl
      · exact ⟨made, talk, ran, open_⟩

def Caller.answer (caller : Caller Args Answer) (completion : Completion) : Option Answer :=
  match caller.judge completion with
  | .answered answer => some answer
  | .faulty _ | .broken _ => none

theorem Caller.Rejects.answer (rejects : caller.Rejects completion) :
    caller.answer completion = none := by
  obtain ⟨fault, judged⟩ := rejects
  rw [Caller.answer, judged]

theorem stop_of_broken {error : String} (judged : caller.judge completion = .broken error) :
    completion.stop = .raised error := by
  unfold Caller.judge at judged
  cases streamed : stream caller.tools completion with
  | broken raised =>
      rw [streamed] at judged
      cases judged
      exact stream_broken.mp streamed
  | called call =>
      rw [streamed] at judged
      dsimp only at judged
      cases accepted : caller.accept call <;> simp [accepted] at judged
  | noCall | refused error | unparsed payload cause =>
      rw [streamed] at judged
      cases judged

/-- The first of the values that there is. -/
theorem first_of_range {Value : Type} {find : Nat → Option Value} {value : Value} {last count : Nat}
    (before : ∀ index < last, find index = none) (here : find last = some value)
    (inside : last < count) : (List.range count).findSome? find = some value := by
  obtain ⟨more, rfl⟩ := Nat.exists_eq_add_of_lt inside
  have none_ : (List.range last).findSome? find = none :=
    List.findSome?_eq_none_iff.mpr fun index member => before index (List.mem_range.mp member)
  rw [Nat.add_assoc, List.range_add, List.findSome?_append, none_, Option.none_or,
    List.range_succ_eq_map, List.map_cons, List.findSome?_cons, Nat.add_zero, here]

/-- How the talk ends: with the first answer of its attempts, or without one. -/
def Settles (caller : Caller Args Answer) (answers : Nat → Completion) (made : Nat) :
    Option (Ending Answer) → Prop
  | none => False
  | some (.answered answer) =>
      (List.range caller.attempts).findSome? (fun made => caller.answer (answers made)) = some answer
  | some (.exhausted lastFault) =>
      made = caller.attempts ∧ (∀ attempt < made, caller.Rejects (answers attempt)) ∧
        ∀ attempt, attempt + 1 = made → ∃ fault, lastFault = some fault ∧
          caller.judge (answers attempt) = .faulty fault
  | some (.broken error) => ∃ attempt, attempt + 1 = made ∧
      caller.judge (answers attempt) = .broken error

theorem Told.settles {answers : Nat → Completion} {made : Nat}
    (told : Told caller opening ((List.range made).map answers) talk) (ended : talk.ending ≠ none) :
    Settles caller answers made talk.ending := by
  have within := told.within
  have ending := told.ending
  have rejected : ∀ attempt, attempt + 1 < made → caller.Rejects (answers attempt) := by
    intro attempt earlier
    apply told.rejected
    obtain ⟨last, rfl⟩ : ∃ last, made = last + 1 := ⟨made - 1, by omega⟩
    rw [List.range_succ, List.map_append, List.map_singleton, List.dropLast_concat]
    exact List.mem_map_of_mem (List.mem_range.mpr (by omega))
  rw [List.length_map, List.length_range] at within
  rw [ending] at ended ⊢
  unfold Caller.endingOf at ended ⊢
  cases made with
  | zero =>
      simp only [List.range_zero, List.map_nil, List.getLast?_nil] at ended ⊢
      split
      · rename_i none_
        exact ⟨none_.symm, by simp, by simp⟩
      · rename_i some_
        rw [if_neg some_] at ended
        exact ended rfl
  | succ last =>
      simp only [List.range_succ, List.map_append, List.map_singleton, List.getLast?_concat,
        List.length_append, List.length_map, List.length_range, List.length_singleton,
        Nat.add_sub_cancel] at ended ⊢
      have before : ∀ attempt < last, caller.Rejects (answers attempt) := fun attempt earlier =>
        rejected attempt (by omega)
      unfold Caller.conclude at ended ⊢
      cases judged : caller.judge (answers last) with
      | answered answer =>
          refine first_of_range (fun attempt earlier => (before attempt earlier).answer) ?_ within
          rw [Caller.answer, judged]
      | broken error => exact ⟨last, rfl, judged⟩
      | faulty fault =>
          rw [judged] at ended
          by_cases more : last + 1 < caller.attempts
          · exact absurd (if_pos more) ended
          · dsimp only
            rw [if_neg more]
            refine ⟨by omega, ?_, ?_⟩
            · intro attempt inside
              rcases Nat.lt_succ_iff_lt_or_eq.mp inside with earlier | rfl
              · exact before attempt earlier
              · exact ⟨fault, judged⟩
            · intro attempt same
              obtain rfl : attempt = last := by omega
              exact ⟨fault, rfl, judged⟩

theorem Told.asked {answers : Nat → Completion} {made : Nat}
    (told : Told caller opening ((List.range made).map answers) talk) :
    talk.requests = (List.range made).map fun attempt =>
      opening ++ ((List.range attempt).map answers).flatMap caller.complaint := by
  rw [told.requests, List.length_map, List.length_range]
  apply List.map_congr_left
  intro attempt inside
  have short : min attempt made = attempt := by
    have earlier := List.mem_range.mp inside
    omega
  rw [← List.map_take, List.take_range, short]

end Runs

/-! ### Chunking -/

/-- A message of the model, split into deltas in two ways. -/
structure Exchange where
  message : LlmFlows.Completion
  left : List Delta
  right : List Delta
  leftSplits : LlmFlows.Splits left message
  rightSplits : LlmFlows.Splits right message

/-- All of a talk but what it has emitted. -/
def Talk.core {Answer : Type} (talk : Talk Answer) : Talk Answer := { talk with emitted := [] }

end Choirworks.Core
