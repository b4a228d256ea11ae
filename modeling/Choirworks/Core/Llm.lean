import Choirworks.LlmFlows.LiteLlm

/-!
What `LiteLLMClient.stream` makes of a completion. The deltas go out as they come;
the pieces of the tool calls are collected under their index, and one call of a
tool that was offered goes out behind them.
-/

namespace Choirworks.Core

open LlmFlows (CallDelta Carries CompletionCall Delta Splits SplitsCall latest latest_carried
  latest_snoc texted)

/-- How a stream ends. -/
inductive StreamEnd where
  | complete
  | valueError (error : String)
  | raised (error : String)
deriving DecidableEq

structure Completion where
  deltas : List Delta
  stop : StreamEnd := .complete

/-- `validate` reads the arguments by the schema of the declaration, or says what
is wrong with them. -/
structure FunctionTool (Args : Type) where
  name : String
  validate : String → Except String Args

/-- Without a `callId` a fresh one is drawn. -/
structure ToolCallResult (Args : Type) where
  function : String
  args : Args
  callId : Option String

/-- What a stream comes to behind its deltas; `unparsed` is the `ToolParseError`,
`refused` every other `ValueError` and `broken` any other error. -/
inductive Streamed (Args : Type) where
  | noCall
  | called (call : ToolCallResult Args)
  | refused (error : String)
  | unparsed (payload cause : String)
  | broken (error : String)

structure Gathered where
  fragments : Dict Nat (List String) := .empty
  callNames : Dict Nat String := .empty
  callIds : Dict Nat String := .empty

/-- An empty name or id says nothing. -/
def note (field : CallDelta → Option String) (noted : Dict Nat String) (call : CallDelta) :
    Dict Nat String :=
  if texted (field call) then noted.set call.index ((field call).getD "") else noted

def Gathered.add (gathered : Gathered) (call : CallDelta) : Gathered where
  fragments := gathered.fragments.set call.index
    (gathered.fragments.getD call.index [] ++ [call.arguments.getD ""])
  callNames := note (·.name) gathered.callNames call
  callIds := note (·.id) gathered.callIds call

def gather (deltas : List Delta) : Gathered := (deltas.flatMap (·.calls)).foldl Gathered.add {}

variable {Args : Type}

/-- A call of the name, with its payload. -/
def parseCall (tools : List (FunctionTool Args)) (toolName payload : String)
    (callId : Option String) : Streamed Args :=
  match tools.reverse.find? (·.name = toolName) with
  | none => .refused ("model called unknown tool: " ++ toolName)
  | some tool =>
      if toolName = "" then .refused ("model called unknown tool: " ++ toolName)
      else
        match tool.validate payload with
        | .error cause => .unparsed payload cause
        | .ok args => .called ⟨toolName, args, callId⟩

def stream (tools : List (FunctionTool Args)) (completion : Completion) : Streamed Args :=
  match completion.stop with
  | .valueError error => .refused error
  | .raised error => .broken error
  | .complete =>
      let gathered := gather completion.deltas
      match gathered.fragments.rows with
      | [] => .noCall
      | [(index, fragments)] =>
          parseCall tools (gathered.callNames.getD index "") (Text.join "" fragments)
            (gathered.callIds.get? index)
      | _ => .refused "expected a single tool call"

theorem stream_broken {tools : List (FunctionTool Args)} {completion : Completion}
    {error : String} : stream tools completion = .broken error ↔ completion.stop = .raised error := by
  unfold stream
  cases completion.stop with
  | raised other => simp
  | valueError other => simp
  | complete =>
      have unbroken : ∀ name payload callId, parseCall tools name payload callId ≠ .broken error := by
        intro name payload callId
        unfold parseCall
        split
        · simp
        · split
          · simp
          · split <;> simp
      simp only [reduceCtorEq, iff_false]
      split
      · simp
      · exact unbroken _ _ _
      · simp

/-! ### Splitting a message -/

section Splitting

/-- The row of an index with one more piece. -/
def moreFragments (row : Option (Nat × List String)) (call : CallDelta) : Nat × List String :=
  (call.index, (row.map Prod.snd).getD [] ++ [call.arguments.getD ""])

theorem gathered_fragments (calls : List CallDelta) (gathered : Gathered) :
    (calls.foldl Gathered.add gathered).fragments =
      calls.foldl (Table.absorb moreFragments CallDelta.index) gathered.fragments := by
  induction calls generalizing gathered with
  | nil => rfl
  | cons call rest ih => exact ih (gathered.add call)

theorem fragments_of (calls : List CallDelta) (index : Nat) (same : ∀ call ∈ calls, call.index = index) :
    Table.gathered moreFragments calls =
      if calls = [] then none else some (index, calls.map fun call => call.arguments.getD "") := by
  induction calls using List.reverseRecOn with
  | nil => rfl
  | append_singleton calls call ih =>
      rw [Table.gathered_snoc, ih fun other member => same other (by simp [member])]
      have own : call.index = index := same call (by simp)
      by_cases first : calls = []
      · simp [first, moreFragments, own]
      · simp [first, moreFragments, own]

/-- The last piece of the index that says something. -/
def said (text : String) : Option String := if text = "" then none else some text

theorem said_noted (field : CallDelta → Option String) (calls : List CallDelta) (index : Nat) :
    (calls.foldl (note field) .empty).get? index =
      said (latest ((calls.filter (·.index = index)).map field)) := by
  induction calls using List.reverseRecOn with
  | nil => rfl
  | append_singleton calls call ih =>
      rw [List.foldl_append, List.foldl_cons, List.foldl_nil, note, List.filter_append]
      by_cases here : call.index = index
      · rw [List.filter_cons_of_pos (by simpa using here), List.filter_nil, List.map_append,
          List.map_singleton, latest_snoc]
        by_cases spoken : texted (field call)
        · have some_ : (field call).getD "" ≠ "" := by simpa [texted] using spoken
          simp [spoken, here, said, some_]
        · simp [spoken, ih]
      · rw [List.filter_cons_of_neg (by simpa using here), List.filter_nil, List.append_nil, ← ih]
        by_cases spoken : texted (field call) <;> simp [spoken, Ne.symm here]

theorem gathered_notes (calls : List CallDelta) (gathered : Gathered) :
    (calls.foldl Gathered.add gathered).callNames = calls.foldl (note (·.name)) gathered.callNames ∧
      (calls.foldl Gathered.add gathered).callIds =
        calls.foldl (note (·.id)) gathered.callIds := by
  induction calls generalizing gathered with
  | nil => exact ⟨rfl, rfl⟩
  | cons call rest ih => exact ih (gathered.add call)

/-- What a message with these calls comes to. -/
def streamOf (tools : List (FunctionTool Args)) : List CompletionCall → Streamed Args
  | [] => .noCall
  | [call] => parseCall tools call.name call.arguments (said call.id)
  | _ => .refused "expected a single tool call"

/-- However a message is split into deltas, its stream comes to the same. -/
theorem stream_split {deltas : List Delta} {message : LlmFlows.Completion}
    (splits : Splits deltas message) (tools : List (FunctionTool Args)) :
    stream tools ⟨deltas, .complete⟩ = streamOf tools message.calls := by
  have paired := splits.calls
  generalize gives : deltas.flatMap (·.calls) = calls at paired
  have rows : (gather deltas).fragments.rows.map some =
      (calls.map (·.index)).eraseDups.map fun index =>
        Table.gathered moreFragments (calls.filter (·.index = index)) := by
    rw [gather, gives, gathered_fragments]
    have absorbed := @Table.rows_absorbed _ _ _ (Prod.fst : Nat × List String → Nat) _
      CallDelta.index moreFragments (fun _ _ => rfl) calls
    exact absorbed
  unfold stream
  dsimp only
  generalize listed : (calls.map (·.index)).eraseDups = indices at paired rows
  generalize message.calls = whole at paired ⊢
  cases paired with
  | nil =>
      have empty : (gather deltas).fragments.rows = [] := by simpa using rows
      rw [empty]
      rfl
  | @cons index call others more split later =>
      have known : index ∈ calls.map (·.index) := by
        rw [← List.mem_eraseDups, listed]
        exact List.mem_cons_self
      cases later with
      | nil =>
          obtain ⟨piece, member, own⟩ := List.mem_map.mp known
          have some_ : calls.filter (·.index = index) ≠ [] :=
            List.ne_nil_of_mem (List.mem_filter.mpr ⟨member, by simpa using own⟩)
          have one : (gather deltas).fragments.rows =
              [(index, (calls.filter (·.index = index)).map fun call => call.arguments.getD "")] := by
            rw [List.map_singleton, fragments_of _ index
              (fun other inside => by simpa using (List.mem_filter.mp inside).2), if_neg some_] at rows
            have unwrapped := congrArg (List.filterMap id) rows
            simpa using unwrapped
          rw [one]
          dsimp only
          have named : (gather deltas).callNames.getD index "" = call.name := by
            rw [Dict.getD, gather, gives, (gathered_notes calls {}).1, said_noted, latest_carried split.name]
            unfold said
            split
            · rename_i blank
              exact blank.symm
            · rfl
          have identified : (gather deltas).callIds.get? index = said call.id := by
            rw [gather, gives, (gathered_notes calls {}).2, said_noted, latest_carried split.id]
          rw [named, identified, split.arguments]
          rfl
      | @cons second next others more split later =>
          have many : 2 ≤ (gather deltas).fragments.rows.length := by
            have lengths := congrArg List.length rows
            simp only [List.length_map, List.length_cons] at lengths
            omega
          match found : (gather deltas).fragments.rows with
          | [] => simp [found] at many
          | [_] => simp [found] at many
          | _ :: _ :: _ => rfl

end Splitting

end Choirworks.Core
