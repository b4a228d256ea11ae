import Choirworks.Dag.Phases
import Choirworks.Library.Templates
import Mathlib.Data.List.Forall2
import Mathlib.Data.List.TakeWhile

/-!
The output references of instructions. A placeholder holds a word of letters,
digits, `_`, `.` and `-`, but a plan may name its nodes otherwise; and
`add_assist` puts what an agent asks for in front of its own placeholders, so
that both are resolved together. A `Sourced` runtime keeps the origin of every
instruction beside it: who wrote its text, and which outputs were added to it.
-/

namespace Choirworks.Dag

open DagRuntime Templates

/-! ### Placeholders -/

/-- The ids that `REF_RE` admits. -/
def Referable (nodeId : String) : Prop :=
  nodeId ≠ "" ∧ ∀ char ∈ nodeId.toList, isRefChar char = true

instance (nodeId : String) : Decidable (Referable nodeId) :=
  inferInstanceAs (Decidable (_ ∧ _))

/-- No placeholder stands in the text. -/
def Unreferring (text : String) : Prop :=
  ∀ nodeId, Referable nodeId → ¬ (outputRef nodeId).toList <:+: text.toList

def refMatcher (text : List Char) : Option (String × Nat) :=
  (matchRef text).map fun (name, length) => (name, length - 1)

def refParts (text : List Char) : List (Piece String) := parts refMatcher 0 text

/-- What a reference stands for. -/
def outputOf (outputs : Dict String String) (nodeId : String) : List Char :=
  (outputs.getD nodeId "").toList

section Placeholders

theorem output_ref_list (nodeId : String) : (outputRef nodeId).toList =
    "\x7b\x7boutput:".toList ++ (nodeId.toList ++ "\x7d\x7d".toList) := by
  simp only [outputRef, String.toList_append, List.append_assoc]

theorem output_ref_length (nodeId : String) :
    (outputRef nodeId).toList.length = nodeId.toList.length + 11 := by
  rw [output_ref_list]
  simp only [List.length_append, show "\x7b\x7boutput:".toList.length = 9 from rfl,
    show "\x7d\x7d".toList.length = 2 from rfl]
  omega

/-- The word behind an opening, up to the first character that is none of its. -/
theorem word_ends {word : List Char} (chars : ∀ char ∈ word, isRefChar char = true)
    (rest : List Char) :
    (word ++ ("\x7d\x7d".toList ++ rest)).takeWhile isRefChar = word ∧
      (word ++ ("\x7d\x7d".toList ++ rest)).dropWhile isRefChar = "\x7d\x7d".toList ++ rest := by
  have stop : isRefChar '\x7d' = false := by decide
  have closing : "\x7d\x7d".toList ++ rest = '\x7d' :: '\x7d' :: rest := rfl
  rw [closing, List.takeWhile_append_of_pos chars, List.dropWhile_append_of_pos chars]
  simp [stop]

/-- `REF_RE` matches exactly at a placeholder of a referable id. -/
theorem match_ref_iff {text : List Char} {nodeId : String} {length : Nat} :
    matchRef text = some (nodeId, length) ↔ Referable nodeId ∧
      (outputRef nodeId).toList <+: text ∧ length = (outputRef nodeId).toList.length := by
  rw [output_ref_length]
  constructor
  · intro found
    unfold matchRef at found
    split at found
    · cases found
    · rename_i behind opened
      dsimp only at found
      split at found
      · cases found
      · rename_i some_name
        split at found
        · cases found
        · rename_i rest closed
          obtain ⟨rfl, rfl⟩ := Prod.mk.inj (Option.some.inj found)
          -- the name and what stands behind it make up what the opening has left
          have word := List.takeWhile_append_dropWhile (p := isRefChar) (l := behind)
          rw [Text.after_prefix_iff.mp closed] at word
          refine ⟨⟨?_, ?_⟩, ⟨rest, ?_⟩, ?_⟩
          · intro empty
            exact some_name (by simpa [String.ofList_eq_empty_iff] using empty)
          · intro char member
            rw [String.toList_ofList] at member
            exact List.mem_takeWhile_imp member
          · simp only [output_ref_list, String.toList_ofList, List.append_assoc]
            rw [word]
            exact (Text.after_prefix_iff.mp opened).symm
          · rw [String.toList_ofList]
  · rintro ⟨⟨some_name, chars⟩, ⟨rest, rfl⟩, rfl⟩
    -- read forwards, the scan takes the placeholder apart again
    have behind : Text.afterPrefix "\x7b\x7boutput:".toList ((outputRef nodeId).toList ++ rest) =
        some (nodeId.toList ++ ("\x7d\x7d".toList ++ rest)) := by
      rw [Text.after_prefix_iff, output_ref_list]
      simp only [List.append_assoc]
    obtain ⟨word, closing⟩ := word_ends chars rest
    have written : nodeId.toList ≠ [] := by simpa using some_name
    have closed : Text.afterPrefix "\x7d\x7d".toList ("\x7d\x7d".toList ++ rest) = some rest :=
      Text.after_prefix_iff.mpr rfl
    simp only [matchRef, behind, word, closing, closed]
    simp [written]

theorem ref_matcher_iff {text : List Char} {nodeId : String} {behind : Nat} :
    refMatcher text = some (nodeId, behind) ↔ Referable nodeId ∧
      (outputRef nodeId).toList <+: text ∧ behind + 1 = (outputRef nodeId).toList.length := by
  simp only [refMatcher, Option.map_eq_some_iff, Prod.exists, Prod.mk.injEq, match_ref_iff]
  constructor
  · rintro ⟨name, _, ⟨word, found, rfl⟩, rfl, rfl⟩
    have long := output_ref_length name
    exact ⟨word, found, by omega⟩
  · rintro ⟨word, found, long⟩
    refine ⟨_, _, ⟨word, found, rfl⟩, rfl, ?_⟩
    rw [← long, Nat.add_sub_cancel]

/-- Only `{` starts a placeholder. -/
theorem ref_starts {first : Char} (other : first ≠ '\x7b') (rest : List Char) :
    refMatcher (first :: rest) = none := by
  apply Option.eq_none_iff_forall_ne_some.mpr
  rintro ⟨nodeId, behind⟩ found
  obtain ⟨_, ⟨tail, same⟩, _⟩ := ref_matcher_iff.mp found
  rw [output_ref_list] at same
  exact other (List.cons.inj same).1.symm

theorem resolve_parts (instruction : String) (outputs : Dict String String) :
    (resolveInstruction instruction outputs).toList =
      render (outputOf outputs) (refParts instruction.toList) := by
  have matchers : (fun text => (matchRef text).map fun (name, length) =>
        ((outputs.getD name "").toList, length - 1)) =
      fun text => (refMatcher text).map fun (name, behind) => (outputOf outputs name, behind) := by
    funext text
    simp only [refMatcher, Option.map_map]
    rfl
  rw [resolveInstruction, String.toList_ofList]
  dsimp only
  rw [matchers, replace_matches_parts]
  rfl

theorem refParts_reference {nodeId : String} (word : Referable nodeId) (rest : List Char) :
    refParts ((outputRef nodeId).toList ++ rest) = .ref nodeId :: refParts rest := by
  cases spelled : (outputRef nodeId).toList with
  | nil =>
      have long := output_ref_length nodeId
      rw [spelled, List.length_nil] at long
      omega
  | cons first text =>
      apply parts_reference
      apply ref_matcher_iff.mpr
      refine ⟨word, ?_, ?_⟩
      · rw [spelled]
        exact List.prefix_append _ _
      · rw [spelled, List.length_cons]

/-- What a text refers to can be referred to. -/
theorem key_referable {text : List Char} {nodeId : String}
    (refers : nodeId ∈ keys (refParts text)) : Referable nodeId := by
  obtain ⟨_, _, _, found⟩ := key_matched 0 text refers
  exact (ref_matcher_iff.mp found).1

/-- An id can be referred to exactly if it is a word of the placeholders: any
other one is never looked up. -/
theorem resolves_iff (nodeId : String) :
    (∀ outputs, resolveInstruction (outputRef nodeId) outputs = outputs.getD nodeId "") ↔
      Referable nodeId := by
  constructor
  · intro resolves
    -- otherwise the output of the node would make no difference
    suffices read : nodeId ∈ keys (refParts (outputRef nodeId).toList) from key_referable read
    by_contra unread
    have same : render (outputOf (Dict.set .empty nodeId "x")) (refParts (outputRef nodeId).toList) =
        render (outputOf .empty) (refParts (outputRef nodeId).toList) := by
      apply render_congr
      intro key member
      have different : key ≠ nodeId := fun named => unread (named ▸ member)
      simp [outputOf, Dict.getD, different]
    rw [← resolve_parts, ← resolve_parts, resolves, resolves] at same
    simp [Dict.getD] at same
  · intro word outputs
    have reference := refParts_reference word []
    rw [List.append_nil] at reference
    apply String.toList_inj.mp
    rw [resolve_parts, reference]
    exact render_ref nodeId

/-- A text stays as it is, whatever the outputs are, exactly if no placeholder
stands in it. -/
theorem unreferring_iff (text : String) :
    Unreferring text ↔ keys (refParts text.toList) = [] := by
  rw [refParts, keyless_iff]
  constructor
  · intro free behind ending _
    apply Option.eq_none_iff_forall_ne_some.mpr
    rintro ⟨nodeId, count⟩ found
    obtain ⟨word, start, _⟩ := ref_matcher_iff.mp found
    exact free nodeId word (List.infix_iff_prefix_suffix.mpr ⟨behind, start, ending⟩)
  · intro none nodeId word inside
    obtain ⟨behind, start, ending⟩ := List.infix_iff_prefix_suffix.mp inside
    have long := output_ref_length nodeId
    have some_behind : behind ≠ [] := by
      rintro rfl
      rw [List.prefix_nil.mp start, List.length_nil] at long
      omega
    have found : refMatcher behind = some (nodeId, nodeId.toList.length + 10) :=
      ref_matcher_iff.mpr ⟨word, start, by omega⟩
    rw [none behind ending some_behind] at found
    cases found

end Placeholders

/-! ### Messages -/

/-- What `add_assist` appends to an instruction, with its placeholder. -/
def handedText (nodeId : String) : String :=
  "\n\n[" ++ nodeId ++ " output]\n" ++ outputRef nodeId

/-- An output that is handed over, under its heading. -/
def handedParts (nodeId : String) : List (Piece String) :=
  literal ("\n\n[" ++ nodeId ++ " output]\n").toList ++ [.ref nodeId]

inductive Author where
  | planner
  | agent
deriving DecidableEq

/-- Where the instruction of a node comes from: its text and the author of it,
and the nodes whose outputs were handed to it. -/
structure Origin where
  nodeId : String
  author : Author
  text : String
  handed : List String
deriving DecidableEq

namespace Origin

/-- The instruction as the runtime writes it down. -/
def instruction (origin : Origin) : List Char :=
  origin.text.toList ++ origin.handed.flatMap fun nodeId => (handedText nodeId).toList

/-- What the instruction is to say: only the planner writes placeholders. -/
def parts (origin : Origin) : List (Piece String) :=
  (match origin.author with
    | .planner => refParts origin.text.toList
    | .agent => literal origin.text.toList) ++ origin.handed.flatMap handedParts

/-- The message for a node with these dependencies: its instruction, and behind
it the outputs of the dependencies that have one. -/
def message (origin : Origin) (deps : List String) (outputs : Dict String String) : String :=
  let answered := deps.filter fun dep => dep ∈ outputs.keys
  String.ofList (render (outputOf outputs) (origin.parts ++ answered.flatMap handedParts))

/-- The node has an instruction of this origin, in which only the planner and
`add_assist` refer to outputs. -/
structure Of (origin : Origin) (node : PlanNode) : Prop where
  named : node.id = origin.nodeId
  written : node.instruction.toList = origin.instruction
  words : ∀ nodeId ∈ origin.handed, Referable nodeId
  free : origin.author = .agent → Unreferring origin.text

end Origin

section Messages

theorem output_ref_line {nodeId : String} (word : Referable nodeId) :
    '\n' ∉ (outputRef nodeId).toList := by
  rw [output_ref_list, List.mem_append, List.mem_append]
  rintro (opening | inside | closing)
  · revert opening
    decide
  · exact absurd (word.2 _ inside) (by decide)
  · revert closing
    decide

/-- A placeholder stands in one line. -/
theorem ref_stops : Stops refMatcher '\n' where
  inside := by
    intro text nodeId behind found
    obtain ⟨_, start, long⟩ := ref_matcher_iff.mp found
    have short := start.length_le
    omega
  stops := by
    intro text rest
    ext ⟨nodeId, behind⟩
    simp only [ref_matcher_iff]
    apply and_congr_right
    intro word
    rw [prefix_seam (output_ref_line word)]

theorem refParts_append (text rest : List Char) :
    refParts (text ++ '\n' :: rest) = refParts text ++ refParts ('\n' :: rest) :=
  parts_append ref_stops text rest 0 (Nat.zero_le _)

theorem refParts_handed {nodeId : String} (word : Referable nodeId) (rest : List Char) :
    refParts ((handedText nodeId).toList ++ rest) = handedParts nodeId ++ refParts rest := by
  have heading : ∀ char ∈ ("\n\n[" ++ nodeId ++ " output]\n").toList, char ≠ '\x7b' := by
    simp only [String.toList_append, List.mem_append]
    rintro char ((opening | inside) | closing) rfl
    · revert opening
      decide
    · exact absurd (word.2 _ inside) (by decide)
    · revert closing
      decide
  rw [handedText, String.toList_append, List.append_assoc, refParts,
    parts_plain _ fun char member => ref_starts (heading char member)]
  have reference := refParts_reference word rest
  rw [refParts] at reference
  rw [reference, handedParts, List.append_assoc]
  rfl

/-- The outputs handed to a node stand behind its own text. -/
theorem refParts_instruction (text : List Char) {handed : List String}
    (words : ∀ nodeId ∈ handed, Referable nodeId) :
    refParts (text ++ handed.flatMap fun nodeId => (handedText nodeId).toList) =
      refParts text ++ handed.flatMap handedParts := by
  have behind : refParts (handed.flatMap fun nodeId => (handedText nodeId).toList) =
      handed.flatMap handedParts := by
    induction handed with
    | nil => rfl
    | cons nodeId rest ih =>
        rw [List.flatMap_cons, List.flatMap_cons, refParts_handed (words nodeId List.mem_cons_self),
          ih fun other later => words other (List.mem_cons_of_mem _ later)]
  rw [← behind]
  cases handed with
  | nil => simp [refParts, parts]
  | cons nodeId rest =>
      -- what is handed over starts a line, and no placeholder reaches into it
      have opening : (nodeId :: rest).flatMap (fun nodeId => (handedText nodeId).toList) =
          '\n' :: '\n' :: '[' :: ((nodeId ++ " output]\n" ++ outputRef nodeId).toList ++
            rest.flatMap fun nodeId => (handedText nodeId).toList) := by
        simp [handedText]
      rw [opening, refParts_append]

theorem join_list (separator first : String) (others : List String) :
    (Text.join separator (first :: others)).toList =
      first.toList ++ others.flatMap fun text => separator.toList ++ text.toList := by
  induction others generalizing first with
  | nil => simp [Text.join]
  | cons next others ih =>
      have later := ih next
      simp only [Text.join] at later ⊢
      simp only [String.intercalate_cons_cons, String.toList_append, later, List.flatMap_cons,
        List.append_assoc]

theorem render_handed (outputs : Dict String String) (nodeId : String) :
    render (outputOf outputs) (handedParts nodeId) =
      "\n\n".toList ++ ("[" ++ nodeId ++ " output]\n" ++ outputs.getD nodeId "").toList := by
  rw [handedParts, render_append, render_literal, render_ref]
  simp [outputOf]

theorem dep_blocks (outputs : Dict String String) (deps : List String) :
    ((deps.filterMap fun dep => (outputs.get? dep).map fun output =>
        "[" ++ dep ++ " output]\n" ++ output).flatMap
          fun text => "\n\n".toList ++ text.toList) =
      render (outputOf outputs)
        ((deps.filter fun dep => dep ∈ outputs.keys).flatMap handedParts) := by
  induction deps with
  | nil => rfl
  | cons dep rest ih =>
      cases found : outputs.get? dep with
      | none =>
          have unanswered : dep ∉ outputs.keys := by simp [Dict.mem_keys_iff_get?, found]
          rw [List.filter_cons_of_neg (by simpa using unanswered), List.filterMap_cons, found]
          exact ih
      | some output =>
          have answered : dep ∈ outputs.keys := by simp [Dict.mem_keys_iff_get?, found]
          have value : outputs.getD dep "" = output := by simp [Dict.getD, found]
          rw [List.filter_cons_of_pos (by simpa using answered), List.filterMap_cons, found,
            List.flatMap_cons, render_append, render_handed, value, ← ih]
          rfl

/-- A message is put together from the parts of the instruction and from the
outputs of the dependencies, none of which is read again. -/
theorem build_node_message_parts (runtime : DagRuntime) (node : PlanNode) :
    (runtime.buildNodeMessage node).toList =
      render (outputOf runtime.nodeOutputs) (refParts node.instruction.toList ++
        (node.deps.filter fun dep => dep ∈ runtime.nodeOutputs.keys).flatMap handedParts) := by
  rw [buildNodeMessage, join_list, resolve_parts, dep_blocks, ← render_append]

/-- The message is the one that is meant. -/
theorem Origin.Of.message {origin : Origin} {node : PlanNode} (traced : origin.Of node)
    (runtime : DagRuntime) :
    runtime.buildNodeMessage node = origin.message node.deps runtime.nodeOutputs := by
  -- the text of an agent is read as letters, for want of a placeholder
  have own : refParts origin.text.toList =
      match origin.author with
      | .planner => refParts origin.text.toList
      | .agent => literal origin.text.toList := by
    cases written : origin.author with
    | planner => rfl
    | agent => exact (parts_literal_iff _).mpr ((unreferring_iff _).mp (traced.free written))
  apply String.toList_inj.mp
  rw [build_node_message_parts, traced.written, Origin.instruction,
    refParts_instruction _ traced.words, Origin.message, String.toList_ofList, Origin.parts, ← own]

/-- Before any output is there, a placeholder in the text of an agent would leave
a gap. -/
theorem Origin.free_of_message {origin : Origin} {node : PlanNode} {runtime : DagRuntime}
    (asked : origin.author = .agent) (written : node.instruction.toList = origin.instruction)
    (words : ∀ nodeId ∈ origin.handed, Referable nodeId)
    (same : runtime.buildNodeMessage node = origin.message node.deps runtime.nodeOutputs)
    (nothing : runtime.nodeOutputs = .empty) : Unreferring origin.text := by
  have message := congrArg String.toList same
  rw [build_node_message_parts, written, Origin.instruction, refParts_instruction _ words,
    Origin.message, String.toList_ofList, Origin.parts, asked, nothing] at message
  simp only [List.append_assoc, render_append, render_literal] at message
  rw [unreferring_iff]
  exact (verbatim_iff _).mp (List.append_cancel_right message)

end Messages

/-! ### Runs with origins -/

/-- The output of an assist is handed to the node that `add_assist` rewires. -/
def handTo (parentId assist : String) : List Origin → List Origin
  | [] => []
  | origin :: rest =>
      if origin.nodeId = parentId then { origin with handed := origin.handed ++ [assist] } :: rest
      else origin :: handTo parentId assist rest

/-- A runtime, and the origins of the instructions of its plan in order. -/
structure Sourced where
  runtime : DagRuntime
  origins : List Origin

namespace Sourced

def start (agents : Dict String AgentInfo) (userTask : String) : Sourced :=
  ⟨.start agents userTask, []⟩

def originsAfter (sourced : Sourced) : Act → List Origin
  | .applyPlan plan => plan.nodes.map fun node => ⟨node.id, .planner, node.instruction, []⟩
  | .addAssist parentId _ instruction =>
      let assist := sourced.runtime.nextAssist parentId
      handTo parentId assist sourced.origins ++ [⟨assist, .agent, instruction, [parentId]⟩]
  | _ => sourced.origins

def perform (sourced : Sourced) (act : Act) : Option Sourced :=
  (sourced.runtime.perform act).map fun next => ⟨next, sourced.originsAfter act⟩

/-- Every id of the plan can be referred to. Whatever the outputs are, the
message for a node is the one its origin means: text of an agent, in it or in an
output, comes out as it went in. -/
structure Delivers (sourced : Sourced) : Prop where
  resolves : ∀ nodeId ∈ sourced.runtime.plan.ids, ∀ outputs,
    resolveInstruction (outputRef nodeId) outputs = outputs.getD nodeId ""
  verbatim : List.Forall₂
    (fun node origin => ∀ outputs,
      { sourced.runtime with nodeOutputs := outputs }.buildNodeMessage node =
        origin.message node.deps outputs)
    sourced.runtime.plan.nodes sourced.origins

/-- A new plan names its nodes by words, and no placeholder stands in what an
agent asks for. -/
def Literal (sourced : Sourced) : Act → Prop
  | .applyPlan plan =>
      validatePlan plan maxNodes = .ok () → ∀ nodeId ∈ plan.ids, Referable nodeId
  | .addAssist parentId _ instruction =>
      sourced.runtime.inPlan parentId = true → Unreferring instruction
  | _ => True

/-- What keeps while all acts are literal. -/
structure Traced (sourced : Sourced) : Prop where
  words : ∀ nodeId ∈ sourced.runtime.plan.ids, Referable nodeId
  origins : List.Forall₂ (fun node (origin : Origin) => origin.Of node)
    sourced.runtime.plan.nodes sourced.origins

end Sourced

section Traced

variable {sourced next : Sourced}

/-- The origins do not interfere with the runtime. -/
theorem sourced_run (acts : List Act) (sourced : Sourced) :
    (Runs.run Sourced.perform sourced acts).map Sourced.runtime =
      Runs.run DagRuntime.perform sourced.runtime acts := by
  apply Runs.run_projected
  intro state act
  simp [Sourced.perform, Function.comp_def]

theorem assist_referable {parentId : String} (word : Referable parentId) (sequence : Nat) :
    Referable (assistId parentId sequence) := by
  have digits : ∀ char ∈ (toString sequence).toList, isRefChar char = true := by
    intro char member
    have digit := Text.digits_of_nat sequence char (List.mem_reverse.mpr member)
    simp [isRefChar, Char.isAlphanum, digit]
  constructor
  · intro empty
    have lengths := congrArg String.length empty
    have suffix : "-assist".length = 7 := rfl
    simp only [assistId, String.length_append, String.length_empty] at lengths
    omega
  · intro char member
    simp only [assistId, String.toList_append, List.mem_append] at member
    rcases member with (inside | middle) | number
    · exact word.2 char inside
    · have letters : "-assist".toList.all isRefChar = true := by decide
      exact List.all_eq_true.mp letters char middle
    · exact digits char number

theorem adopt_node_instruction (runtime : DagRuntime) (newIds : List String) (node : PlanNode) :
    (runtime.adoptNode newIds node).instruction = node.instruction := by
  unfold adoptNode
  split <;> rfl

theorem Sourced.Traced.delivers (traced : sourced.Traced) : sourced.Delivers where
  resolves := fun nodeId planned => (resolves_iff nodeId).mpr (traced.words nodeId planned)
  verbatim := traced.origins.imp fun _ _ origin outputs =>
    origin.message { sourced.runtime with nodeOutputs := outputs }

theorem start_traced (agents : Dict String AgentInfo) (userTask : String) :
    (Sourced.start agents userTask).Traced where
  words := by
    rintro nodeId ⟨⟩
  origins := .nil

theorem planned_traced {plan : DagPlan} {runtime : DagRuntime}
    (words : ∀ nodeId ∈ plan.ids, Referable nodeId)
    (applied : sourced.runtime.applyPlan plan = .ok runtime) :
    Sourced.Traced ⟨runtime, sourced.originsAfter (.applyPlan plan)⟩ := by
  have ids := apply_plan_ids applied
  obtain ⟨_, rfl⟩ := apply_plan_ok applied
  constructor
  case words =>
    intro nodeId planned
    exact words nodeId (ids ▸ planned)
  case origins =>
    refine List.forall₂_map_left_iff.mpr (List.forall₂_map_right_iff.mpr ?_)
    apply List.forall₂_same.mpr
    intro node member
    constructor
    case named => exact adopt_node_id _ _ node
    case written => simp [Origin.instruction, adopt_node_instruction]
    case words =>
      rintro nodeId ⟨⟩
    case free =>
      rintro ⟨⟩

/-- Wiring the parent appends to its instruction what its origin takes down. -/
theorem wire_parent_origins {parentId assist : String} (word : Referable assist)
    {nodes : List PlanNode} {origins : List Origin}
    (traced : List.Forall₂ (fun node (origin : Origin) => origin.Of node) nodes origins) :
    List.Forall₂ (fun node (origin : Origin) => origin.Of node)
      (wireParent parentId assist nodes) (handTo parentId assist origins) := by
  induction traced with
  | nil => exact .nil
  | @cons node origin nodes origins here later ih =>
      have named := here.named
      rw [wireParent, handTo, ← named]
      -- the same node is rewired and gets the entry, as both go by its id
      split
      · refine .cons ?_ later
        constructor
        case named => rfl
        case written =>
          simp only [Origin.instruction, List.flatMap_append, String.toList_append, here.written,
            handedText, List.append_assoc, List.flatMap_cons, List.flatMap_nil, List.append_nil]
        case words =>
          intro nodeId handed
          rcases List.mem_append.mp handed with old | added
          · exact here.words nodeId old
          · exact List.mem_singleton.mp added ▸ word
        case free => exact here.free
      · exact .cons here ih

theorem Sourced.Traced.add_assist (traced : sourced.Traced) {parentId : String}
    (agentName : String) {instruction : String} (planned : sourced.runtime.inPlan parentId = true)
    (free : Unreferring instruction) :
    Sourced.Traced ⟨sourced.runtime.addAssist parentId agentName instruction,
      sourced.originsAfter (.addAssist parentId agentName instruction)⟩ := by
  have parent := traced.words parentId (inPlan_iff.mp planned)
  have assist := assist_referable parent (sourced.runtime.assistSeq + 1)
  constructor
  case words =>
    intro nodeId member
    rw [add_assist_ids] at member
    rcases List.mem_append.mp member with old | added
    · exact traced.words nodeId old
    · exact List.mem_singleton.mp added ▸ assist
  case origins =>
    refine List.rel_append (wire_parent_origins assist traced.origins) (.cons ?_ .nil)
    constructor
    case named => rfl
    case written =>
      simp only [Origin.instruction, String.toList_append, handedText, List.append_assoc,
        List.flatMap_cons, List.flatMap_nil, List.append_nil]
    case words =>
      intro nodeId handed
      exact List.mem_singleton.mp handed ▸ parent
    case free => exact fun _ => free

theorem apply_plan_validated {runtime moment : DagRuntime} {plan : DagPlan}
    (applied : runtime.applyPlan plan = .ok moment) : validatePlan plan maxNodes = .ok () := by
  unfold applyPlan at applied
  split at applied
  · cases applied
  · assumption

theorem apply_plan_accepted (runtime : DagRuntime) {plan : DagPlan}
    (valid : validatePlan plan maxNodes = .ok ()) : ∃ moment, runtime.applyPlan plan = .ok moment := by
  unfold applyPlan
  rw [valid]
  exact ⟨_, rfl⟩

/-- Only a new plan and an assist touch the instructions. -/
theorem Sourced.Traced.performed (traced : sourced.Traced) {act : Act}
    (plain : sourced.Literal act) (performed : sourced.perform act = some next) : next.Traced := by
  obtain ⟨moment, acted, rfl⟩ := Option.map_eq_some_iff.mp performed
  cases act with
  | applyPlan plan =>
      have applied := to_option_some acted
      exact planned_traced (plain (apply_plan_validated applied)) applied
  | addAssist parentId agentName instruction =>
      simp only [DagRuntime.perform] at acted
      split at acted
      · rename_i planned
        cases acted
        exact traced.add_assist agentName planned (plain planned)
      · cases acted
  | dispatch nodeId =>
      obtain ⟨node, rfl⟩ := dispatch_node_ok (to_option_some acted)
      exact ⟨traced.words, traced.origins⟩
  | finish nodeId result =>
      cases acted
      rw [finish_task_frame]
      exact ⟨traced.words, traced.origins⟩
  | collect nodeId task =>
      cases acted
      cases task <;> exact ⟨traced.words, traced.origins⟩
  | skip record | route record =>
      obtain ⟨rest, _, rfl⟩ := take_record_some acted
      exact ⟨traced.words, traced.origins⟩
  | judge nodeId =>
      cases acted
      exact ⟨traced.words, traced.origins⟩

theorem last_related {Left Right : Type} {relation : Left → Right → Prop} {lefts : List Left}
    {rights : List Right} {left : Left} {right : Right}
    (related : List.Forall₂ relation (lefts ++ [left]) (rights ++ [right])) :
    relation left right := by
  have reversed := List.forall₂_reverse_iff.mpr related
  rw [List.reverse_append, List.reverse_append] at reversed
  exact (List.forall₂_cons.mp reversed).1

theorem asked_free {parentId agentName instruction : String}
    (planned : sourced.runtime.inPlan parentId = true)
    (delivers : Sourced.Delivers ⟨sourced.runtime.addAssist parentId agentName instruction,
      sourced.originsAfter (.addAssist parentId agentName instruction)⟩) :
    Unreferring instruction := by
  have parent : Referable parentId := by
    apply (resolves_iff parentId).mp
    apply delivers.resolves
    rw [add_assist_ids]
    exact List.mem_append_left _ (inPlan_iff.mp planned)
  refine Origin.free_of_message rfl ?_ ?_ (last_related delivers.verbatim .empty) rfl
  · simp only [Origin.instruction, handedText, String.toList_append, List.append_assoc,
      List.flatMap_cons, List.flatMap_nil, List.append_nil]
  · intro nodeId handed
    exact List.mem_singleton.mp handed ▸ parent

end Traced

/-! ### What the helper reads -/

section Helper

theorem Unreferring.piece {text piece : String} (free : Unreferring text)
    (inside : piece.toList <:+: text.toList) : Unreferring piece :=
  fun nodeId word placed => free nodeId word (placed.trans inside)

/-- What an agent asks for stands in its output. -/
theorem mention_quoted {output : String} {agents : List String} {mention : String × String}
    (parsed : mention ∈ Helper.parseMentions output agents) :
    mention.2.toList <:+: output.toList := by
  obtain ⟨part, member, made⟩ := List.mem_filterMap.mp parsed
  obtain ⟨first, others, pieces, _, inside⟩ := Text.split_pieces '@' output.toList
  rw [pieces] at member
  have within := inside part member
  unfold Helper.parseMention at made
  split at made
  · cases made
  · rename_i before after found
    dsimp only at made
    split at made
    · cases made
      rw [String.toList_ofList]
      exact (Text.strip_within after).trans ((Text.cut_behind found).isInfix.trans within)
    · cases made

theorem assist_quoted (runtime : DagRuntime) (nodeId : String) :
    ∀ mention ∈ Helper.assists runtime nodeId,
      mention.2.toList <:+: (runtime.nodeOutputs.getD nodeId "").toList := by
  intro mention member
  unfold Helper.assists at member
  split at member
  · cases member
  · dsimp only at member
    split at member
    · exact mention_quoted (candidates_subset runtime _ nodeId _ [] member)
    · cases member

/-- All assists of an output without a placeholder are literal. -/
theorem assists_literal (sourced : Sourced) (nodeId : String)
    (free : Unreferring (sourced.runtime.nodeOutputs.getD nodeId "")) :
    Runs.Guarded Sourced.perform Sourced.Literal sourced (sourced.runtime.assistActs nodeId) := by
  have every : Runs.Guarded Sourced.perform (fun _ _ => True) sourced
      (sourced.runtime.assistActs nodeId) :=
    Runs.guarded_of_always (fun _ _ => trivial) _ _
  refine every.mono ?_
  intro reached act member _
  obtain ⟨mention, asked, rfl⟩ := List.mem_map.mp member
  exact fun _ => free.piece (assist_quoted sourced.runtime nodeId mention asked)

/-- A turn of the helper behind such an output keeps all messages as they are meant. -/
theorem helper_traced {sourced : Sourced} (traced : sourced.Traced) {nodeId : String}
    (idle : nodeId ∉ sourced.runtime.runningTasks.keys)
    (free : Unreferring (sourced.runtime.nodeOutputs.getD nodeId "")) :
    ∃ origins,
      Runs.run Sourced.perform sourced (.judge nodeId :: sourced.runtime.assistActs nodeId) =
        some ⟨Helper.runImpl sourced.runtime nodeId, origins⟩ ∧
      Sourced.Traced ⟨Helper.runImpl sourced.runtime nodeId, origins⟩ := by
  have steps := (judge_steps nodeId idle).1
  rw [← sourced_run] at steps
  obtain ⟨⟨runtime, origins⟩, ran, rfl⟩ := Option.map_eq_some_iff.mp steps
  refine ⟨origins, ran, ?_⟩
  have guarded : Runs.Guarded Sourced.perform Sourced.Literal sourced
      (.judge nodeId :: sourced.runtime.assistActs nodeId) :=
    ⟨trivial, assists_literal sourced nodeId free⟩
  exact Runs.run_invariant Sourced.Traced
    (fun _ _ _ before plain performed => before.performed plain performed) _ sourced _ traced
    guarded ran

end Helper

/-- An id can be referred to exactly if it is a word of the placeholders. In a
run, all references resolve and all text of agents is delivered as it is,
exactly as long as plans name their nodes by such words and agents write no
placeholder into what they ask for. -/
theorem references_resolve_iff (nodeId : String) (agents : Dict String AgentInfo)
    (userTask : String) (acts : List Act) :
    ((∀ outputs, resolveInstruction (outputRef nodeId) outputs = outputs.getD nodeId "") ↔
      Referable nodeId) ∧
    (Runs.Guarded Sourced.perform Sourced.Literal (.start agents userTask) acts ↔
      ∀ front, front <+: acts →
        ∀ reached, Runs.run Sourced.perform (.start agents userTask) front = some reached →
          reached.Delivers) := by
  refine ⟨resolves_iff nodeId, ?_⟩
  refine Runs.guarded_iff_always Sourced.Traced Sourced.Delivers (fun _ traced => traced.delivers)
    (fun _ _ _ traced plain performed => traced.performed plain performed) ?_ acts _
    (start_traced agents userTask)
  -- conversely, the state behind an act shows what the act has brought
  intro sourced act traced reached
  cases act with
  | applyPlan plan =>
      intro valid nodeId planned
      obtain ⟨runtime, applied⟩ := apply_plan_accepted sourced.runtime valid
      have delivers := reached _ (by rw [Sourced.perform, DagRuntime.perform, applied]; rfl)
      apply (resolves_iff nodeId).mp
      apply delivers.resolves
      rw [apply_plan_ids applied]
      exact planned
  | addAssist parentId agentName instruction =>
      intro planned
      have added : sourced.perform (.addAssist parentId agentName instruction) =
          some ⟨sourced.runtime.addAssist parentId agentName instruction,
            sourced.originsAfter (.addAssist parentId agentName instruction)⟩ := by
        rw [Sourced.perform, DagRuntime.perform, if_pos planned]
        rfl
      exact asked_free planned (reached _ added)
  | _ => trivial

section Leaked

def leakAgents : Dict String AgentInfo :=
  Dict.set (Dict.set .empty "writer" ⟨"writer", "", ""⟩) "helper" ⟨"helper", "", ""⟩

def leakPlan : DagPlan :=
  ⟨[⟨"a", "a", "writer", "write", [], none⟩, ⟨"secret", "b", "writer", "write", [], none⟩]⟩

/-- The writer asks for help with a placeholder in its request. -/
def leakOutput : String := "@helper sum up \x7b\x7boutput:secret\x7d\x7d"

def leakRun : List Act :=
  [.applyPlan leakPlan, .dispatch "a", .dispatch "secret", .finish "secret" (.ok "top secret"),
    .collect "secret" (.finished "top secret"), .route ⟨"secret", "top secret", none⟩,
    .judge "secret", .finish "a" (.ok leakOutput), .collect "a" (.finished leakOutput),
    .route ⟨"a", leakOutput, none⟩, .judge "a",
    .addAssist "a" "helper" "sum up \x7b\x7boutput:secret\x7d\x7d"]

/-- An id with a blank is accepted and never looked up; and a request of an agent
gets the output of a node it has nothing to do with. -/
theorem output_leaked :
    (∃ plan, validatePlan plan maxNodes = .ok () ∧
      ∃ nodeId ∈ plan.ids, ¬ ∀ outputs,
        resolveInstruction (outputRef nodeId) outputs = outputs.getD nodeId "") ∧
    ("helper", "sum up \x7b\x7boutput:secret\x7d\x7d") ∈
      Helper.parseMentions leakOutput leakAgents.keys ∧
    ¬ ∀ (agents : Dict String AgentInfo) (userTask : String) (acts : List Act) (reached : Sourced),
      Runs.run Sourced.perform (.start agents userTask) acts = some reached → reached.Delivers := by
  refine ⟨⟨⟨[⟨"step 1", "s", "writer", "write", [], none⟩]⟩, by decide +kernel, "step 1",
    by decide, ?_⟩, by decide +kernel, ?_⟩
  · intro resolves
    have unread : resolveInstruction (outputRef "step 1") (Dict.set .empty "step 1" "done") ≠
        (Dict.set .empty "step 1" "done" : Dict String String).getD "step 1" "" := by
      decide +kernel
    exact unread (resolves _)
  · intro claim
    have ends : Runs.Ends Sourced.perform (.start leakAgents "task") leakRun fun reached =>
        ∃ pair ∈ reached.runtime.plan.nodes.zip reached.origins,
          reached.runtime.buildNodeMessage pair.1 ≠
            pair.2.message pair.1.deps reached.runtime.nodeOutputs := by
      decide +kernel
    obtain ⟨reached, ran, ⟨node, origin⟩, paired, different⟩ := ends
    have delivers := claim leakAgents "task" leakRun reached ran
    exact different (List.forall₂_zip delivers.verbatim paired reached.runtime.nodeOutputs)

end Leaked

end Choirworks.Dag
