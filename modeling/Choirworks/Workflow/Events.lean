import Choirworks.Library.Json

/-!
The events that flow through a workflow: the three A2A event types with the
metadata the workflow reads, the text they present and the paths of the nodes
they come from. A path is a list of segments, one `name@run_id` per level.
-/

namespace Choirworks.Workflow

inductive TaskState where
  | unspecified | submitted | working | inputRequired | authRequired
  | completed | failed | canceled | rejected
deriving DecidableEq

/-- Task states that finish the current interaction, pauses included. -/
def taskResponseBoundaryStates : List TaskState :=
  [.inputRequired, .authRequired, .completed, .failed, .canceled, .rejected]

/-- States whose content is provisional. -/
def nonFinalTaskStates : List TaskState :=
  [.unspecified, .submitted, .working, .inputRequired, .authRequired]

structure Part where
  text : String
  thought : Bool
  /-- The `type` of the part's metadata. -/
  kind : Option String
deriving DecidableEq

def Part.isFunctionCall (part : Part) : Bool := part.kind = some "function_call"

def Part.isFunctionResponse (part : Part) : Bool := part.kind = some "function_response"

/-- `bool | int | str`; Python compares a boolean as the number it is. -/
inductive RouteValue where
  | bool (value : Bool)
  | int (value : Int)
  | str (value : String)
deriving DecidableEq

/-- The value up to `==`. -/
def RouteValue.norm : RouteValue → RouteValue
  | .bool value => .int (if value then 1 else 0)
  | other => other

structure NodeInfo where
  path : String
  outputFor : Option (List String)
  messageAsOutput : Option Bool
deriving DecidableEq

/-- Metadata of an event. An output that is JSON `null` reads as none. -/
structure EventMeta where
  author : String
  output : Option Json
  nodeInfo : NodeInfo
  branch : Option String
  isolationScope : Option String
  route : Option RouteValue

inductive A2AEvent where
  | status (state : TaskState) (parts : List Part) (metadata : EventMeta)
  | artifact (parts : List Part) (append lastChunk : Bool) (metadata : EventMeta)
  | message (parts : List Part) (metadata : EventMeta)

namespace A2AEvent

def metadata : A2AEvent → EventMeta
  | .status _ _ found | .artifact _ _ _ found | .message _ found => found

def isFinalArtifact : A2AEvent → Bool
  | .artifact _ append lastChunk _ => !append && lastChunk
  | _ => false

def isPartial : A2AEvent → Bool
  | .artifact _ append lastChunk _ => !(!append && lastChunk)
  | _ => false

/-- The parts that carry presentable content: messages, final artifacts and the
messages of boundary states. -/
def contentParts : A2AEvent → List Part
  | .message parts _ => parts
  | .artifact parts append lastChunk _ => if !append && lastChunk then parts else []
  | .status state parts _ => if state ∈ taskResponseBoundaryStates then parts else []

/-- `extract_text` without thoughts. -/
def extractText (event : A2AEvent) : String :=
  Text.join "" <| (event.contentParts.filter fun part =>
    !part.isFunctionCall && !part.isFunctionResponse && !part.thought).map (·.text)

def output (event : A2AEvent) : Option Json :=
  match event.metadata.output with
  | some .null | none => none
  | some value => some value

/-- The text that stands for an output, if the message is one; empty otherwise. -/
def outputText (event : A2AEvent) : String :=
  if event.metadata.nodeInfo.messageAsOutput = some true then event.extractText else ""

end A2AEvent

structure NodePath where
  segments : List String
deriving DecidableEq

namespace NodePath

def fromString (text : String) : NodePath :=
  if text = "" then ⟨[]⟩ else ⟨(Text.split '/' text.toList).map String.ofList⟩

def toText (path : NodePath) : String := Text.join "/" path.segments

/-- The last segment as it is, with its run id. -/
def leafSegment (path : NodePath) : String := path.segments.getLastD ""

/-- What stands behind the last `@` of the last segment. -/
def runId (path : NodePath) : Option String :=
  (Text.cut '@' path.leafSegment.toList.reverse).map fun (behind, _) =>
    String.ofList behind.reverse

def append (path : NodePath) (segment : String) : NodePath := ⟨path.segments ++ [segment]⟩

def isDescendantOf (path ancestor : NodePath) : Bool :=
  ancestor.segments.length < path.segments.length &&
    path.segments.take ancestor.segments.length = ancestor.segments

def isDirectChildOf (path parent : NodePath) : Bool :=
  path.segments.length = parent.segments.length + 1 && path.segments.dropLast = parent.segments

/-- The first level of the way from `path` to its descendant; `none` where
`get_direct_child` raises. -/
def directChild? (path descendant : NodePath) : Option NodePath :=
  if descendant.isDescendantOf path then
    some ⟨descendant.segments.take (path.segments.length + 1)⟩
  else none

theorem direct_child_append {path descendant child : NodePath}
    (found : path.directChild? descendant = some child) :
    child = path.append child.leafSegment := by
  unfold directChild? at found
  split at found
  · rename_i below
    simp only [isDescendantOf, Bool.and_eq_true, decide_eq_true_eq] at below
    obtain ⟨longer, same⟩ := below
    cases found
    obtain ⟨front, next, rest, split, short⟩ :
        ∃ front next rest, descendant.segments = front ++ next :: rest ∧
          front.length = path.segments.length :=
      ⟨_, _, _, (List.take_append_drop _ _).symm.trans
        (by rw [List.drop_eq_getElem_cons longer]), by simp; omega⟩
    rw [split, List.take_left' short] at same
    subst same
    simp [append, leafSegment, split, List.take_append, List.take_of_length_le]
  · cases found

/-- The direct child on the way is the descendant itself if the descendant is
one level down. -/
theorem direct_child_self {path descendant child : NodePath}
    (found : path.directChild? descendant = some child) :
    descendant.isDirectChildOf path = true ↔ descendant = child := by
  unfold directChild? at found
  split at found
  · rename_i below
    simp only [isDescendantOf, Bool.and_eq_true, decide_eq_true_eq] at below
    obtain ⟨longer, same⟩ := below
    cases found
    simp only [isDirectChildOf, Bool.and_eq_true, decide_eq_true_eq]
    constructor
    · rintro ⟨exact, _⟩
      rw [← exact, List.take_length]
    · intro itself
      have exact : descendant.segments.length = path.segments.length + 1 := by
        have lengths := congrArg (·.segments.length) itself
        simp only [List.length_take] at lengths
        omega
      refine ⟨exact, ?_⟩
      rw [List.dropLast_eq_take, exact]
      exact same
  · cases found

end NodePath

end Choirworks.Workflow
