import Choirworks.Library.Firsts
import Choirworks.Workflow.Events

/-!
The two scans that a replay makes of the recorded events: the states of the
nodes under a path, and the order in which its direct children ended. Both
accept an event of a deeper node that names the child in its `output_for`;
the states take it only with an output, the order also with a route alone.
-/

namespace Choirworks.Workflow

/-- The state of one node run, as far as the events tell it. -/
structure ChildScanState where
  runId : Option String
  output : Option Json
  route : Option RouteValue
  branch : Option String
  isolationScope : Option String

namespace ChildScanState

def start (runId : Option String) : ChildScanState := ⟨runId, none, none, none, none⟩

def hasResult (state : ChildScanState) : Bool := state.output.isSome || state.route.isSome

end ChildScanState

namespace A2AEvent

def path (event : A2AEvent) : NodePath := .fromString event.metadata.nodeInfo.path

def hasOutput (event : A2AEvent) : Bool := event.output.isSome || event.outputText ≠ ""

/-- The event is output of that node path too. -/
def isOutputFor (event : A2AEvent) (target : String) : Bool :=
  match event.metadata.nodeInfo.outputFor with
  | none => false
  | some targets => target ∈ targets

/-- Whether the event ends a node: with an output, with a message that is the
output, or with a route. -/
def isTerminal (event : A2AEvent) : Bool :=
  !event.isPartial &&
    (event.output.isSome || event.outputText ≠ "" || event.metadata.route.isSome)

end A2AEvent

/-- What a state takes from an event; the last value that is not none wins. -/
def ChildScanState.record (state : ChildScanState) (event : A2AEvent) (direct : Bool) :
    ChildScanState :=
  { state with
    output :=
      match event.output with
      | some value => some value
      | none => if event.outputText ≠ "" then some (.string event.outputText) else state.output
    branch := if event.hasOutput then event.metadata.branch else state.branch
    route := event.metadata.route <|> state.route
    isolationScope :=
      if direct then event.metadata.isolationScope <|> state.isolationScope
      else state.isolationScope }

/-- Whose state an event belongs to: the base itself or, grouped, its direct
child on the way. -/
def ownerKey (path : NodePath) (basePath : String) (grouped : Bool) : Option String :=
  let base := NodePath.fromString basePath
  if grouped then (base.directChild? path).map NodePath.leafSegment
  else if path.toText = basePath ∨ path.isDescendantOf base then some basePath
  else none

def isDirect (path : NodePath) (basePath : String) (grouped : Bool) : Bool :=
  if grouped then path.isDirectChildOf (.fromString basePath) else path.toText = basePath

def ownerFullPath (basePath key : String) (grouped : Bool) : String :=
  if grouped then ((NodePath.fromString basePath).append key).toText else basePath

def reconstructEvent (basePath : String) (grouped : Bool)
    (states : Dict String ChildScanState) (event : A2AEvent) : Dict String ChildScanState :=
  match ownerKey event.path basePath grouped with
  | none => states
  | some key =>
      let state := (states.get? key).getD (.start (NodePath.fromString key).runId)
      let direct := isDirect event.path basePath grouped
      if event.isPartial then states.set key state
      else if direct || (event.hasOutput && event.isOutputFor (ownerFullPath basePath key grouped))
      then states.set key (state.record event direct)
      else states.set key state

def reconstructNodeStates (events : List A2AEvent) (basePath : String) (grouped : Bool) :
    Dict String ChildScanState :=
  events.foldl (reconstructEvent basePath grouped) .empty

/-- `_scan_sequence` at one event: the sequence and the completed segments. -/
def scanEvent (base : NodePath) (strict : Bool) (scan : List String × List String)
    (event : A2AEvent) : List String × List String :=
  match base.directChild? event.path with
  | none => scan
  | some child =>
      if strict && event.path ≠ child then scan
      else if !(event.path = child || event.isOutputFor child.toText) then scan
      else if !event.isTerminal then scan
      else
        let segment := child.leafSegment
        if segment ∈ scan.2 then scan
        else (scan.1.erase segment ++ [segment], scan.2 ++ [segment])

def scanSequence (events : List A2AEvent) (basePath : String) (strict : Bool) : List String :=
  (events.foldl (scanEvent (.fromString basePath) strict) ([], [])).1

/-- `scan_workflow_events`, less the barrier that it installs. -/
def scanWorkflowEvents (events : List A2AEvent) (basePath : String) :
    Dict String ChildScanState × List String :=
  (reconstructNodeStates events basePath true, scanSequence events basePath false)

/-! ### The order -/

/-- The segment of the child that the event ends. -/
def endedSegment (base : NodePath) (strict : Bool) (event : A2AEvent) : Option String :=
  match base.directChild? event.path with
  | none => none
  | some child =>
      if !(strict && event.path ≠ child) &&
        (event.path = child || event.isOutputFor child.toText) && event.isTerminal
      then some child.leafSegment
      else none

theorem scan_event_eq (base : NodePath) (strict : Bool) (scan : List String × List String)
    (event : A2AEvent) :
    scanEvent base strict scan event =
      match endedSegment base strict event with
      | none => scan
      | some segment =>
          if segment ∈ scan.2 then scan
          else (scan.1.erase segment ++ [segment], scan.2 ++ [segment]) := by
  unfold scanEvent endedSegment
  cases base.directChild? event.path with
  | none => rfl
  | some child =>
      dsimp only
      generalize (strict && decide (event.path ≠ child)) = apart
      generalize (decide (event.path = child) || event.isOutputFor child.toText) = own
      cases apart <;> cases own <;> cases event.isTerminal <;> rfl

/-- The sequence lists the ended children in the order in which they first ended. -/
theorem scan_sequence_eq (events : List A2AEvent) (basePath : String) (strict : Bool) :
    scanSequence events basePath strict =
      (events.filterMap (endedSegment (.fromString basePath) strict)).eraseDups := by
  generalize same : NodePath.fromString basePath = base
  have scanned : events.foldl (scanEvent base strict) ([], []) =
      ((events.filterMap (endedSegment base strict)).eraseDups,
        (events.filterMap (endedSegment base strict)).eraseDups) := by
    induction events using List.reverseRecOn with
    | nil => simp
    | append_singleton events event ih =>
        rw [List.foldl_append, ih, List.foldl_cons, List.foldl_nil, scan_event_eq,
          List.filterMap_append]
        cases ended : endedSegment base strict event with
        | none => simp [ended]
        | some segment =>
            simp only [List.filterMap_cons, ended, List.filterMap_nil, Firsts.firsts_snoc,
              List.mem_eraseDups]
            split
            · rfl
            · rename_i fresh
              rw [List.erase_of_not_mem (by simpa [List.mem_eraseDups] using fresh)]
  rw [scanSequence, same, scanned]

/-! ### The states -/

/-- The segment of the child that the event gives a result: by its own output
or route, or by an output that names it. -/
def recoveredSegment (base : NodePath) (event : A2AEvent) : Option String :=
  match base.directChild? event.path with
  | none => none
  | some child =>
      if !event.isPartial &&
        ((event.path = child && (event.hasOutput || event.metadata.route.isSome)) ||
          (event.hasOutput && event.isOutputFor child.toText))
      then some child.leafSegment
      else none

/-- The segment of the child to which the event of a deeper node hands a route
without an output. -/
def delegatedRoute (base : NodePath) (event : A2AEvent) : Option String :=
  match base.directChild? event.path with
  | none => none
  | some child =>
      if !event.isPartial && event.path ≠ child && event.isOutputFor child.toText &&
        !event.hasOutput && event.metadata.route.isSome
      then some child.leafSegment
      else none

theorem ended_segment_iff (base : NodePath) (event : A2AEvent) (segment : String) :
    endedSegment base false event = some segment ↔
      recoveredSegment base event = some segment ∨ delegatedRoute base event = some segment := by
  unfold endedSegment recoveredSegment delegatedRoute
  cases base.directChild? event.path with
  | none => simp
  | some child =>
      have terminal : event.isTerminal =
          (!event.isPartial && (event.hasOutput || event.metadata.route.isSome)) := rfl
      simp only [terminal, Bool.false_and, Bool.not_false, Bool.true_and]
      by_cases own : event.path = child <;> cases event.isPartial <;> cases event.hasOutput <;>
        cases event.metadata.route.isSome <;> cases event.isOutputFor child.toText <;> simp [own]

/-- Whether the states hold a result for that segment. -/
def HasResult (states : Dict String ChildScanState) (segment : String) : Prop :=
  ∃ state, states.get? segment = some state ∧ state.hasResult = true

theorem record_result (state : ChildScanState) (event : A2AEvent) (direct : Bool) :
    (state.record event direct).hasResult =
      (state.hasResult || event.hasOutput || event.metadata.route.isSome) := by
  unfold ChildScanState.record ChildScanState.hasResult A2AEvent.hasOutput
  cases event.output <;> cases event.metadata.route <;> by_cases text : event.outputText = "" <;>
    simp [text]

/-- The entry a state starts from: the one that is there, or a new one. -/
def entryOf (states : Dict String ChildScanState) (key : String) : ChildScanState :=
  (states.get? key).getD (.start (NodePath.fromString key).runId)

theorem reconstruct_skips {basePath : String} {event : A2AEvent}
    (outside : (NodePath.fromString basePath).directChild? event.path = none)
    (states : Dict String ChildScanState) : reconstructEvent basePath true states event = states := by
  simp [reconstructEvent, ownerKey, outside]

/-- Grouped by direct children, an event touches the entry of its child, and
the entry takes what the child may take from it. -/
theorem reconstruct_grouped {basePath : String} {event : A2AEvent} {child : NodePath}
    (found : (NodePath.fromString basePath).directChild? event.path = some child)
    (states : Dict String ChildScanState) :
    reconstructEvent basePath true states event =
      if !event.isPartial &&
        (event.path = child || (event.hasOutput && event.isOutputFor child.toText))
      then states.set child.leafSegment
        ((entryOf states child.leafSegment).record event (event.path = child))
      else states.set child.leafSegment (entryOf states child.leafSegment) := by
  have owner : ownerKey event.path basePath true = some child.leafSegment := by
    simp [ownerKey, found]
  have direct : isDirect event.path basePath true = decide (event.path = child) := by
    rw [Bool.eq_iff_iff, decide_eq_true_iff]
    exact NodePath.direct_child_self found
  have fullPath : ownerFullPath basePath child.leafSegment true = child.toText := by
    rw [ownerFullPath, if_pos rfl, ← NodePath.direct_child_append found]
  unfold reconstructEvent
  rw [owner]
  dsimp only
  rw [direct, fullPath]
  cases event.isPartial <;> rfl

theorem entry_result (states : Dict String ChildScanState) (segment : String) :
    (entryOf states segment).hasResult = true ↔ HasResult states segment := by
  unfold entryOf HasResult
  cases states.get? segment <;> simp [ChildScanState.start, ChildScanState.hasResult]

theorem has_result_set (states : Dict String ChildScanState) (key segment : String)
    (state : ChildScanState) :
    HasResult (states.set key state) segment ↔
      if segment = key then state.hasResult = true else HasResult states segment := by
  unfold HasResult
  rw [Dict.get?_set]
  split <;> simp

theorem reconstruct_event_result (basePath : String) (states : Dict String ChildScanState)
    (event : A2AEvent) (segment : String) :
    HasResult (reconstructEvent basePath true states event) segment ↔
      HasResult states segment ∨
        recoveredSegment (.fromString basePath) event = some segment := by
  unfold recoveredSegment
  cases found : (NodePath.fromString basePath).directChild? event.path with
  | none => simp [reconstruct_skips found]
  | some child =>
      rw [reconstruct_grouped found]
      by_cases same : segment = child.leafSegment
      · subst same
        have entry := entry_result states child.leafSegment
        by_cases own : event.path = child <;> cases event.isPartial <;>
          cases output : event.hasOutput <;> cases route : event.metadata.route.isSome <;>
          cases named : event.isOutputFor child.toText <;>
          simp [has_result_set, record_result, own, output, route, named, entry]
      · have other : child.leafSegment ≠ segment := Ne.symm same
        split <;> simp [has_result_set, same, other]

theorem reconstructed_result (events : List A2AEvent) (basePath segment : String) :
    HasResult (reconstructNodeStates events basePath true) segment ↔
      ∃ event ∈ events, recoveredSegment (.fromString basePath) event = some segment := by
  induction events using List.reverseRecOn with
  | nil => simp [reconstructNodeStates, HasResult]
  | append_singleton events event ih =>
      rw [reconstructNodeStates] at ih ⊢
      rw [List.foldl_append, List.foldl_cons, List.foldl_nil, reconstruct_event_result, ih]
      simp [or_and_right, exists_or]

/-! ### Both -/

/-- A child stands in the order exactly if its recovered state has an output or
a route; it stands there once, and the order is that of the first events that
end the children. -/
structure ScansAgree (events : List A2AEvent) (basePath : String) : Prop where
  same : ∀ segment, segment ∈ (scanWorkflowEvents events basePath).2 ↔
    HasResult (scanWorkflowEvents events basePath).1 segment
  once : (scanWorkflowEvents events basePath).2.Nodup
  ordered : (scanWorkflowEvents events basePath).2 =
    (events.filterMap (endedSegment (.fromString basePath) false)).eraseDups

/-- The scans agree exactly if each child that is handed a route without an
output has a result from another event. -/
theorem scans_agree_iff (events : List A2AEvent) (basePath : String) :
    ScansAgree events basePath ↔
      ∀ event ∈ events, ∀ segment,
        delegatedRoute (.fromString basePath) event = some segment →
        ∃ other ∈ events, recoveredSegment (.fromString basePath) other = some segment := by
  have order := scan_sequence_eq events basePath false
  have listed : ∀ segment, segment ∈ (scanWorkflowEvents events basePath).2 ↔
      ∃ event ∈ events, recoveredSegment (.fromString basePath) event = some segment ∨
        delegatedRoute (.fromString basePath) event = some segment := by
    intro segment
    rw [scanWorkflowEvents, order, List.mem_eraseDups, List.mem_filterMap]
    simp only [ended_segment_iff]
  have results := reconstructed_result events basePath
  constructor
  · intro agree event member segment delegated
    have inside := (listed segment).mpr ⟨event, member, Or.inr delegated⟩
    exact (results segment).mp ((agree.same segment).mp inside)
  · intro answered
    constructor
    case once =>
      rw [scanWorkflowEvents, order]
      exact Firsts.firsts_nodup _
    case ordered => exact order
    case same =>
      intro segment
      refine (listed segment).trans (Iff.trans ?_ (results segment).symm)
      constructor
      · rintro ⟨event, member, recovered | delegated⟩
        · exact ⟨event, member, recovered⟩
        · exact answered event member segment delegated
      · rintro ⟨event, member, recovered⟩
        exact ⟨event, member, Or.inl recovered⟩

/-- A leaf of `a@1` hands its route up and has no output. -/
def routeHandedUp : A2AEvent :=
  .artifact [⟨"x", false, none⟩] false true
    { author := "leaf", output := none, branch := none, isolationScope := none
      nodeInfo := ⟨"wf@1/a@1/leaf@1", some ["wf@1/a@1"], none⟩
      route := some (.str "next") }

/-- The order waits for a child that has no recovered result. -/
theorem routed_child_unrecovered :
    ¬ ∀ (events : List A2AEvent) (basePath : String), ScansAgree events basePath := by
  intro claim
  have ordered : (scanWorkflowEvents [routeHandedUp] "wf@1").2 = ["a@1"] := by decide +kernel
  have recovered : ((scanWorkflowEvents [routeHandedUp] "wf@1").1.get? "a@1").map
      ChildScanState.hasResult = some false := by
    decide +kernel
  obtain ⟨state, known, holds⟩ := ((claim [routeHandedUp] "wf@1").same "a@1").mp (by simp [ordered])
  simp [known, holds] at recovered

end Choirworks.Workflow
