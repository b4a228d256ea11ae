import Choirworks.Workflow.NextNodes
import Choirworks.Workflow.Triggers

/-!
Nodes with a fixed behaviour, and what the start and each completion put into the
trigger buffer.
-/

namespace Choirworks.Workflow

variable {Obj : Type}

/-- The output and the routes of a node as a function of its input. -/
abbrev Behaviour (Obj : Type) := String → Option Obj → Option Obj × Option Routes

section Fixed

variable (workflow : Workflow Obj) (behaviour : Behaviour Obj) (input : Option Obj)

/-- `JoinNode` hands its input on. -/
def nodeContext (name : String) (nodeInput : Option Obj) : ChildContext Obj :=
  if isJoin workflow name then ⟨nodeInput, none, none⟩
  else ⟨(behaviour name nodeInput).1, (behaviour name nodeInput).2, none⟩

def Behaves (name : String) (nodeInput : Option Obj) (child : ChildContext Obj) : Prop :=
  child = nodeContext workflow behaviour name nodeInput

/-- How often a node triggers another after one run. -/
def nextCount (name : String) (child : ChildContext Obj) (target : String) : Nat :=
  (workflow.graph.getNextPendingNodes name child.route).count target

def joinInput (outputs : String → Option Obj) (name : String) : Option Obj :=
  some (workflow.asDict ((workflow.graph.predecessors name).map fun predecessor =>
    (predecessor, if predecessor = startName then input else outputs predecessor)))

end Fixed

/-! ### Edges -/

section Edges

variable {workflow : Workflow Obj} {name target : String} {routes : Option Routes}

theorem mem_predecessors : name ∈ workflow.graph.predecessors target ↔
    ∃ edge ∈ workflow.graph.edges, edge.fromNode.name = name ∧ edge.toNode.name = target := by
  simp only [Graph.predecessors, List.mem_eraseDups, List.mem_map, List.mem_filter,
    decide_eq_true_eq]
  constructor
  · rintro ⟨edge, ⟨member, into⟩, named⟩
    exact ⟨edge, member, named, into⟩
  · rintro ⟨edge, member, named, into⟩
    exact ⟨edge, ⟨member, into⟩, named⟩

theorem next_has_edge (routed : target ∈ workflow.graph.getNextPendingNodes name routes) :
    name ∈ workflow.graph.predecessors target :=
  mem_predecessors.mpr (next_nodes_edge routed)

theorem is_join_edge {edge : Edge} (member : edge ∈ workflow.graph.edges) :
    isJoin workflow edge.toNode.name = edge.toNode.requiresAllPredecessors := by
  have known : edge.toNode ∈ workflow.graph.nodes := mem_nodes.mpr ⟨edge, member, Or.inr rfl⟩
  have distinct := (validated workflow.checked).distinct
  have found : workflow.graph.getStaticNodeByName edge.toNode.name = some edge.toNode := by
    unfold Graph.getStaticNodeByName
    cases first : workflow.graph.nodes.find? (·.name = edge.toNode.name) with
    | none =>
        have absent := List.find?_eq_none.mp first _ known
        simp at absent
    | some node =>
        have named : node.name = edge.toNode.name := by
          simpa using List.find?_some first
        rw [List.inj_on_of_nodup_map distinct (List.mem_of_find?_eq_some first) known named]
  simp [isJoin, Graph.requiresAllPredecessors, found]

end Edges

/-! ### What buffering adds -/

section Buffering

variable {workflow : Workflow Obj} {state : LoopState Obj} {name target : String}
  {child : ChildContext Obj} {input : Option Obj}

def barrierOpen (workflow : Workflow Obj) (state : LoopState Obj) (target : String) : Bool :=
  (workflow.graph.predecessors target).all (predecessorCompleted state)

def barrierInput (workflow : Workflow Obj) (state : LoopState Obj) (target : String) :
    Option Obj :=
  some (workflow.asDict ((workflow.graph.predecessors target).map fun name =>
    (name, (state.nodeOutputs.get? name).join)))

/-- What triggering a node once adds for it, behind a node with this result. -/
def contribution (workflow : Workflow Obj) (state : LoopState Obj) (child : ChildContext Obj)
    (target : String) : List (Option Obj) :=
  if isJoin workflow target then
    if barrierOpen workflow state target then [barrierInput workflow state target] else []
  else [child.output]

theorem barrier_trigger_buffered (other : String) :
    buffered other (bufferBarrierTrigger workflow state target).history =
      buffered other state.history ++
        if target = other ∧ barrierOpen workflow state target = true then
          [barrierInput workflow state target] else [] := by
  unfold bufferBarrierTrigger
  dsimp only
  split
  · rename_i opened
    have opened' : barrierOpen workflow state target = true := opened
    by_cases same : target = other
    · subst same
      simp [LoopState.bufferTrigger, opened', barrierInput]
    · simp [LoopState.bufferTrigger, same]
  · rename_i closed
    have closed' : barrierOpen workflow state target = false := by
      simpa [barrierOpen] using closed
    simp [closed']

/-- Triggering a node once. -/
def triggerOnce (workflow : Workflow Obj) (child : ChildContext Obj) (state : LoopState Obj)
    (target : String) : LoopState Obj :=
  if isJoin workflow target then bufferBarrierTrigger workflow state target
  else state.bufferTrigger target ⟨child.output⟩

theorem trigger_once_buffered (first : String) :
    buffered target (triggerOnce workflow child state first).history =
      buffered target state.history ++
        if first = target then contribution workflow state child target else [] := by
  unfold triggerOnce contribution
  by_cases join : isJoin workflow first = true
  · rw [if_pos join, barrier_trigger_buffered]
    by_cases same : first = target
    · subst same
      simp [join]
    · simp [same]
  · rw [if_neg join]
    by_cases same : first = target
    · subst same
      simp [LoopState.bufferTrigger, join]
    · simp [LoopState.bufferTrigger, same]

theorem trigger_once_contribution (first : String) :
    contribution workflow (triggerOnce workflow child state first) child target =
      contribution workflow state child target := by
  unfold triggerOnce
  split
  · exact barrier_keeps
      (fun next => contribution workflow next child target = contribution workflow state child target)
      (fun _ _ _ same => same) rfl
  · rfl

/-- A finished node adds as many triggers for another as it routes to it. -/
theorem downstream_buffered :
    buffered target (bufferDownstreamTriggers workflow state name child).history =
      buffered target state.history ++
        (List.replicate (nextCount workflow name child target)
          (contribution workflow state child target)).flatten := by
  change buffered target ((workflow.graph.getNextPendingNodes name child.route).foldl
    (triggerOnce workflow child) state).history = _
  unfold nextCount
  generalize workflow.graph.getNextPendingNodes name child.route = targets
  induction targets generalizing state with
  | nil => simp
  | cons first rest ih =>
      rw [List.foldl_cons, ih, trigger_once_buffered, trigger_once_contribution]
      by_cases same : first = target
      · subst same
        simp [List.replicate_succ]
      · simp [same]

/-- The trigger buffer gets what the history says. -/
theorem downstream_queue (target : String) : ∃ added : List (Option Obj),
    buffered target (bufferDownstreamTriggers workflow state name child).history =
        buffered target state.history ++ added ∧
      (bufferDownstreamTriggers workflow state name child).triggerBuffer.getD target [] =
        state.triggerBuffer.getD target [] ++ added.map Trigger.mk := by
  refine downstream_keeps (fun next => ∃ added : List (Option Obj),
    buffered target next.history = buffered target state.history ++ added ∧
      next.triggerBuffer.getD target [] =
        state.triggerBuffer.getD target [] ++ added.map Trigger.mk) ?_ ⟨[], by simp⟩
  rintro next other trigger ⟨added, listed, queued⟩
  by_cases same : other = target
  · subst same
    refine ⟨added ++ [trigger.input], ?_, ?_⟩
    · simp [LoopState.bufferTrigger, listed]
    · simp only [Dict.getD] at queued
      simp [LoopState.bufferTrigger, Dict.getD, queued]
  · refine ⟨added, ?_, ?_⟩
    · simp [LoopState.bufferTrigger, same, listed]
    · rw [← queued]
      simp [LoopState.bufferTrigger, Dict.getD, Dict.get?_set, Ne.symm same]

theorem downstream_runs (name target : String) :
    started target (bufferDownstreamTriggers workflow state name child).history =
        started target state.history ∧
      finished target (bufferDownstreamTriggers workflow state name child).history =
        finished target state.history := by
  apply downstream_keeps fun next => started target next.history = started target state.history ∧
    finished target next.history = finished target state.history
  · intro next other trigger same
    simpa [LoopState.bufferTrigger] using same
  · exact ⟨rfl, rfl⟩

theorem contribution_length : (contribution workflow state child target).length ≤ 1 := by
  unfold contribution
  split
  · split <;> simp
  · simp

/-- A completion triggers each successor at most once exactly if the edges that its
routes match lead to different nodes. -/
theorem triggers_once_iff (workflow : Workflow Obj) (name : String) (child : ChildContext Obj) :
    ((workflow.graph.getNextPendingNodes name child.route).Nodup ∧
      ∀ (state : LoopState Obj) (target : String), ∃ added : List (Trigger Obj),
        added.length ≤ 1 ∧
          (bufferDownstreamTriggers workflow state name child).triggerBuffer.getD target [] =
            state.triggerBuffer.getD target [] ++ added) ↔
      workflow.graph.MatchedApart name child.route := by
  have iff := @next_nodes_nodup_iff _ name child.route (validated workflow.checked)
  rw [← iff]
  refine ⟨And.left, fun once => ⟨once, fun state target => ?_⟩⟩
  obtain ⟨added, listed, queued⟩ := @downstream_queue Obj workflow state name child target
  have exact_added := List.append_cancel_left (listed.symm.trans downstream_buffered)
  refine ⟨added.map Trigger.mk, ?_, queued⟩
  have few : nextCount workflow name child target ≤ 1 := List.nodup_iff_count_le_one.mp once target
  rw [List.length_map, exact_added, List.length_flatten, List.map_replicate,
    List.sum_replicate_nat]
  exact (Nat.mul_le_mul few contribution_length).trans_eq (Nat.mul_one 1)

section Sample

/-! A node that emits two routes, each on an edge of its own to one successor. -/

def twoRoutes : Graph where
  edges :=
    [⟨⟨0, startName, false⟩, ⟨1, "a", false⟩, none⟩,
      ⟨⟨1, "a", false⟩, ⟨2, "b", false⟩, some (.one (.str "x"))⟩,
      ⟨⟨1, "a", false⟩, ⟨2, "b", false⟩, some (.one (.str "y"))⟩]

def twoRoutesFlow : Workflow Nat where
  graph := twoRoutes
  maxConcurrency := none
  asDict := fun _ => 0
  checked := by decide

theorem two_routes_trigger_twice :
    ¬ ∀ (workflow : Workflow Nat) (name : String) (child : ChildContext Nat),
      (workflow.graph.getNextPendingNodes name child.route).Nodup ∧
        ∀ (state : LoopState Nat) (target : String), ∃ added : List (Trigger Nat),
          added.length ≤ 1 ∧
            (bufferDownstreamTriggers workflow state name child).triggerBuffer.getD target [] =
              state.triggerBuffer.getD target [] ++ added := by
  intro claim
  let child : ChildContext Nat := ⟨some 7, some (.many [.str "x", .str "y"]), none⟩
  have once := (claim twoRoutesFlow "a" child).1
  revert once
  decide

end Sample

/-! ### What seeding buffers -/

/-- The edges from the start into a node. -/
def startCount (workflow : Workflow Obj) (target : String) : Nat :=
  ((workflow.graph.edges.filter (·.fromNode.name = startName)).map (·.toNode.name)).count target

/-- What one edge from the start adds. -/
def seedContribution (workflow : Workflow Obj) (input : Option Obj) (target : String) :
    List (Option Obj) :=
  if isJoin workflow target then
    if (workflow.graph.predecessors target).all (· = startName) then
      [joinInput workflow input (fun _ => none) target]
    else []
  else [input]

/-- While the loop is seeded no node has a state, and only the start has an
output. -/
structure Seeding (input : Option Obj) (state : LoopState Obj) : Prop where
  fresh : state.nodes = .empty
  outputs : ∀ name, name ≠ startName → state.nodeOutputs.get? name = none
  runs : ∀ name, started name state.history = [] ∧ finished name state.history = []

theorem Seeding.bufferTrigger (seeding : Seeding input state) (name : String)
    (trigger : Trigger Obj) : Seeding input (state.bufferTrigger name trigger) := by
  constructor
  case fresh => exact seeding.fresh
  case outputs => exact seeding.outputs
  case runs => simpa [LoopState.bufferTrigger] using seeding.runs

theorem Seeding.setStart (seeding : Seeding input state) :
    Seeding input (state.setOutput startName input) := by
  constructor
  case fresh => exact seeding.fresh
  case outputs =>
    intro name other
    simp only [LoopState.setOutput, Dict.get?_set, if_neg other]
    exact seeding.outputs name other
  case runs => exact seeding.runs

theorem Seeding.completed (seeding : Seeding input state) (name : String) :
    predecessorCompleted state name = decide (name = startName) := by
  unfold predecessorCompleted LoopState.statusOf
  rw [seeding.fresh, Dict.get?_empty]
  simp

/-- With the input stored, a barrier in seeding adds what an edge from the
start adds. -/
theorem Seeding.barrier (seeding : Seeding input state)
    (stored : state.nodeOutputs.get? startName = some input) (join : isJoin workflow name = true)
    (target : String) :
    buffered target (bufferBarrierTrigger workflow state name).history =
      buffered target state.history ++
        if name = target then seedContribution workflow input target else [] := by
  have opened : barrierOpen workflow state name =
      (workflow.graph.predecessors name).all (· = startName) := by
    unfold barrierOpen
    rw [funext seeding.completed]
  rw [barrier_trigger_buffered, opened]
  by_cases same : name = target
  · subst same
    by_cases all : (workflow.graph.predecessors name).all (· = startName) = true
    · have outputs : barrierInput workflow state name =
          joinInput workflow input (fun _ => none) name := by
        unfold barrierInput joinInput
        congr 2
        apply List.map_congr_left
        intro predecessor member
        have isStart : predecessor = startName := by simpa using List.all_eq_true.mp all _ member
        simp [isStart, stored]
      simp [seedContribution, join, all, outputs]
    · simp [seedContribution, join, all]
  · simp [same]

/-- One edge from the start. -/
def seedOnce (workflow : Workflow Obj) (input : Option Obj) (state : LoopState Obj) (edge : Edge) :
    LoopState Obj :=
  if edge.toNode.requiresAllPredecessors then
    bufferBarrierTrigger workflow (state.setOutput startName input) edge.toNode.name
  else state.bufferTrigger edge.toNode.name ⟨input⟩

theorem Seeding.once (seeding : Seeding input state) (edge : Edge) :
    Seeding input (seedOnce workflow input state edge) := by
  unfold seedOnce
  split
  · exact barrier_keeps (Seeding input) (fun _ name trigger kept => kept.bufferTrigger name trigger)
      seeding.setStart
  · exact seeding.bufferTrigger _ _

theorem seed_once_buffered (seeding : Seeding input state) {edge : Edge}
    (member : edge ∈ workflow.graph.edges) (target : String) :
    buffered target (seedOnce workflow input state edge).history =
      buffered target state.history ++
        if edge.toNode.name = target then seedContribution workflow input target else [] := by
  have kind := is_join_edge member
  unfold seedOnce
  split
  · rename_i join
    rw [Seeding.barrier seeding.setStart (by simp [LoopState.setOutput]) (kind.trans join)]
    rfl
  · rename_i plain
    by_cases same : edge.toNode.name = target
    · subst same
      simp [LoopState.bufferTrigger, seedContribution, kind, plain]
    · simp [LoopState.bufferTrigger, same]

theorem seed_once_outputs (edge : Edge) :
    (seedOnce workflow input state edge).nodeOutputs =
      if edge.toNode.requiresAllPredecessors then state.nodeOutputs.set startName input
      else state.nodeOutputs := by
  unfold seedOnce
  split
  · exact barrier_keeps (fun next => next.nodeOutputs = state.nodeOutputs.set startName input)
      (fun _ _ _ same => same) rfl
  · rfl

theorem seed_buffered (edges : List Edge) (state : LoopState Obj) (seeding : Seeding input state)
    (members : ∀ edge ∈ edges, edge ∈ workflow.graph.edges) :
    Seeding input (edges.foldl (seedOnce workflow input) state) ∧
      (∀ target, buffered target (edges.foldl (seedOnce workflow input) state).history =
        buffered target state.history ++
          (List.replicate ((edges.map (·.toNode.name)).count target)
            (seedContribution workflow input target)).flatten) ∧
      ((state.nodeOutputs.get? startName = some input ∨
          ∃ edge ∈ edges, edge.toNode.requiresAllPredecessors = true) →
        (edges.foldl (seedOnce workflow input) state).nodeOutputs.get? startName =
          some input) := by
  induction edges generalizing state with
  | nil =>
      refine ⟨seeding, by simp, ?_⟩
      rintro (stored | ⟨_, impossible, _⟩)
      · exact stored
      · cases impossible
  | cons edge rest ih =>
      obtain ⟨still, adds, stores⟩ := ih (seedOnce workflow input state edge)
        (seeding.once edge) fun other member => members other (List.mem_cons_of_mem _ member)
      refine ⟨still, ?_, ?_⟩
      · intro target
        rw [List.foldl_cons, adds target,
          seed_once_buffered seeding (members edge List.mem_cons_self)]
        by_cases same : edge.toNode.name = target
        · subst same
          simp [List.replicate_succ]
        · simp [same]
      · intro known
        apply stores
        rw [seed_once_outputs]
        rcases known with stored | ⟨other, member, join⟩
        · left
          split
          · simp
          · exact stored
        · rcases List.mem_cons.mp member with rfl | later
          · left
            simp [join]
          · exact Or.inr ⟨other, later, join⟩

theorem seed_spec (workflow : Workflow Obj) (input : Option Obj) :
    Seeding input (seedStartTriggers workflow input) ∧
      (∀ target, buffered target (seedStartTriggers workflow input).history =
        (List.replicate (startCount workflow target)
          (seedContribution workflow input target)).flatten) ∧
      ∀ target, isJoin workflow target = true → startName ∈ workflow.graph.predecessors target →
        (seedStartTriggers workflow input).nodeOutputs.get? startName = some input := by
  have empty : Seeding input (LoopState.empty : LoopState Obj) := by
    constructor
    case fresh => rfl
    case outputs => exact fun _ _ => rfl
    case runs => exact fun _ => ⟨rfl, rfl⟩
  obtain ⟨seeding, adds, stores⟩ := seed_buffered
    (workflow.graph.edges.filter (·.fromNode.name = startName)) LoopState.empty empty
    fun edge member => (List.mem_filter.mp member).1
  refine ⟨seeding, ?_, ?_⟩
  · intro target
    exact (adds target).trans (List.nil_append _)
  · intro target join fromStart
    obtain ⟨edge, member, isStart, rfl⟩ := mem_predecessors.mp fromStart
    refine stores (Or.inr ⟨edge, List.mem_filter.mpr ⟨member, by simpa using isStart⟩, ?_⟩)
    rw [← is_join_edge member]
    exact join

end Buffering

end Choirworks.Workflow
