import Mathlib.Logic.Relation
import Choirworks.Workflow.Loop

/-!
What the orchestration loop does, one move at a time: it starts a node that has
a trigger, or it handles a task that is done. Every execution is a sequence of
such moves from the seeded state; a failed task ends it.
-/

namespace Choirworks.Workflow

variable {Obj : Type}

/-! ### The buffer -/

theorem get_d_set {Value : Type} (dict : Dict String Value) (name other : String)
    (value fallback : Value) :
    (dict.set name value).getD other fallback =
      if other = name then value else dict.getD other fallback := by
  by_cases same : other = name <;> simp [Dict.getD, same]

theorem get_d_erase {Value : Type} (dict : Dict String Value) (name other : String)
    (fallback : Value) :
    Dict.getD (dict.erase name) other fallback =
      if other = name then fallback else dict.getD other fallback := by
  by_cases same : other = name <;> simp [Dict.getD, same]

/-- What is left when the first trigger of a node is taken. -/
theorem pop_trigger_spec {triggerBuffer rest : Dict String (List (Trigger Obj))} {name : String}
    {trigger : Trigger Obj} (popped : popTrigger triggerBuffer name = some (trigger, rest)) :
    ∃ later, triggerBuffer.getD name [] = trigger :: later ∧
      (∀ other, rest.getD other [] = if other = name then later else triggerBuffer.getD other []) ∧
      ∀ other, rest.get? other = some [] → triggerBuffer.get? other = some [] := by
  unfold popTrigger at popped
  split at popped
  · cases popped
  · rename_i only listed
    cases popped
    refine ⟨[], listed, fun other => get_d_erase _ _ _ _, ?_⟩
    intro other
    rw [Dict.get?_erase]
    split
    · simp
    · exact id
  · rename_i first later more listed
    cases popped
    refine ⟨later, listed, fun other => get_d_set _ _ _ _ _, ?_⟩
    intro other
    rw [Dict.get?_set]
    split
    · intro empty
      exact absurd (Option.some.inj empty) more
    · exact id

theorem pop_trigger_some {triggerBuffer : Dict String (List (Trigger Obj))} {name : String}
    (filled : triggerBuffer.get? name ≠ some []) (known : name ∈ triggerBuffer.keys) :
    ∃ trigger rest, popTrigger triggerBuffer name = some (trigger, rest) := by
  obtain ⟨triggers, found⟩ := (Dict.mem_keys_iff_get? _ _).mp known
  unfold popTrigger Dict.getD
  rw [found, Option.getD_some]
  cases triggers with
  | nil => exact absurd found filled
  | cons trigger rest =>
      cases rest with
      | nil => exact ⟨_, _, rfl⟩
      | cons _ _ => exact ⟨_, _, rfl⟩

/-! ### Moves -/

inductive Move (workflow : Workflow Obj)
    (Allowed : String → Option Obj → ChildContext Obj → Prop) :
    LoopState Obj → LoopState Obj → Prop where
  | start {state : LoopState Obj} {name : String} {trigger : Trigger Obj}
      {triggerBuffer : Dict String (List (Trigger Obj))}
      (idle : name ∉ state.pendingTasks.keys)
      (room : workflow.atConcurrencyLimit state = false)
      (popped : popTrigger state.triggerBuffer name = some (trigger, triggerBuffer)) :
      Move workflow Allowed state
        (startNodeTask (prepareNodeStateForStarting { state with triggerBuffer } name trigger)
          name trigger)
  | complete {state : LoopState Obj} {name : String} {task : NodeTask Obj}
      {child : ChildContext Obj} (pending : state.pendingTasks.get? name = some task)
      (fine : child.error = none) (allowed : Allowed name task.input child) :
      Move workflow Allowed state
        (handleCompletion workflow (popCompletedTask state name task child) name child)

/-! ### What the parts of a move change -/

section Frame

variable {workflow : Workflow Obj} {state : LoopState Obj} {name : String}
  {child : ChildContext Obj} {task : NodeTask Obj} {trigger : Trigger Obj}

theorem barrier_keeps (Kept : LoopState Obj → Prop)
    (buffers : ∀ state name trigger, Kept state → Kept (state.bufferTrigger name trigger))
    (kept : Kept state) : Kept (bufferBarrierTrigger workflow state name) := by
  unfold bufferBarrierTrigger
  dsimp only
  split
  · exact buffers state name _ kept
  · exact kept

/-- What every buffered trigger keeps, the triggers behind a node keep. -/
theorem downstream_keeps (Kept : LoopState Obj → Prop)
    (buffers : ∀ state name trigger, Kept state → Kept (state.bufferTrigger name trigger))
    (kept : Kept state) : Kept (bufferDownstreamTriggers workflow state name child) := by
  unfold bufferDownstreamTriggers
  generalize workflow.graph.getNextPendingNodes name child.route = targets
  induction targets generalizing state with
  | nil => exact kept
  | cons target rest ih =>
      rw [List.foldl_cons]
      apply ih
      split
      · exact barrier_keeps Kept buffers kept
      · exact buffers state target _ kept

/-- What seeding keeps that every buffered trigger and every stored input keep. -/
theorem seed_keeps (Kept : LoopState Obj → Prop)
    (buffers : ∀ state name trigger, Kept state → Kept (state.bufferTrigger name trigger))
    (stores : ∀ state name output, Kept state → Kept (state.setOutput name output))
    (input : Option Obj) (kept : Kept .empty) : Kept (seedStartTriggers workflow input) := by
  unfold seedStartTriggers
  generalize workflow.graph.edges.filter (·.fromNode.name = startName) = edges
  generalize LoopState.empty = state at kept
  induction edges generalizing state with
  | nil => exact kept
  | cons edge rest ih =>
      rw [List.foldl_cons]
      apply ih
      split
      · exact barrier_keeps Kept buffers (stores state _ _ kept)
      · exact buffers state _ _ kept

/-- Buffering triggers touches nothing but the buffer and the history. -/
theorem downstream_frame :
    (bufferDownstreamTriggers workflow state name child).pendingTasks = state.pendingTasks ∧
      (bufferDownstreamTriggers workflow state name child).nodes = state.nodes ∧
      (bufferDownstreamTriggers workflow state name child).nodeOutputs = state.nodeOutputs := by
  apply downstream_keeps fun next => next.pendingTasks = state.pendingTasks ∧
    next.nodes = state.nodes ∧ next.nodeOutputs = state.nodeOutputs
  · intro next target trigger same
    exact same
  · exact ⟨rfl, rfl, rfl⟩

/-- The state in which the triggers behind a finished node are buffered. -/
def finishedState (state : LoopState Obj) (name : String) (task : NodeTask Obj)
    (child : ChildContext Obj) : LoopState Obj :=
  let state := (popCompletedTask state name task child).setStatus name .completed
  match child.output with
  | none => state
  | some output => state.setOutput name (some output)

theorem handle_completion_eq :
    handleCompletion workflow (popCompletedTask state name task child) name child =
      bufferDownstreamTriggers workflow (finishedState state name task child) name child :=
  rfl

theorem popped_frame (status : NodeStatus) :
    ((popCompletedTask state name task child).setStatus name status).pendingTasks =
        state.pendingTasks.erase name ∧
      ((popCompletedTask state name task child).setStatus name status).triggerBuffer =
        state.triggerBuffer ∧
      ((popCompletedTask state name task child).setStatus name status).nodeOutputs =
        state.nodeOutputs ∧
      ((popCompletedTask state name task child).setStatus name status).history =
        state.history ++ [.finished name task.input child] := by
  unfold LoopState.setStatus popCompletedTask
  dsimp only
  split <;> exact ⟨rfl, rfl, rfl, rfl⟩

theorem popped_status (known : state.statusOf name ≠ none) (status : NodeStatus)
    (other : String) :
    ((popCompletedTask state name task child).setStatus name status).statusOf other =
      if other = name then some status else state.statusOf other := by
  unfold LoopState.setStatus popCompletedTask LoopState.statusOf at *
  cases found : state.nodes.get? name with
  | none => simp [found] at known
  | some nodeState => by_cases same : other = name <;> simp [same]

theorem finished_frame :
    (finishedState state name task child).pendingTasks = state.pendingTasks.erase name ∧
      (finishedState state name task child).triggerBuffer = state.triggerBuffer ∧
      (finishedState state name task child).history =
        state.history ++ [.finished name task.input child] := by
  unfold finishedState
  dsimp only
  split
  · exact ⟨(popped_frame _).1, (popped_frame _).2.1, (popped_frame _).2.2.2⟩
  · exact ⟨(popped_frame _).1, (popped_frame _).2.1, (popped_frame _).2.2.2⟩

theorem finished_status (known : state.statusOf name ≠ none) (other : String) :
    (finishedState state name task child).statusOf other =
      if other = name then some .completed else state.statusOf other := by
  rw [← popped_status known .completed other]
  unfold finishedState
  dsimp only
  split <;> rfl

theorem finished_outputs (other : String) :
    (finishedState state name task child).nodeOutputs.get? other =
      if other = name ∧ child.output ≠ none then some child.output
      else state.nodeOutputs.get? other := by
  have before : ((popCompletedTask state name task child).setStatus name .completed).nodeOutputs =
      state.nodeOutputs := (popped_frame .completed).2.2.1
  unfold finishedState
  dsimp only
  cases returned : child.output with
  | none => simp [before]
  | some output =>
      simp only [LoopState.setOutput, Dict.get?_set, before]
      by_cases same : other = name <;> simp [same]

/-- The state of a node that has just been started. -/
def startedState (state : LoopState Obj) (triggerBuffer : Dict String (List (Trigger Obj)))
    (name : String) (trigger : Trigger Obj) : LoopState Obj :=
  startNodeTask (prepareNodeStateForStarting { state with triggerBuffer } name trigger) name trigger

theorem started_pending {triggerBuffer : Dict String (List (Trigger Obj))} (other : String) :
    ((startedState state triggerBuffer name trigger).pendingTasks.get? other).map (·.input) =
      if other = name then some trigger.input
      else (state.pendingTasks.get? other).map (·.input) := by
  unfold startedState startNodeTask prepareNodeStateForStarting
  by_cases same : other = name <;> simp [same]

theorem started_status {triggerBuffer : Dict String (List (Trigger Obj))} (other : String) :
    (startedState state triggerBuffer name trigger).statusOf other =
      if other = name then some .running else state.statusOf other := by
  unfold startedState startNodeTask prepareNodeStateForStarting LoopState.statusOf
  by_cases same : other = name <;> simp [same]

theorem started_frame {triggerBuffer : Dict String (List (Trigger Obj))} :
    (startedState state triggerBuffer name trigger).triggerBuffer = triggerBuffer ∧
      (startedState state triggerBuffer name trigger).nodeOutputs = state.nodeOutputs ∧
      (startedState state triggerBuffer name trigger).history =
        state.history ++ [.started name trigger.input] :=
  ⟨rfl, rfl, rfl⟩

end Frame

/-! ### Executions are sequences of moves -/

section Executions

variable {workflow : Workflow Obj} {Allowed : String → Option Obj → ChildContext Obj → Prop}

abbrev Moves (workflow : Workflow Obj)
    (Allowed : String → Option Obj → ChildContext Obj → Prop) :
    LoopState Obj → LoopState Obj → Prop :=
  Relation.ReflTransGen (Move workflow Allowed)

theorem schedule_moves (names : List String) (state : LoopState Obj) :
    Moves workflow Allowed state (scheduleNodes workflow names state) := by
  induction names generalizing state with
  | nil => exact .refl
  | cons name rest ih =>
      simp only [scheduleNodes]
      split
      · exact ih state
      · rename_i idle
        split
        · exact ih state
        · split
          · exact .refl
          · rename_i room
            split
            · exact ih state
            · rename_i trigger triggerBuffer popped
              exact .head (.start idle (by simpa using room) popped) (ih _)

/-- The failure of a task that was done: the state it was handled in and what it
returned. -/
structure FailedFrom (workflow : Workflow Obj)
    (Allowed : String → Option Obj → ChildContext Obj → Prop) (state final : LoopState Obj)
    (error : WorkflowError) : Prop where
  ends : ∃ before name task child, Moves workflow Allowed state before ∧
    before.pendingTasks.get? name = some task ∧ child.error = some error.error ∧
    error.name = name ∧
    final = (popCompletedTask before name task child).setStatus name .failed

/-- What the executions that follow a state come from; the loop is at its wait
right after scheduling. -/
def Follows (workflow : Workflow Obj)
    (Allowed : String → Option Obj → ChildContext Obj → Prop) (state : LoopState Obj) :
    Execution Obj → Prop
  | .looping final =>
      ∃ before, Moves workflow Allowed state before ∧ final = scheduleReadyNodes workflow before
  | .raised final error => FailedFrom workflow Allowed state final error

theorem Follows.moves {state final : LoopState Obj}
    (follows : Follows workflow Allowed state (.looping final)) :
    Moves workflow Allowed state final := by
  obtain ⟨before, moves, rfl⟩ := follows
  exact moves.trans (schedule_moves _ before)

theorem complete_pending {state : LoopState Obj} {name : String} {task : NodeTask Obj}
    {child : ChildContext Obj} :
    (handleCompletion workflow (popCompletedTask state name task child) name child).pendingTasks =
      state.pendingTasks.erase name := by
  rw [handle_completion_eq, downstream_frame.1, finished_frame.1]

theorem Follows.after {state next : LoopState Obj} (moves : Moves workflow Allowed state next)
    {execution : Execution Obj} (follows : Follows workflow Allowed next execution) :
    Follows workflow Allowed state execution := by
  cases execution with
  | looping final =>
      obtain ⟨before, between, scheduled⟩ := follows
      exact ⟨before, moves.trans between, scheduled⟩
  | raised final error =>
      obtain ⟨before, name, task, child, between, rest⟩ := follows.ends
      exact ⟨before, name, task, child, moves.trans between, rest⟩

theorem handle_done_follows (entries : List (String × NodeTask Obj × ChildContext Obj))
    (state : LoopState Obj) (once : (entries.map Prod.fst).Nodup)
    (pending : ∀ entry ∈ entries, state.pendingTasks.get? entry.1 = some entry.2.1)
    (allowed : ∀ entry ∈ entries, entry.2.2.error = none →
      Allowed entry.1 entry.2.1.input entry.2.2) :
    Follows workflow Allowed state (handleDone workflow entries state) := by
  induction entries generalizing state with
  | nil => exact ⟨state, .refl, rfl⟩
  | cons entry rest ih =>
      obtain ⟨name, task, child⟩ := entry
      obtain ⟨fresh, once⟩ := List.nodup_cons.mp once
      have isPending : state.pendingTasks.get? name = some task := pending _ List.mem_cons_self
      simp only [handleDone]
      cases failed : child.error with
      | some error => exact ⟨state, name, task, child, .refl, isPending, failed, rfl, rfl⟩
      | none =>
          have may : Allowed name task.input child := allowed _ List.mem_cons_self failed
          refine Follows.after (.single (.complete isPending failed may)) (ih _ once ?_ ?_)
          · intro other member
            have different : other.1 ≠ name := by
              intro same
              exact fresh (List.mem_map.mpr ⟨other, member, same⟩)
            rw [complete_pending, Dict.get?_erase, if_neg different]
            exact pending other (List.mem_cons_of_mem _ member)
          · exact fun other member => allowed other (List.mem_cons_of_mem _ member)

theorem order_done_pending {state : LoopState Obj} {results : List (String × ChildContext Obj)}
    {entry : String × NodeTask Obj × ChildContext Obj} (member : entry ∈ orderDone state results) :
    state.pendingTasks.get? entry.1 = some entry.2.1 ∧
      results.lookup entry.1 = some entry.2.2 := by
  simp only [orderDone, List.mem_filterMap, Option.map_eq_some_iff] at member
  obtain ⟨row, inside, child, found, rfl⟩ := member
  exact ⟨(Dict.get?_eq_some_iff _ _ _).mpr inside, found⟩

theorem order_done_once (state : LoopState Obj) (results : List (String × ChildContext Obj)) :
    ((orderDone state results).map Prod.fst).Nodup := by
  have names : ((orderDone state results).map Prod.fst).Sublist state.pendingTasks.keys := by
    unfold orderDone Table.keys
    generalize state.pendingTasks.rows = rows
    induction rows with
    | nil => exact .slnil
    | cons row rest ih =>
        rw [List.filterMap_cons]
        cases results.lookup row.1 with
        | none => exact ih.cons _
        | some child => exact ih.cons_cons _
  exact names.nodup state.pendingTasks.keys_nodup

/-- The guard of a wake-up: what the tasks without an error return is allowed. -/
def Returns (Allowed : String → Option Obj → ChildContext Obj → Prop) (execution : Execution Obj)
    (results : List (String × ChildContext Obj)) : Prop :=
  ∀ state, execution = .looping state → ∀ name task child,
    state.pendingTasks.get? name = some task → results.lookup name = some child →
    child.error = none → Allowed name task.input child

theorem step_follows {state : LoopState Obj} {results : List (String × ChildContext Obj)}
    {next : Execution Obj} (returns : Returns Allowed (.looping state) results)
    (stepped : step workflow (.looping state) results = some next) :
    Follows workflow Allowed state next := by
  simp only [step, wake] at stepped
  have once := order_done_once state results
  have entries : ∀ entry ∈ orderDone state results,
      state.pendingTasks.get? entry.1 = some entry.2.1 ∧
        results.lookup entry.1 = some entry.2.2 := fun entry => order_done_pending
  split at stepped
  · cases stepped
  · rename_i done rest listed
    cases stepped
    rw [← listed]
    apply handle_done_follows _ _ once
    · exact fun entry member => (entries entry member).1
    · intro entry member fine
      obtain ⟨pending, found⟩ := entries entry member
      exact returns state rfl _ _ _ pending found fine

theorem start_follows (input : Option Obj) :
    Follows workflow Allowed (seedStartTriggers workflow input) (start workflow input) :=
  ⟨_, .refl, rfl⟩

/-- Every execution is made of moves from the seeded triggers. -/
theorem run_follows {input : Option Obj} {labels : List (List (String × ChildContext Obj))}
    {execution : Execution Obj}
    (returns : Runs.Guarded (step workflow) (Returns Allowed) (start workflow input) labels)
    (ran : Runs.run (step workflow) (start workflow input) labels = some execution) :
    Follows workflow Allowed (seedStartTriggers workflow input) execution := by
  apply Runs.run_invariant (Follows workflow Allowed (seedStartTriggers workflow input)) _ labels _ _
    (start_follows input) returns ran
  intro current results next follows allowed stepped
  cases current with
  | looping state => exact Follows.after follows.moves (step_follows allowed stepped)
  | raised state error => cases stepped

end Executions

end Choirworks.Workflow
