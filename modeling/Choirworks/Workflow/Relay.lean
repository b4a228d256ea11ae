import Choirworks.Workflow.Triggers

/-!
Executions in which one node is at work and no trigger waits. Its end starts the
one node behind it on its output, ends the loop if there is none, or raises its
error, so the loop stays sequential as long as each completion leads to one node.
-/

namespace Choirworks.Workflow

variable {Obj : Type}

/-- One node is at work, on this input, and nothing waits. -/
structure AtWork (workflow : Workflow Obj) (state : LoopState Obj) (name : String)
    (value : Option Obj) : Prop where
  books : Books workflow state
  pending : ∃ task, state.pendingTasks.rows = [(name, task)] ∧ task.input = value
  buffer : state.triggerBuffer.rows = []

section Relay

variable {workflow : Workflow Obj} {state : LoopState Obj} {name target : String}
  {value : Option Obj} {trigger : Trigger Obj} {child : ChildContext Obj} {task : NodeTask Obj}

theorem room_for_one (idle : state.pendingTasks.rows = []) :
    atConcurrencyLimit workflow state = false := by
  unfold atConcurrencyLimit Table.keys
  rw [idle]
  cases workflow.maxConcurrency with
  | none => rfl
  | some limit =>
      simp only [List.map_nil, List.length_nil, Bool.and_eq_false_iff, decide_eq_false_iff_not]
      omega

/-- The one trigger that waits is taken. -/
theorem schedule_one (books : Books workflow state) (idle : state.pendingTasks.rows = [])
    (waiting : state.triggerBuffer.rows = [(name, [trigger])]) :
    AtWork workflow (scheduleReadyNodes workflow state) name trigger.input := by
  have names : state.triggerBuffer.keys = [name] := by rw [Table.keys, waiting, List.map_singleton]
  have free : name ∉ state.pendingTasks.keys := by simp [Table.keys, idle]
  have rests : state.statusOf name ≠ some .running := fun running =>
    free ((books.running name).mp running)
  have found : state.triggerBuffer.getD name [] = [trigger] := by
    have stored := (Dict.get?_eq_some_iff state.triggerBuffer name [trigger]).mpr (by simp [waiting])
    rw [Dict.getD, stored, Option.getD_some]
  have popped : popTrigger state.triggerBuffer name =
      some (trigger, state.triggerBuffer.erase name) := by
    rw [popTrigger, found]
  have scheduled : scheduleReadyNodes workflow state =
      startedState state (state.triggerBuffer.erase name) name trigger := by
    rw [scheduleReadyNodes, names]
    simp only [scheduleNodes, if_neg free, if_neg rests, room_for_one idle, popped]
    rfl
  rw [scheduled]
  refine ⟨books.start free (room_for_one idle) popped, ?_, ?_⟩
  · have fresh := fun task => Table.insert_rows_new state.pendingTasks (name, task) free
    exact ⟨_, (fresh _).trans (by rw [idle]; rfl), rfl⟩
  · show (state.triggerBuffer.erase name).rows = []
    simp [Table.erase, waiting]

theorem order_done_one (pending : state.pendingTasks.rows = [(name, task)]) :
    orderDone state [(name, child)] = [(name, task, child)] := by
  simp [orderDone, pending]

theorem AtWork.one (atWork : AtWork workflow state name value) :
    ∃ task, state.pendingTasks.rows = [(name, task)] ∧
      state.pendingTasks.get? name = some task ∧ task.input = value := by
  obtain ⟨task, pending, input⟩ := atWork.pending
  exact ⟨task, pending, (Dict.get?_eq_some_iff _ _ _).mpr (by simp [pending]), input⟩

/-- A wake-up for a node that ends well. -/
theorem AtWork.finishes (atWork : AtWork workflow state name value) (fine : child.error = none) :
    ∃ middle, Books workflow middle ∧ middle.pendingTasks.rows = [] ∧
      middle.triggerBuffer.rows = [] ∧
      (∀ output, child.output = some output → middle.nodeOutputs.get? name = some (some output)) ∧
      step workflow (.looping state) [(name, child)] = some (.looping
        (scheduleReadyNodes workflow (bufferDownstreamTriggers workflow middle name child))) := by
  obtain ⟨task, pending, found, _⟩ := atWork.one
  refine ⟨finishedState state name task child, atWork.books.finish found, ?_, ?_, ?_, ?_⟩
  · rw [finished_frame.1]
    simp [Table.erase, pending]
  · rw [finished_frame.2.1, atWork.buffer]
  · intro output returned
    rw [finished_outputs, if_pos ⟨rfl, by simp [returned]⟩, returned]
  · simp only [step, wake, order_done_one pending, handleDone, fine, handle_completion_eq]

theorem AtWork.hands_over (atWork : AtWork workflow state name value) (fine : child.error = none)
    (next : workflow.graph.getNextPendingNodes name child.route = [target])
    (plain : isJoin workflow target = false) :
    ∃ after, step workflow (.looping state) [(name, child)] = some (.looping after) ∧
      AtWork workflow after target child.output := by
  obtain ⟨middle, books, idle, empty, _, stepped⟩ := atWork.finishes fine
  refine ⟨_, stepped, ?_⟩
  have buffered : bufferDownstreamTriggers workflow middle name child =
      middle.bufferTrigger target ⟨child.output⟩ := by
    simp [bufferDownstreamTriggers, next, plain]
  have free : target ∉ middle.triggerBuffer.keys := by simp [Table.keys, empty]
  have none_ : middle.triggerBuffer.getD target [] = [] := by
    rw [Dict.getD, get_of_no_keys (by simp [Table.keys, empty])]
    rfl
  rw [buffered]
  refine @schedule_one _ _ _ _ ⟨child.output⟩ (books.bufferTrigger target _) idle ?_
  show (middle.triggerBuffer.set target (middle.triggerBuffer.getD target [] ++ [_])).rows = _
  rw [Dict.set, Table.insert_rows_new _ _ free, empty, none_]
  rfl

/-- Behind the last node the loop ends, with its output stored. -/
theorem AtWork.ends (atWork : AtWork workflow state name value) (fine : child.error = none)
    (next : workflow.graph.getNextPendingNodes name child.route = []) :
    ∃ after, step workflow (.looping state) [(name, child)] = some (.looping after) ∧
      after.pendingTasks.keys = [] ∧
      ∀ output, child.output = some output → after.nodeOutputs.get? name = some (some output) := by
  obtain ⟨middle, _, idle, empty, stored, stepped⟩ := atWork.finishes fine
  have buffered : bufferDownstreamTriggers workflow middle name child = middle := by
    simp [bufferDownstreamTriggers, next]
  have rests : scheduleReadyNodes workflow middle = middle := by
    simp [scheduleReadyNodes, Table.keys, empty, scheduleNodes]
  rw [buffered, rests] at stepped
  exact ⟨middle, stepped, by simp [Table.keys, idle], stored⟩

theorem AtWork.raises (atWork : AtWork workflow state name value) {error : String}
    (failed : child.error = some error) :
    ∃ after, step workflow (.looping state) [(name, child)] = some (.raised after ⟨name, error⟩) := by
  obtain ⟨task, pending, _⟩ := atWork.one
  refine ⟨(popCompletedTask state name task child).setStatus name .failed, ?_⟩
  simp only [step, wake, order_done_one pending, handleDone, failed]

/-- No other node has a task that could end. -/
theorem AtWork.only (atWork : AtWork workflow state name value) {other : String}
    (different : other ≠ name) : state.pendingTasks.get? other = none := by
  obtain ⟨task, pending, _⟩ := atWork.one
  cases found : state.pendingTasks.get? other with
  | none => rfl
  | some task =>
      have listed := (Dict.get?_eq_some_iff _ _ _).mp found
      simp only [pending, List.mem_singleton, Prod.mk.injEq] at listed
      exact absurd listed.1 different

end Relay

end Choirworks.Workflow
