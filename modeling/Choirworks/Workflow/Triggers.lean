import Choirworks.Workflow.Moves

/-!
No trigger is lost: what has been buffered for a node is what its runs have
taken, in that order, and what is still in the buffer. A node has at most one
task, the limit holds at every wait, and the loop only ends with an empty buffer.
-/

namespace Choirworks.Workflow

variable {Obj : Type}

namespace Happening

def bufferedFor (name : String) : Happening Obj → Option (Option Obj)
  | .buffered other input => if other = name then some input else none
  | _ => none

def startedFor (name : String) : Happening Obj → Option (Option Obj)
  | .started other input => if other = name then some input else none
  | _ => none

def finishedFor (name : String) : Happening Obj → Option (Option Obj × ChildContext Obj)
  | .finished other input child => if other = name then some (input, child) else none
  | _ => none

end Happening

/-- The inputs of the triggers that have been buffered for a node. -/
def buffered (name : String) (history : List (Happening Obj)) : List (Option Obj) :=
  history.filterMap (Happening.bufferedFor name)

/-- The inputs of the runs of a node. -/
def started (name : String) (history : List (Happening Obj)) : List (Option Obj) :=
  history.filterMap (Happening.startedFor name)

/-- The runs of a node that have ended, with their inputs and results. -/
def finished (name : String) (history : List (Happening Obj)) :
    List (Option Obj × ChildContext Obj) :=
  history.filterMap (Happening.finishedFor name)

section History

variable (name other : String) (history : List (Happening Obj)) (input : Option Obj)
  (child : ChildContext Obj)

@[simp] theorem buffered_buffered : buffered name (history ++ [.buffered other input]) =
    buffered name history ++ if other = name then [input] else [] := by
  by_cases same : other = name <;> simp [buffered, Happening.bufferedFor, same]

@[simp] theorem buffered_started :
    buffered name (history ++ [.started other input]) = buffered name history := by
  simp [buffered, Happening.bufferedFor]

@[simp] theorem buffered_finished :
    buffered name (history ++ [.finished other input child]) = buffered name history := by
  simp [buffered, Happening.bufferedFor]

@[simp] theorem started_buffered :
    started name (history ++ [.buffered other input]) = started name history := by
  simp [started, Happening.startedFor]

@[simp] theorem started_started : started name (history ++ [.started other input]) =
    started name history ++ if other = name then [input] else [] := by
  by_cases same : other = name <;> simp [started, Happening.startedFor, same]

@[simp] theorem started_finished :
    started name (history ++ [.finished other input child]) = started name history := by
  simp [started, Happening.startedFor]

@[simp] theorem finished_buffered :
    finished name (history ++ [.buffered other input]) = finished name history := by
  simp [finished, Happening.finishedFor]

@[simp] theorem finished_started :
    finished name (history ++ [.started other input]) = finished name history := by
  simp [finished, Happening.finishedFor]

@[simp] theorem finished_finished : finished name (history ++ [.finished other input child]) =
    finished name history ++ if other = name then [(input, child)] else [] := by
  by_cases same : other = name <;> simp [finished, Happening.finishedFor, same]

end History

/-- What the loop keeps about triggers, tasks and the limit. -/
structure Books (workflow : Workflow Obj) (state : LoopState Obj) : Prop where
  queue : ∀ name, buffered name state.history =
    started name state.history ++ (state.triggerBuffer.getD name []).map (·.input)
  filled : ∀ name, state.triggerBuffer.get? name ≠ some []
  alone : ∀ name, started name state.history = (finished name state.history).map Prod.fst ++
    ((state.pendingTasks.get? name).map (·.input)).toList
  turns : ∀ front, front <+: state.history → ∀ name,
    (finished name front).length ≤ (started name front).length ∧
      (started name front).length ≤ (finished name front).length + 1
  running : ∀ name, state.statusOf name = some .running ↔ name ∈ state.pendingTasks.keys
  limited : ∀ limit, workflow.maxConcurrency = some limit → 0 < limit →
    (state.pendingTasks.keys.length : Int) ≤ limit

section Steps

variable {workflow : Workflow Obj} {state : LoopState Obj} {name : String}
  {trigger : Trigger Obj} {task : NodeTask Obj} {child : ChildContext Obj}

/-- With one more event, only the whole history is a new front. -/
theorem turns_snoc {history : List (Happening Obj)} {event : Happening Obj}
    {pending : String → Option (Option Obj)}
    (turns : ∀ front, front <+: history → ∀ name,
      (finished name front).length ≤ (started name front).length ∧
        (started name front).length ≤ (finished name front).length + 1)
    (alone : ∀ name, started name (history ++ [event]) =
      (finished name (history ++ [event])).map Prod.fst ++ (pending name).toList) :
    ∀ front, front <+: history ++ [event] → ∀ name,
      (finished name front).length ≤ (started name front).length ∧
        (started name front).length ≤ (finished name front).length + 1 := by
  intro front isFront name
  rcases List.prefix_concat_iff.mp isFront with rfl | earlier
  · rw [alone name, List.length_append, List.length_map]
    cases pending name <;> simp
  · exact turns front earlier name

theorem Books.bufferTrigger (books : Books workflow state) (name : String)
    (trigger : Trigger Obj) : Books workflow (state.bufferTrigger name trigger) := by
  have alone : ∀ other, started other (state.history ++ [.buffered name trigger.input]) =
      (finished other (state.history ++ [.buffered name trigger.input])).map Prod.fst ++
        ((state.pendingTasks.get? other).map (·.input)).toList := by
    intro other
    rw [started_buffered, finished_buffered]
    exact books.alone other
  constructor
  case queue =>
    intro other
    simp only [LoopState.bufferTrigger, buffered_buffered, started_buffered, get_d_set]
    rw [books.queue]
    by_cases same : name = other
    · subst same
      simp
    · simp [same, Ne.symm same]
  case filled =>
    intro other
    simp only [LoopState.bufferTrigger, Dict.get?_set]
    split
    · simp
    · exact books.filled other
  case alone => exact alone
  case turns => exact turns_snoc books.turns alone
  case running => exact books.running
  case limited => exact books.limited

theorem Books.setOutput (books : Books workflow state) (name : String) (output : Option Obj) :
    Books workflow (state.setOutput name output) :=
  ⟨books.queue, books.filled, books.alone, books.turns, books.running, books.limited⟩

theorem keys_erase_length {Value : Type} (dict : Dict String Value) (name : String) :
    (Table.keys (dict.erase name)).length ≤ dict.keys.length := by
  simp only [Table.keys, Table.erase, List.length_map]
  exact List.length_filter_le _ _

/-- A task that is done leaves the pending tasks, whatever its node becomes. -/
theorem Books.pop (books : Books workflow state)
    (pending : state.pendingTasks.get? name = some task) {status : NodeStatus}
    (stopped : status ≠ .running) :
    Books workflow ((popCompletedTask state name task child).setStatus name status) := by
  obtain ⟨tasks, buffer, _, history⟩ :=
    @popped_frame _ state name child task status
  have isPending : name ∈ state.pendingTasks.keys :=
    (Dict.mem_keys_iff_get? _ _).mpr ⟨task, pending⟩
  have known : state.statusOf name ≠ none := by
    rw [(books.running name).mpr isPending]
    exact Option.some_ne_none _
  -- the run moves from the pending tasks to the ended ones
  have alone : ∀ other, started other (state.history ++ [.finished name task.input child]) =
      (finished other (state.history ++ [.finished name task.input child])).map Prod.fst ++
        ((Dict.get? (state.pendingTasks.erase name) other).map (·.input)).toList := by
    intro other
    rw [started_finished, finished_finished, books.alone other, Dict.get?_erase]
    by_cases same : other = name
    · subst same
      simp [pending]
    · simp [same, Ne.symm same]
  constructor
  case queue =>
    intro other
    rw [history, buffer, buffered_finished, started_finished]
    exact books.queue other
  case filled =>
    rw [buffer]
    exact books.filled
  case alone =>
    rw [history, tasks]
    exact alone
  case turns =>
    rw [history]
    exact turns_snoc books.turns alone
  case running =>
    intro other
    rw [popped_status known, tasks, Dict.mem_keys_iff_get?, Dict.get?_erase]
    by_cases same : other = name
    · simp [same, stopped]
    · rw [if_neg same, if_neg same, books.running other, Dict.mem_keys_iff_get?]
  case limited =>
    intro limit bound positive
    have fewer := keys_erase_length state.pendingTasks name
    have before := books.limited limit bound positive
    rw [tasks]
    omega

theorem keys_set_length {Value : Type} {dict : Dict String Value} {name : String} {value : Value}
    (fresh : name ∉ dict.keys) : (dict.set name value).keys.length = dict.keys.length + 1 := by
  rw [Dict.set, Table.keys_insert_new _ _ fresh, List.length_append, List.length_singleton]

theorem Books.start {triggerBuffer : Dict String (List (Trigger Obj))}
    (books : Books workflow state) (idle : name ∉ state.pendingTasks.keys)
    (room : atConcurrencyLimit workflow state = false)
    (popped : popTrigger state.triggerBuffer name = some (trigger, triggerBuffer)) :
    Books workflow (startedState state triggerBuffer name trigger) := by
  obtain ⟨later, first, rest, empty⟩ := pop_trigger_spec popped
  have none_ : state.pendingTasks.get? name = none := by
    cases found : state.pendingTasks.get? name with
    | none => rfl
    | some task => exact absurd ((Dict.mem_keys_iff_get? _ _).mpr ⟨task, found⟩) idle
  have alone : ∀ other, started other (state.history ++ [.started name trigger.input]) =
      (finished other (state.history ++ [.started name trigger.input])).map Prod.fst ++
        (((startedState state triggerBuffer name trigger).pendingTasks.get? other).map
          (·.input)).toList := by
    intro other
    rw [started_started, finished_started, books.alone other, started_pending]
    by_cases same : other = name
    · subst same
      simp [none_]
    · simp [same, Ne.symm same]
  constructor
  case queue =>
    intro other
    simp only [started_frame.1, started_frame.2.2, buffered_started, started_started]
    -- the trigger that starts was the first in its buffer
    rw [books.queue other, rest other]
    by_cases same : name = other
    · subst same
      simp [first]
    · simp [same, Ne.symm same]
  case filled =>
    intro other found
    exact books.filled other (empty other found)
  case alone => exact alone
  case turns => exact turns_snoc books.turns alone
  case running =>
    intro other
    rw [started_status]
    simp only [startedState, startNodeTask, prepareNodeStateForStarting, Dict.mem_keys_set]
    by_cases same : other = name
    · simp [same]
    · simp [same, books.running other]
  case limited =>
    intro limit bound positive
    simp only [startedState, startNodeTask, prepareNodeStateForStarting]
    rw [keys_set_length idle]
    unfold atConcurrencyLimit at room
    simp only [bound, Bool.and_eq_false_iff, decide_eq_false_iff_not] at room
    omega

theorem books_empty : Books workflow LoopState.empty := by
  constructor
  case turns =>
    intro front isFront name
    obtain rfl := List.prefix_nil.mp isFront
    simp [started, finished]
  case limited =>
    intro limit _ positive
    exact Int.le_of_lt positive
  case running =>
    intro name
    simp only [LoopState.statusOf, LoopState.empty, Dict.get?_empty]
    simp [Table.keys, Table.empty]
  case queue => exact fun _ => rfl
  case filled => simp [LoopState.empty]
  case alone => exact fun _ => rfl

theorem books_seeded (input : Option Obj) : Books workflow (seedStartTriggers workflow input) :=
  seed_keeps (Books workflow) (fun _ name trigger books => books.bufferTrigger name trigger)
    (fun _ name output books => books.setOutput name output) input books_empty

theorem Books.finish (books : Books workflow state)
    (pending : state.pendingTasks.get? name = some task) :
    Books workflow (finishedState state name task child) := by
  have popped : Books workflow
      ((popCompletedTask state name task child).setStatus name .completed) :=
    books.pop pending (by decide)
  unfold finishedState
  dsimp only
  split
  · exact popped
  · exact popped.setOutput _ _

theorem Books.move {Allowed : String → Option Obj → ChildContext Obj → Prop}
    {next : LoopState Obj} (books : Books workflow state)
    (moved : Move workflow Allowed state next) : Books workflow next := by
  cases moved with
  | start idle room popped => exact books.start idle room popped
  | complete pending fine allowed =>
      exact downstream_keeps (Books workflow)
        (fun _ name trigger books => books.bufferTrigger name trigger) (books.finish pending)

theorem Books.moves {Allowed : String → Option Obj → ChildContext Obj → Prop}
    {next : LoopState Obj} (books : Books workflow state)
    (moves : Moves workflow Allowed state next) : Books workflow next := by
  induction moves with
  | refl => exact books
  | tail _ moved ih => exact ih.move moved

/-! ### The end of the loop -/

theorem schedule_busy (names : List String) (busy : state.pendingTasks.keys ≠ []) :
    (scheduleNodes workflow names state).pendingTasks.keys ≠ [] := by
  induction names generalizing state with
  | nil => exact busy
  | cons name rest ih =>
      simp only [scheduleNodes]
      split
      · exact ih busy
      · split
        · exact ih busy
        · split
          · exact busy
          · split
            · exact ih busy
            · apply ih
              exact List.ne_nil_of_mem ((Dict.mem_keys_set _ name name _).mpr (Or.inl rfl))

/-- Scheduling that leaves no task pending found no trigger. -/
theorem schedule_idle (books : Books workflow state)
    (ended : (scheduleReadyNodes workflow state).pendingTasks.keys = []) :
    (scheduleReadyNodes workflow state).triggerBuffer.keys = [] := by
  unfold scheduleReadyNodes at *
  cases waiting : state.triggerBuffer.keys with
  | nil => simpa [scheduleNodes] using waiting
  | cons name rest =>
      exfalso
      rw [waiting] at ended
      by_cases busy : state.pendingTasks.keys = []
      · -- nothing is in the way of the first waiting node
        have idle : name ∉ state.pendingTasks.keys := by simp [busy]
        have stopped : state.statusOf name ≠ some .running := by
          rw [ne_eq, books.running name]
          exact idle
        have room : atConcurrencyLimit workflow state = false := by
          unfold atConcurrencyLimit
          cases workflow.maxConcurrency with
          | none => rfl
          | some limit =>
              simp only [busy, List.length_nil, Bool.and_eq_false_iff, decide_eq_false_iff_not]
              omega
        obtain ⟨trigger, triggerBuffer, popped⟩ :=
          pop_trigger_some (books.filled name) (by simp [waiting])
        simp only [scheduleNodes, if_neg idle, if_neg stopped, room, popped] at ended
        exact schedule_busy rest
          (List.ne_nil_of_mem ((Dict.mem_keys_set _ name name _).mpr (Or.inl rfl))) ended
      · exact schedule_busy (name :: rest) busy ended

theorem Books.follows {Allowed : String → Option Obj → ChildContext Obj → Prop}
    (books : Books workflow state) {execution : Execution Obj}
    (follows : Follows workflow Allowed state execution) : Books workflow execution.state := by
  cases execution with
  | looping final => exact books.moves follows.moves
  | raised final error =>
      obtain ⟨before, name, task, child, moves, pending, _, _, rfl⟩ := follows.ends
      exact (books.moves moves).pop pending (by decide)

end Steps

/-- What holds of triggers, runs and tasks in a state of the loop. The history
up to any point has at most one run of a node that has not ended. -/
structure TriggersConserved (workflow : Workflow Obj) (execution : Execution Obj) : Prop where
  queue : ∀ name, buffered name execution.state.history =
    started name execution.state.history ++
      (execution.state.triggerBuffer.getD name []).map (·.input)
  tasks : ∀ name, started name execution.state.history =
    (finished name execution.state.history).map Prod.fst ++
      ((execution.state.pendingTasks.get? name).map (·.input)).toList
  turns : ∀ front, front <+: execution.state.history → ∀ name,
    (finished name front).length ≤ (started name front).length ∧
      (started name front).length ≤ (finished name front).length + 1
  limited : ∀ limit, workflow.maxConcurrency = some limit → 0 < limit →
    (execution.state.pendingTasks.keys.length : Int) ≤ limit
  ended : ∀ state, execution = .looping state → state.pendingTasks.keys = [] →
    state.triggerBuffer.keys = [] ∧ ∀ name,
      buffered name state.history = started name state.history ∧
        started name state.history = (finished name state.history).map Prod.fst

theorem get_of_no_keys {Value : Type} {dict : Dict String Value} (empty : dict.keys = [])
    (name : String) : dict.get? name = none := by
  cases found : dict.get? name with
  | none => rfl
  | some value =>
      have known := (Dict.mem_keys_iff_get? dict name).mpr ⟨value, found⟩
      rw [empty] at known
      cases known

theorem Books.ended {workflow : Workflow Obj} {state : LoopState Obj} (books : Books workflow state)
    (idle : state.pendingTasks.keys = []) (empty : state.triggerBuffer.keys = []) (name : String) :
    buffered name state.history = started name state.history ∧
      started name state.history = (finished name state.history).map Prod.fst := by
  constructor
  · rw [books.queue name]
    simp [Dict.getD, get_of_no_keys empty name]
  · rw [books.alone name]
    simp [get_of_no_keys idle name]

/-- For every graph, all results of the nodes and every order of completions, each
trigger is taken by one run of its node, first in, first out, and the loop ends
only when nothing is left. -/
theorem triggers_conserved (workflow : Workflow Obj) (input : Option Obj)
    (labels : List (List (String × ChildContext Obj))) (execution : Execution Obj)
    (ran : Runs.run (step workflow) (start workflow input) labels = some execution) :
    TriggersConserved workflow execution := by
  have follows : Follows workflow (fun _ _ _ => True) (seedStartTriggers workflow input)
      execution := by
    apply run_follows _ ran
    apply Runs.guarded_of_always
    intro _ _ _ _ _ _ _ _ _ _
    trivial
  have books : Books workflow execution.state := (books_seeded input).follows follows
  constructor
  case queue => exact books.queue
  case tasks => exact books.alone
  case turns => exact books.turns
  case limited => exact books.limited
  case ended =>
    rintro state rfl idle
    obtain ⟨before, moves, rfl⟩ := follows
    have empty := schedule_idle ((books_seeded input).moves moves) idle
    exact ⟨empty, books.ended idle empty⟩

/-- A draft that is reviewed until it passes. -/
def reviewLoop : Workflow Nat where
  graph :=
    let start : BaseNode := ⟨0, startName, false⟩
    let draft : BaseNode := ⟨1, "draft", false⟩
    let review : BaseNode := ⟨2, "review", false⟩
    ⟨[⟨start, draft, none⟩, ⟨draft, review, none⟩, ⟨review, draft, some (.one (.str "again"))⟩]⟩
  maxConcurrency := some 1
  asDict := fun outputs => outputs.length
  checked := by decide +kernel

/-- Two drafts, the second after a review. -/
theorem review_loop_conserved :
    ∃ execution, Runs.run (step reviewLoop) (start reviewLoop (some 0))
        [[("draft", ⟨some 1, none, none⟩)], [("review", ⟨some 2, some (.one (.str "again")), none⟩)],
          [("draft", ⟨some 3, none, none⟩)]] = some execution ∧
      TriggersConserved reviewLoop execution := by
  refine ⟨_, rfl, ?_⟩
  exact triggers_conserved reviewLoop (some 0)
    [[("draft", ⟨some 1, none, none⟩)], [("review", ⟨some 2, some (.one (.str "again")), none⟩)],
      [("draft", ⟨some 3, none, none⟩)]] _ rfl

end Choirworks.Workflow
