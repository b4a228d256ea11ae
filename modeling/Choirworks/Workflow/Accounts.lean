import Choirworks.Library.Firsts
import Choirworks.Library.Fronts
import Choirworks.Workflow.Buffering

/-!
What the buffer of each node adds up to. For a node that takes every trigger it
is what its predecessors have sent. For a join it depends on when the predecessors
end; the condition `Timely` on the order of events says where it does not.
-/

namespace Choirworks.Workflow

variable {Obj : Type}

section Condition

variable (workflow : Workflow Obj) (front : List (Happening Obj)) (name : String)
  (child : ChildContext Obj) (join : String)

/-- A join waits for one node only, apart from the start. -/
def Sole : Prop :=
  ∀ other ∈ workflow.graph.predecessors join, other = startName ∨ other = name

/-- No run of a predecessor has triggered the join. -/
def Quiet : Prop :=
  ∀ other ∈ workflow.graph.predecessors join, ∀ run ∈ finished other front,
    nextCount workflow other run.2 join = 0

/-- The node ends for the first time, each other predecessor has run once and rests,
and each has triggered the join as often. -/
def First : Prop :=
  finished name front = [] ∧
    ∀ other ∈ workflow.graph.predecessors join, other ≠ startName → other ≠ name →
      ∃ run ∈ finished other front, finished other front = [run] ∧
        started other front = [run.1] ∧
        nextCount workflow other run.2 join = nextCount workflow name child join

/-- What the end of a predecessor does to a join does not depend on its time: the
one predecessor hands over its own output, and the last of several either triggers
the join as all others have done or, like them, not at all. -/
def Settles : Prop :=
  (Sole workflow name join →
    nextCount workflow name child join = 0 ∨ child.output.isSome = true ∨
      ∀ run ∈ finished name front, run.2.output.isNone = true) ∧
  (¬ Sole workflow name join →
    (∀ other ∈ workflow.graph.predecessors join,
      other = startName ∨ other = name ∨ finished other front ≠ []) →
    (nextCount workflow name child join = 0 ∧ Quiet workflow front join) ∨
      First workflow front name child join)

variable {workflow}

def Happening.Timely (workflow : Workflow Obj) (front : List (Happening Obj)) :
    Happening Obj → Prop
  | .finished name _ child =>
      ∀ join ∈ workflow.graph.nodes.map (·.name), isJoin workflow join = true →
        name ∈ workflow.graph.predecessors join → Settles workflow front name child join
  | _ => True

end Condition

/-- Each completion settles the joins behind it. -/
def Timely (workflow : Workflow Obj) (history : List (Happening Obj)) : Prop :=
  Fronts.Each (fun front event => event.Timely workflow front) history

section Decidable

variable [DecidableEq Obj] (workflow : Workflow Obj) (front : List (Happening Obj)) (name : String)
  (child : ChildContext Obj) (join : String)

instance : Decidable (Sole workflow name join) :=
  inferInstanceAs (Decidable (∀ _ ∈ _, _))

instance : Decidable (Quiet workflow front join) :=
  inferInstanceAs (Decidable (∀ _ ∈ _, ∀ _ ∈ _, _))

instance : Decidable (First workflow front name child join) :=
  inferInstanceAs (Decidable (_ ∧ _))

instance : Decidable (Settles workflow front name child join) :=
  inferInstanceAs (Decidable (_ ∧ _))

instance (event : Happening Obj) : Decidable (event.Timely workflow front) :=
  match event with
  | .finished _ _ _ => inferInstanceAs (Decidable (∀ _ ∈ _, _))
  | .started _ _ => .isTrue trivial
  | .buffered _ _ => .isTrue trivial

instance (history : List (Happening Obj)) : Decidable (Timely workflow history) :=
  inferInstanceAs (Decidable (Fronts.Each _ _))

end Decidable

section Timely

variable {workflow : Workflow Obj}

theorem join_known {join : String} (isJoin_ : isJoin workflow join = true) :
    join ∈ workflow.graph.nodes.map (·.name) := by
  unfold isJoin Graph.requiresAllPredecessors at isJoin_
  cases found : workflow.graph.getStaticNodeByName join with
  | none => simp [found] at isJoin_
  | some node =>
      refine List.mem_map.mpr ⟨node, List.mem_of_find?_eq_some found, ?_⟩
      simpa using List.find?_some found

end Timely

/-- The output of the first run of a node. -/
def outputOf (history : List (Happening Obj)) (name : String) : Option Obj :=
  (finished name history).head?.bind (·.2.output)

/-- What the runs of a node have sent to another. -/
def sent (workflow : Workflow Obj) (history : List (Happening Obj)) (target name : String) :
    List (Option Obj) :=
  (finished name history).flatMap fun run =>
    List.replicate (nextCount workflow name run.2 target) run.2.output

/-- What the events so far add up to. -/
structure Accounted (workflow : Workflow Obj) (behaviour : Behaviour Obj) (input : Option Obj)
    (state : LoopState Obj) : Prop where
  books : Books workflow state
  settled : ∀ name, state.statusOf name = some .completed ↔
    finished name state.history ≠ [] ∧ name ∉ state.pendingTasks.keys
  returned : ∀ name, ∀ run ∈ finished name state.history,
    run.2 = nodeContext workflow behaviour name run.1
  entered : ∀ name, buffered name state.history ≠ [] → workflow.graph.predecessors name ≠ []
  stored : ∀ join, isJoin workflow join = true → startName ∈ workflow.graph.predecessors join →
    state.nodeOutputs.get? startName = some input
  blank : ∀ name, name ≠ startName →
    (∀ run ∈ finished name state.history, run.2.output = none) →
    (state.nodeOutputs.get? name).join = none
  outputs : ∀ name, name ≠ startName → ∀ run, finished name state.history = [run] →
    (state.nodeOutputs.get? name).join = run.2.output
  plain : ∀ target, isJoin workflow target = false →
    (buffered target state.history).Perm (List.replicate (startCount workflow target) input ++
      (workflow.graph.predecessors target).flatMap (sent workflow state.history target))
  onlyStart : ∀ join, isJoin workflow join = true →
    (∀ other ∈ workflow.graph.predecessors join, other = startName) →
    buffered join state.history = List.replicate (startCount workflow join)
      (joinInput workflow input (fun _ => none) join)
  sole : ∀ join, isJoin workflow join = true → ∀ name ∈ workflow.graph.predecessors join,
    name ≠ startName → Sole workflow name join →
    buffered join state.history = (finished name state.history).flatMap fun run =>
      List.replicate (nextCount workflow name run.2 join)
        (joinInput workflow input (fun _ => run.2.output) join)
  waiting : ∀ join, isJoin workflow join = true →
    (∃ other ∈ workflow.graph.predecessors join, other ≠ startName ∧
      finished other state.history = []) → buffered join state.history = []
  several : ∀ join, isJoin workflow join = true → ∀ name ∈ workflow.graph.predecessors join,
    name ≠ startName → ¬ Sole workflow name join →
    (∀ other ∈ workflow.graph.predecessors join,
      other = startName ∨ finished other state.history ≠ []) →
    (Quiet workflow state.history join ∧ buffered join state.history = []) ∨
      ∀ other ∈ workflow.graph.predecessors join, other ≠ startName →
        ∃ run, finished other state.history = [run] ∧
          buffered join state.history = List.replicate (nextCount workflow other run.2 join)
            (joinInput workflow input (outputOf state.history) join)

section Account

variable {workflow : Workflow Obj} {behaviour : Behaviour Obj} {input : Option Obj}
  {state next : LoopState Obj} {name : String} {task : NodeTask Obj} {child : ChildContext Obj}
  {trigger : Trigger Obj}

theorem accounted_seeded :
    Accounted workflow behaviour input (seedStartTriggers workflow input) := by
  obtain ⟨seeding, adds, stores⟩ := seed_spec workflow input
  have noRuns : ∀ name, finished name (seedStartTriggers workflow input).history = [] :=
    fun name => (seeding.runs name).2
  -- A join with a predecessor other than the start is not seeded.
  have closed : ∀ join, isJoin workflow join = true →
      ∀ other ∈ workflow.graph.predecessors join, other ≠ startName →
        buffered join (seedStartTriggers workflow input).history = [] := by
    intro join isJoin_ other member different
    have notAll : ¬ (workflow.graph.predecessors join).all (· = startName) = true := by
      simp only [List.all_eq_true, decide_eq_true_eq]
      exact fun all => different (all other member)
    rw [adds, seedContribution, if_pos isJoin_, if_neg notAll]
    simp
  constructor
  case books => exact books_seeded input
  case settled =>
    intro name
    unfold LoopState.statusOf
    rw [seeding.fresh, Dict.get?_empty, noRuns]
    simp
  case returned =>
    intro name run member
    rw [noRuns] at member
    cases member
  case entered =>
    intro name some_ none_
    -- A node without predecessors has no edge from the start, so nothing was seeded for it.
    have count : startCount workflow name = 0 := by
      apply List.count_eq_zero.mpr
      intro member
      obtain ⟨edge, inside, into⟩ := List.mem_map.mp member
      have listed : edge.fromNode.name ∈ workflow.graph.predecessors name :=
        mem_predecessors.mpr ⟨edge, (List.mem_filter.mp inside).1, rfl, into⟩
      rw [none_] at listed
      cases listed
    rw [adds, count] at some_
    exact some_ rfl
  case stored => exact stores
  case blank =>
    intro name other _
    rw [seeding.outputs name other]
    rfl
  case outputs =>
    intro name _ run ran
    rw [noRuns] at ran
    cases ran
  case plain =>
    intro target plain
    rw [adds, seedContribution, if_neg (by simp [plain])]
    simp [sent, noRuns]
  case onlyStart =>
    intro join isJoin_ all
    have all' : (workflow.graph.predecessors join).all (· = startName) = true := by
      simpa using all
    rw [adds, seedContribution, if_pos isJoin_, if_pos all']
    simp
  case sole =>
    intro join isJoin_ name member different _
    rw [closed join isJoin_ name member different, noRuns]
    rfl
  case waiting =>
    rintro join isJoin_ ⟨other, member, different, _⟩
    exact closed join isJoin_ other member different
  case several =>
    intro join _ name member different _ all
    rcases all name member with isStart | ran
    · exact absurd isStart different
    · exact absurd (noRuns name) ran

theorem Accounted.start {triggerBuffer : Dict String (List (Trigger Obj))}
    (accounted : Accounted workflow behaviour input state) (idle : name ∉ state.pendingTasks.keys)
    (room : atConcurrencyLimit workflow state = false)
    (popped : popTrigger state.triggerBuffer name = some (trigger, triggerBuffer)) :
    Accounted workflow behaviour input (startedState state triggerBuffer name trigger) := by
  -- A start finishes no run and buffers no trigger, so all counts stand.
  have runs : ∀ other, finished other (startedState state triggerBuffer name trigger).history =
      finished other state.history := by
    intro other
    rw [started_frame.2.2, finished_started]
  have triggers : ∀ other, buffered other (startedState state triggerBuffer name trigger).history =
      buffered other state.history := by
    intro other
    rw [started_frame.2.2, buffered_started]
  have outputs : outputOf (startedState state triggerBuffer name trigger).history =
      outputOf state.history := by
    funext other
    rw [outputOf, outputOf, runs]
  have sent_eq : ∀ target other,
      sent workflow (startedState state triggerBuffer name trigger).history target other =
        sent workflow state.history target other := by
    intro target other
    rw [sent, sent, runs]
  constructor
  case books => exact accounted.books.start idle room popped
  case settled =>
    intro other
    rw [started_status, runs]
    simp only [startedState, startNodeTask, prepareNodeStateForStarting, Dict.mem_keys_set]
    by_cases same : other = name
    · simp [same]
    · simp [same, accounted.settled other]
  case returned =>
    intro other
    rw [runs]
    exact accounted.returned other
  case entered =>
    intro other
    rw [triggers]
    exact accounted.entered other
  case stored => exact accounted.stored
  case blank =>
    intro other
    rw [runs]
    exact accounted.blank other
  case outputs =>
    intro other
    rw [runs]
    exact accounted.outputs other
  case plain =>
    intro target
    rw [triggers, funext (sent_eq target)]
    exact accounted.plain target
  case onlyStart =>
    intro join
    rw [triggers]
    exact accounted.onlyStart join
  case sole =>
    intro join isJoin_ other
    rw [triggers, runs]
    exact accounted.sole join isJoin_ other
  case waiting =>
    intro join
    simp only [triggers, runs]
    exact accounted.waiting join
  case several =>
    intro join
    simp only [Quiet, triggers, runs, outputs]
    exact accounted.several join

/-! ### One completion -/

theorem Accounted.not_start (accounted : Accounted workflow behaviour input state)
    (pending : state.pendingTasks.get? name = some task) : name ≠ startName := by
  have some_ : buffered name state.history ≠ [] := by
    rw [accounted.books.queue, accounted.books.alone, pending]
    simp
  obtain ⟨predecessor, member⟩ := List.exists_mem_of_ne_nil _ (accounted.entered name some_)
  obtain ⟨edge, inside, _, rfl⟩ := mem_predecessors.mp member
  exact (validated workflow.checked).startFree edge inside

theorem next_count_zero {source target : String}
    (elsewhere : source ∉ workflow.graph.predecessors target) :
    nextCount workflow source child target = 0 :=
  List.count_eq_zero.mpr fun routed => elsewhere (next_has_edge routed)

/-- The state behind one completion, by what can be read off it. -/
structure Completed (workflow : Workflow Obj) (state : LoopState Obj) (name : String)
    (task : NodeTask Obj) (child : ChildContext Obj) (next : LoopState Obj) : Prop where
  runs : ∀ other, finished other next.history =
    finished other state.history ++ if name = other then [(task.input, child)] else []
  triggers : ∀ target, buffered target next.history = buffered target state.history ++
    (List.replicate (nextCount workflow name child target)
      (contribution workflow next child target)).flatten
  status : ∀ other, next.statusOf other =
    if other = name then some .completed else state.statusOf other
  outputs : ∀ other, next.nodeOutputs.get? other =
    if other = name ∧ child.output ≠ none then some child.output
    else state.nodeOutputs.get? other
  pending : next.pendingTasks = state.pendingTasks.erase name
  extends_ : state.history ++ [.finished name task.input child] <+: next.history

theorem completion_extends : state.history ++ [.finished name task.input child] <+:
    (handleCompletion workflow (popCompletedTask state name task child) name child).history := by
  rw [handle_completion_eq, ← (@finished_frame _ state name child task).2.2]
  exact downstream_keeps
    (fun next => (finishedState state name task child).history <+: next.history)
    (fun _ _ _ longer => longer.trans (List.prefix_append _ _)) (List.prefix_refl _)

theorem completed_of (books : Books workflow state)
    (pending : state.pendingTasks.get? name = some task) :
    Completed workflow state name task child
      (handleCompletion workflow (popCompletedTask state name task child) name child) := by
  have known : state.statusOf name ≠ none := by
    rw [(books.running name).mpr ((Dict.mem_keys_iff_get? _ _).mpr ⟨task, pending⟩)]
    exact Option.some_ne_none _
  rw [handle_completion_eq]
  obtain ⟨tasks, nodes, outputs⟩ :=
    @downstream_frame _ workflow (finishedState state name task child) name child
  have history := (@finished_frame _ state name child task).2.2
  constructor
  case runs =>
    intro other
    rw [(downstream_runs name other).2, history, finished_finished]
  case triggers =>
    intro target
    have same : contribution workflow (bufferDownstreamTriggers workflow
          (finishedState state name task child) name child) child target =
        contribution workflow (finishedState state name task child) child target := by
      exact downstream_keeps
        (fun next => contribution workflow next child target =
          contribution workflow (finishedState state name task child) child target)
        (fun _ _ _ same => same) rfl
    rw [downstream_buffered, same, history, buffered_finished]
  case status =>
    intro other
    rw [← finished_status known other]
    unfold LoopState.statusOf
    rw [nodes]
  case outputs =>
    intro other
    rw [outputs, finished_outputs]
  case pending => rw [tasks, finished_frame.1]
  case extends_ => exact completion_extends

theorem Completed.runs_self (completed : Completed workflow state name task child next) :
    finished name next.history = finished name state.history ++ [(task.input, child)] := by
  rw [completed.runs, if_pos rfl]

theorem Completed.runs_other (completed : Completed workflow state name task child next)
    {other : String} (different : other ≠ name) :
    finished other next.history = finished other state.history := by
  rw [completed.runs, if_neg (Ne.symm different), List.append_nil]

theorem Completed.front (completed : Completed workflow state name task child next) :
    state.history <+: next.history :=
  (List.prefix_append _ _).trans completed.extends_

/-- What the completed node does not trigger keeps its triggers. -/
theorem Completed.triggers_elsewhere (completed : Completed workflow state name task child next)
    {target : String} (elsewhere : name ∉ workflow.graph.predecessors target) :
    buffered target next.history = buffered target state.history := by
  rw [completed.triggers, next_count_zero elsewhere]
  simp

theorem Completed.settles (completed : Completed workflow state name task child next)
    (timely : Timely workflow next.history) {join : String} (isJoin_ : isJoin workflow join = true)
    (member : name ∈ workflow.graph.predecessors join) :
    Settles workflow state.history name child join :=
  ((Fronts.each_snoc _ _).mp (timely.front completed.extends_)).2 join (join_known isJoin_) isJoin_ member

theorem Accounted.complete_blank (accounted : Accounted workflow behaviour input state)
    (completed : Completed workflow state name task child next) (other : String)
    (notStart : other ≠ startName)
    (blank : ∀ run ∈ finished other next.history, run.2.output = none) :
    (next.nodeOutputs.get? other).join = none := by
  have before : ∀ run ∈ finished other state.history, run.2.output = none := by
    intro run ran
    apply blank
    rw [completed.runs]
    exact List.mem_append_left _ ran
  by_cases same : other = name
  · subst same
    have none_ : child.output = none := blank (task.input, child) (by simp [completed.runs_self])
    rw [completed.outputs, if_neg (by simp [none_])]
    exact accounted.blank other notStart before
  · rw [completed.outputs, if_neg (by simp [same])]
    exact accounted.blank other notStart before

theorem Accounted.complete_outputs (accounted : Accounted workflow behaviour input state)
    (completed : Completed workflow state name task child next) (other : String)
    (notStart : other ≠ startName) (run : Option Obj × ChildContext Obj)
    (only : finished other next.history = [run]) :
    (next.nodeOutputs.get? other).join = run.2.output := by
  by_cases same : other = name
  · subst same
    rw [completed.runs_self, List.append_eq_singleton_iff] at only
    rcases only with ⟨none_, this⟩ | ⟨_, impossible⟩
    · obtain rfl := (List.singleton_inj.mp this).symm
      have before := accounted.blank other notStart (by simp [none_])
      rw [completed.outputs]
      cases returned : child.output with
      | none => simpa [returned] using before
      | some output => simp
    · cases impossible
  · rw [completed.runs_other same] at only
    rw [completed.outputs, if_neg (by simp [same])]
    exact accounted.outputs other notStart run only

theorem Completed.sent_eq (completed : Completed workflow state name task child next)
    (target other : String) :
    sent workflow next.history target other = sent workflow state.history target other ++
      if other = name then List.replicate (nextCount workflow name child target) child.output
      else [] := by
  by_cases same : other = name
  · subst same
    simp [sent, completed.runs_self]
  · simp [sent, completed.runs_other same, same]

/-- One node of a list without repetitions contributes once. -/
theorem flat_map_one {Value : Type} {names : List String} (once : names.Nodup) (name : String)
    (extra : List Value) (outside : name ∉ names → extra = []) :
    names.flatMap (fun other => if other = name then extra else []) = extra := by
  induction names with
  | nil => simp [outside]
  | cons first rest ih =>
      obtain ⟨fresh, once⟩ := List.nodup_cons.mp once
      rw [List.flatMap_cons]
      by_cases same : first = name
      · subst same
        have nothing : rest.flatMap (fun other => if other = first then extra else []) = [] := by
          apply List.flatMap_eq_nil_iff.mpr
          intro other member
          rw [if_neg]
          rintro rfl
          exact fresh member
        simp [nothing]
      · rw [if_neg same, List.nil_append]
        apply ih once
        intro absent
        exact outside (by simp [absent, Ne.symm same])

theorem Accounted.complete_plain (accounted : Accounted workflow behaviour input state)
    (completed : Completed workflow state name task child next) {target : String}
    (plain : isJoin workflow target = false) :
    (buffered target next.history).Perm (List.replicate (startCount workflow target) input ++
      (workflow.graph.predecessors target).flatMap (sent workflow next.history target)) := by
  have adds : (workflow.graph.predecessors target).flatMap (fun other =>
      if other = name then List.replicate (nextCount workflow name child target) child.output
      else []) = List.replicate (nextCount workflow name child target) child.output := by
    apply flat_map_one (Firsts.firsts_nodup _)
    intro elsewhere
    rw [next_count_zero elsewhere]
    rfl
  have more := List.flatMap_append_perm (workflow.graph.predecessors target)
    (sent workflow state.history target) (fun other =>
      if other = name then List.replicate (nextCount workflow name child target) child.output
      else [])
  rw [adds, ← funext (completed.sent_eq target)] at more
  rw [completed.triggers, contribution, if_neg (by simp [plain])]
  have new : (List.replicate (nextCount workflow name child target) [child.output]).flatten =
      List.replicate (nextCount workflow name child target) child.output := by
    simp
  rw [new]
  refine ((accounted.plain target plain).append_right _).trans ?_
  rw [List.append_assoc]
  exact more.append_left _

theorem Accounted.complete_sole (accounted : Accounted workflow behaviour input state)
    (pending : state.pendingTasks.get? name = some task)
    (completed : Completed workflow state name task child next)
    (timely : Timely workflow next.history) {join other : String}
    (isJoin_ : isJoin workflow join = true) (member : other ∈ workflow.graph.predecessors join)
    (different : other ≠ startName) (sole : Sole workflow other join) :
    buffered join next.history = (finished other next.history).flatMap fun run =>
      List.replicate (nextCount workflow other run.2 join)
        (joinInput workflow input (fun _ => run.2.output) join) := by
  have notStart := accounted.not_start pending
  have before := accounted.sole join isJoin_ other member different sole
  by_cases same : other = name
  · subst same
    have opened : barrierOpen workflow next join = true := by
      apply List.all_eq_true.mpr
      intro third listed
      unfold predecessorCompleted
      rcases sole third listed with isStart | self
      · simp [isStart]
      · simp [completed.status, self]
    have own : nextCount workflow other child join = 0 ∨
        barrierInput workflow next join =
          joinInput workflow input (fun _ => child.output) join := by
      rcases (completed.settles timely isJoin_ member).1 sole with none_ | holds
      · exact Or.inl none_
      · -- the stored output is the one that has just come
        have latest : (next.nodeOutputs.get? other).join = child.output := by
          rw [completed.outputs]
          rcases holds with has | none_
          · rw [if_pos ⟨rfl, Option.isSome_iff_ne_none.mp has⟩]
            rfl
          · cases returned : child.output with
            | none =>
                have blank := accounted.blank other notStart
                  (by simpa using none_)
                simpa using blank
            | some output => simp
        right
        unfold barrierInput joinInput
        congr 2
        apply List.map_congr_left
        intro third listed
        rcases sole third listed with isStart | self
        · subst isStart
          rw [if_pos rfl, completed.outputs, if_neg (by simp [Ne.symm notStart]),
            accounted.stored join isJoin_ listed]
          rfl
        · subst self
          rw [if_neg notStart, latest]
    rw [completed.triggers, before, completed.runs_self, List.flatMap_append, contribution,
      if_pos isJoin_, if_pos opened]
    rcases own with none_ | same
    · simp [none_]
    · simp [same]
  · have elsewhere : name ∉ workflow.graph.predecessors join := by
      intro inside
      rcases sole name inside with isStart | self
      · exact notStart isStart
      · exact same self.symm
    rw [completed.triggers_elsewhere elsewhere, completed.runs_other same]
    exact before

theorem Accounted.complete_waiting (accounted : Accounted workflow behaviour input state)
    (completed : Completed workflow state name task child next) {join : String}
    (isJoin_ : isJoin workflow join = true)
    (some_ : ∃ other ∈ workflow.graph.predecessors join, other ≠ startName ∧
      finished other next.history = []) : buffered join next.history = [] := by
  obtain ⟨other, member, notStart, none_⟩ := some_
  have different : other ≠ name := by
    rintro rfl
    rw [completed.runs_self] at none_
    simp at none_
  rw [completed.runs_other different] at none_
  have closed : barrierOpen workflow next join = false := by
    apply List.all_eq_false.mpr
    refine ⟨other, member, ?_⟩
    have unsettled : state.statusOf other ≠ some .completed := fun settled =>
      ((accounted.settled other).mp settled).1 none_
    simp [predecessorCompleted, notStart, completed.status, different, unsettled]
  rw [completed.triggers, accounted.waiting join isJoin_ ⟨other, member, notStart, none_⟩,
    contribution, if_pos isJoin_, if_neg (by simp [closed])]
  simp

theorem join_input_congr {left right : String → Option Obj} {join : String}
    (same : ∀ other ∈ workflow.graph.predecessors join, other ≠ startName →
      left other = right other) :
    joinInput workflow input left join = joinInput workflow input right join := by
  unfold joinInput
  congr 2
  apply List.map_congr_left
  intro other member
  split
  · rfl
  · rename_i notStart
    rw [same other member notStart]

/-- The last predecessor of a join opens the barrier with the outputs of all. -/
theorem Accounted.opens (accounted : Accounted workflow behaviour input state)
    (pending : state.pendingTasks.get? name = some task)
    (completed : Completed workflow state name task child next) {join : String}
    (isJoin_ : isJoin workflow join = true) (first : First workflow state.history name child join) :
    contribution workflow next child join =
      [joinInput workflow input (outputOf next.history) join] := by
  obtain ⟨fresh, others⟩ := first
  have only : ∀ other ∈ workflow.graph.predecessors join, other ≠ startName →
      ∃ run, finished other next.history = [run] := by
    intro other member different
    by_cases same : other = name
    · subst same
      exact ⟨(task.input, child), by rw [completed.runs_self, fresh, List.nil_append]⟩
    · obtain ⟨run, _, one, _⟩ := others other member different same
      exact ⟨run, by rw [completed.runs_other same, one]⟩
  have opened : barrierOpen workflow next join = true := by
    apply List.all_eq_true.mpr
    intro other member
    unfold predecessorCompleted
    by_cases isStart : other = startName
    · simp [isStart]
    · by_cases same : other = name
      · simp [completed.status, same]
      · obtain ⟨run, _, one, started_, _⟩ := others other member isStart same
        -- it has ended as often as it has started
        have rests : other ∉ state.pendingTasks.keys := by
          intro waits
          obtain ⟨running, found⟩ := (Dict.mem_keys_iff_get? _ _).mp waits
          have alone := accounted.books.alone other
          rw [one, started_, found] at alone
          simp at alone
        have settled := (accounted.settled other).mpr ⟨by simp [one], rests⟩
        simp [completed.status, same, settled]
  have outputs : barrierInput workflow next join =
      joinInput workflow input (outputOf next.history) join := by
    unfold barrierInput joinInput
    congr 2
    apply List.map_congr_left
    intro other member
    by_cases isStart : other = startName
    · subst isStart
      have notName : startName ≠ name := Ne.symm (accounted.not_start pending)
      rw [if_pos rfl, completed.outputs, if_neg (by simp [notName]),
        accounted.stored join isJoin_ member]
      rfl
    · obtain ⟨run, one⟩ := only other member isStart
      rw [if_neg isStart, accounted.complete_outputs completed other isStart run one, outputOf, one]
      rfl
  rw [contribution, if_pos isJoin_, if_pos opened, outputs]

theorem Accounted.complete_several (accounted : Accounted workflow behaviour input state)
    (pending : state.pendingTasks.get? name = some task)
    (completed : Completed workflow state name task child next)
    (timely : Timely workflow next.history) {join some_ : String}
    (isJoin_ : isJoin workflow join = true) (listed : some_ ∈ workflow.graph.predecessors join)
    (notStart : some_ ≠ startName) (notSole : ¬ Sole workflow some_ join)
    (all : ∀ other ∈ workflow.graph.predecessors join,
      other = startName ∨ finished other next.history ≠ []) :
    (Quiet workflow next.history join ∧ buffered join next.history = []) ∨
      ∀ other ∈ workflow.graph.predecessors join, other ≠ startName →
        ∃ run, finished other next.history = [run] ∧
          buffered join next.history = List.replicate (nextCount workflow other run.2 join)
            (joinInput workflow input (outputOf next.history) join) := by
  have earlier := accounted.several join isJoin_ some_ listed notStart notSole
  by_cases inside : name ∈ workflow.graph.predecessors join
  · have before : ∀ other ∈ workflow.graph.predecessors join,
        other = startName ∨ other = name ∨ finished other state.history ≠ [] := by
      intro other member
      rcases all other member with isStart | ended
      · exact Or.inl isStart
      · by_cases same : other = name
        · exact Or.inr (Or.inl same)
        · rw [completed.runs_other same] at ended
          exact Or.inr (Or.inr ended)
    have several : ¬ Sole workflow name join := by
      intro sole
      rcases sole some_ listed with isStart | same
      · exact notStart isStart
      · exact notSole (same ▸ sole)
    have unopened : finished name state.history = [] → buffered join state.history = [] :=
      fun fresh => accounted.waiting join isJoin_ ⟨name, inside, accounted.not_start pending, fresh⟩
    rcases (completed.settles timely isJoin_ inside).2 several before with
      ⟨none_, quiet⟩ | first
    · -- nothing has triggered the join, and this run does not either
      left
      constructor
      · intro other member run ran
        rw [completed.runs] at ran
        rcases List.mem_append.mp ran with old | new
        · exact quiet other member run old
        · split at new
          · rename_i same
            obtain rfl := List.mem_singleton.mp new
            subst same
            exact none_
          · cases new
      · rw [completed.triggers, none_]
        by_cases fresh : finished name state.history = []
        · simp [unopened fresh]
        · have ended : ∀ other ∈ workflow.graph.predecessors join,
              other = startName ∨ finished other state.history ≠ [] := by
            intro other member
            rcases before other member with isStart | rfl | ran
            · exact Or.inl isStart
            · exact Or.inr fresh
            · exact Or.inr ran
          rcases earlier ended with ⟨_, nothing⟩ | once
          · simp [nothing]
          · obtain ⟨run, one, copies⟩ := once some_ listed notStart
            simp [copies, quiet some_ listed run (by simp [one])]
    · right
      intro other member different
      rw [completed.triggers, unopened first.1, accounted.opens pending completed isJoin_ first]
      by_cases same : other = name
      · subst same
        refine ⟨(task.input, child), ?_, by simp⟩
        rw [completed.runs_self, first.1, List.nil_append]
      · obtain ⟨run, _, one, _, count⟩ := first.2 other member different same
        exact ⟨run, by rw [completed.runs_other same, one], by simp [count]⟩
  · have keeps : ∀ other ∈ workflow.graph.predecessors join,
        finished other next.history = finished other state.history := by
      intro other member
      apply completed.runs_other
      rintro rfl
      exact inside member
    have outputs : joinInput workflow input (outputOf next.history) join =
        joinInput workflow input (outputOf state.history) join := by
      apply join_input_congr
      intro other member _
      rw [outputOf, outputOf, keeps other member]
    rw [completed.triggers_elsewhere inside, outputs]
    rcases earlier (fun other member => keeps other member ▸ all other member) with
      ⟨quiet, nothing⟩ | once
    · left
      exact ⟨fun other member run ran => quiet other member run (keeps other member ▸ ran), nothing⟩
    · right
      intro other member different
      obtain ⟨run, one, copies⟩ := once other member different
      exact ⟨run, by rw [keeps other member, one], copies⟩

theorem Accounted.complete (accounted : Accounted workflow behaviour input state)
    (pending : state.pendingTasks.get? name = some task)
    (returns : Behaves workflow behaviour name task.input child)
    (completed : Completed workflow state name task child next) (books : Books workflow next)
    (timely : Timely workflow next.history) : Accounted workflow behaviour input next := by
  have notStart := accounted.not_start pending
  constructor
  case books => exact books
  case settled =>
    intro other
    rw [completed.status, completed.pending, Dict.mem_keys_iff_get?, Dict.get?_erase]
    by_cases same : other = name
    · subst same
      simp [completed.runs_self]
    · rw [if_neg same, if_neg same, completed.runs_other same, accounted.settled other,
        Dict.mem_keys_iff_get?]
  case returned =>
    intro other run ran
    rw [completed.runs] at ran
    rcases List.mem_append.mp ran with old | new
    · exact accounted.returned other run old
    · split at new
      · -- The one new run is the completed task's own.
        rename_i same
        obtain rfl := List.mem_singleton.mp new
        subst same
        exact returns
      · cases new
  case entered =>
    intro target some_ none_
    rw [completed.triggers_elsewhere (by simp [none_])] at some_
    exact accounted.entered target some_ none_
  case stored =>
    intro join isJoin_ fromStart
    rw [completed.outputs, if_neg (by simp [Ne.symm notStart])]
    exact accounted.stored join isJoin_ fromStart
  case blank => exact accounted.complete_blank completed
  case outputs => exact accounted.complete_outputs completed
  case plain => exact fun target plain => accounted.complete_plain completed plain
  case onlyStart =>
    intro join isJoin_ all
    rw [completed.triggers_elsewhere (fun member => notStart (all name member))]
    exact accounted.onlyStart join isJoin_ all
  case sole =>
    intro join isJoin_ other member different sole
    exact accounted.complete_sole pending completed timely isJoin_ member different sole
  case waiting => exact fun join isJoin_ => accounted.complete_waiting completed isJoin_
  case several =>
    intro join isJoin_ other member different notSole all
    exact accounted.complete_several pending completed timely isJoin_ member different notSole all

theorem move_history {Allowed : String → Option Obj → ChildContext Obj → Prop}
    (moved : Move workflow Allowed state next) : state.history <+: next.history := by
  cases moved with
  | start idle room popped => exact List.prefix_append _ _
  | complete pending fine allowed => exact (List.prefix_append _ _).trans completion_extends

theorem Accounted.move (accounted : Accounted workflow behaviour input state)
    (moved : Move workflow (Behaves workflow behaviour) state next)
    (timely : Timely workflow next.history) : Accounted workflow behaviour input next := by
  have books := accounted.books.move moved
  cases moved with
  | start idle room popped => exact accounted.start idle room popped
  | complete pending fine allowed =>
      exact accounted.complete pending allowed (completed_of accounted.books pending) books timely

/-- What holds of every state whose events so far are timely. -/
theorem accounted_of_timely (moves : Moves workflow (Behaves workflow behaviour)
      (seedStartTriggers workflow input) state) (timely : Timely workflow state.history) :
    Accounted workflow behaviour input state := by
  induction moves with
  | refl => exact accounted_seeded
  | tail earlier moved ih =>
      exact (ih (timely.front (move_history moved))).move moved timely

end Account

end Choirworks.Workflow
