import Choirworks.Workflow.Joins

/-!
Workflows whose edges have no routes and whose nodes with several predecessors are
joins: every node runs once, behind all its predecessors, and what it gets and
returns does not depend on the order of the completions or on the limit.
-/

namespace Choirworks.Workflow

variable {Obj : Type}

/-- No edge has a route, and only joins have several predecessors. -/
structure Unconditional (workflow : Workflow Obj) : Prop where
  routes : ∀ edge ∈ workflow.graph.edges, edge.route = none
  merges : ∀ node ∈ workflow.graph.nodes,
    1 < (workflow.graph.predecessors node.name).length → node.requiresAllPredecessors = true

section Edges

variable {workflow : Workflow Obj} {name target : String} {child : ChildContext Obj}

theorem Unconditional.next (unconditional : Unconditional workflow) (routes : Option Routes) :
    workflow.graph.getNextPendingNodes name routes =
      (workflow.graph.edges.filter (·.fromNode.name = name)).map (·.toNode.name) := by
  have free := unconditional.routes
  have taken : workflow.graph.edges.filter (Graph.takenEdge name routes) =
      workflow.graph.edges.filter (·.fromNode.name = name) :=
    List.filter_congr fun edge member => by
      simp [Graph.takenEdge, Graph.matchedEdge, free edge member]
  have none : workflow.graph.edges.filter (Graph.fallbackEdge name) = [] :=
    List.filter_eq_nil_iff.mpr fun edge member => by simp [Graph.fallbackEdge, free edge member]
  rw [next_nodes_eq, taken, none]
  simp

/-- From one node to another there is at most one edge. -/
theorem Unconditional.edges_once (unconditional : Unconditional workflow) :
    ((workflow.graph.edges.filter (·.fromNode.name = name)).map (·.toNode.name)).Nodup := by
  rw [List.Nodup, List.pairwise_map]
  have apart := (validated workflow.checked).apart.filter (·.fromNode.name = name)
  apply apart.imp_of_mem
  intro left right leftIn rightIn isApart sameTo
  have leftFrom : left.fromNode.name = name := by simpa using (List.mem_filter.mp leftIn).2
  have rightFrom : right.fromNode.name = name := by simpa using (List.mem_filter.mp rightIn).2
  exact (isApart.routed (leftFrom.trans rightFrom.symm) sameTo).1
    (unconditional.routes left (List.mem_filter.mp leftIn).1)

theorem Unconditional.edge_count (unconditional : Unconditional workflow) :
    ((workflow.graph.edges.filter (·.fromNode.name = name)).map (·.toNode.name)).count target =
      if name ∈ workflow.graph.predecessors target then 1 else 0 := by
  rw [unconditional.edges_once.count]
  have same : target ∈ (workflow.graph.edges.filter (·.fromNode.name = name)).map (·.toNode.name) ↔
      name ∈ workflow.graph.predecessors target := by
    rw [mem_predecessors, List.mem_map]
    simp only [List.mem_filter, decide_eq_true_eq, and_assoc]
  simp only [same]

theorem Unconditional.next_count (unconditional : Unconditional workflow) :
    nextCount workflow name child target =
      if name ∈ workflow.graph.predecessors target then 1 else 0 := by
  rw [nextCount, unconditional.next, unconditional.edge_count]

theorem Unconditional.start_count (unconditional : Unconditional workflow) :
    startCount workflow target =
      if startName ∈ workflow.graph.predecessors target then 1 else 0 := by
  rw [startCount, unconditional.edge_count]

theorem ranks_bounded (edges : List Edge) (rank : String → Nat) :
    ∃ bound, ∀ edge ∈ edges, rank edge.fromNode.name ≤ bound := by
  induction edges with
  | nil => exact ⟨0, by simp⟩
  | cons first rest ih =>
      obtain ⟨bound, below⟩ := ih
      refine ⟨max bound (rank first.fromNode.name), ?_⟩
      intro edge member
      rcases List.mem_cons.mp member with rfl | later
      · exact Nat.le_max_right _ _
      · exact Nat.le_trans (below edge later) (Nat.le_max_left _ _)

/-- The check for unconditional cycles is one for all cycles here. -/
theorem Unconditional.acyclic (unconditional : Unconditional workflow) : Acyclic workflow.graph := by
  obtain ⟨rank, falls⟩ := (validated workflow.checked).ranked
  obtain ⟨bound, below⟩ := ranks_bounded workflow.graph.edges rank
  refine ⟨fun name => bound - rank name, ?_⟩
  intro edge member
  have lower := falls edge member (unconditional.routes edge member)
  have high := below edge member
  show bound - rank edge.fromNode.name < bound - rank edge.toNode.name
  omega

end Edges

/-! ### Every node runs at most once -/

section Once

variable {workflow : Workflow Obj} {behaviour : Behaviour Obj} {input : Option Obj}
  {state next : LoopState Obj} {name : String} {task : NodeTask Obj} {child : ChildContext Obj}

/-- All predecessors have ended. -/
def Ready (workflow : Workflow Obj) (history : List (Happening Obj)) (name : String) : Prop :=
  workflow.graph.predecessors name ≠ [] ∧
    ∀ other ∈ workflow.graph.predecessors name, other = startName ∨ finished other history ≠ []

theorem Accounted.start_never_ends (accounted : Accounted workflow behaviour input state) :
    finished startName state.history = [] := by
  cases runs : finished startName state.history with
  | nil => rfl
  | cons run rest =>
      have some_ : buffered startName state.history ≠ [] := by
        rw [accounted.books.queue, accounted.books.alone, runs]
        simp
      obtain ⟨predecessor, member⟩ :=
        List.exists_mem_of_ne_nil _ (accounted.entered startName some_)
      obtain ⟨edge, inside, _, into⟩ := mem_predecessors.mp member
      exact absurd into ((validated workflow.checked).startFree edge inside)

theorem lone_run {run : Option Obj × ChildContext Obj} {rest : List (Option Obj × ChildContext Obj)}
    (lone : (run :: rest).length ≤ 1) : rest = [] := by
  rw [List.length_cons] at lone
  exact List.length_eq_zero_iff.mp (by omega)

theorem Accounted.triggered_join (accounted : Accounted workflow behaviour input state)
    (unconditional : Unconditional workflow)
    (lone : ∀ name, (finished name state.history).length ≤ 1) {join : String}
    (isJoin_ : isJoin workflow join = true) :
    (Ready workflow state.history join → (buffered join state.history).length = 1) ∧
      (¬ Ready workflow state.history join → buffered join state.history = []) := by
  -- a join behind the start alone is triggered by the input
  by_cases all : ∀ other ∈ workflow.graph.predecessors join, other = startName
  · rw [accounted.onlyStart join isJoin_ all, unconditional.start_count, List.length_replicate]
    constructor
    · rintro ⟨some_, _⟩
      obtain ⟨predecessor, member⟩ := List.exists_mem_of_ne_nil _ some_
      rw [if_pos (all predecessor member ▸ member)]
    · intro unready
      have none_ : workflow.graph.predecessors join = [] := by
        by_contra some_
        exact unready ⟨some_, fun other member => Or.inl (all other member)⟩
      simp [none_]
  · push Not at all
    obtain ⟨name, member, notStart⟩ := all
    constructor
    · rintro ⟨_, ended⟩
      have ran := (ended name member).resolve_left notStart
      have once := lone name
      -- a sole predecessor sends itself, several are joined once
      by_cases sole : Sole workflow name join
      · rw [accounted.sole join isJoin_ name member notStart sole]
        cases runs : finished name state.history with
        | nil => exact absurd runs ran
        | cons run rest =>
            rw [runs] at once
            simp [lone_run once, unconditional.next_count, member]
      · rcases accounted.several join isJoin_ name member notStart sole ended with
          ⟨quiet, _⟩ | copies
        · obtain ⟨run, inside⟩ := List.exists_mem_of_ne_nil _ ran
          have count := quiet name member run inside
          rw [unconditional.next_count, if_pos member] at count
          cases count
        · obtain ⟨run, _, copy⟩ := copies name member notStart
          simp [copy, unconditional.next_count, member]
    · intro unready
      apply accounted.waiting join isJoin_
      by_contra none_
      push Not at none_
      exact unready ⟨List.ne_nil_of_mem member, fun other listed =>
        or_iff_not_imp_left.mpr (none_ other listed)⟩

theorem Accounted.triggered_plain (accounted : Accounted workflow behaviour input state)
    (unconditional : Unconditional workflow)
    (lone : ∀ name, (finished name state.history).length ≤ 1) {target : String}
    (plain : isJoin workflow target = false) :
    (Ready workflow state.history target → (buffered target state.history).length = 1) ∧
      (¬ Ready workflow state.history target → buffered target state.history = []) := by
  have sums := accounted.plain target plain
  -- two predecessors would make it a join
  have few : (workflow.graph.predecessors target).length ≤ 1 := by
    by_contra several
    obtain ⟨name, member⟩ := List.exists_mem_of_length_pos
      (show 0 < (workflow.graph.predecessors target).length by omega)
    obtain ⟨edge, inside, _, rfl⟩ := mem_predecessors.mp member
    have isJoin_ := unconditional.merges edge.toNode (mem_nodes.mpr ⟨edge, inside, Or.inr rfl⟩)
      (by omega)
    rw [is_join_edge inside, isJoin_] at plain
    cases plain
  rw [unconditional.start_count] at sums
  cases listed : workflow.graph.predecessors target with
  | nil =>
      simp only [listed, List.not_mem_nil, if_false, List.replicate_zero, List.flatMap_nil,
        List.append_nil] at sums
      exact ⟨fun ready => absurd listed ready.1, fun _ => sums.eq_nil⟩
  | cons only rest =>
      rw [listed, List.length_cons] at few
      obtain rfl : rest = [] := List.length_eq_zero_iff.mp (by omega)
      have ready : Ready workflow state.history target ↔
          only = startName ∨ finished only state.history ≠ [] := by
        simp [Ready, listed]
      rw [ready]
      rw [listed, List.flatMap_singleton] at sums
      by_cases isStart : only = startName
      · subst isStart
        have length := sums.length_eq
        simp [sent, accounted.start_never_ends] at length
        exact ⟨fun _ => length, fun unready => absurd (Or.inl rfl) unready⟩
      · have once := lone only
        have member : only ∈ workflow.graph.predecessors target := by simp [listed]
        cases runs : finished only state.history with
        | nil =>
            simp [sent, runs, Ne.symm isStart] at sums
            exact ⟨fun ready => absurd ready (by simp [isStart]), fun _ => sums⟩
        | cons run rest =>
            rw [runs] at once
            have length := sums.length_eq
            simp [sent, runs, lone_run once, Ne.symm isStart, unconditional.next_count,
              member] at length
            exact ⟨fun _ => length, fun unready => absurd (Or.inr (by simp)) unready⟩

/-- If no node has ended twice, a node has been triggered once if it is ready, and
otherwise not. -/
theorem Accounted.triggered (accounted : Accounted workflow behaviour input state)
    (unconditional : Unconditional workflow)
    (lone : ∀ name, (finished name state.history).length ≤ 1) (target : String) :
    (Ready workflow state.history target → (buffered target state.history).length = 1) ∧
      (¬ Ready workflow state.history target → buffered target state.history = []) := by
  by_cases isJoin_ : isJoin workflow target = true
  · exact accounted.triggered_join unconditional lone isJoin_
  · exact accounted.triggered_plain unconditional lone (by simpa using isJoin_)

/-- A node starts when its predecessors have ended. -/
def Happening.Placed (workflow : Workflow Obj) (front : List (Happening Obj)) :
    Happening Obj → Prop
  | .started name _ => Ready workflow front name
  | _ => True

def Ordered (workflow : Workflow Obj) (history : List (Happening Obj)) : Prop :=
  Fronts.Each (fun front event => event.Placed workflow front) history

structure OnceSoFar (workflow : Workflow Obj) (behaviour : Behaviour Obj) (input : Option Obj)
    (state : LoopState Obj) : Prop where
  accounted : Accounted workflow behaviour input state
  timely : Timely workflow state.history
  placed : Ordered workflow state.history
  lone : ∀ name, (buffered name state.history).length ≤ 1

theorem Books.finished_le (books : Books workflow state) (name : String) :
    (finished name state.history).length ≤ (started name state.history).length := by
  rw [books.alone name, List.length_append, List.length_map]
  omega

theorem Books.started_le (books : Books workflow state) (name : String) :
    (started name state.history).length ≤ (buffered name state.history).length := by
  rw [books.queue name, List.length_append]
  omega

/-- Buffered triggers are in nobody's way. -/
theorem buffered_timely {history : List (Happening Obj)} {value : Option Obj}
    (kept : Timely workflow history ∧ Ordered workflow history) :
    Timely workflow (history ++ [.buffered name value]) ∧
      Ordered workflow (history ++ [.buffered name value]) :=
  ⟨(Fronts.each_snoc _ _).mpr ⟨kept.1, trivial⟩, (Fronts.each_snoc _ _).mpr ⟨kept.2, trivial⟩⟩

theorem once_seeded (unconditional : Unconditional workflow) :
    OnceSoFar workflow behaviour input (seedStartTriggers workflow input) := by
  have accounted : Accounted workflow behaviour input (seedStartTriggers workflow input) :=
    accounted_seeded
  obtain ⟨timely, placed⟩ := seed_keeps
    (fun state => Timely workflow state.history ∧ Ordered workflow state.history)
    (fun _ _ _ kept => buffered_timely kept) (fun _ _ _ kept => kept) input
    ⟨trivial, trivial⟩
  refine ⟨accounted, timely, placed, ?_⟩
  have noRuns : ∀ name, (finished name (seedStartTriggers workflow input).history).length ≤ 1 := by
    intro name
    simp [((seed_spec workflow input).1.runs name).2]
  intro name
  obtain ⟨once, never⟩ := accounted.triggered unconditional noRuns name
  by_cases ready : Ready workflow (seedStartTriggers workflow input).history name
  · exact Nat.le_of_eq (once ready)
  · simp [never ready]

theorem OnceSoFar.fresh (soFar : OnceSoFar workflow behaviour input state)
    (pending : state.pendingTasks.get? name = some task) : finished name state.history = [] := by
  have few := Nat.le_trans (soFar.accounted.books.started_le name) (soFar.lone name)
  rw [soFar.accounted.books.alone name, pending] at few
  simp only [Option.map_some, Option.toList_some, List.length_append, List.length_map,
    List.length_singleton] at few
  exact List.length_eq_zero_iff.mp (by omega)

theorem OnceSoFar.only_run (soFar : OnceSoFar workflow behaviour input state)
    (ran : finished name state.history ≠ []) :
    ∃ run, finished name state.history = [run] ∧ started name state.history = [run.1] := by
  have few := Nat.le_trans (soFar.accounted.books.started_le name) (soFar.lone name)
  have alone := soFar.accounted.books.alone name
  cases runs : finished name state.history with
  | nil => exact absurd runs ran
  | cons run rest =>
      rw [runs] at alone
      cases starts : started name state.history with
      | nil => simp [starts] at alone
      | cons first more =>
          rw [starts] at few alone
          obtain rfl : more = [] := by
            rw [List.length_cons] at few
            exact List.length_eq_zero_iff.mp (by omega)
          simp only [List.map_cons, List.cons_append, List.cons.injEq, List.nil_eq,
            List.append_eq_nil_iff, List.map_eq_nil_iff] at alone
          obtain ⟨rfl, rfl, _⟩ := alone
          exact ⟨run, rfl, rfl⟩

theorem OnceSoFar.settles (soFar : OnceSoFar workflow behaviour input state)
    (unconditional : Unconditional workflow) (pending : state.pendingTasks.get? name = some task) :
    (Happening.finished name task.input child).Timely workflow state.history := by
  intro join _ _ member
  have fresh := soFar.fresh pending
  constructor
  · intro _
    right
    right
    simp [fresh]
  · intro _ all
    right
    refine ⟨fresh, ?_⟩
    intro other listed notStart different
    have ran := ((all other listed).resolve_left notStart).resolve_left different
    obtain ⟨run, one, start⟩ := soFar.only_run ran
    refine ⟨run, by simp [one], one, start, ?_⟩
    rw [unconditional.next_count, unconditional.next_count, if_pos listed, if_pos member]

theorem OnceSoFar.move (soFar : OnceSoFar workflow behaviour input state)
    (unconditional : Unconditional workflow)
    (moved : Move workflow (Behaves workflow behaviour) state next) :
    OnceSoFar workflow behaviour input next := by
  have books := soFar.accounted.books
  have lone : ∀ name, (finished name state.history).length ≤ 1 := fun name =>
    Nat.le_trans (books.finished_le name) (Nat.le_trans (books.started_le name) (soFar.lone name))
  cases moved with
  | @start name trigger triggerBuffer idle room popped =>
      have timely : Timely workflow (state.history ++ [.started name trigger.input]) :=
        (Fronts.each_snoc _ _).mpr ⟨soFar.timely, trivial⟩
      -- a node that is not ready has nothing buffered to pop
      have ready : Ready workflow state.history name := by
        by_contra unready
        obtain ⟨later, first, _⟩ := pop_trigger_spec popped
        have nothing := (soFar.accounted.triggered unconditional lone name).2 unready
        rw [books.queue, first] at nothing
        simp at nothing
      constructor
      case accounted => exact soFar.accounted.start idle room popped
      case timely => exact timely
      case placed => exact (Fronts.each_snoc _ _).mpr ⟨soFar.placed, ready⟩
      case lone =>
        intro other
        change (buffered other (state.history ++ [.started name trigger.input])).length ≤ 1
        rw [buffered_started]
        exact soFar.lone other
  | @complete name task child pending fine allowed =>
      have completed : Completed workflow state name task child _ := completed_of books pending
      -- the triggers sent downstream keep both orders
      obtain ⟨timely, placed⟩ : Timely workflow (handleCompletion workflow
            (popCompletedTask state name task child) name child).history ∧
          Ordered workflow (handleCompletion workflow
            (popCompletedTask state name task child) name child).history := by
        rw [handle_completion_eq]
        apply downstream_keeps
          (fun state => Timely workflow state.history ∧ Ordered workflow state.history)
          (fun _ _ _ kept => buffered_timely kept)
        rw [finished_frame.2.2]
        exact ⟨(Fronts.each_snoc _ _).mpr ⟨soFar.timely, soFar.settles unconditional pending⟩,
          (Fronts.each_snoc _ _).mpr ⟨soFar.placed, trivial⟩⟩
      have accounted := soFar.accounted.move (.complete pending fine allowed) timely
      refine ⟨accounted, timely, placed, ?_⟩
      -- the run that ends here is the first one of its node
      have few : ∀ other, (finished other (handleCompletion workflow
          (popCompletedTask state name task child) name child).history).length ≤ 1 := by
        intro other
        by_cases same : other = name
        · subst same
          rw [completed.runs_self, soFar.fresh pending]
          simp
        · rw [completed.runs_other same]
          exact lone other
      intro other
      obtain ⟨once, never⟩ := accounted.triggered unconditional few other
      by_cases ready : Ready workflow (handleCompletion workflow
          (popCompletedTask state name task child) name child).history other
      · exact Nat.le_of_eq (once ready)
      · simp [never ready]

theorem once_of_moves (unconditional : Unconditional workflow)
    (moves : Moves workflow (Behaves workflow behaviour) (seedStartTriggers workflow input) state) :
    OnceSoFar workflow behaviour input state := by
  induction moves with
  | refl => exact once_seeded unconditional
  | tail _ moved ih => exact ih.move unconditional moved

end Once

/-! ### Executions -/

section Executions

variable {workflow : Workflow Obj} {behaviour : Behaviour Obj} {input : Option Obj}
  {state : LoopState Obj} {labels : List (List (String × ChildContext Obj))}

def Happening.endedName : Happening Obj → Option String
  | .finished name _ _ => some name
  | _ => none

/-- The nodes in the order in which their runs have ended. -/
def ended (history : List (Happening Obj)) : List String := history.filterMap Happening.endedName

theorem count_ended (history : List (Happening Obj)) (name : String) :
    (ended history).count name = (finished name history).length := by
  induction history with
  | nil => rfl
  | cons event rest ih =>
      unfold ended finished at *
      rw [List.filterMap_cons, List.filterMap_cons]
      cases event with
      | buffered other value => exact ih
      | started other value => exact ih
      | finished other value child =>
          by_cases same : other = name
          · simp [Happening.endedName, Happening.finishedFor, same, ih]
          · simp [Happening.endedName, Happening.finishedFor, same, ih]

theorem ended_mono {left right : List (Happening Obj)} (isFront : left <+: right) :
    (ended left).length ≤ (ended right).length :=
  (isFront.filterMap _).length_le

theorem moves_history {Allowed : String → Option Obj → ChildContext Obj → Prop}
    {next : LoopState Obj} (moves : Moves workflow Allowed state next) :
    state.history <+: next.history := by
  induction moves with
  | refl => exact List.prefix_refl _
  | tail _ moved ih => exact ih.trans (move_history moved)

theorem node_context_fine (name : String) (nodeInput : Option Obj) :
    (nodeContext workflow behaviour name nodeInput).error = none := by
  unfold nodeContext
  split <;> rfl

/-- Handling tasks without errors goes on looping, with their ends on record. -/
theorem handle_done_loops (entries : List (String × NodeTask Obj × ChildContext Obj))
    (state : LoopState Obj) (fine : ∀ entry ∈ entries, entry.2.2.error = none) :
    ∃ final, handleDone workflow entries state = .looping final ∧
      (ended state.history).length + entries.length ≤ (ended final.history).length := by
  induction entries generalizing state with
  | nil =>
      exact ⟨_, rfl, ended_mono (moves_history
        (@schedule_moves _ workflow (fun _ _ _ => True) _ state))⟩
  | cons entry rest ih =>
      obtain ⟨name, task, child⟩ := entry
      have first : child.error = none := fine _ List.mem_cons_self
      obtain ⟨final, ends, more⟩ := ih
        (handleCompletion workflow (popCompletedTask state name task child) name child)
        (fun other member => fine other (List.mem_cons_of_mem _ member))
      refine ⟨final, ?_, ?_⟩
      · simp only [handleDone, first]
        exact ends
      · have one := ended_mono (@completion_extends _ workflow state name task child)
        have adds : ended (state.history ++ [.finished name task.input child]) =
            ended state.history ++ [name] := by
          simp [ended, Happening.endedName]
        rw [adds, List.length_append, List.length_singleton] at one
        rw [List.length_cons]
        omega

theorem follow_fine {results : List (String × ChildContext Obj)}
    (follow : Follow workflow behaviour (.looping state) results) :
    ∀ entry ∈ orderDone state results, entry.2.2.error = none := by
  intro entry member
  obtain ⟨pending, found⟩ := order_done_pending member
  rcases follow (entry.1, entry.2.1) ((Dict.get?_eq_some_iff _ _ _).mp pending) with none_ | same
  · rw [none_] at found
    cases found
  · rw [same] at found
    rw [← Option.some.inj found]
    exact node_context_fine _ _

/-- Nodes that do not fail keep the loop going, and each wake-up ends a run. -/
theorem run_loops (labels : List (List (String × ChildContext Obj))) (state : LoopState Obj)
    (execution : Execution Obj)
    (follows : Runs.Guarded (step workflow) (Follow workflow behaviour) (.looping state) labels)
    (ran : Runs.run (step workflow) (.looping state) labels = some execution) :
    ∃ final, execution = .looping final ∧
      (ended state.history).length + labels.length ≤ (ended final.history).length := by
  induction labels generalizing state with
  | nil =>
      cases ran
      exact ⟨state, rfl, Nat.le_refl _⟩
  | cons results rest ih =>
      obtain ⟨follow, later⟩ := follows
      cases stepped : step workflow (.looping state) results with
      | none => simp [Runs.run, stepped] at ran
      | some next =>
          simp only [Runs.run, stepped] at ran
          simp only [stepped] at later
          simp only [step, wake] at stepped
          split at stepped
          · cases stepped
          · rename_i done others listed
            obtain ⟨middle, ends, more⟩ := handle_done_loops (done :: others) state
              (listed ▸ follow_fine follow)
            rw [ends] at stepped
            cases stepped
            obtain ⟨final, rfl, most⟩ := ih middle later ran
            refine ⟨final, rfl, ?_⟩
            rw [List.length_cons] at more ⊢
            omega

theorem lookup_map {Value Result : Type} (change : String × Value → Result)
    (rows : List (String × Value)) (once : (rows.map Prod.fst).Nodup) {row : String × Value}
    (member : row ∈ rows) :
    (rows.map fun row => (row.1, change row)).lookup row.1 = some (change row) := by
  induction rows with
  | nil => cases member
  | cons first rest ih =>
      obtain ⟨fresh, once⟩ := List.nodup_cons.mp once
      rw [List.map_cons, List.lookup_cons]
      rcases List.mem_cons.mp member with rfl | later
      · simp
      · have different : row.1 ≠ first.1 := by
          intro same
          exact fresh (List.mem_map.mpr ⟨row, later, same⟩)
        rw [beq_false_of_ne different]
        exact ih once later

/-- While tasks are pending, all of them can be done. -/
theorem wake_possible (busy : state.pendingTasks.keys ≠ []) :
    ∃ results, Follow workflow behaviour (.looping state) results ∧
      step workflow (.looping state) results ≠ none := by
  have all : ∀ row ∈ state.pendingTasks.rows, _ = _ := fun row member =>
    lookup_map (fun row => nodeContext workflow behaviour row.1 row.2.input)
      state.pendingTasks.rows state.pendingTasks.unique member
  refine ⟨_, fun row member => Or.inr (all row member), ?_⟩
  obtain ⟨name, known⟩ := List.exists_mem_of_ne_nil _ busy
  obtain ⟨row, member, _⟩ := List.mem_map.mp known
  have done : (row.1, row.2, nodeContext workflow behaviour row.1 row.2.input) ∈
      orderDone state (state.pendingTasks.rows.map fun row =>
        (row.1, nodeContext workflow behaviour row.1 row.2.input)) :=
    List.mem_filterMap.mpr ⟨row, member, by rw [all row member]; rfl⟩
  simp only [step, wake]
  split
  · rename_i none_
    rw [none_] at done
    cases done
  · exact Option.some_ne_none _

end Executions

/-! ### The result -/

/-- What an execution comes to. `inputs` gives the input of the one run of each
node. -/
structure RunsOnce (workflow : Workflow Obj) (behaviour : Behaviour Obj) (input : Option Obj)
    (inputs : String → Option Obj) (limit : Option Int)
    (labels : List (List (String × ChildContext Obj))) (state : LoopState Obj) : Prop where
  atMostOnce : ∀ name, (started name state.history).length ≤ 1
  behind : ∀ front name value rest, state.history = front ++ .started name value :: rest →
    ∀ other ∈ workflow.graph.predecessors name, other = startName ∨ finished other front ≠ []
  joined : ∀ join, isJoin workflow join = true → ∀ value ∈ started join state.history,
    value = joinInput workflow input (outputOf state.history) join
  bounded : labels.length ≤ workflow.graph.nodes.length
  goesOn : state.pendingTasks.keys ≠ [] → ∃ results,
    Follow workflow behaviour (.looping state) results ∧
      step (limited workflow limit) (.looping state) results ≠ none
  complete : state.pendingTasks.keys = [] → ∀ node ∈ workflow.graph.nodes, node.name ≠ startName →
    started node.name state.history = [inputs node.name] ∧
      finished node.name state.history =
        [(inputs node.name, nodeContext workflow behaviour node.name (inputs node.name))]

section Result

variable {workflow : Workflow Obj} {behaviour : Behaviour Obj} {input : Option Obj}
  {limit : Option Int} {state : LoopState Obj}

/-- Each node that has been triggered is in the graph. -/
theorem OnceSoFar.known (soFar : OnceSoFar workflow behaviour input state) {name : String}
    (ran : finished name state.history ≠ []) : name ∈ workflow.graph.nodes.map (·.name) := by
  obtain ⟨run, inside⟩ := List.exists_mem_of_ne_nil _ ran
  have some_ : buffered name state.history ≠ [] := by
    rw [soFar.accounted.books.queue, soFar.accounted.books.alone]
    simp [ran]
  obtain ⟨predecessor, member⟩ :=
    List.exists_mem_of_ne_nil _ (soFar.accounted.entered name some_)
  obtain ⟨edge, listed, _, rfl⟩ := mem_predecessors.mp member
  exact List.mem_map_of_mem (mem_nodes.mpr ⟨edge, listed, Or.inr rfl⟩)

theorem OnceSoFar.ended_le (soFar : OnceSoFar workflow behaviour input state) :
    (ended state.history).length ≤ workflow.graph.nodes.length := by
  have lone : (ended state.history).Nodup := by
    apply List.nodup_iff_count_le_one.mpr
    intro name
    rw [count_ended]
    exact Nat.le_trans (soFar.accounted.books.finished_le name)
      (Nat.le_trans (soFar.accounted.books.started_le name) (soFar.lone name))
  have inside : ended state.history ⊆ workflow.graph.nodes.map (·.name) := by
    intro name member
    apply soFar.known
    have counted := List.count_pos_iff.mpr member
    rw [count_ended] at counted
    exact List.ne_nil_of_length_pos counted
  have short := (List.subperm_of_subset lone inside).length_le
  rwa [List.length_map] at short

theorem OnceSoFar.joined (soFar : OnceSoFar workflow behaviour input state)
    {join : String} (isJoin_ : isJoin workflow join = true)
    {value : Option Obj} (member : value ∈ started join state.history) :
    value = joinInput workflow input (outputOf state.history) join := by
  have accounted := soFar.accounted
  have inside : value ∈ buffered join state.history := by
    rw [accounted.books.queue]
    exact List.mem_append_left _ member
  by_cases all : ∀ other ∈ workflow.graph.predecessors join, other = startName
  · rw [accounted.onlyStart join isJoin_ all] at inside
    rw [(List.mem_replicate.mp inside).2]
    exact join_input_congr fun other listed notStart => absurd (all other listed) notStart
  · push Not at all
    obtain ⟨name, listed, notStart⟩ := all
    by_cases waits : ∃ other ∈ workflow.graph.predecessors join, other ≠ startName ∧
        finished other state.history = []
    · rw [accounted.waiting join isJoin_ waits] at inside
      cases inside
    · push Not at waits
      obtain ⟨run, one, _⟩ := soFar.only_run (waits name listed notStart)
      by_cases sole : Sole workflow name join
      · rw [accounted.sole join isJoin_ name listed notStart sole, one, List.flatMap_singleton]
          at inside
        rw [(List.mem_replicate.mp inside).2]
        apply join_input_congr
        intro other known different
        obtain rfl := (sole other known).resolve_left different
        simp [outputOf, one]
      · rcases accounted.several join isJoin_ name listed notStart sole
            (fun other known => or_iff_not_imp_left.mpr (waits other known)) with
          ⟨_, nothing⟩ | copies
        · rw [nothing] at inside
          cases inside
        · obtain ⟨_, _, copy⟩ := copies name listed notStart
          rw [copy] at inside
          exact (List.mem_replicate.mp inside).2

/-- At the end every node has run, by induction along the edges. -/
theorem OnceSoFar.all_ran (soFar : OnceSoFar workflow behaviour input state)
    (unconditional : Unconditional workflow)
    (done : ∀ name, buffered name state.history = (finished name state.history).map Prod.fst)
    {node : BaseNode} (known : node ∈ workflow.graph.nodes) (notStart : node.name ≠ startName) :
    finished node.name state.history ≠ [] := by
  have books := soFar.accounted.books
  have lone : ∀ name, (finished name state.history).length ≤ 1 := fun name =>
    Nat.le_trans (books.finished_le name) (Nat.le_trans (books.started_le name) (soFar.lone name))
  obtain ⟨rank, rises⟩ := unconditional.acyclic
  induction measured : rank node.name using Nat.strong_induction_on generalizing node with
  | _ height ih =>
      subst measured
      have ready : Ready workflow state.history node.name := by
        constructor
        · obtain ⟨edge, member, into⟩ :=
            ((validated workflow.checked).entered node known).resolve_left notStart
          exact List.ne_nil_of_mem (mem_predecessors.mpr ⟨edge, member, rfl, into⟩)
        · intro other member
          by_cases isStart : other = startName
          · exact Or.inl isStart
          · obtain ⟨edge, inside, rfl, into⟩ := mem_predecessors.mp member
            right
            refine ih _ ?_ (mem_nodes.mpr ⟨edge, inside, Or.inl rfl⟩) isStart rfl
            rw [← into]
            exact rises edge inside
      have once := (soFar.accounted.triggered unconditional lone node.name).1 ready
      intro none_
      rw [done, none_] at once
      cases once

theorem OnceSoFar.final_run (soFar : OnceSoFar workflow behaviour input state)
    (unconditional : Unconditional workflow)
    (done : ∀ name, buffered name state.history = started name state.history ∧
      started name state.history = (finished name state.history).map Prod.fst)
    {node : BaseNode} (known : node ∈ workflow.graph.nodes) (notStart : node.name ≠ startName) :
    ∃ value, started node.name state.history = [value] ∧
      finished node.name state.history =
        [(value, nodeContext workflow behaviour node.name value)] := by
  obtain ⟨run, one, start⟩ := soFar.only_run
    (soFar.all_ran unconditional (fun name => (done name).1.trans (done name).2) known notStart)
  refine ⟨run.1, start, ?_⟩
  rw [one, ← soFar.accounted.returned node.name run (by simp [one])]

theorem Unconditional.limited (unconditional : Unconditional workflow) :
    Unconditional (Workflow.limited workflow limit) :=
  ⟨unconditional.routes, unconditional.merges⟩

theorem once_of_completes (unconditional : Unconditional workflow)
    {labels : List (List (String × ChildContext Obj))}
    (completes : Completes (Workflow.limited workflow limit) behaviour input labels state) :
    OnceSoFar (Workflow.limited workflow limit) behaviour input state :=
  once_of_moves unconditional.limited completes.follows_seed.moves

/-- The runs of a complete execution, whatever the completions and the limit. -/
theorem same_runs (unconditional : Unconditional workflow) :
    ∃ inputs : String → Option Obj, ∀ limit labels state,
      Completes (Workflow.limited workflow limit) behaviour input labels state →
      ∀ node ∈ workflow.graph.nodes, node.name ≠ startName →
        started node.name state.history = [inputs node.name] ∧
          finished node.name state.history =
            [(inputs node.name, nodeContext workflow behaviour node.name (inputs node.name))] := by
  by_cases some_ : ∃ limit labels state,
      Completes (Workflow.limited workflow limit) behaviour input labels state
  · -- the inputs are those of one complete execution; its sums are those of all
    obtain ⟨firstLimit, firstLabels, first, firstRun⟩ := some_
    have firstSoFar := once_of_completes unconditional firstRun
    have firstTotals := firstRun.totals (timely_limited.mp firstSoFar.timely)
    refine ⟨fun name => (started name first.history).head?.join, ?_⟩
    intro limit labels state completes node known notStart
    have soFar := once_of_completes unconditional completes
    have totals := completes.totals (timely_limited.mp soFar.timely)
    obtain ⟨value, starts, ends⟩ :=
      soFar.final_run unconditional.limited completes.books known notStart
    obtain ⟨firstValue, firstStarts, _⟩ :=
      firstSoFar.final_run unconditional.limited firstRun.books known notStart
    have order := totals.buffered_perm unconditional.acyclic firstTotals node.name
    rw [← totals.started, ← firstTotals.started, starts, firstStarts] at order
    obtain rfl := List.singleton_perm_singleton.mp order
    have same : (started node.name first.history).head?.join = value := by
      rw [firstStarts]
      rfl
    dsimp only
    rw [same]
    exact ⟨starts, ends⟩
  · exact ⟨fun _ => none, fun limit labels state completes =>
      absurd ⟨limit, labels, state, completes⟩ some_⟩

end Result

/-- If no node fails, every node of such a workflow runs once, behind its
predecessors and on their outputs, and every execution gives the same results. -/
theorem unconditional_runs_once (workflow : Workflow Obj) (unconditional : Unconditional workflow)
    (behaviour : Behaviour Obj) (input : Option Obj) :
    ∃ inputs : String → Option Obj, ∀ (limit : Option Int)
      (labels : List (List (String × ChildContext Obj))) (execution : Execution Obj),
      Runs.Guarded (step (limited workflow limit)) (Follow (limited workflow limit) behaviour)
        (start (limited workflow limit) input) labels →
      Runs.run (step (limited workflow limit)) (start (limited workflow limit) input) labels =
        some execution →
      ∃ state, execution = .looping state ∧
        RunsOnce workflow behaviour input inputs limit labels state := by
  obtain ⟨inputs, chosen⟩ := @same_runs _ workflow behaviour input unconditional
  refine ⟨inputs, ?_⟩
  intro limit labels execution follows ran
  obtain ⟨state, rfl, many⟩ := run_loops labels _ execution follows ran
  have soFar : OnceSoFar (limited workflow limit) behaviour input state := by
    apply once_of_moves unconditional.limited
    exact (run_follows (follows.mono fun _ _ _ follow => follow.returns) ran).moves
  refine ⟨state, rfl, ?_⟩
  constructor
  case atMostOnce =>
    exact fun name => Nat.le_trans (soFar.accounted.books.started_le name) (soFar.lone name)
  case behind =>
    intro front name value rest split
    exact (soFar.placed.at_split split).2
  case joined => exact fun join isJoin_ value member => soFar.joined isJoin_ member
  case bounded => exact Nat.le_trans (by omega) soFar.ended_le
  case goesOn => exact fun busy => @wake_possible _ (limited workflow limit) behaviour state busy
  case complete => exact fun done => chosen limit labels state ⟨follows, ran, done⟩

/-- Two branches from the start to a join, which also waits for the start itself. -/
def diamond : Workflow Nat where
  graph :=
    let start : BaseNode := ⟨0, startName, false⟩
    let a : BaseNode := ⟨1, "a", false⟩
    let b : BaseNode := ⟨2, "b", false⟩
    let join : BaseNode := ⟨3, "join", true⟩
    ⟨[⟨start, a, none⟩, ⟨start, b, none⟩, ⟨start, join, none⟩, ⟨a, join, none⟩, ⟨b, join, none⟩]⟩
  maxConcurrency := some 1
  asDict := fun outputs => outputs.length
  checked := by decide +kernel

def oneByOne : List (List (String × ChildContext Nat)) :=
  [[("a", ⟨some 7, none, none⟩)], [("b", ⟨some 7, none, none⟩)], [("join", ⟨some 3, none, none⟩)]]

/-- Its join runs once, on three outputs. -/
theorem diamond_runs_once : ∃ (inputs : String → Option Nat) (state : LoopState Nat),
    started "join" state.history = [some 3] ∧
      RunsOnce diamond (fun _ _ => (some 7, none)) (some 0) inputs (some 1) oneByOne state := by
  have unconditional : Unconditional diamond := ⟨by decide +kernel, by decide +kernel⟩
  obtain ⟨inputs, results⟩ :=
    unconditional_runs_once diamond unconditional (fun _ _ => (some 7, none)) (some 0)
  obtain ⟨state, completes, joined⟩ := @completes_of Nat (limited diamond (some 1))
    (fun _ _ => (some 7, none)) (some 0) oneByOne
    (fun state => started "join" state.history = [some 3]) (by decide +kernel) (by decide +kernel)
  obtain ⟨same, looping, runsOnce⟩ := results (some 1) oneByOne _ completes.follows completes.ran
  cases looping
  exact ⟨inputs, state, joined, runsOnce⟩

end Choirworks.Workflow
