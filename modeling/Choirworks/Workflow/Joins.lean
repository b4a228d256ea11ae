import Choirworks.Workflow.Accounts

/-!
Two complete executions of one acyclic workflow with the same behaviour of its
nodes: where every completion settles the joins behind it, they run each node
equally often and with the same inputs, whatever the order of the completions.
-/

namespace Choirworks.Workflow

variable {Obj : Type}

/-- The workflow with another limit. -/
def limited (workflow : Workflow Obj) (limit : Option Int) : Workflow Obj :=
  { workflow with maxConcurrency := limit }

/-- No way along edges, with routes or without, leads back. -/
def Acyclic (graph : Graph) : Prop :=
  ∃ rank : String → Nat, ∀ edge ∈ graph.edges, rank edge.fromNode.name < rank edge.toNode.name

/-- The tasks that are done return what their nodes' behaviour says. -/
def Follow (workflow : Workflow Obj) (behaviour : Behaviour Obj) :
    Execution Obj → List (String × ChildContext Obj) → Prop
  | .looping state, results => ∀ row ∈ state.pendingTasks.rows,
      results.lookup row.1 = none ∨
        results.lookup row.1 = some (nodeContext workflow behaviour row.1 row.2.input)
  | .raised _ _, _ => True

instance [DecidableEq Obj] (workflow : Workflow Obj) (behaviour : Behaviour Obj)
    (execution : Execution Obj) (results : List (String × ChildContext Obj)) :
    Decidable (Follow workflow behaviour execution results) :=
  match execution with
  | .looping _ => inferInstanceAs (Decidable (∀ _ ∈ _, _))
  | .raised _ _ => .isTrue trivial

/-- The loop runs to its end with these completions. -/
structure Completes (workflow : Workflow Obj) (behaviour : Behaviour Obj) (input : Option Obj)
    (labels : List (List (String × ChildContext Obj))) (state : LoopState Obj) : Prop where
  follows : Runs.Guarded (step workflow) (Follow workflow behaviour) (start workflow input) labels
  ran : Runs.run (step workflow) (start workflow input) labels = some (.looping state)
  ended : state.pendingTasks.keys = []

section Complete

variable {workflow : Workflow Obj} {behaviour : Behaviour Obj} {input : Option Obj}
  {labels : List (List (String × ChildContext Obj))} {state : LoopState Obj}

theorem Follow.returns {execution : Execution Obj} {results : List (String × ChildContext Obj)}
    (follow : Follow workflow behaviour execution results) :
    Returns (Behaves workflow behaviour) execution results := by
  rintro state rfl name task child pending found _
  rcases follow (name, task) ((Dict.get?_eq_some_iff _ _ _).mp pending) with none_ | same
  · rw [none_] at found
    cases found
  · exact Option.some.inj (found.symm.trans same)

theorem Completes.follows_seed (completes : Completes workflow behaviour input labels state) :
    Follows workflow (Behaves workflow behaviour) (seedStartTriggers workflow input)
      (.looping state) := by
  apply run_follows _ completes.ran
  exact completes.follows.mono fun execution results _ follow => follow.returns

/-- The condition is about the graph, whatever the limit. -/
theorem timely_limited {limit : Option Int} {history : List (Happening Obj)} :
    Timely (limited workflow limit) history ↔ Timely workflow history := by
  apply Fronts.each_congr
  intro front event
  cases event <;> rfl

/-- The sums of a complete execution. They do not depend on the limit. -/
structure Totals (workflow : Workflow Obj) (behaviour : Behaviour Obj) (input : Option Obj)
    (history : List (Happening Obj)) : Prop where
  started : ∀ name, started name history = buffered name history
  runs : ∀ name, finished name history =
    (buffered name history).map fun value => (value, nodeContext workflow behaviour name value)
  plain : ∀ target, isJoin workflow target = false →
    (buffered target history).Perm (List.replicate (startCount workflow target) input ++
      (workflow.graph.predecessors target).flatMap (sent workflow history target))
  onlyStart : ∀ join, isJoin workflow join = true →
    (∀ other ∈ workflow.graph.predecessors join, other = startName) →
    buffered join history = List.replicate (startCount workflow join)
      (joinInput workflow input (fun _ => none) join)
  sole : ∀ join, isJoin workflow join = true → ∀ name ∈ workflow.graph.predecessors join,
    name ≠ startName → Sole workflow name join →
    buffered join history = (finished name history).flatMap fun run =>
      List.replicate (nextCount workflow name run.2 join)
        (joinInput workflow input (fun _ => run.2.output) join)
  waiting : ∀ join, isJoin workflow join = true →
    (∃ other ∈ workflow.graph.predecessors join, other ≠ startName ∧
      finished other history = []) → buffered join history = []
  several : ∀ join, isJoin workflow join = true → ∀ name ∈ workflow.graph.predecessors join,
    name ≠ startName → ¬ Sole workflow name join →
    (∀ other ∈ workflow.graph.predecessors join,
      other = startName ∨ finished other history ≠ []) →
    (Quiet workflow history join ∧ buffered join history = []) ∨
      ∀ other ∈ workflow.graph.predecessors join, other ≠ startName →
        ∃ run, finished other history = [run] ∧
          buffered join history = List.replicate (nextCount workflow other run.2 join)
            (joinInput workflow input (outputOf history) join)

theorem Completes.books (completes : Completes workflow behaviour input labels state) :
    ∀ name, buffered name state.history = Workflow.started name state.history ∧
      Workflow.started name state.history = (finished name state.history).map Prod.fst := by
  obtain ⟨before, moves, rfl⟩ := completes.follows_seed
  have books := (books_seeded input).moves moves
  have empty := schedule_idle books completes.ended
  exact (books.moves (@schedule_moves _ workflow (fun _ _ _ => True) _ before)).ended
    completes.ended empty

theorem Completes.totals {limit : Option Int}
    (completes : Completes (limited workflow limit) behaviour input labels state)
    (timely : Timely workflow state.history) : Totals workflow behaviour input state.history := by
  have accounted := accounted_of_timely completes.follows_seed.moves (timely_limited.mpr timely)
  have ended := completes.books
  constructor
  case started => exact fun name => (ended name).1.symm
  case runs =>
    intro name
    rw [(ended name).1, (ended name).2, List.map_map]
    calc
      finished name state.history = (finished name state.history).map id := (List.map_id _).symm
      _ = _ := by
        apply List.map_congr_left
        intro run ran
        exact Prod.ext rfl (accounted.returned name run ran)
  case plain => exact accounted.plain
  case onlyStart => exact accounted.onlyStart
  case sole => exact accounted.sole
  case waiting => exact accounted.waiting
  case several => exact accounted.several

end Complete

/-! ### Two executions -/

section Two

variable {workflow : Workflow Obj} {behaviour : Behaviour Obj} {input : Option Obj}
  {left right : List (Happening Obj)} {name join : String}

theorem Totals.runs_perm (leftTotals : Totals workflow behaviour input left)
    (rightTotals : Totals workflow behaviour input right)
    (same : (buffered name left).Perm (buffered name right)) :
    (finished name left).Perm (finished name right) := by
  rw [leftTotals.runs, rightTotals.runs]
  exact same.map _

/-- Single runs that are rearranged are the same run. -/
theorem only_run {leftRun rightRun : Option Obj × ChildContext Obj}
    (same : (finished name left).Perm (finished name right)) (one : finished name left = [leftRun])
    (other : finished name right = [rightRun]) : leftRun = rightRun := by
  rw [one, other] at same
  exact List.singleton_perm_singleton.mp same

theorem quiet_perm
    (same : ∀ other ∈ workflow.graph.predecessors join,
      (finished other left).Perm (finished other right))
    (quiet : Quiet workflow left join) : Quiet workflow right join := by
  intro other member run ran
  exact quiet other member run ((same other member).mem_iff.mpr ran)

/-- A join with several predecessors, when these have run the same. -/
theorem Totals.several_perm (leftTotals : Totals workflow behaviour input left)
    (rightTotals : Totals workflow behaviour input right) (isJoin_ : isJoin workflow join = true)
    (same : ∀ other ∈ workflow.graph.predecessors join,
      (finished other left).Perm (finished other right))
    (member : name ∈ workflow.graph.predecessors join) (notStart : name ≠ startName)
    (notSole : ¬ Sole workflow name join) : buffered join left = buffered join right := by
  -- while a predecessor is missing on one side it is on the other
  by_cases waits : ∃ other ∈ workflow.graph.predecessors join, other ≠ startName ∧
      finished other left = []
  · obtain ⟨other, listed, different, none_⟩ := waits
    have alsoNone : finished other right = [] := by
      have order := same other listed
      rw [none_] at order
      exact order.nil_eq.symm
    rw [leftTotals.waiting join isJoin_ ⟨other, listed, different, none_⟩,
      rightTotals.waiting join isJoin_ ⟨other, listed, different, alsoNone⟩]
  · push Not at waits
    have leftEnded : ∀ other ∈ workflow.graph.predecessors join,
        other = startName ∨ finished other left ≠ [] := fun other listed =>
      or_iff_not_imp_left.mpr (waits other listed)
    have rightEnded : ∀ other ∈ workflow.graph.predecessors join,
        other = startName ∨ finished other right ≠ [] := by
      intro other listed
      rcases leftEnded other listed with isStart | ran
      · exact Or.inl isStart
      · right
        intro none_
        have order := same other listed
        rw [none_] at order
        exact ran order.eq_nil
    -- either no predecessor leads here, or each has run once
    rcases leftTotals.several join isJoin_ name member notStart notSole leftEnded with
      ⟨leftQuiet, leftNone⟩ | leftOnce
    · have rightQuiet := quiet_perm same leftQuiet
      rcases rightTotals.several join isJoin_ name member notStart notSole rightEnded with
        ⟨_, rightNone⟩ | rightOnce
      · rw [leftNone, rightNone]
      · obtain ⟨run, one, copies⟩ := rightOnce name member notStart
        rw [leftNone, copies, rightQuiet name member run (by simp [one])]
        rfl
    · -- where one side is quiet, the other has made no copies either
      rcases rightTotals.several join isJoin_ name member notStart notSole rightEnded with
        ⟨rightQuiet, rightNone⟩ | rightOnce
      · have leftQuiet := quiet_perm (fun other listed => (same other listed).symm) rightQuiet
        obtain ⟨run, one, copies⟩ := leftOnce name member notStart
        rw [rightNone, copies, leftQuiet name member run (by simp [one])]
        rfl
      · obtain ⟨leftRun, leftOne, leftCopies⟩ := leftOnce name member notStart
        obtain ⟨rightRun, rightOne, rightCopies⟩ := rightOnce name member notStart
        have outputs : joinInput workflow input (outputOf left) join =
            joinInput workflow input (outputOf right) join := by
          apply join_input_congr
          intro other listed different
          obtain ⟨one, leftIs, _⟩ := leftOnce other listed different
          obtain ⟨two, rightIs, _⟩ := rightOnce other listed different
          rw [outputOf, outputOf, leftIs, rightIs,
            only_run (same other listed) leftIs rightIs]
        rw [leftCopies, rightCopies, outputs, only_run (same name member) leftOne rightOne]

/-- By induction on the rank: the runs of the predecessors decide those of a node. -/
theorem Totals.buffered_perm (acyclic : Acyclic workflow.graph)
    (leftTotals : Totals workflow behaviour input left)
    (rightTotals : Totals workflow behaviour input right) (name : String) :
    (buffered name left).Perm (buffered name right) := by
  obtain ⟨rank, rises⟩ := acyclic
  induction measured : rank name using Nat.strong_induction_on generalizing name with
  | _ height ih =>
      subst measured
      have same : ∀ other ∈ workflow.graph.predecessors name,
          (finished other left).Perm (finished other right) := by
        intro other member
        obtain ⟨edge, inside, rfl, rfl⟩ := mem_predecessors.mp member
        exact leftTotals.runs_perm rightTotals (ih _ (rises edge inside) _ rfl)
      by_cases isJoin_ : isJoin workflow name = true
      · by_cases all : ∀ other ∈ workflow.graph.predecessors name, other = startName
        · rw [leftTotals.onlyStart name isJoin_ all, rightTotals.onlyStart name isJoin_ all]
        · push Not at all
          obtain ⟨other, member, notStart⟩ := all
          by_cases sole : Sole workflow other name
          · rw [leftTotals.sole name isJoin_ other member notStart sole,
              rightTotals.sole name isJoin_ other member notStart sole]
            exact (same other member).flatMap_right _
          · rw [leftTotals.several_perm rightTotals isJoin_ same member notStart sole]
      · have plain : isJoin workflow name = false := by simpa using isJoin_
        refine (leftTotals.plain name plain).trans (.trans ?_ (rightTotals.plain name plain).symm)
        apply List.Perm.append_left
        apply List.Perm.flatMap_left
        intro other member
        exact (same other member).flatMap_right _

end Two

/-- Where every completion settles the joins behind it, how often each join fires
and with which inputs is the same for every order of completions and every limit. -/
theorem joins_agree (workflow : Workflow Obj) (acyclic : Acyclic workflow.graph)
    (behaviour : Behaviour Obj) (input : Option Obj) (leftLimit rightLimit : Option Int)
    (leftLabels rightLabels : List (List (String × ChildContext Obj))) (left right : LoopState Obj)
    (leftRun : Completes (limited workflow leftLimit) behaviour input leftLabels left)
    (rightRun : Completes (limited workflow rightLimit) behaviour input rightLabels right)
    (leftTimely : Timely workflow left.history) (rightTimely : Timely workflow right.history) :
    ∀ join, isJoin workflow join = true →
      (started join left.history).Perm (started join right.history) := by
  intro join _
  have leftTotals := leftRun.totals leftTimely
  have rightTotals := rightRun.totals rightTimely
  rw [leftTotals.started, rightTotals.started]
  exact leftTotals.buffered_perm acyclic rightTotals join

/-! ### Two concurrent branches -/

/-- The loop has come to its end in a state with the property. -/
def Execution.EndedIn (property : LoopState Obj → Prop) : Execution Obj → Prop
  | .looping state => state.pendingTasks.keys = [] ∧ property state
  | .raised _ _ => False

instance (property : LoopState Obj → Prop) [DecidablePred property] :
    DecidablePred (Execution.EndedIn property) := fun execution =>
  match execution with
  | .looping _ => inferInstanceAs (Decidable (_ ∧ _))
  | .raised _ _ => .isFalse id

theorem completes_of {workflow : Workflow Obj} {behaviour : Behaviour Obj} {input : Option Obj}
    {labels : List (List (String × ChildContext Obj))} {property : LoopState Obj → Prop}
    (follows : Runs.Guarded (step workflow) (Follow workflow behaviour) (start workflow input)
      labels)
    (ends : Runs.Ends (step workflow) (start workflow input) labels (Execution.EndedIn property)) :
    ∃ state, Completes workflow behaviour input labels state ∧ property state := by
  obtain ⟨execution, ran, ended⟩ := ends
  cases execution with
  | looping state => exact ⟨state, ⟨follows, ran, ended.1⟩, ended.2⟩
  | raised state error => exact absurd ended id

/-- A join behind `a` and `b`, where `b` may also go on elsewhere. -/
def choosing : Workflow Nat where
  graph :=
    let start : BaseNode := ⟨0, startName, false⟩
    let a : BaseNode := ⟨1, "a", false⟩
    let b : BaseNode := ⟨2, "b", false⟩
    let join : BaseNode := ⟨3, "join", true⟩
    let other : BaseNode := ⟨4, "other", false⟩
    ⟨[⟨start, a, none⟩, ⟨start, b, none⟩, ⟨a, join, none⟩, ⟨b, join, some (.one (.str "join"))⟩,
      ⟨b, other, some (.one (.str "skip"))⟩]⟩
  maxConcurrency := none
  asDict := fun outputs => outputs.length
  checked := by decide +kernel

def choice (route : String) : Behaviour Nat := fun name _ =>
  if name = "b" then (some 2, some (.one (.str route))) else (some 1, none)

theorem choosing_acyclic : Acyclic choosing.graph :=
  ⟨fun name => if name = startName then 0 else if name = "a" ∨ name = "b" then 1 else 2, by decide⟩

def aFirst (route : String) : List (List (String × ChildContext Nat)) :=
  [[("a", ⟨some 1, none, none⟩)], [("b", ⟨some 2, some (.one (.str route)), none⟩)]]

def bFirst (route : String) : List (List (String × ChildContext Nat)) :=
  [[("b", ⟨some 2, some (.one (.str route)), none⟩)], [("a", ⟨some 1, none, none⟩)]]

/-- Where both branches go to the join, it runs once, whichever ends first. -/
theorem choosing_agrees : ∃ left right : LoopState Nat,
    (started "join" left.history).length = 1 ∧
      (started "join" left.history).Perm (started "join" right.history) := by
  obtain ⟨left, leftRun, leftTimely, once⟩ := @completes_of Nat (limited choosing none)
    (choice "join") (some 0) (bFirst "join" ++ [[("join", ⟨some 2, none, none⟩)]])
    (fun state => Timely choosing state.history ∧ (started "join" state.history).length = 1)
    (by decide +kernel) (by decide +kernel)
  obtain ⟨right, rightRun, rightTimely⟩ := @completes_of Nat (limited choosing (some 1))
    (choice "join") (some 0) (aFirst "join" ++ [[("join", ⟨some 2, none, none⟩)]])
    (fun state => Timely choosing state.history) (by decide +kernel) (by decide +kernel)
  exact ⟨left, right, once, joins_agree choosing choosing_acyclic (choice "join") (some 0) none
    (some 1) _ _ left right leftRun rightRun leftTimely rightTimely "join" (by decide +kernel)⟩

/-- If `b` goes on elsewhere, the join fires only if `a` ends after it. -/
theorem join_depends_on_order :
    ¬ ∀ (workflow : Workflow Nat), Acyclic workflow.graph → ∀ (behaviour : Behaviour Nat)
      (input : Option Nat) (leftLabels rightLabels : List (List (String × ChildContext Nat)))
      (left right : LoopState Nat), Completes workflow behaviour input leftLabels left →
      Completes workflow behaviour input rightLabels right →
      ∀ join, isJoin workflow join = true →
        (started join left.history).Perm (started join right.history) := by
  intro claim
  obtain ⟨left, leftRun, never⟩ := @completes_of Nat choosing (choice "skip") (some 0)
    (aFirst "skip" ++ [[("other", ⟨some 1, none, none⟩)]])
    (fun state => (started "join" state.history).length = 0) (by decide +kernel) (by decide +kernel)
  obtain ⟨right, rightRun, once⟩ := @completes_of Nat choosing (choice "skip") (some 0)
    (bFirst "skip" ++ [[("other", ⟨some 1, none, none⟩), ("join", ⟨some 2, none, none⟩)]])
    (fun state => (started "join" state.history).length = 1) (by decide +kernel) (by decide +kernel)
  have same := (claim choosing choosing_acyclic (choice "skip") (some 0) _ _ left right leftRun
    rightRun "join" (by decide +kernel)).length_eq
  omega

end Choirworks.Workflow
