import Choirworks.Workflow.Once

/-!
The output of a workflow. `evaluate` reads it off the graph as a data flow: what a
node gets is what its predecessors return. The loop schedules nodes in whatever
order they complete; where no edge is conditional, it comes to the same output.
-/

namespace Choirworks.Workflow

variable {Obj : Type}

section Defs

variable (workflow : Workflow Obj)

/-- `_finalize`: the output of the one terminal node that has any. Several make an
error, which says how many. -/
def collect : List (Option Obj) → Except Nat (Option Obj)
  | [] => .ok none
  | [output] => .ok output
  | several => .error several.length

def finalize (state : LoopState Obj) : Except Nat (Option Obj) :=
  collect (workflow.graph.terminalNodeNames.filterMap state.nodeOutputs.get?)

/-- The input of a node as its predecessors give it, as far as the fuel goes. -/
def inputAt (behaviour : Behaviour Obj) (input : Option Obj) : Nat → String → Option Obj
  | 0, _ => none
  | fuel + 1, name =>
      let outputs := fun other =>
        (nodeContext workflow behaviour other (inputAt behaviour input fuel other)).output
      if isJoin workflow name then joinInput workflow input outputs name
      else
        match workflow.graph.predecessors name with
        | [] => none
        | predecessor :: _ => if predecessor = startName then input else outputs predecessor

def outputAt (behaviour : Behaviour Obj) (input : Option Obj) (fuel : Nat) (name : String) :
    Option Obj :=
  (nodeContext workflow behaviour name (inputAt workflow behaviour input fuel name)).output

/-- The output of the workflow as a data flow. -/
def evaluate (behaviour : Behaviour Obj) (input : Option Obj) (fuel : Nat) :
    Except Nat (Option Obj) :=
  collect (workflow.graph.terminalNodeNames.filterMap fun name =>
    (outputAt workflow behaviour input fuel name).map some)

end Defs

/-! ### Stored outputs -/

section Stored

variable {workflow : Workflow Obj} {behaviour : Behaviour Obj} {input : Option Obj}
  {state : LoopState Obj}

/-- Only the start may have stored no value. -/
def Valued (state : LoopState Obj) : Prop :=
  ∀ name, name ≠ startName → state.nodeOutputs.get? name ≠ some none

theorem valued_seeded : Valued (seedStartTriggers workflow input) := by
  have seeding := (seed_spec workflow input).1
  intro name notStart
  rw [seeding.outputs name notStart]
  simp

theorem Valued.move {Allowed : String → Option Obj → ChildContext Obj → Prop} {next : LoopState Obj}
    (valued : Valued state) (moved : Move workflow Allowed state next) : Valued next := by
  intro name notStart
  cases moved with
  | start idle room popped => exact valued name notStart
  | complete pending fine allowed =>
      rw [handle_completion_eq, downstream_frame.2.2, finished_outputs]
      split
      · rename_i stored
        simpa using stored.2
      · exact valued name notStart

theorem valued_of_moves {Allowed : String → Option Obj → ChildContext Obj → Prop}
    (moves : Moves workflow Allowed (seedStartTriggers workflow input) state) : Valued state := by
  induction moves with
  | refl => exact valued_seeded
  | tail _ moved ih => exact ih.move moved

end Stored

/-! ### Inputs -/

section Inputs

variable {workflow : Workflow Obj} {behaviour : Behaviour Obj} {input : Option Obj}
  {state : LoopState Obj} {name : String}

theorem Unconditional.one_predecessor (unconditional : Unconditional workflow)
    (plain : isJoin workflow name = false) (some_ : workflow.graph.predecessors name ≠ []) :
    ∃ predecessor, workflow.graph.predecessors name = [predecessor] := by
  obtain ⟨first, member⟩ := List.exists_mem_of_ne_nil _ some_
  obtain ⟨edge, inside, _, rfl⟩ := mem_predecessors.mp member
  have few : (workflow.graph.predecessors edge.toNode.name).length ≤ 1 := by
    by_contra several
    have merges := unconditional.merges edge.toNode (mem_nodes.mpr ⟨edge, inside, Or.inr rfl⟩)
      (by omega)
    rw [is_join_edge inside, merges] at plain
    cases plain
  have length := List.length_pos_of_mem member
  exact List.length_eq_one_iff.mp (by omega)

/-- A node that is no join gets what its one predecessor has returned. -/
theorem OnceSoFar.handed (soFar : OnceSoFar workflow behaviour input state)
    (unconditional : Unconditional workflow) (plain : isJoin workflow name = false)
    {predecessor : String} (only : workflow.graph.predecessors name = [predecessor])
    {value : Option Obj} (triggered : buffered name state.history = [value]) :
    value = if predecessor = startName then input else outputOf state.history predecessor := by
  have sums := soFar.accounted.plain name plain
  rw [triggered, unconditional.start_count, only, List.flatMap_singleton] at sums
  have member : predecessor ∈ workflow.graph.predecessors name := by simp [only]
  by_cases isStart : predecessor = startName
  · subst isStart
    simp only [sent, soFar.accounted.start_never_ends, List.flatMap_nil, List.append_nil,
      List.mem_singleton, if_true, List.replicate_one] at sums
    rw [if_pos rfl]
    exact List.singleton_perm_singleton.mp sums
  · rw [if_neg isStart]
    simp only [List.mem_singleton, Ne.symm isStart, if_false, List.replicate_zero,
      List.nil_append] at sums
    by_cases ran : finished predecessor state.history = []
    · -- what has not ended has sent nothing
      rw [sent, ran] at sums
      exact absurd sums.eq_nil (by simp)
    · obtain ⟨run, one, _⟩ := soFar.only_run ran
      rw [sent, one, List.flatMap_singleton, unconditional.next_count, if_pos member,
        List.replicate_one] at sums
      rw [outputOf, one]
      exact List.singleton_perm_singleton.mp sums

/-- The nodes get what the data flow gives them, by induction along the edges. -/
theorem OnceSoFar.input_at (soFar : OnceSoFar workflow behaviour input state)
    (unconditional : Unconditional workflow)
    (done : ∀ name, buffered name state.history = started name state.history ∧
      started name state.history = (finished name state.history).map Prod.fst)
    {rank : String → Nat}
    (rises : ∀ edge ∈ workflow.graph.edges, rank edge.fromNode.name < rank edge.toNode.name)
    (fuel : Nat) {node : BaseNode} (known : node ∈ workflow.graph.nodes)
    (notStart : node.name ≠ startName) (enough : rank node.name < fuel) :
    finished node.name state.history =
      [(inputAt workflow behaviour input fuel node.name,
        nodeContext workflow behaviour node.name
          (inputAt workflow behaviour input fuel node.name))] := by
  induction fuel generalizing node with
  | zero => omega
  | succ fuel ih =>
      obtain ⟨value, starts, ends⟩ := soFar.final_run unconditional done known notStart
      have triggered : buffered node.name state.history = [value] := (done node.name).1.trans starts
      have before : ∀ other ∈ workflow.graph.predecessors node.name, other ≠ startName →
          outputOf state.history other = (nodeContext workflow behaviour other
            (inputAt workflow behaviour input fuel other)).output := by
        intro other member different
        obtain ⟨edge, inside, rfl, into⟩ := mem_predecessors.mp member
        have lower := rises edge inside
        have ran := ih (mem_nodes.mpr ⟨edge, inside, Or.inl rfl⟩) different
          (by rw [into] at lower; omega)
        simp [outputOf, ran]
      suffices same : value = inputAt workflow behaviour input (fuel + 1) node.name by
        rw [ends, same]
      unfold inputAt
      by_cases isJoin_ : isJoin workflow node.name = true
      · have joined := soFar.joined isJoin_ (starts ▸ List.mem_singleton.mpr rfl)
        rw [if_pos isJoin_, joined]
        exact join_input_congr before
      · have plain : isJoin workflow node.name = false := by simpa using isJoin_
        rw [if_neg isJoin_]
        obtain ⟨edge, member, into⟩ :=
          ((validated workflow.checked).entered node known).resolve_left notStart
        obtain ⟨predecessor, only⟩ := unconditional.one_predecessor plain
          (List.ne_nil_of_mem (mem_predecessors.mpr ⟨edge, member, rfl, into⟩))
        rw [soFar.handed unconditional plain only triggered, only]
        dsimp only
        split
        · rfl
        · rename_i different
          exact before predecessor (by simp [only]) different

theorem OnceSoFar.output_at (soFar : OnceSoFar workflow behaviour input state)
    (unconditional : Unconditional workflow) (valued : Valued state)
    (done : ∀ name, buffered name state.history = started name state.history ∧
      started name state.history = (finished name state.history).map Prod.fst)
    {rank : String → Nat}
    (rises : ∀ edge ∈ workflow.graph.edges, rank edge.fromNode.name < rank edge.toNode.name)
    {fuel : Nat} {node : BaseNode} (known : node ∈ workflow.graph.nodes)
    (notStart : node.name ≠ startName) (enough : rank node.name < fuel) :
    state.nodeOutputs.get? node.name =
      (outputAt workflow behaviour input fuel node.name).map some := by
  have stored := soFar.accounted.outputs node.name notStart _
    (soFar.input_at unconditional done rises fuel known notStart enough)
  have value := valued node.name notStart
  rw [outputAt, ← stored]
  cases found : state.nodeOutputs.get? node.name with
  | none => rfl
  | some output =>
      cases output with
      | none => exact absurd found value
      | some output => rfl

theorem nodes_ranked (nodes : List BaseNode) (rank : String → Nat) :
    ∃ bound, ∀ node ∈ nodes, rank node.name < bound := by
  induction nodes with
  | nil => exact ⟨0, by simp⟩
  | cons first rest ih =>
      obtain ⟨bound, below⟩ := ih
      refine ⟨max bound (rank first.name + 1), ?_⟩
      intro node member
      rcases List.mem_cons.mp member with rfl | later
      · omega
      · have lower := below node later
        omega

theorem input_at_limited (limit : Option Int) (fuel : Nat) :
    inputAt (limited workflow limit) behaviour input fuel =
      inputAt workflow behaviour input fuel := by
  induction fuel with
  | zero => rfl
  | succ fuel ih =>
      funext name
      rw [inputAt, inputAt, ih]
      rfl

theorem evaluate_limited (limit : Option Int) (fuel : Nat) :
    evaluate (limited workflow limit) behaviour input fuel =
      evaluate workflow behaviour input fuel := by
  unfold evaluate outputAt
  rw [input_at_limited]
  rfl

end Inputs

end Choirworks.Workflow
