import Mathlib.Algebra.BigOperators.Group.Finset.Basic
import Mathlib.Data.List.Nodup
import Mathlib.Data.List.Perm.Subperm
import Choirworks.Library.Chains

/-!
Searches of a finite directed graph that is given by its adjacency lists.
`reach` and `spread` collect what a worklist can get to: one marks a vertex when
it is popped, the other when it is pushed. `explore` goes depth first along
one path and stops at an edge back to the path; the vertices it finishes are
listed after their neighbors, so a graph it gets through has a rank that falls
along every edge. It gets through the graphs without cycles.
-/

namespace Choirworks.Search

universe u
variable {Vertex : Type u} [DecidableEq Vertex] (adj : Vertex → List Vertex)

/-- A vertex is pushed only from a vertex that is new, so one round for each
edge and one for the first vertex empties the stack. -/
def reach : Nat → List Vertex → List Vertex → List Vertex
  | 0, _, reachable => reachable
  | _ + 1, [], reachable => reachable
  | fuel + 1, node :: stack, reachable =>
      if node ∈ reachable then reach fuel stack reachable
      else
        reach fuel ((adj node).filter (fun next => next ∉ node :: reachable) ++ stack)
          (node :: reachable)

/-- Why a depth-first search stops. -/
inductive Fault (Vertex : Type u) where
  | cycle (vertices : List Vertex)
  | deep
deriving DecidableEq

/-- What lies between a vertex of the path and its end, and the vertex again.
The path is listed from its end. -/
def cycleOf (path : List Vertex) (neighbor : Vertex) : List Vertex :=
  path.reverse.dropWhile (· ≠ neighbor) ++ [neighbor]

/-- Finishes a vertex and what is new below it. The vertices on the path are
distinct, so the fuel need not exceed their number. -/
def explore : Nat → List Vertex → List Vertex → Vertex → Except (Fault Vertex) (List Vertex)
  | 0, _, _, _ => .error .deep
  | fuel + 1, path, done, vertex =>
      let path := vertex :: path
      let below := (adj vertex).foldlM (fun done neighbor =>
        if neighbor ∈ path then .error (.cycle (cycleOf path neighbor))
        else if neighbor ∈ done then .ok done
        else explore fuel path done neighbor) done
      below.map (vertex :: ·)

def exploreAll (vertices : List Vertex) : Except (Fault Vertex) (List Vertex) :=
  vertices.foldlM (fun done vertex =>
    if vertex ∈ done then .ok done else explore adj (vertices.length + 1) [] done vertex) []

variable {adj}

/-! ### Reaching -/

/-- What holds of the vertices on the stack and goes on along edges holds of all
that is reached. -/
theorem reach_sound (Good : Vertex → Prop)
    (next : ∀ node, Good node → ∀ other ∈ adj node, Good other)
    (fuel : Nat) (stack reachable : List Vertex) (onStack : ∀ node ∈ stack, Good node)
    (already : ∀ node ∈ reachable, Good node) :
    ∀ node ∈ reach adj fuel stack reachable, Good node := by
  induction fuel generalizing stack reachable with
  | zero => exact already
  | succ fuel ih =>
      cases stack with
      | nil => exact already
      | cons node stack =>
          simp only [reach]
          split
          · exact ih stack reachable (fun other member => onStack other (by simp [member])) already
          · apply ih
            · intro other member
              rcases List.mem_append.mp member with new | old
              · exact next node (onStack node (by simp)) other (List.mem_filter.mp new).1
              · exact onStack other (by simp [old])
            · intro other member
              rcases List.mem_cons.mp member with rfl | old
              · exact onStack other (by simp)
              · exact already other old

/-- The edges that a search can still push. -/
def unpushed (adj : Vertex → List Vertex) (vertices : Finset Vertex) (reachable : List Vertex) :
    Nat :=
  (vertices \ reachable.toFinset).sum fun vertex => (adj vertex).length

theorem unpushed_cons {vertices : Finset Vertex} {reachable : List Vertex} {node : Vertex}
    (known : node ∈ vertices) (new : node ∉ reachable) :
    (adj node).length + unpushed adj vertices (node :: reachable) =
      unpushed adj vertices reachable := by
  unfold unpushed
  rw [List.toFinset_cons, Finset.sdiff_insert]
  exact Finset.add_sum_erase _ (fun vertex => (adj vertex).length) (by simp [known, new])

/-- With a round for each edge and each vertex of the stack, what is reached
is closed under going on. -/
theorem reach_closed {vertices : Finset Vertex}
    (closed : ∀ vertex ∈ vertices, ∀ next ∈ adj vertex, next ∈ vertices)
    (fuel : Nat) (stack reachable : List Vertex) (onStack : ∀ node ∈ stack, node ∈ vertices)
    (enough : stack.length + unpushed adj vertices reachable ≤ fuel)
    (open_ : ∀ node ∈ reachable, ∀ next ∈ adj node, next ∈ reachable ∨ next ∈ stack) :
    (∀ node, node ∈ stack ∨ node ∈ reachable → node ∈ reach adj fuel stack reachable) ∧
      ∀ node ∈ reach adj fuel stack reachable, ∀ next ∈ adj node,
        next ∈ reach adj fuel stack reachable := by
  induction fuel generalizing stack reachable with
  | zero =>
      obtain rfl : stack = [] := List.length_eq_zero_iff.mp (by omega)
      simpa [reach] using open_
  | succ fuel ih =>
      cases stack with
      | nil => simpa [reach] using open_
      | cons node stack =>
          simp only [reach]
          rw [List.length_cons] at enough
          split
          · rename_i seen
            -- A vertex that was seen is dropped: its edges are covered already.
            obtain ⟨all, further⟩ := ih stack reachable
              (fun other member => onStack other (by simp [member])) (by omega) (by
                intro other member next edge
                rcases open_ other member next edge with inside | waits
                · exact Or.inl inside
                · rcases List.mem_cons.mp waits with rfl | later
                  · exact Or.inl seen
                  · exact Or.inr later)
            refine ⟨?_, further⟩
            rintro other (waits | inside)
            · rcases List.mem_cons.mp waits with rfl | later
              · exact all other (Or.inr seen)
              · exact all other (Or.inl later)
            · exact all other (Or.inr inside)
          · rename_i new
            have known := onStack node List.mem_cons_self
            -- A new vertex takes its edges out of what is left to push and pushes at most as many.
            have pushed : ((adj node).filter (fun next => next ∉ node :: reachable)).length ≤
                (adj node).length := List.length_filter_le _ _
            have left : (adj node).length + unpushed adj vertices (node :: reachable) =
                unpushed adj vertices reachable := unpushed_cons known new
            obtain ⟨all, further⟩ := ih
              ((adj node).filter (fun next => next ∉ node :: reachable) ++ stack)
              (node :: reachable) (by
                intro other member
                rcases List.mem_append.mp member with fresh | old
                · exact closed node known other (List.mem_filter.mp fresh).1
                · exact onStack other (by simp [old]))
              (by rw [List.length_append]; omega) (by
                intro other member next edge
                by_cases inside : next ∈ node :: reachable
                · exact Or.inl inside
                · right
                  rcases List.mem_cons.mp member with rfl | old
                  · exact List.mem_append_left _ (List.mem_filter.mpr ⟨edge, by simpa using inside⟩)
                  · rcases open_ other old next edge with seen | waits
                    · exact absurd (List.mem_cons_of_mem _ seen) inside
                    · rcases List.mem_cons.mp waits with rfl | later
                      · exact absurd List.mem_cons_self inside
                      · exact List.mem_append_right _ later)
            refine ⟨?_, further⟩
            rintro other (waits | inside)
            · rcases List.mem_cons.mp waits with rfl | later
              · exact all other (Or.inr List.mem_cons_self)
              · exact all other (Or.inl (List.mem_append_right _ later))
            · exact all other (Or.inr (List.mem_cons_of_mem _ inside))

/-! ### Going depth first -/

/-- Each vertex is listed once and after its neighbors. -/
def Finished (adj : Vertex → List Vertex) : List Vertex → Prop
  | [] => True
  | vertex :: rest => vertex ∉ rest ∧ (∀ neighbor ∈ adj vertex, neighbor ∈ rest) ∧ Finished adj rest

theorem Finished.ranked {done : List Vertex} (finished : Finished adj done) {vertex neighbor : Vertex}
    (member : vertex ∈ done) (edge : neighbor ∈ adj vertex) :
    neighbor ∈ done ∧ done.idxOf vertex < done.idxOf neighbor := by
  induction done with
  | nil => cases member
  | cons first rest ih =>
      obtain ⟨fresh, below, later⟩ := finished
      by_cases same : vertex = first
      · subst same
        have inside := below neighbor edge
        have different : vertex ≠ neighbor := by
          rintro rfl
          exact fresh inside
        constructor
        · exact List.mem_cons_of_mem _ inside
        · rw [List.idxOf_cons_self, List.idxOf_cons_ne _ different]
          omega
      · have inside := (List.mem_cons.mp member).resolve_left same
        obtain ⟨known, before⟩ := ih later inside
        have different : first ≠ neighbor := by
          rintro rfl
          exact fresh known
        constructor
        · exact List.mem_cons_of_mem _ known
        · rw [List.idxOf_cons_ne _ (Ne.symm same), List.idxOf_cons_ne _ different]
          omega

/-- What a search below a path finishes: nothing that is on the path. -/
structure Extends (adj : Vertex → List Vertex) (path done more : List Vertex) : Prop where
  finished : Finished adj more
  kept : ∀ vertex ∈ done, vertex ∈ more
  offPath : ∀ vertex ∈ more, vertex ∈ done ∨ vertex ∉ path

omit [DecidableEq Vertex] in
theorem Extends.refl {path done : List Vertex} (finished : Finished adj done) :
    Extends adj path done done :=
  ⟨finished, fun _ member => member, fun _ member => Or.inl member⟩

omit [DecidableEq Vertex] in
/-- A fold that is one search for each neighbor finishes all of them. -/
theorem fold_extends {path : List Vertex}
    {visit : List Vertex → Vertex → Except (Fault Vertex) (List Vertex)}
    (each : ∀ done vertex more, Finished adj done → visit done vertex = .ok more →
      Extends adj path done more ∧ vertex ∈ more)
    (vertices done : List Vertex) (more : List Vertex) (finished : Finished adj done)
    (ran : vertices.foldlM visit done = .ok more) :
    Extends adj path done more ∧ ∀ vertex ∈ vertices, vertex ∈ more := by
  induction vertices generalizing done with
  | nil =>
      cases ran
      exact ⟨.refl finished, by simp⟩
  | cons vertex rest ih =>
      rw [List.foldlM_cons] at ran
      cases first : visit done vertex with
      | error fault =>
          rw [first] at ran
          cases ran
      | ok middle =>
          rw [first] at ran
          obtain ⟨here, listed⟩ := each done vertex middle finished first
          obtain ⟨there, others⟩ := ih middle here.finished ran
          constructor
          · constructor
            case finished => exact there.finished
            case kept => exact fun other member => there.kept other (here.kept other member)
            case offPath =>
              intro other member
              rcases there.offPath other member with known | off
              · exact here.offPath other known
              · exact Or.inr off
          · intro other member
            rcases List.mem_cons.mp member with rfl | later
            · exact there.kept other listed
            · exact others other later

theorem explore_extends (fuel : Nat) (path done : List Vertex) (vertex : Vertex)
    (more : List Vertex) (finished : Finished adj done) (fresh : vertex ∉ done)
    (offPath : vertex ∉ path) (ran : explore adj fuel path done vertex = .ok more) :
    Extends adj path done more ∧ vertex ∈ more := by
  induction fuel generalizing path done vertex more with
  | zero => cases ran
  | succ fuel ih =>
      simp only [explore] at ran
      cases below : (adj vertex).foldlM (fun done neighbor =>
        if neighbor ∈ vertex :: path then .error (.cycle (cycleOf (vertex :: path) neighbor))
        else if neighbor ∈ done then .ok done
        else explore adj fuel (vertex :: path) done neighbor) done with
      | error fault =>
          rw [below] at ran
          cases ran
      | ok under =>
          rw [below] at ran
          cases ran
          -- the neighbors are finished first, the vertex behind them
          have each : ∀ done neighbor more, Finished adj done →
              (if neighbor ∈ vertex :: path then
                  .error (.cycle (cycleOf (vertex :: path) neighbor))
                else if neighbor ∈ done then .ok done
                else explore adj fuel (vertex :: path) done neighbor) = .ok more →
              Extends adj (vertex :: path) done more ∧ neighbor ∈ more := by
            intro done neighbor more finished visited
            split at visited
            · cases visited
            · rename_i off
              split at visited
              · rename_i known
                cases visited
                exact ⟨.refl finished, known⟩
              · rename_i new
                exact ih (vertex :: path) done neighbor more finished new off visited
          obtain ⟨extended, neighbors⟩ := fold_extends each _ _ _ finished below
          have still : vertex ∉ under := by
            intro member
            rcases extended.offPath vertex member with known | off
            · exact fresh known
            · exact off List.mem_cons_self
          refine ⟨⟨⟨still, neighbors, extended.finished⟩, ?_, ?_⟩, List.mem_cons_self⟩
          · exact fun other member => List.mem_cons_of_mem _ (extended.kept other member)
          · intro other member
            rcases List.mem_cons.mp member with rfl | later
            · exact Or.inr offPath
            · rcases extended.offPath other later with known | off
              · exact Or.inl known
              · exact Or.inr fun onPath => off (List.mem_cons_of_mem _ onPath)

/-- A graph that is explored has a rank that falls along every edge. -/
theorem ranked_of_explored {vertices done : List Vertex} (ran : exploreAll adj vertices = .ok done) :
    ∃ rank : Vertex → Nat, ∀ vertex ∈ vertices, ∀ neighbor ∈ adj vertex,
      rank neighbor < rank vertex := by
  have each : ∀ done vertex more, Finished adj done →
      (if vertex ∈ done then .ok done
        else explore adj (vertices.length + 1) [] done vertex) = .ok more →
      Extends adj [] done more ∧ vertex ∈ more := by
    intro done vertex more finished visited
    split at visited
    · rename_i known
      cases visited
      exact ⟨.refl finished, known⟩
    · rename_i new
      exact explore_extends _ _ _ _ _ finished new List.not_mem_nil visited
  obtain ⟨extended, all⟩ := fold_extends each vertices [] done trivial ran
  refine ⟨fun vertex => done.length - done.idxOf vertex, ?_⟩
  intro vertex member neighbor edge
  obtain ⟨inside, before⟩ := extended.finished.ranked (all vertex member) edge
  have short := List.idxOf_lt_length_of_mem inside
  show done.length - done.idxOf neighbor < done.length - done.idxOf vertex
  omega

/-! ### Enough fuel -/

omit [DecidableEq Vertex] in
theorem fold_error {visit : List Vertex → Vertex → Except (Fault Vertex) (List Vertex)}
    {vertices done : List Vertex} {fault : Fault Vertex}
    (stopped : vertices.foldlM visit done = .error fault) :
    ∃ done, ∃ vertex ∈ vertices, visit done vertex = .error fault := by
  induction vertices generalizing done with
  | nil => cases stopped
  | cons vertex rest ih =>
      rw [List.foldlM_cons] at stopped
      cases first : visit done vertex with
      | error other =>
          rw [first] at stopped
          cases stopped
          exact ⟨done, vertex, List.mem_cons_self, first⟩
      | ok middle =>
          rw [first] at stopped
          obtain ⟨done, other, member, there⟩ := ih stopped
          exact ⟨done, other, List.mem_cons_of_mem _ member, there⟩

omit [DecidableEq Vertex] in
theorem fold_not_deep {visit : List Vertex → Vertex → Except (Fault Vertex) (List Vertex)}
    (vertices done : List Vertex)
    (each : ∀ done, ∀ vertex ∈ vertices, visit done vertex ≠ .error .deep) :
    vertices.foldlM visit done ≠ .error .deep := by
  intro deep
  obtain ⟨done, vertex, member, there⟩ := fold_error deep
  exact each done vertex member there

theorem explore_not_deep {vertices : List Vertex}
    (closed : ∀ vertex ∈ vertices, ∀ neighbor ∈ adj vertex, neighbor ∈ vertices)
    (fuel : Nat) (path done : List Vertex) (vertex : Vertex) (known : vertex ∈ vertices)
    (inside : ∀ other ∈ path, other ∈ vertices) (once : path.Nodup) (offPath : vertex ∉ path)
    (enough : vertices.length < fuel + path.length) :
    explore adj fuel path done vertex ≠ .error .deep := by
  induction fuel generalizing path done vertex with
  | zero =>
      -- A path without repetitions is no longer than the list of vertices.
      have short := (List.subperm_of_subset once inside).length_le
      omega
  | succ fuel ih =>
      -- Every neighbor is off the path when it is explored, so the induction applies to it.
      have shallow : (adj vertex).foldlM (fun done neighbor =>
          if neighbor ∈ vertex :: path then .error (.cycle (cycleOf (vertex :: path) neighbor))
          else if neighbor ∈ done then .ok done
          else explore adj fuel (vertex :: path) done neighbor) done ≠ .error .deep := by
        apply fold_not_deep
        intro done neighbor edge
        split
        · simp
        · rename_i off
          split
          · simp
          · apply ih (vertex :: path) done neighbor (closed vertex known neighbor edge)
            · intro other member
              rcases List.mem_cons.mp member with rfl | later
              · exact known
              · exact inside other later
            · exact List.nodup_cons.mpr ⟨offPath, once⟩
            · exact off
            · rw [List.length_cons]
              omega
      intro deep
      simp only [explore] at deep
      cases below : (adj vertex).foldlM (fun done neighbor =>
        if neighbor ∈ vertex :: path then .error (.cycle (cycleOf (vertex :: path) neighbor))
        else if neighbor ∈ done then .ok done
        else explore adj fuel (vertex :: path) done neighbor) done with
      | error fault =>
          rw [below] at deep
          cases deep
          exact shallow below
      | ok under =>
          rw [below] at deep
          cases deep

/-- The search of a closed graph stops only at a cycle. -/
theorem exploreAll_not_deep {vertices : List Vertex}
    (closed : ∀ vertex ∈ vertices, ∀ neighbor ∈ adj vertex, neighbor ∈ vertices) :
    exploreAll adj vertices ≠ .error .deep := by
  apply fold_not_deep
  intro done vertex known
  split
  · simp
  · exact explore_not_deep closed _ _ _ _ known (by simp) List.nodup_nil (by simp)
      (by rw [List.length_nil]; omega)

/-! ### Cycles -/

/-- The edges of the graph. -/
def Edge (adj : Vertex → List Vertex) (vertex next : Vertex) : Prop := next ∈ adj vertex

/-- A path, listed from its end. -/
def Path (adj : Vertex → List Vertex) : List Vertex → Prop :=
  List.IsChain fun vertex earlier => vertex ∈ adj earlier

omit [DecidableEq Vertex] in
/-- A path leads from each of its vertices to its end. -/
theorem Path.leads {vertex : Vertex} {path : List Vertex} (along : Path adj (vertex :: path)) :
    ∀ earlier ∈ vertex :: path, Relation.ReflTransGen (Edge adj) earlier vertex := by
  induction path generalizing vertex with
  | nil =>
      intro earlier member
      rw [List.mem_singleton.mp member]
  | cons before path ih =>
      obtain ⟨last, along⟩ := List.isChain_cons_cons.mp along
      intro earlier member
      rcases List.mem_cons.mp member with rfl | inside
      · exact .refl
      · exact (ih along earlier inside).tail last

/-- A search stops at an edge back to its path, which closes a cycle. -/
theorem explore_cycle (fuel : Nat) (path done : List Vertex) (vertex : Vertex)
    {names : List Vertex} (along : Path adj (vertex :: path))
    (stopped : explore adj fuel path done vertex = .error (.cycle names)) :
    ¬ Chains.Acyclic (Edge adj) := by
  induction fuel generalizing path done vertex with
  | zero => cases stopped
  | succ fuel ih =>
      simp only [explore] at stopped
      cases below : (adj vertex).foldlM (fun done neighbor =>
        if neighbor ∈ vertex :: path then .error (.cycle (cycleOf (vertex :: path) neighbor))
        else if neighbor ∈ done then .ok done
        else explore adj fuel (vertex :: path) done neighbor) done with
      | ok under =>
          rw [below] at stopped
          cases stopped
      | error fault =>
          rw [below] at stopped
          cases stopped
          obtain ⟨done, neighbor, edge, there⟩ := fold_error below
          split at there
          · rename_i back
            intro acyclic
            exact acyclic neighbor (Relation.TransGen.tail' (along.leads neighbor back) edge)
          · split at there
            · cases there
            · exact ih (vertex :: path) done neighbor (along.cons_cons edge) there

/-- The search gets through the graphs without cycles, in whatever order it takes
the vertices. -/
theorem explored_iff {vertices : List Vertex}
    (inside : ∀ vertex next, next ∈ adj vertex → vertex ∈ vertices ∧ next ∈ vertices) :
    (∃ done, exploreAll adj vertices = .ok done) ↔ Chains.Acyclic (Edge adj) := by
  constructor
  · rintro ⟨done, ran⟩
    obtain ⟨rank, falls⟩ := ranked_of_explored ran
    exact Chains.acyclic_of_rank fun vertex next edge =>
      falls vertex (inside vertex next edge).1 next edge
  · intro acyclic
    cases ran : exploreAll adj vertices with
    | ok done => exact ⟨done, rfl⟩
    | error fault =>
        cases fault with
        | deep =>
            exact absurd ran (exploreAll_not_deep fun vertex _ next edge =>
              (inside vertex next edge).2)
        | cycle names =>
            obtain ⟨done, vertex, _, there⟩ := fold_error ran
            split at there
            · cases there
            · exact absurd acyclic (explore_cycle _ _ _ _ (List.isChain_singleton vertex) there)

/-! ### Spreading -/

/-- A target that has not been reached is marked and pushed. -/
def push (found : List Vertex × List Vertex) (target : Vertex) : List Vertex × List Vertex :=
  if target ∈ found.1 then found else (target :: found.1, target :: found.2)

/-- Marks a vertex when it is pushed, so that each is popped once. -/
def spread (adj : Vertex → List Vertex) : Nat → List Vertex → List Vertex → List Vertex
  | 0, _, reached => reached
  | _ + 1, [], reached => reached
  | fuel + 1, source :: frontier, reached =>
      let found := (adj source).foldl push (reached, frontier)
      spread adj fuel found.2 found.1

/-- What the edges of one vertex add to what is reached and to the frontier. -/
structure Pushed (targets : List Vertex) (old new : List Vertex × List Vertex) : Prop where
  reached : ∀ vertex, vertex ∈ new.1 ↔ vertex ∈ old.1 ∨ vertex ∈ targets
  waits : ∀ vertex ∈ new.1, vertex ∈ old.1 ∨ vertex ∈ new.2
  keeps : ∀ vertex ∈ old.2, vertex ∈ new.2
  known : (∀ vertex ∈ old.2, vertex ∈ old.1) → ∀ vertex ∈ new.2, vertex ∈ new.1
  nodup : old.1.Nodup → new.1.Nodup
  balance : new.1.length + old.2.length = old.1.length + new.2.length

theorem push_pushed (found : List Vertex × List Vertex) (target : Vertex) :
    Pushed [target] found (push found target) := by
  by_cases seen : target ∈ found.1
  · rw [push, if_pos seen]
    constructor
    case reached => grind
    all_goals simp +contextual
  · rw [push, if_neg seen]
    constructor
    case balance =>
      simp only [List.length_cons]
      omega
    all_goals grind

theorem pushed_all (targets : List Vertex) (found : List Vertex × List Vertex) :
    Pushed targets found (targets.foldl push found) := by
  induction targets generalizing found with
  | nil => constructor <;> simp +contextual
  | cons target rest ih =>
      have first := push_pushed found target
      have later := ih (push found target)
      rw [List.foldl_cons]
      constructor
      case reached =>
        intro vertex
        rw [later.reached, first.reached, List.mem_singleton, List.mem_cons, or_assoc]
      case waits =>
        intro vertex member
        rcases later.waits vertex member with before | onFrontier
        · exact (first.waits vertex before).imp_right (later.keeps vertex)
        · exact Or.inr onFrontier
      case keeps => exact fun vertex member => later.keeps vertex (first.keeps vertex member)
      case known => exact fun all => later.known (first.known all)
      case nodup => exact fun distinct => later.nodup (first.nodup distinct)
      case balance =>
        have one := first.balance
        have others := later.balance
        omega

/-- The target is where edges lead from the start. -/
abbrev Leads (adj : Vertex → List Vertex) : Vertex → Vertex → Prop :=
  Relation.ReflTransGen fun source next => next ∈ adj source

/-- What holds at every round: the vertices off the frontier have their targets marked. -/
structure Spreading (adj : Vertex → List Vertex) (start : Vertex) (vertices frontier reached : List Vertex) :
    Prop where
  inside : ∀ vertex ∈ reached, vertex ∈ vertices
  nodup : reached.Nodup
  known : ∀ vertex ∈ frontier, vertex ∈ reached
  started : start ∈ reached
  led : ∀ vertex ∈ reached, Leads adj start vertex
  done : ∀ vertex ∈ reached, vertex ∈ frontier ∨ ∀ next ∈ adj vertex, next ∈ reached

section Spread

variable {start : Vertex} {vertices frontier reached : List Vertex}

omit [DecidableEq Vertex] in
theorem Spreading.length_le (spreading : Spreading adj start vertices frontier reached) :
    reached.length ≤ vertices.length :=
  (spreading.nodup.subperm spreading.inside).length_le

/-- One round pops a vertex and marks its targets. -/
theorem Spreading.round {source : Vertex}
    (closed : ∀ vertex ∈ vertices, ∀ next ∈ adj vertex, next ∈ vertices)
    (spreading : Spreading adj start vertices (source :: frontier) reached) :
    Spreading adj start vertices ((adj source).foldl push (reached, frontier)).2
      ((adj source).foldl push (reached, frontier)).1 := by
  have pushed := pushed_all (adj source) (reached, frontier)
  have marked := spreading.known source List.mem_cons_self
  constructor
  case inside =>
    intro vertex member
    rcases (pushed.reached vertex).mp member with before | new
    · exact spreading.inside vertex before
    · exact closed source (spreading.inside source marked) vertex new
  case nodup => exact pushed.nodup spreading.nodup
  case known => exact pushed.known fun vertex member => spreading.known vertex (by simp [member])
  case started => exact (pushed.reached start).mpr (Or.inl spreading.started)
  case led =>
    intro vertex member
    rcases (pushed.reached vertex).mp member with before | new
    · exact spreading.led vertex before
    · exact (spreading.led source marked).tail new
  case done =>
    intro vertex member
    rcases pushed.waits vertex member with before | waits
    · by_cases here : vertex = source
      · subst here
        exact Or.inr fun next edge => (pushed.reached next).mpr (Or.inr edge)
      · rcases spreading.done vertex before with waits | covered
        · have later := (List.mem_cons.mp waits).resolve_left here
          exact Or.inl (pushed.keeps vertex later)
        · exact Or.inr fun next edge => (pushed.reached next).mpr (Or.inl (covered next edge))
    · exact Or.inl waits

omit [DecidableEq Vertex] in
/-- An empty frontier ends the search: what is reached is closed under the edges. -/
theorem Spreading.ended (spreading : Spreading adj start vertices [] reached) (vertex : Vertex) :
    vertex ∈ reached ↔ Leads adj start vertex := by
  refine ⟨spreading.led vertex, fun leads => ?_⟩
  induction leads with
  | refl => exact spreading.started
  | tail _ edge ih => exact (spreading.done _ ih).resolve_left List.not_mem_nil _ edge

/-- Each vertex is pushed once: with a round for each vertex the frontier runs empty. -/
theorem spread_reaches (closed : ∀ vertex ∈ vertices, ∀ next ∈ adj vertex, next ∈ vertices)
    (fuel : Nat) (spreading : Spreading adj start vertices frontier reached)
    (enough : vertices.length + frontier.length ≤ fuel + reached.length) (vertex : Vertex) :
    vertex ∈ spread adj fuel frontier reached ↔ Leads adj start vertex := by
  induction fuel generalizing frontier reached with
  | zero =>
      have room := spreading.length_le
      obtain rfl : frontier = [] := List.length_eq_zero_iff.mp (by omega)
      exact spreading.ended vertex
  | succ fuel ih =>
      cases frontier with
      | nil => exact spreading.ended vertex
      | cons source frontier =>
          have balance := (pushed_all (adj source) (reached, frontier)).balance
          dsimp only at balance
          rw [List.length_cons] at enough
          exact ih (spreading.round closed) (by omega)

/-- The search from one vertex. -/
theorem mem_spread (closed : ∀ vertex ∈ vertices, ∀ next ∈ adj vertex, next ∈ vertices)
    (member : start ∈ vertices) (vertex : Vertex) :
    vertex ∈ spread adj vertices.length [start] [start] ↔ Leads adj start vertex := by
  have spreading : Spreading adj start vertices [start] [start] := by
    constructor
    case inside => simpa using member
    case led =>
      intro other same
      rw [List.mem_singleton.mp same]
    all_goals simp
  exact spread_reaches closed _ spreading (by simp) vertex

end Spread

end Choirworks.Search
