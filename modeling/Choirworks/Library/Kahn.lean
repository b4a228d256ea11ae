import Mathlib.Data.List.Dedup
import Mathlib.Data.List.Perm.Subperm
import Mathlib.Logic.Function.Basic
import Choirworks.Library.Chains

/-!
Kahn's topological search over a finite list of vertices and their
dependency lists. The search keeps the number of unvisited dependencies of
every vertex and a stack of the vertices that have none left. A search that
visits every vertex gives a rank that grows along every dependency; it visits
every vertex exactly if the dependencies close no cycle.
-/

namespace Choirworks.Kahn

universe u
variable {Vertex : Type u} [DecidableEq Vertex]

structure Search (Vertex : Type u) where
  indegree : Vertex → Nat
  queue : List Vertex
  visited : List Vertex

def release (search : Search Vertex) (child : Vertex) : Search Vertex :=
  let left := search.indegree child - 1
  { search with
    indegree := Function.update search.indegree child left
    queue := if left = 0 then child :: search.queue else search.queue }

variable (vertices : List Vertex) (deps : Vertex → List Vertex)

def children (vertex : Vertex) : List Vertex :=
  vertices.filter fun child => vertex ∈ deps child

def initial : Search Vertex :=
  let indegree := fun vertex => (deps vertex).dedup.length
  { indegree
    queue := (vertices.filter fun vertex => indegree vertex = 0).reverse
    visited := [] }

def visit (search : Search Vertex) : Search Vertex :=
  match search.queue with
  | [] => search
  | current :: rest =>
      (children vertices deps current).foldl release
        { search with queue := rest, visited := current :: search.visited }

def drain : Nat → Search Vertex → Search Vertex
  | 0, search => search
  | fuel + 1, search => drain fuel (visit vertices deps search)

/-- The vertices the search visits, latest first. Every vertex is pushed at
most once, so one round for each vertex empties the stack. -/
def visited : List Vertex :=
  (drain vertices deps vertices.length (initial vertices deps)).visited

/-- Every dependency has a smaller rank than its dependent. -/
def Ranked (rank : Vertex → Nat) : Prop :=
  ∀ vertex ∈ vertices, ∀ dep ∈ deps vertex, rank dep < rank vertex

def remaining (gone : List Vertex) (vertex : Vertex) : List Vertex :=
  (deps vertex).dedup.filter fun dep => dep ∉ gone

structure Inv (search : Search Vertex) : Prop where
  known : ∀ vertex ∈ search.queue ++ search.visited, vertex ∈ vertices
  once : (search.queue ++ search.visited).Nodup
  counts : ∀ vertex ∈ vertices,
    search.indegree vertex = (remaining deps search.visited vertex).length
  free : ∀ vertex ∈ vertices,
    vertex ∈ search.queue ++ search.visited ↔ search.indegree vertex = 0
  ranked : ∃ rank : Vertex → Nat, ∀ vertex ∈ search.visited,
    rank vertex < search.visited.length ∧
      ∀ dep ∈ deps vertex, dep ∈ search.visited ∧ rank dep < rank vertex

variable {vertices deps}

theorem release_all_indegree (released : List Vertex) (unique : released.Nodup)
    (search : Search Vertex) (vertex : Vertex) :
    (released.foldl release search).indegree vertex =
      if vertex ∈ released then search.indegree vertex - 1 else search.indegree vertex := by
  induction released generalizing search with
  | nil => simp
  | cons first rest ih =>
      obtain ⟨fresh, unique⟩ := List.nodup_cons.mp unique
      rw [List.foldl_cons, ih unique]
      by_cases same : vertex = first
      · subst same
        simp [fresh, release]
      · simp [same, release]

theorem release_all_visited (released : List Vertex) (search : Search Vertex) :
    (released.foldl release search).visited = search.visited := by
  induction released generalizing search with
  | nil => rfl
  | cons first rest ih => rw [List.foldl_cons, ih]; rfl

theorem release_all_queue (released : List Vertex) (unique : released.Nodup)
    (search : Search Vertex) :
    (released.foldl release search).queue =
      (released.filter fun child => search.indegree child - 1 = 0).reverse ++ search.queue := by
  induction released generalizing search with
  | nil => rfl
  | cons first rest ih =>
      obtain ⟨fresh, unique⟩ := List.nodup_cons.mp unique
      have unchanged : ∀ child ∈ rest,
          (release search first).indegree child = search.indegree child := by
        intro child member
        have different : child ≠ first := by
          rintro rfl
          exact fresh member
        exact Function.update_of_ne different _ _
      rw [List.foldl_cons, ih unique,
        List.filter_congr fun child member => by rw [unchanged child member]]
      by_cases freed : search.indegree first - 1 = 0 <;> simp [release, freed]

theorem mem_children {vertex child : Vertex} :
    child ∈ children vertices deps vertex ↔ child ∈ vertices ∧ vertex ∈ deps child := by
  simp [children]

theorem children_nodup (unique : vertices.Nodup) (vertex : Vertex) :
    (children vertices deps vertex).Nodup :=
  unique.filter _

theorem remaining_nil (vertex : Vertex) : remaining deps [] vertex = (deps vertex).dedup := by
  simp [remaining]

theorem remaining_eq_nil {gone : List Vertex} {vertex : Vertex} :
    (remaining deps gone vertex).length = 0 ↔ ∀ dep ∈ deps vertex, dep ∈ gone := by
  simp [remaining, List.filter_eq_nil_iff]

/-- Visiting a vertex takes one dependency away from each of its children. -/
theorem remaining_cons {gone : List Vertex} {current : Vertex} (fresh : current ∉ gone)
    (vertex : Vertex) :
    (remaining deps (current :: gone) vertex).length =
      if current ∈ deps vertex then (remaining deps gone vertex).length - 1
      else (remaining deps gone vertex).length := by
  have erased : remaining deps (current :: gone) vertex =
      (remaining deps gone vertex).filter (· != current) := by
    simp only [remaining, List.filter_filter]
    apply List.filter_congr
    intro dep _
    by_cases same : dep = current <;> simp [same]
  have unique : (remaining deps gone vertex).Nodup := (List.nodup_dedup _).filter _
  rw [erased, ← unique.erase_eq_filter current]
  by_cases member : current ∈ deps vertex
  · have inside : current ∈ remaining deps gone vertex := by simp [remaining, member, fresh]
    simp [member, List.length_erase_of_mem inside]
  · have outside : current ∉ remaining deps gone vertex := by simp [remaining, member]
    simp [member, List.erase_of_not_mem outside]

theorem initial_inv (unique : vertices.Nodup) : Inv vertices deps (initial vertices deps) where
  known := by
    intro vertex member
    simp only [initial, List.append_nil, List.mem_reverse, List.mem_filter] at member
    exact member.1
  once := by
    simpa [initial] using unique.filter _
  counts := by
    intro vertex _
    simp [initial, remaining_nil]
  free := by
    intro vertex member
    simp [initial, member]
  ranked := ⟨fun _ => 0, by simp [initial]⟩

/-- One round of the search keeps the invariant. -/
theorem visit_inv (unique : vertices.Nodup) (search : Search Vertex)
    (inv : Inv vertices deps search) : Inv vertices deps (visit vertices deps search) := by
  obtain ⟨indegree, queue, visited⟩ := search
  cases queue with
  | nil => exact inv
  | cons current rest =>
      obtain ⟨known, once, counts, free, rank, ranked⟩ := inv
      simp only [List.cons_append, List.nodup_cons, List.mem_append, not_or] at once
      obtain ⟨⟨notRest, notVisited⟩, once⟩ := once
      have member : current ∈ vertices := known current (by simp)
      have ready : indegree current = 0 := (free current member).mp (by simp)
      have closed : ∀ dep ∈ deps current, dep ∈ visited :=
        remaining_eq_nil.mp ((counts current member).symm.trans ready)
      have childrenOnce := @children_nodup _ _ _ deps unique current
      -- a child waits for `current`, so it was not free before this round
      have waiting : ∀ child ∈ children vertices deps current, indegree child ≠ 0 := by
        intro child isChild zero
        obtain ⟨inside, depends⟩ := mem_children.mp isChild
        have seen := remaining_eq_nil.mp ((counts child inside).symm.trans zero)
        exact notVisited (seen current depends)
      have notFree : ∀ child ∈ children vertices deps current,
          child ∉ rest ++ visited ∧ child ≠ current := by
        intro child isChild
        have inside := (mem_children.mp isChild).1
        have before := fun found => waiting child isChild ((free child inside).mp found)
        constructor
        · intro found
          exact before (List.mem_cons_of_mem current found)
        · rintro rfl
          exact before (by simp)
      simp only [visit]
      constructor
      case known =>
        intro vertex found
        simp only [release_all_queue _ childrenOnce, release_all_visited, List.append_assoc,
          List.mem_append, List.mem_reverse, List.mem_filter, List.mem_cons] at found
        rcases found with ⟨isChild, _⟩ | inRest | same | before
        · exact (mem_children.mp isChild).1
        · exact known vertex (by simp [inRest])
        · exact same ▸ member
        · exact known vertex (by simp [before])
      case once =>
        simp only [release_all_queue _ childrenOnce, release_all_visited, List.append_assoc]
        refine List.Nodup.append (by simpa using childrenOnce.filter _) ?_ ?_
        · exact List.nodup_middle.mpr (List.nodup_cons.mpr ⟨by simp [notRest, notVisited], once⟩)
        · intro child isChild found
          simp only [List.mem_reverse, List.mem_filter] at isChild
          obtain ⟨outside, different⟩ := notFree child isChild.1
          simp only [List.mem_append, List.mem_cons] at found outside
          tauto
      case counts =>
        intro vertex inside
        rw [release_all_indegree _ childrenOnce, release_all_visited, remaining_cons notVisited,
          ← counts vertex inside]
        simp [mem_children, inside]
      case free =>
        intro vertex inside
        have before := free vertex inside
        rw [release_all_indegree _ childrenOnce]
        simp only [release_all_queue _ childrenOnce, release_all_visited, List.append_assoc,
          List.mem_append, List.mem_reverse, List.mem_filter, List.mem_cons, decide_eq_true_eq]
          at before ⊢
        by_cases isChild : vertex ∈ children vertices deps current
        · obtain ⟨outside, different⟩ := notFree vertex isChild
          simp only [List.mem_append, not_or] at outside
          simp [isChild, outside.1, outside.2, different]
        · simp only [isChild, false_and, false_or, ↓reduceIte, ← before]
          tauto
      case ranked =>
        simp only [release_all_visited]
        refine ⟨Function.update rank current visited.length, ?_⟩
        have older : ∀ vertex ∈ visited,
            Function.update rank current visited.length vertex = rank vertex := by
          intro vertex seen
          exact Function.update_of_ne (ne_of_mem_of_not_mem seen notVisited) _ _
        intro vertex found
        rcases List.mem_cons.mp found with same | seen
        · subst same
          simp only [Function.update_self, List.length_cons, Nat.lt_succ_self, true_and]
          intro dep depends
          have seen := closed dep depends
          exact ⟨List.mem_cons_of_mem _ seen, (older dep seen).symm ▸ (ranked dep seen).1⟩
        · rw [older vertex seen]
          refine ⟨Nat.lt_succ_of_lt (ranked vertex seen).1, ?_⟩
          intro dep depends
          obtain ⟨depSeen, less⟩ := (ranked vertex seen).2 dep depends
          exact ⟨List.mem_cons_of_mem _ depSeen, (older dep depSeen).symm ▸ less⟩

theorem drain_inv (unique : vertices.Nodup) (fuel : Nat) (search : Search Vertex)
    (inv : Inv vertices deps search) : Inv vertices deps (drain vertices deps fuel search) := by
  induction fuel generalizing search with
  | zero => exact inv
  | succ fuel ih => exact ih _ (visit_inv unique search inv)

/-- A round with a vertex on the stack visits that vertex. -/
theorem visit_length {search : Search Vertex} (waits : search.queue ≠ []) :
    (visit vertices deps search).visited.length = search.visited.length + 1 := by
  obtain ⟨current, rest, shape⟩ := List.exists_cons_of_ne_nil waits
  simp only [visit, shape, release_all_visited, List.length_cons]

theorem Inv.room {search : Search Vertex} (inv : Inv vertices deps search) :
    search.queue.length + search.visited.length ≤ vertices.length := by
  have inside : search.queue ++ search.visited ⊆ vertices := inv.known
  simpa using (List.subperm_of_subset inv.once inside).length_le

/-- As many rounds as there are unvisited vertices empty the stack. -/
theorem drain_empty (unique : vertices.Nodup) (fuel : Nat) (search : Search Vertex)
    (inv : Inv vertices deps search) (enough : vertices.length ≤ fuel + search.visited.length) :
    (drain vertices deps fuel search).queue = [] := by
  induction fuel generalizing search with
  | zero =>
      have room := inv.room
      exact List.length_eq_zero_iff.mp (by simp only [drain]; omega)
  | succ fuel ih =>
      by_cases empty : search.queue = []
      · have still : visit vertices deps search = search := by simp only [visit, empty]
        have idle : ∀ fuel, drain vertices deps fuel search = search := by
          intro fuel
          induction fuel with
          | zero => rfl
          | succ fuel ih => rw [drain, still, ih]
        rw [idle, empty]
      · refine ih _ (visit_inv unique search inv) ?_
        rw [visit_length empty]
        omega

theorem visited_inv (unique : vertices.Nodup) :
    Inv vertices deps (drain vertices deps vertices.length (initial vertices deps)) :=
  drain_inv unique vertices.length _ (initial_inv unique)

theorem visited_once (unique : vertices.Nodup) : (visited vertices deps).Nodup :=
  (List.nodup_append.mp (visited_inv unique).once).2.1

theorem visited_known (unique : vertices.Nodup) : visited vertices deps ⊆ vertices :=
  fun vertex seen => (visited_inv unique).known vertex (List.mem_append_right _ seen)

/-- A search that visits as many vertices as there are ranks the graph. -/
theorem ranked_of_visited (unique : vertices.Nodup)
    (all : (visited vertices deps).length = vertices.length) :
    ∃ rank, Ranked vertices deps rank := by
  obtain ⟨rank, ranked⟩ := (@visited_inv _ _ _ deps unique).ranked
  have every : vertices ⊆ visited vertices deps :=
    (List.subperm_of_subset (visited_once unique) (visited_known unique)).perm_of_length_le
      (Nat.le_of_eq all.symm) |>.symm.subset
  exact ⟨rank, fun vertex member dep depends =>
    ((ranked vertex (every member)).2 dep depends).2⟩

/-- A vertex needs its dependencies. -/
def Needs (vertices : List Vertex) (deps : Vertex → List Vertex) (vertex dep : Vertex) : Prop :=
  vertex ∈ vertices ∧ dep ∈ deps vertex

/-- Without a cycle nothing is left: a vertex that needs none of the unvisited ones
has no dependency left, so it is on the stack or visited. -/
theorem all_visited (unique : vertices.Nodup)
    (known : ∀ vertex ∈ vertices, ∀ dep ∈ deps vertex, dep ∈ vertices)
    (acyclic : Chains.Acyclic (Needs vertices deps)) :
    (visited vertices deps).length = vertices.length := by
  have inv : Inv vertices deps _ := visited_inv unique
  have empty := drain_empty unique vertices.length _ (@initial_inv _ _ _ deps unique)
    (Nat.le_add_right _ _)
  have every : vertices ⊆ visited vertices deps := by
    by_contra left
    have some_left : vertices.filter (· ∉ visited vertices deps) ≠ [] := by
      intro none
      apply left
      intro vertex member
      by_contra unseen
      exact List.filter_eq_nil_iff.mp none vertex member (by simpa using unseen)
    obtain ⟨vertex, chosen, free⟩ := acyclic.last some_left
    obtain ⟨member, left⟩ := List.mem_filter.mp chosen
    have unseen : vertex ∉ visited vertices deps := by simpa using left
    have done : ∀ dep ∈ deps vertex, dep ∈ visited vertices deps := by
      intro dep depends
      by_contra waits
      refine free dep (List.mem_filter.mpr ⟨known vertex member dep depends, ?_⟩)
        ⟨member, depends⟩
      simpa using waits
    have zero := (inv.counts vertex member).trans (remaining_eq_nil.mpr done)
    have reached := (inv.free vertex member).mpr zero
    rw [empty, List.nil_append] at reached
    exact unseen reached
  exact Nat.le_antisymm
    (List.subperm_of_subset (visited_once unique) (visited_known unique)).length_le
    (List.subperm_of_subset unique every).length_le

theorem visited_all_iff (unique : vertices.Nodup)
    (known : ∀ vertex ∈ vertices, ∀ dep ∈ deps vertex, dep ∈ vertices) :
    (visited vertices deps).length = vertices.length ↔ Chains.Acyclic (Needs vertices deps) := by
  constructor
  · intro all
    obtain ⟨rank, ranked⟩ := ranked_of_visited unique all
    exact Chains.acyclic_of_rank fun vertex dep needs => ranked vertex needs.1 dep needs.2
  · exact all_visited unique known

end Choirworks.Kahn
