import Choirworks.Library.Kahn

/-!
The structural validation of a plan. Both orchestrators have it, over node
types of their own, so it is stated for any node with an id and dependencies.
What it accepts are the directed acyclic graphs with distinct ids.
-/

namespace Choirworks.Planning

universe u
variable {Node : Type u}

/-- The first dependency, in plan order, that is unknown or the node itself. -/
def checkDeps (ids : List String) (nodeId : String) : List String → Except String Unit
  | [] => .ok ()
  | dep :: rest =>
      if dep ∉ ids then .error ("unknown dependency: " ++ dep)
      else if dep = nodeId then .error ("node " ++ nodeId ++ " depends on itself")
      else checkDeps ids nodeId rest

variable (idOf : Node → String) (depsOf : Node → List String)

def checkNodes (ids : List String) : List Node → Except String Unit
  | [] => .ok ()
  | node :: rest =>
      match checkDeps ids (idOf node) (depsOf node) with
      | .error text => .error text
      | .ok () => checkNodes ids rest

/-- The dependencies of the first node with that id. -/
def depsNamed (nodes : List Node) (name : String) : List String :=
  match nodes.find? fun node => idOf node = name with
  | some node => depsOf node
  | none => []

def validateNodes (nodes : List Node) (limit : Nat) : Except String Unit :=
  let ids := nodes.map idOf
  if nodes.length > limit then
    .error ("too many nodes: " ++ toString nodes.length ++ " > " ++ toString limit)
  else if ¬ ids.Nodup then
    .error "duplicate node id in plan"
  else
    match checkNodes idOf depsOf ids nodes with
    | .error text => .error text
    | .ok () =>
        if (Kahn.visited ids (depsNamed idOf depsOf nodes)).length ≠ ids.length then
          .error "plan contains a cycle"
        else .ok ()

/-- What validation establishes. -/
structure Valid (nodes : List Node) : Prop where
  unique : (nodes.map idOf).Nodup
  known : ∀ node ∈ nodes, ∀ dep ∈ depsOf node, dep ∈ nodes.map idOf
  ranked : ∃ rank : String → Nat, ∀ node ∈ nodes, ∀ dep ∈ depsOf node, rank dep < rank (idOf node)

variable {idOf depsOf}

theorem checkDeps_ok_iff {ids : List String} {nodeId : String} {deps : List String} :
    checkDeps ids nodeId deps = .ok () ↔ ∀ dep ∈ deps, dep ∈ ids ∧ dep ≠ nodeId := by
  induction deps with
  | nil => simp [checkDeps]
  | cons dep rest ih =>
      by_cases known : dep ∈ ids
      · by_cases own : dep = nodeId
        · subst own
          simp [checkDeps, known]
        · simp [checkDeps, known, own, ih]
      · simp [checkDeps, known]

theorem checkNodes_ok_iff {ids : List String} {nodes : List Node} :
    checkNodes idOf depsOf ids nodes = .ok () ↔
      ∀ node ∈ nodes, ∀ dep ∈ depsOf node, dep ∈ ids ∧ dep ≠ idOf node := by
  induction nodes with
  | nil => simp [checkNodes]
  | cons node rest ih =>
      rw [List.forall_mem_cons, ← ih, ← checkDeps_ok_iff, checkNodes]
      cases checkDeps ids (idOf node) (depsOf node) <;> simp

theorem depsNamed_of_mem {nodes : List Node} (unique : (nodes.map idOf).Nodup) {node : Node}
    (member : node ∈ nodes) : depsNamed idOf depsOf nodes (idOf node) = depsOf node := by
  unfold depsNamed
  induction nodes with
  | nil => simp at member
  | cons first rest ih =>
      simp only [List.map_cons, List.nodup_cons] at unique
      rcases List.mem_cons.mp member with same | later
      · simp [same]
      · have different : idOf first ≠ idOf node := by
          intro same
          exact unique.1 (same ▸ List.mem_map_of_mem later)
        rw [List.find?_cons_of_neg (by simpa using different)]
        exact ih unique.2 later

theorem validateNodes_ok_iff {nodes : List Node} {limit : Nat} :
    validateNodes idOf depsOf nodes limit = .ok () ↔
      nodes.length ≤ limit ∧ (nodes.map idOf).Nodup ∧
        (∀ node ∈ nodes, ∀ dep ∈ depsOf node, dep ∈ nodes.map idOf ∧ dep ≠ idOf node) ∧
        (Kahn.visited (nodes.map idOf) (depsNamed idOf depsOf nodes)).length =
          (nodes.map idOf).length := by
  rw [← checkNodes_ok_iff]
  simp only [validateNodes]
  by_cases many : nodes.length > limit
  · simp [many]
  · have few : nodes.length ≤ limit := Nat.not_lt.mp many
    by_cases unique : (nodes.map idOf).Nodup
    · cases checkNodes idOf depsOf (nodes.map idOf) nodes with
      | error text => simp [many, unique]
      | ok _ => simp [many, few, unique]
    · simp [many, unique]

theorem validateNodes_valid {nodes : List Node} {limit : Nat}
    (passed : validateNodes idOf depsOf nodes limit = .ok ()) : Valid idOf depsOf nodes := by
  obtain ⟨_, unique, checked, all⟩ := validateNodes_ok_iff.mp passed
  obtain ⟨rank, ranked⟩ := Kahn.ranked_of_visited unique all
  refine ⟨unique, fun node member dep depends => (checked node member dep depends).1, rank, ?_⟩
  intro node member dep depends
  apply ranked (idOf node) (List.mem_map_of_mem member)
  rwa [depsNamed_of_mem unique member]

/-! ### The plans that are accepted -/

variable (idOf depsOf)

/-- The node with the first id has a dependency on the second. -/
def DependsOn (nodes : List Node) (nodeId dep : String) : Prop :=
  ∃ node ∈ nodes, idOf node = nodeId ∧ dep ∈ depsOf node

/-- A directed acyclic graph of at most so many nodes. -/
structure WellFormed (limit : Nat) (nodes : List Node) : Prop where
  few : nodes.length ≤ limit
  unique : (nodes.map idOf).Nodup
  known : ∀ node ∈ nodes, ∀ dep ∈ depsOf node, dep ∈ nodes.map idOf
  acyclic : Chains.Acyclic (DependsOn idOf depsOf nodes)

variable {idOf depsOf}

theorem needs_named {nodes : List Node} (unique : (nodes.map idOf).Nodup) :
    Kahn.Needs (nodes.map idOf) (depsNamed idOf depsOf nodes) = DependsOn idOf depsOf nodes := by
  funext nodeId dep
  simp only [Kahn.Needs, DependsOn, List.mem_map, eq_iff_iff]
  constructor
  · rintro ⟨⟨node, member, rfl⟩, depends⟩
    rw [depsNamed_of_mem unique member] at depends
    exact ⟨node, member, rfl, depends⟩
  · rintro ⟨node, member, rfl, depends⟩
    refine ⟨⟨node, member, rfl⟩, ?_⟩
    rwa [depsNamed_of_mem unique member]

/-- Validation accepts the well-formed plans and no other ones. -/
theorem validateNodes_iff {nodes : List Node} {limit : Nat} :
    validateNodes idOf depsOf nodes limit = .ok () ↔ WellFormed idOf depsOf limit nodes := by
  rw [validateNodes_ok_iff]
  constructor
  · rintro ⟨few, unique, checked, all⟩
    have known : ∀ node ∈ nodes, ∀ dep ∈ depsOf node, dep ∈ nodes.map idOf :=
      fun node member dep depends => (checked node member dep depends).1
    refine ⟨few, unique, known, ?_⟩
    rw [← needs_named unique]
    refine (Kahn.visited_all_iff unique ?_).mp all
    intro nodeId listed dep depends
    obtain ⟨node, member, rfl⟩ := List.mem_map.mp listed
    rw [depsNamed_of_mem unique member] at depends
    exact known node member dep depends
  · rintro ⟨few, unique, known, acyclic⟩
    refine ⟨few, unique, fun node member dep depends => ⟨known node member dep depends, ?_⟩, ?_⟩
    · rintro rfl
      exact acyclic (idOf node) (.single ⟨node, member, rfl, depends⟩)
    · refine (Kahn.visited_all_iff unique ?_).mpr (needs_named unique ▸ acyclic)
      intro nodeId listed dep depends
      obtain ⟨node, member, rfl⟩ := List.mem_map.mp listed
      rw [depsNamed_of_mem unique member] at depends
      exact known node member dep depends

/-- The ids and the dependencies of a plan. -/
def shape (idOf : Node → String) (depsOf : Node → List String) (nodes : List Node) :
    List (String × List String) :=
  nodes.map fun node => (idOf node, depsOf node)

/-- A plan is well formed by its ids and dependencies alone. -/
theorem wellFormed_shape {nodes : List Node} {limit : Nat} :
    WellFormed Prod.fst Prod.snd limit (shape idOf depsOf nodes) ↔
      WellFormed idOf depsOf limit nodes := by
  have ids : (shape idOf depsOf nodes).map Prod.fst = nodes.map idOf := by simp [shape]
  have edges : DependsOn Prod.fst Prod.snd (shape idOf depsOf nodes) =
      DependsOn idOf depsOf nodes := by
    funext nodeId dep
    simp [DependsOn, shape]
  constructor
  · rintro ⟨few, unique, known, acyclic⟩
    refine ⟨by simpa [shape] using few, ids ▸ unique, fun node member dep depends => ?_,
      edges ▸ acyclic⟩
    exact ids ▸ known (idOf node, depsOf node) (List.mem_map_of_mem member) dep depends
  · rintro ⟨few, unique, known, acyclic⟩
    refine ⟨by simpa [shape] using few, ids.symm ▸ unique, ?_, edges.symm ▸ acyclic⟩
    intro row listed dep depends
    obtain ⟨node, member, rfl⟩ := List.mem_map.mp listed
    exact ids.symm ▸ known node member dep depends

end Choirworks.Planning
