import Choirworks.Workflow.Graph

/-!
The graphs that validation accepts. The code keeps the names of the nodes and
the successors of a node in sets, so the worklist and the search for cycles go
through them in an order of their own; `SetOrder` is any such order.
-/

namespace Choirworks.Workflow

/-- The orders in which the successors of a node are pushed and the nodes are
searched. -/
structure SetOrder (graph : Graph) where
  pushed : String → List String
  searched : List String
  successors : ∀ name, (pushed name).Perm (successors graph.edges name)
  names : searched.Perm (graph.nodes.map (·.name))

def reachableBy (pushed : String → List String) (nodeNames : List String) : List String :=
  let pushes := (nodeNames.flatMap pushed).length
  Search.reach pushed (pushes + 1) [startName] []

def validateConnectivityBy (pushed : String → List String) (edges : List Edge)
    (nodeNames : List String) : Except GraphValidationError Unit :=
  let unreachable := nodeNames.filter (· ∉ reachableBy pushed nodeNames)
  if unreachable ≠ [] then .error (.unreachable (unreachable.mergeSort (· ≤ ·)))
  else if startName ∈ edges.map (·.toNode.name) then .error .startHasIncoming
  else .ok ()

def validateGraphBy {graph : Graph} (order : SetOrder graph) : Except GraphValidationError Unit := do
  let nodeNames ← validateDuplicateNodeNames graph.nodes
  validateStartNode nodeNames
  validateStartEdges graph.edges
  validateConnectivityBy order.pushed graph.edges nodeNames
  validateDuplicateEdges graph.edges
  validateDefaultRoutes graph.edges
  detectUnconditionalCycles graph.edges order.searched

/-- The orders of the lists that the model keeps in place of the sets. -/
def SetOrder.listed (graph : Graph) : SetOrder graph where
  pushed := Workflow.successors graph.edges
  searched := graph.nodes.map (·.name)
  successors _ := .refl _
  names := .refl _

/-! ### What a graph is meant to be -/

/-- Two edges may both be taken for one emitted route; an edge without a route
always is. -/
def Overlap : Option Routes → Option Routes → Prop
  | some routes, some others => ∃ route ∈ routes.values, route ∈ others.values
  | none, _ | _, none => True

/-- An edge that is taken whatever the node emits. -/
def Unrouted (edges : List Edge) (name next : String) : Prop :=
  ∃ edge ∈ edges, edge.route = none ∧ edge.fromNode.name = name ∧ edge.toNode.name = next

/-- `refused` are the route lists that no edge may have. -/
structure Intended (refused : List RouteValue → Prop) (graph : Graph) : Prop where
  unique : (graph.nodes.map (·.name)).Nodup
  start : startName ∈ graph.nodes.map (·.name)
  startFree : ∀ edge ∈ graph.edges, edge.toNode.name ≠ startName
  startUnrouted : ∀ edge ∈ graph.edges, edge.fromNode.name = startName → edge.route = none
  reached : ∀ node ∈ graph.nodes, Relation.ReflTransGen (Leads graph.edges) startName node.name
  apart : graph.edges.Pairwise fun edge other =>
    edge.fromNode.name = other.fromNode.name → edge.toNode.name = other.toNode.name →
      ¬ Overlap edge.route other.route
  allowed : ∀ edge ∈ graph.edges, ∀ routes, edge.route = some (.many routes) → ¬ refused routes
  acyclic : Chains.Acyclic (Unrouted graph.edges)

/-! ### The single checks -/

section Checks

variable {graph : Graph} {edges : List Edge} {edge other : Edge} {names : List String}

theorem duplicate_names_ok {nodes : List BaseNode} (once : (nodes.map (·.name)).Nodup) :
    validateDuplicateNodeNames nodes = .ok (nodes.map (·.name)) := by
  have none : (nodes.map (·.name)).filter
      (fun name => 1 < (nodes.map (·.name)).count name) = [] := by
    refine List.filter_eq_nil_iff.mpr fun name _ => ?_
    have counted := List.nodup_iff_count_le_one.mp once name
    simpa using counted
  simp [validateDuplicateNodeNames, none]

theorem forM_ok_iff {check : Edge → Except GraphValidationError Unit} :
    edges.forM check = .ok () ↔ ∀ edge ∈ edges, check edge = .ok () := by
  constructor
  · exact forM_ok
  · intro each
    induction edges with
    | nil => rfl
    | cons first rest ih =>
        change (check first >>= fun _ => rest.forM check) = .ok ()
        rw [each first List.mem_cons_self]
        exact ih fun edge member => each edge (List.mem_cons_of_mem _ member)

theorem start_edges_iff : validateStartEdges edges = .ok () ↔
    ∀ edge ∈ edges, edge.fromNode.name = startName → edge.route = none := by
  unfold validateStartEdges
  rw [forM_ok_iff]
  refine forall₂_congr fun edge _ => ?_
  cases edge.route with
  | none => simp
  | some route => by_cases start : edge.fromNode.name = startName <;> simp [start]

theorem default_routes_iff : validateDefaultRoutes edges = .ok () ↔
    ∀ edge ∈ edges, ∀ routes, edge.route = some (.many routes) → defaultRoute ∉ routes := by
  unfold validateDefaultRoutes
  rw [forM_ok_iff]
  refine forall₂_congr fun edge _ => ?_
  cases edge.route with
  | none => simp
  | some given =>
      cases given with
      | one route => simp
      | many routes => by_cases listed : defaultRoute ∈ routes <;> simp [listed]

theorem overlap_iff : Apart edge other ↔
    (edge.fromNode.name = other.fromNode.name → edge.toNode.name = other.toNode.name →
      ¬ Overlap edge.route other.route) := by
  unfold Apart
  refine imp_congr_right fun _ => imp_congr_right fun _ => ?_
  cases edge.route with
  | none => simp [normalizeRoute, Overlap]
  | some routes =>
      cases other.route with
      | none => simp [normalizeRoute, Overlap]
      | some others =>
          have shared : (∀ route ∈ normalizeRoute (some routes),
                route ∉ normalizeRoute (some others)) ↔
              ∀ route ∈ routes.values, route ∉ others.values := by
            simp only [normalizeRoute]
            rw [List.forall_mem_map]
            simp only [List.mem_map, Option.some.injEq, exists_eq_right]
          rw [shared]
          simp [normalizeRoute, Overlap]

theorem edges_pass (edges : List Edge)
    (seen : Dict (String × String) (List (Option RouteValue)))
    (fresh : ∀ edge ∈ edges, ∀ existing,
      seen.get? (edge.fromNode.name, edge.toNode.name) = some existing →
        none ∉ existing ∧ none ∉ normalizeRoute edge.route ∧
          ∀ route ∈ existing, route ∉ normalizeRoute edge.route)
    (apart : edges.Pairwise Apart) :
    ∃ final, edges.foldlM validateDuplicateEdge seen = .ok final := by
  induction edges generalizing seen with
  | nil => exact ⟨seen, rfl⟩
  | cons first rest ih =>
      obtain ⟨others, apart⟩ := List.pairwise_cons.mp apart
      have passes : ∃ next, validateDuplicateEdge seen first = .ok next := by
        simp only [validateDuplicateEdge]
        cases known : seen.get? (first.fromNode.name, first.toNode.name) with
        | none => exact ⟨_, rfl⟩
        | some existing =>
            obtain ⟨noneThere, noneHere, disjoint⟩ := fresh first List.mem_cons_self existing known
            refine ⟨_, if_neg ?_⟩
            rintro (there | here | shared)
            · exact noneThere there
            · exact noneHere here
            · obtain ⟨route, new, old⟩ := List.any_eq_true.mp shared
              exact disjoint route (by simpa using old) new
      obtain ⟨next, passed⟩ := passes
      obtain ⟨_, rfl⟩ := duplicate_edge_ok passed
      rw [List.foldlM_cons, passed]
      refine ih _ ?_ apart
      intro edge behind existing known
      rw [Dict.get?_set] at known
      split at known
      · -- What stands under the key is the old entry and the routes of the first edge.
        rename_i same
        cases known
        obtain ⟨sameFrom, sameTo⟩ := Prod.mk.inj same
        obtain ⟨noneFirst, noneHere, disjoint⟩ := others edge behind sameFrom.symm sameTo.symm
        cases before : seen.get? (first.fromNode.name, first.toNode.name) with
        | none => simpa [Dict.getD, before] using ⟨noneFirst, noneHere, disjoint⟩
        | some old =>
            obtain ⟨noneThere, _, older⟩ := fresh edge (List.mem_cons_of_mem _ behind) old
              (same ▸ before)
            refine ⟨?_, noneHere, ?_⟩
            · simp [Dict.getD, before, noneThere, noneFirst]
            · intro route listed
              simp only [Dict.getD, before, Option.getD_some, List.mem_append] at listed
              exact listed.elim (older route) (disjoint route)
      · exact fresh edge (List.mem_cons_of_mem _ behind) existing known

theorem duplicate_edges_iff : validateDuplicateEdges edges = .ok () ↔ edges.Pairwise Apart := by
  constructor
  · intro checked
    cases walked : edges.foldlM validateDuplicateEdge .empty with
    | error fault => simp [validateDuplicateEdges, walked, Except.map] at checked
    | ok seen => exact (edges_apart _ _ _ walked).2
  · intro apart
    obtain ⟨final, walked⟩ := edges_pass edges .empty (by simp) apart
    simp [validateDuplicateEdges, walked, Except.map]

theorem unrouted_edge {name next : String} :
    Search.Edge (unconditionalSuccessors edges) name next ↔ Unrouted edges name next := by
  simp only [Search.Edge, unconditionalSuccessors, List.mem_map, List.mem_filter, Unrouted,
    Bool.and_eq_true, decide_eq_true_eq]
  constructor
  · rintro ⟨edge, ⟨member, source, free⟩, rfl⟩
    exact ⟨edge, member, free, source, rfl⟩
  · rintro ⟨edge, member, free, source, rfl⟩
    exact ⟨edge, ⟨member, source, free⟩, rfl⟩

theorem cycles_iff (known : ∀ edge ∈ edges, edge.fromNode.name ∈ names ∧ edge.toNode.name ∈ names) :
    detectUnconditionalCycles edges names = .ok () ↔ Chains.Acyclic (Unrouted edges) := by
  have edgesAre : Search.Edge (unconditionalSuccessors edges) = Unrouted edges := by
    funext name next
    exact propext unrouted_edge
  rw [← edgesAre, ← @Search.explored_iff _ _ _ names]
  · unfold detectUnconditionalCycles
    cases Search.exploreAll (unconditionalSuccessors edges) names with
    | ok done => simp
    | error fault => cases fault <;> simp
  · intro name next edge
    obtain ⟨found, member, _, rfl, rfl⟩ := unrouted_edge.mp edge
    exact known found member

end Checks

/-! ### The graph as a whole -/

section Whole

variable {graph : Graph}

/-- The order of the pushes makes no difference to the check. -/
theorem connectivity_by {edges : List Edge} {names : List String} {pushed : String → List String}
    (once : names.Nodup) (start : startName ∈ names)
    (closed : ∀ edge ∈ edges, edge.toNode.name ∈ names)
    (same : ∀ name, (pushed name).Perm (successors edges name)) :
    validateConnectivityBy pushed edges names = validateConnectivity edges names := by
  have found : ∀ name, name ∈ reachableBy pushed names ↔ name ∈ reachable edges names := by
    intro name
    rw [reachable_iff once start closed]
    exact reach_iff once start closed fun name next => (same name).mem_iff
  simp only [validateConnectivityBy, validateConnectivity, found]

theorem bind_ok_iff {Value Result : Type} {first : Except GraphValidationError Value}
    {next : Value → Except GraphValidationError Result} {result : Result} :
    (first >>= next) = .ok result ↔ ∃ value, first = .ok value ∧ next value = .ok result := by
  constructor
  · exact bind_ok
  · rintro ⟨value, passed, last⟩
    rw [passed]
    exact last

theorem validate_by_iff (order : SetOrder graph) :
    validateGraphBy order = .ok () ↔ Intended (defaultRoute ∈ ·) graph := by
  have known : ∀ edge ∈ graph.edges, edge.fromNode.name ∈ graph.nodes.map (·.name) ∧
      edge.toNode.name ∈ graph.nodes.map (·.name) := fun edge member =>
    ⟨List.mem_map_of_mem (mem_nodes.mpr ⟨edge, member, Or.inl rfl⟩),
      List.mem_map_of_mem (mem_nodes.mpr ⟨edge, member, Or.inr rfl⟩)⟩
  have cycles : detectUnconditionalCycles graph.edges order.searched = .ok () ↔
      Chains.Acyclic (Unrouted graph.edges) := cycles_iff fun edge member =>
    ⟨order.names.mem_iff.mpr (known edge member).1, order.names.mem_iff.mpr (known edge member).2⟩
  -- connectivity is searched over distinct names, the start among them
  have connected : ∀ _ : (graph.nodes.map (·.name)).Nodup,
      ∀ _ : startName ∈ graph.nodes.map (·.name),
        (validateConnectivityBy order.pushed graph.edges (graph.nodes.map (·.name)) = .ok () ↔
          (∀ name ∈ graph.nodes.map (·.name),
            Relation.ReflTransGen (Leads graph.edges) startName name) ∧
            ∀ edge ∈ graph.edges, edge.toNode.name ≠ startName) := by
    intro once start
    rw [connectivity_by once start (fun edge member => (known edge member).2) order.successors]
    exact connected_iff once start fun edge member => (known edge member).2
  simp only [validateGraphBy, bind_ok_iff]
  constructor
  · rintro ⟨names, distinct, _, present, _, starts, _, connectivity, _, duplicates, _, defaults,
      free⟩
    obtain ⟨rfl, once⟩ := names_nodup distinct
    have start : startName ∈ graph.nodes.map (·.name) := by
      by_contra absent
      simp [validateStartNode, absent] at present
    obtain ⟨reached, entered⟩ := (connected once start).mp connectivity
    exact
      { unique := once
        start
        startFree := entered
        startUnrouted := start_edges_iff.mp starts
        reached := fun node member => reached node.name (List.mem_map_of_mem member)
        apart := (duplicate_edges_iff.mp duplicates).imp overlap_iff.mp
        allowed := default_routes_iff.mp defaults
        acyclic := cycles.mp free }
  · intro intended
    refine ⟨_, duplicate_names_ok intended.unique, (), if_pos intended.start, (),
      start_edges_iff.mpr intended.startUnrouted, (), ?_, (),
      duplicate_edges_iff.mpr (intended.apart.imp overlap_iff.mpr), (),
      default_routes_iff.mpr intended.allowed, cycles.mpr intended.acyclic⟩
    refine (connected intended.unique intended.start).mpr ⟨?_, intended.startFree⟩
    intro name listed
    obtain ⟨node, member, rfl⟩ := List.mem_map.mp listed
    exact intended.reached node member

theorem validate_listed :
    validateGraph graph.nodes graph.edges = .ok () ↔ validateGraphBy (.listed graph) = .ok () := by
  simp only [validateGraph, validateGraphBy, bind_ok_iff]
  constructor
  · rintro ⟨names, distinct, rest⟩
    obtain ⟨rfl, _⟩ := names_nodup distinct
    exact ⟨_, distinct, rest⟩
  · rintro ⟨names, distinct, rest⟩
    obtain ⟨rfl, _⟩ := names_nodup distinct
    exact ⟨_, distinct, rest⟩

end Whole

/-- `DEFAULT_ROUTE` stands in the list next to another route. -/
def Combined (routes : List RouteValue) : Prop :=
  defaultRoute ∈ routes ∧ ∃ route ∈ routes, route ≠ defaultRoute

section Sample

/-! An edge whose only route, `DEFAULT_ROUTE`, is written as a list. -/

def startNode : BaseNode := ⟨0, startName, false⟩

def listedDefault : Graph where
  edges :=
    [⟨startNode, ⟨1, "a", false⟩, none⟩,
      ⟨⟨1, "a", false⟩, ⟨2, "b", false⟩, some (.many [defaultRoute])⟩]

theorem listed_default_intended : Intended Combined listedDefault where
  unique := by decide
  start := by decide
  startFree := by decide
  startUnrouted := by decide
  reached := by
    have first : Leads listedDefault.edges startName "a" :=
      ⟨_, List.mem_cons_self, rfl, rfl⟩
    have second : Leads listedDefault.edges "a" "b" :=
      ⟨_, List.mem_cons_of_mem _ List.mem_cons_self, rfl, rfl⟩
    have nodes : listedDefault.nodes = [startNode, ⟨1, "a", false⟩, ⟨2, "b", false⟩] := by decide
    rw [nodes]
    simp only [List.forall_mem_cons, List.not_mem_nil, false_implies, implies_true, and_true]
    exact ⟨.refl, .single first, (Relation.ReflTransGen.single first).tail second⟩
  apart := by
    refine List.pairwise_cons.mpr ⟨?_, List.pairwise_singleton _ _⟩
    intro edge member sameFrom
    obtain rfl := List.mem_singleton.mp member
    exact absurd sameFrom (by decide)
  allowed := by
    rintro edge member routes listed ⟨_, route, other, different⟩
    simp only [listedDefault, List.mem_cons, List.not_mem_nil, or_false] at member
    rcases member with rfl | rfl
    · cases listed
    · cases listed
      exact different (List.mem_singleton.mp other)
  acyclic := by
    let rank := fun name => if name = startName then 1 else 0
    refine @Chains.acyclic_of_rank _ _ rank ?_
    rintro name next ⟨edge, member, free, rfl, rfl⟩
    simp only [listedDefault, List.mem_cons, List.not_mem_nil, or_false] at member
    rcases member with rfl | rfl
    · decide
    · cases free

theorem listed_default_refused :
    ¬ ∀ graph : Graph,
      validateGraph graph.nodes graph.edges = .ok () ↔ Intended Combined graph := by
  intro claim
  have accepted := (claim listedDefault).mpr listed_default_intended
  revert accepted
  decide

end Sample

/-- Validation accepts the graphs as they are meant, whatever the order in which
it goes through its sets; a list of routes never has `DEFAULT_ROUTE` in it. -/
theorem accepts_intended_graphs (graph : Graph) :
    (validateGraph graph.nodes graph.edges = .ok () ↔ Intended (defaultRoute ∈ ·) graph) ∧
      ∀ order : SetOrder graph,
        validateGraphBy order = .ok () ↔ Intended (defaultRoute ∈ ·) graph :=
  ⟨validate_listed.trans (validate_by_iff _), validate_by_iff⟩

end Choirworks.Workflow
