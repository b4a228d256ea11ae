import Mathlib.Logic.Relation
import Choirworks.Library.Search
import Choirworks.Workflow.Events

/-!
Workflow graphs: the edges with their routes, the nodes that the edges name,
the checks that a graph passes before it runs, and the nodes that follow a node
for the routes it has emitted.
-/

namespace Choirworks.Workflow

/-- `id` is the identity of the object; only `JoinNode` requires all its
predecessors. -/
structure BaseNode where
  id : Nat
  name : String
  requiresAllPredecessors : Bool
deriving DecidableEq

def startName : String := "__START__"

def defaultRoute : RouteValue := .str "__DEFAULT__"

/-- `RouteValue | list[RouteValue]`. -/
inductive Routes where
  | one (route : RouteValue)
  | many (routes : List RouteValue)
deriving DecidableEq

/-- The set of the routes; equal values are one. -/
def Routes.values : Routes → List RouteValue
  | .one route => [route.norm]
  | .many routes => routes.map RouteValue.norm

structure Edge where
  fromNode : BaseNode
  toNode : BaseNode
  route : Option Routes
deriving DecidableEq

structure Graph where
  edges : List Edge

namespace Graph

def nodes (graph : Graph) : List BaseNode :=
  (graph.edges.flatMap fun edge => [edge.fromNode, edge.toNode]).eraseDups

def terminalNodeNames (graph : Graph) : List String :=
  let fromNames := graph.edges.map (·.fromNode.name)
  (graph.nodes.map (·.name)).filter fun name => name ≠ startName && name ∉ fromNames

/-- Whether an edge with routes matches what a node has emitted. -/
def edgeMatched (edgeRoutes : Routes) (routesToMatch : Option Routes) : Bool :=
  match routesToMatch with
  | none => false
  | some emitted => emitted.values.any fun route => route ∈ edgeRoutes.values

structure NextNodes where
  pending : List String
  matchedSpecificRoute : Bool
  defaultRouteNodes : List String

def visitEdge (nodeName : String) (routesToMatch : Option Routes) (next : NextNodes) (edge : Edge) :
    NextNodes :=
  if edge.fromNode.name ≠ nodeName then next
  else
    match edge.route with
    | none => { next with pending := next.pending ++ [edge.toNode.name] }
    | some routes =>
        if routes = .one defaultRoute then
          { next with defaultRouteNodes := next.defaultRouteNodes ++ [edge.toNode.name] }
        else if edgeMatched routes routesToMatch then
          { next with
            pending := next.pending ++ [edge.toNode.name]
            matchedSpecificRoute := true }
        else next

def getNextPendingNodes (graph : Graph) (nodeName : String) (routesToMatch : Option Routes) :
    List String :=
  let next := graph.edges.foldl (visitEdge nodeName routesToMatch) ⟨[], false, []⟩
  if next.matchedSpecificRoute then next.pending else next.pending ++ next.defaultRouteNodes

def predecessors (graph : Graph) (name : String) : List String :=
  ((graph.edges.filter (·.toNode.name = name)).map (·.fromNode.name)).eraseDups

end Graph

/-! ### Validation -/

inductive GraphValidationError where
  | duplicateNodeNames (names : List String)
  | startNotFound
  | startEdgeRoute (toName : String) (route : Routes)
  | unreachable (names : List String)
  | startHasIncoming
  | duplicateEdge (fromName toName : String)
  | defaultRouteCombined (fromName toName : String)
  | unconditionalCycle (names : List String)
  | recursionTooDeep
deriving DecidableEq

def validateDuplicateNodeNames (nodes : List BaseNode) :
    Except GraphValidationError (List String) :=
  let names := nodes.map (·.name)
  let duplicates := (names.filter fun name => 1 < names.count name).eraseDups
  if duplicates ≠ [] then .error (.duplicateNodeNames (duplicates.mergeSort (· ≤ ·)))
  else .ok names

def validateStartNode (nodeNames : List String) : Except GraphValidationError Unit :=
  if startName ∈ nodeNames then .ok () else .error .startNotFound

def validateStartEdges (edges : List Edge) : Except GraphValidationError Unit :=
  edges.forM fun edge =>
    match edge.route with
    | some route =>
        if edge.fromNode.name = startName then .error (.startEdgeRoute edge.toNode.name route)
        else .ok ()
    | none => .ok ()

def successors (edges : List Edge) (name : String) : List String :=
  ((edges.filter (·.fromNode.name = name)).map (·.toNode.name)).eraseDups

def reachable (edges : List Edge) (nodeNames : List String) : List String :=
  let pushes := (nodeNames.flatMap (successors edges)).length
  Search.reach (successors edges) (pushes + 1) [startName] []

def validateConnectivity (edges : List Edge) (nodeNames : List String) :
    Except GraphValidationError Unit :=
  let unreachable := nodeNames.filter (· ∉ reachable edges nodeNames)
  if unreachable ≠ [] then .error (.unreachable (unreachable.mergeSort (· ≤ ·)))
  else if startName ∈ edges.map (·.toNode.name) then .error .startHasIncoming
  else .ok ()

/-- `none` stands for an edge without a route. -/
def normalizeRoute : Option Routes → List (Option RouteValue)
  | none => [none]
  | some routes => routes.values.map some

def validateDuplicateEdge (seen : Dict (String × String) (List (Option RouteValue))) (edge : Edge) :
    Except GraphValidationError (Dict (String × String) (List (Option RouteValue))) :=
  let key := (edge.fromNode.name, edge.toNode.name)
  let newRoutes := normalizeRoute edge.route
  match seen.get? key with
  | some existing =>
      if none ∈ existing ∨ none ∈ newRoutes ∨ newRoutes.any (· ∈ existing) then
        .error (.duplicateEdge edge.fromNode.name edge.toNode.name)
      else .ok (seen.set key (existing ++ newRoutes))
  | none => .ok (seen.set key newRoutes)

def validateDuplicateEdges (edges : List Edge) : Except GraphValidationError Unit :=
  (edges.foldlM validateDuplicateEdge .empty).map fun _ => ()

def validateDefaultRoutes (edges : List Edge) : Except GraphValidationError Unit :=
  edges.forM fun edge =>
    match edge.route with
    | some (.many routes) =>
        if defaultRoute ∈ routes then
          .error (.defaultRouteCombined edge.fromNode.name edge.toNode.name)
        else .ok ()
    | _ => .ok ()

def unconditionalSuccessors (edges : List Edge) (name : String) : List String :=
  (edges.filter fun edge => edge.fromNode.name = name && edge.route = none).map (·.toNode.name)

def detectUnconditionalCycles (edges : List Edge) (nodeNames : List String) :
    Except GraphValidationError Unit :=
  match Search.exploreAll (unconditionalSuccessors edges) nodeNames with
  | .ok _ => .ok ()
  | .error (.cycle names) => .error (.unconditionalCycle names)
  | .error .deep => .error .recursionTooDeep

def validateGraph (nodes : List BaseNode) (edges : List Edge) : Except GraphValidationError Unit :=
  do
    let nodeNames ← validateDuplicateNodeNames nodes
    validateStartNode nodeNames
    validateStartEdges edges
    validateConnectivity edges nodeNames
    validateDuplicateEdges edges
    validateDefaultRoutes edges
    detectUnconditionalCycles edges nodeNames

/-! ### What a validated graph has -/

section Validated

variable {graph : Graph} {edge other : Edge} {edges : List Edge} {names : List String} {name : String}

theorem mem_nodes {node : BaseNode} :
    node ∈ graph.nodes ↔ ∃ edge ∈ graph.edges, node = edge.fromNode ∨ node = edge.toNode := by
  simp [Graph.nodes]

theorem names_nodup {nodes : List BaseNode} (checked : validateDuplicateNodeNames nodes = .ok names) :
    names = nodes.map (·.name) ∧ names.Nodup := by
  simp only [validateDuplicateNodeNames] at checked
  split at checked
  · cases checked
  · rename_i none_
    cases checked
    refine ⟨rfl, List.nodup_iff_count_le_one.mpr ?_⟩
    intro name
    by_contra twice
    have counted : 1 < (nodes.map (·.name)).count name := by omega
    have listed : name ∈ ((nodes.map (·.name)).filter fun name =>
        1 < (nodes.map (·.name)).count name).eraseDups := by
      rw [List.mem_eraseDups, List.mem_filter]
      exact ⟨List.count_pos_iff.mp (by omega), by simpa using counted⟩
    exact none_ (List.ne_nil_of_mem listed)

theorem forM_ok {check : Edge → Except GraphValidationError Unit}
    (checked : edges.forM check = .ok ()) : ∀ edge ∈ edges, check edge = .ok () := by
  induction edges with
  | nil => simp
  | cons first rest ih =>
      change (check first >>= fun _ => rest.forM check) = .ok () at checked
      cases one : check first with
      | error fault =>
          rw [one] at checked
          cases checked
      | ok _ =>
          rw [one] at checked
          intro edge member
          rcases List.mem_cons.mp member with rfl | later
          · exact one
          · exact ih checked edge later

theorem mem_successors {next : String} : next ∈ successors edges name ↔
    ∃ edge ∈ edges, edge.fromNode.name = name ∧ edge.toNode.name = next := by
  simp [successors, and_assoc]

def Leads (edges : List Edge) (name next : String) : Prop :=
  ∃ edge ∈ edges, edge.fromNode.name = name ∧ edge.toNode.name = next

/-- The worklist collects what the edges lead to from the start, in whatever order
it pushes the successors of a node. -/
theorem reach_iff {pushed : String → List String} (once : names.Nodup) (start : startName ∈ names)
    (closed : ∀ edge ∈ edges, edge.toNode.name ∈ names)
    (same : ∀ name next, next ∈ pushed name ↔ next ∈ successors edges name) :
    name ∈ Search.reach pushed ((names.flatMap pushed).length + 1) [startName] [] ↔
      Relation.ReflTransGen (Leads edges) startName name := by
  constructor
  · intro inside
    refine Search.reach_sound (Relation.ReflTransGen (Leads edges) startName) ?_ _ _ _ ?_ ?_ name
      inside
    · intro node reached other edge
      exact reached.tail (mem_successors.mp ((same node other).mp edge))
    · simp [Relation.ReflTransGen.refl]
    · simp
  · have pushes : Search.unpushed pushed names.toFinset [] = (names.flatMap pushed).length := by
      rw [Search.unpushed, List.toFinset_nil, Finset.sdiff_empty, List.sum_toFinset _ once,
        List.length_flatMap]
    have inside : ∀ node ∈ names.toFinset, ∀ next ∈ pushed node, next ∈ names.toFinset := by
      intro node _ next edge
      obtain ⟨found, member, _, rfl⟩ := mem_successors.mp ((same node next).mp edge)
      exact List.mem_toFinset.mpr (closed found member)
    obtain ⟨all, further⟩ := Search.reach_closed inside
      ((names.flatMap pushed).length + 1) [startName] []
      (by simpa using start) (by rw [pushes, List.length_singleton]; omega) (by simp)
    intro leads
    induction leads with
    | refl => exact all startName (Or.inl List.mem_cons_self)
    | tail _ edge ih => exact further _ ih _ ((same _ _).mpr (mem_successors.mpr edge))

theorem reachable_iff (once : names.Nodup) (start : startName ∈ names)
    (closed : ∀ edge ∈ edges, edge.toNode.name ∈ names) :
    name ∈ reachable edges names ↔ Relation.ReflTransGen (Leads edges) startName name :=
  reach_iff once start closed fun _ _ => Iff.rfl

theorem connected_iff (once : names.Nodup) (start : startName ∈ names)
    (closed : ∀ edge ∈ edges, edge.toNode.name ∈ names) :
    validateConnectivity edges names = .ok () ↔
      (∀ name ∈ names, Relation.ReflTransGen (Leads edges) startName name) ∧
        ∀ edge ∈ edges, edge.toNode.name ≠ startName := by
  have all : names.filter (· ∉ reachable edges names) = [] ↔
      ∀ name ∈ names, Relation.ReflTransGen (Leads edges) startName name := by
    simp [List.filter_eq_nil_iff, reachable_iff once start closed]
  have free : startName ∉ edges.map (·.toNode.name) ↔
      ∀ edge ∈ edges, edge.toNode.name ≠ startName := by
    simp
  rw [← all, ← free]
  simp only [validateConnectivity]
  split
  · rename_i left
    constructor
    · intro refused
      cases refused
    · rintro ⟨none_, _⟩
      exact absurd none_ left
  · rename_i left
    split
    · rename_i incoming
      constructor
      · intro refused
        cases refused
      · rintro ⟨_, outside⟩
        exact absurd incoming outside
    · rename_i outside
      exact iff_of_true rfl ⟨not_not.mp left, outside⟩

/-- What is reached from the start is the start or has an edge into it. -/
theorem Leads.entered (leads : Relation.ReflTransGen (Leads edges) startName name) :
    name = startName ∨ ∃ edge ∈ edges, edge.toNode.name = name := by
  cases leads with
  | refl => exact Or.inl rfl
  | tail _ last =>
      obtain ⟨edge, member, _, named⟩ := last
      exact Or.inr ⟨edge, member, named⟩

/-- Two edges between the same nodes have routes, and different ones. -/
def Apart (edge other : Edge) : Prop :=
  edge.fromNode.name = other.fromNode.name → edge.toNode.name = other.toNode.name →
    none ∉ normalizeRoute edge.route ∧ none ∉ normalizeRoute other.route ∧
      ∀ route ∈ normalizeRoute edge.route, route ∉ normalizeRoute other.route

theorem duplicate_edge_ok {seen next : Dict (String × String) (List (Option RouteValue))}
    (checked : validateDuplicateEdge seen edge = .ok next) :
    (∀ existing, seen.get? (edge.fromNode.name, edge.toNode.name) = some existing →
      none ∉ existing ∧ none ∉ normalizeRoute edge.route ∧
        ∀ route ∈ normalizeRoute edge.route, route ∉ existing) ∧
    next = seen.set (edge.fromNode.name, edge.toNode.name)
      ((seen.getD (edge.fromNode.name, edge.toNode.name) []) ++ normalizeRoute edge.route) := by
  simp only [validateDuplicateEdge] at checked
  cases known : seen.get? (edge.fromNode.name, edge.toNode.name) with
  | none =>
      simp only [known] at checked
      cases checked
      simp [Dict.getD, known]
  | some existing =>
      simp only [known] at checked
      split at checked
      · cases checked
      · rename_i fresh
        cases checked
        push Not at fresh
        obtain ⟨noneThere, noneHere, disjoint⟩ := fresh
        constructor
        · rintro _ ⟨⟩
          exact ⟨noneThere, noneHere, by simpa using disjoint⟩
        · simp [Dict.getD, known]

theorem edges_apart (edges : List Edge)
    (seen final : Dict (String × String) (List (Option RouteValue)))
    (checked : edges.foldlM validateDuplicateEdge seen = .ok final) :
    (∀ edge ∈ edges, ∀ existing, seen.get? (edge.fromNode.name, edge.toNode.name) = some existing →
      none ∉ existing ∧ none ∉ normalizeRoute edge.route ∧
        ∀ route ∈ existing, route ∉ normalizeRoute edge.route) ∧
    edges.Pairwise Apart := by
  induction edges generalizing seen with
  | nil => simp
  | cons first rest ih =>
      rw [List.foldlM_cons] at checked
      cases one : validateDuplicateEdge seen first with
      | error fault =>
          rw [one] at checked
          cases checked
      | ok next =>
          rw [one] at checked
          obtain ⟨fresh, rfl⟩ := duplicate_edge_ok one
          obtain ⟨later, pairs⟩ := ih _ checked
          constructor
          · intro edge member existing known
            rcases List.mem_cons.mp member with rfl | behind
            · obtain ⟨noneThere, noneHere, disjoint⟩ := fresh existing known
              exact ⟨noneThere, noneHere, fun route old new => disjoint route new old⟩
            · by_cases same : (edge.fromNode.name, edge.toNode.name) =
                  (first.fromNode.name, first.toNode.name)
              · have found := later edge behind _ (by rw [Dict.get?_set, if_pos same])
                rw [same] at known
                simp only [Dict.getD, known, Option.getD_some, List.mem_append, not_or] at found
                exact ⟨found.1.1, found.2.1, fun route old => found.2.2 route (Or.inl old)⟩
              · exact later edge behind existing (by rw [Dict.get?_set, if_neg same]; exact known)
          · refine List.pairwise_cons.mpr ⟨?_, pairs⟩
            intro edge behind sameFrom sameTo
            have found := later edge behind _ (by
              rw [Dict.get?_set, if_pos (by rw [sameFrom, sameTo])])
            simp only [List.mem_append, not_or] at found
            exact ⟨found.1.2, found.2.1, fun route here => found.2.2 route (Or.inr here)⟩

theorem unconditional_ranked (checked : detectUnconditionalCycles edges names = .ok ()) :
    ∃ rank : String → Nat, ∀ edge ∈ edges, edge.fromNode.name ∈ names → edge.route = none →
      rank edge.toNode.name < rank edge.fromNode.name := by
  unfold detectUnconditionalCycles at checked
  cases explored : Search.exploreAll (unconditionalSuccessors edges) names with
  | error fault => cases fault <;> simp [explored] at checked
  | ok done =>
      obtain ⟨rank, falls⟩ := Search.ranked_of_explored explored
      refine ⟨rank, ?_⟩
      intro edge member known free
      apply falls _ known
      simp only [unconditionalSuccessors, List.mem_map, List.mem_filter]
      exact ⟨edge, ⟨member, by simp [free]⟩, rfl⟩

/-- The search for cycles is deep enough for the nodes of a graph. -/
theorem cycles_not_deep :
    detectUnconditionalCycles graph.edges (graph.nodes.map (·.name)) ≠
      .error .recursionTooDeep := by
  unfold detectUnconditionalCycles
  have shallow : Search.exploreAll (unconditionalSuccessors graph.edges)
      (graph.nodes.map (·.name)) ≠ .error .deep := by
    apply Search.exploreAll_not_deep
    intro name _ next edge
    simp only [unconditionalSuccessors, List.mem_map, List.mem_filter] at edge
    obtain ⟨found, ⟨member, _⟩, rfl⟩ := edge
    exact List.mem_map_of_mem (mem_nodes.mpr ⟨found, member, Or.inr rfl⟩)
  cases explored : Search.exploreAll (unconditionalSuccessors graph.edges)
      (graph.nodes.map (·.name)) with
  | ok done => simp
  | error fault =>
      cases fault with
      | cycle found => simp
      | deep => exact absurd explored shallow

/-- What the checks of a graph establish. -/
structure Validated (graph : Graph) : Prop where
  distinct : (graph.nodes.map (·.name)).Nodup
  startFree : ∀ edge ∈ graph.edges, edge.toNode.name ≠ startName
  startUnrouted : ∀ edge ∈ graph.edges, edge.fromNode.name = startName → edge.route = none
  entered : ∀ node ∈ graph.nodes, node.name = startName ∨
    ∃ edge ∈ graph.edges, edge.toNode.name = node.name
  apart : graph.edges.Pairwise Apart
  ranked : ∃ rank : String → Nat, ∀ edge ∈ graph.edges, edge.route = none →
    rank edge.toNode.name < rank edge.fromNode.name

theorem bind_ok {Value Result : Type} {first : Except GraphValidationError Value}
    {next : Value → Except GraphValidationError Result} {result : Result}
    (ran : (first >>= next) = .ok result) : ∃ value, first = .ok value ∧ next value = .ok result := by
  cases first with
  | error fault => cases ran
  | ok value => exact ⟨value, rfl, ran⟩

theorem validated (checked : validateGraph graph.nodes graph.edges = .ok ()) : Validated graph := by
  obtain ⟨names, distinct, checked⟩ := bind_ok checked
  obtain ⟨rfl, once⟩ := names_nodup distinct
  obtain ⟨_, present, checked⟩ := bind_ok checked
  obtain ⟨_, starts, checked⟩ := bind_ok checked
  obtain ⟨_, connectivity, checked⟩ := bind_ok checked
  obtain ⟨_, duplicates, checked⟩ := bind_ok checked
  obtain ⟨_, _, cycles⟩ := bind_ok checked
  have start : startName ∈ graph.nodes.map (·.name) := by
    by_contra absent
    simp [validateStartNode, absent] at present
  obtain ⟨entered, free⟩ := (connected_iff once start fun edge member =>
    List.mem_map_of_mem (mem_nodes.mpr ⟨edge, member, Or.inr rfl⟩)).mp connectivity
  obtain ⟨rank, falls⟩ := unconditional_ranked cycles
  constructor
  case distinct => exact once
  case startFree => exact free
  case startUnrouted =>
    intro edge member fromStart
    have unrouted := forM_ok starts edge member
    cases routed : edge.route with
    | none => rfl
    | some route => simp [routed, fromStart] at unrouted
  case entered =>
    intro node member
    exact Leads.entered (entered node.name (List.mem_map_of_mem member))
  case apart =>
    cases walked : graph.edges.foldlM validateDuplicateEdge .empty with
    | error fault => simp [validateDuplicateEdges, walked, Except.map] at duplicates
    | ok seen => exact (edges_apart _ _ _ walked).2
  case ranked =>
    refine ⟨rank, ?_⟩
    intro edge member
    exact falls edge member (List.mem_map_of_mem (mem_nodes.mpr ⟨edge, member, Or.inl rfl⟩))

end Validated

end Choirworks.Workflow
