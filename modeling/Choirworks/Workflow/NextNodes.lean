import Choirworks.Workflow.Graph

/-!
The nodes that one completion triggers. The walk over the edges takes those
without routes and those with a route that was emitted, and falls back to the
default ones. Validation keeps edges between the same nodes apart, but several
of them may match a list of routes.
-/

namespace Choirworks.Workflow

namespace Graph

/-- An edge of the node with a specific route that was emitted. -/
def matchedEdge (nodeName : String) (emitted : Option Routes) (edge : Edge) : Bool :=
  edge.fromNode.name = nodeName &&
    match edge.route with
    | none => false
    | some routes => routes ≠ .one defaultRoute && edgeMatched routes emitted

def takenEdge (nodeName : String) (emitted : Option Routes) (edge : Edge) : Bool :=
  (edge.fromNode.name = nodeName && edge.route = none) || matchedEdge nodeName emitted edge

def fallbackEdge (nodeName : String) (edge : Edge) : Bool :=
  edge.fromNode.name = nodeName && edge.route = some (.one defaultRoute)

/-- The edges of the node that the emitted routes match lead to different nodes. -/
def MatchedApart (graph : Graph) (nodeName : String) (emitted : Option Routes) : Prop :=
  ((graph.edges.filter (matchedEdge nodeName emitted)).map (·.toNode.name)).Nodup

instance (graph : Graph) (nodeName : String) (emitted : Option Routes) :
    Decidable (graph.MatchedApart nodeName emitted) :=
  inferInstanceAs (Decidable (List.Nodup _))

end Graph

open Workflow.Graph (matchedEdge takenEdge fallbackEdge)

/-! ### The walk over the edges -/

section Walk

variable {graph : Graph} {name : String} {emitted : Option Routes} {edge other : Edge}

theorem visit_edge_eq (next : Graph.NextNodes) :
    Graph.visitEdge name emitted next edge =
      ⟨next.pending ++ ([edge].filter (takenEdge name emitted)).map (·.toNode.name),
        next.matchedSpecificRoute || matchedEdge name emitted edge,
        next.defaultRouteNodes ++ ([edge].filter (fallbackEdge name)).map (·.toNode.name)⟩ := by
  unfold Graph.visitEdge
  by_cases own : edge.fromNode.name = name
  · cases route : edge.route with
    | none => simp [own, route, takenEdge, matchedEdge, fallbackEdge]
    | some routes =>
        by_cases default : routes = .one defaultRoute
        · simp [own, route, default, takenEdge, matchedEdge, fallbackEdge]
        · by_cases hit : Graph.edgeMatched routes emitted = true <;>
            simp [own, route, default, hit, takenEdge, matchedEdge, fallbackEdge]
  · simp [own, takenEdge, matchedEdge, fallbackEdge]

theorem visited_edges (edges : List Edge) (next : Graph.NextNodes) :
    edges.foldl (Graph.visitEdge name emitted) next =
      ⟨next.pending ++ (edges.filter (takenEdge name emitted)).map (·.toNode.name),
        next.matchedSpecificRoute || edges.any (matchedEdge name emitted),
        next.defaultRouteNodes ++ (edges.filter (fallbackEdge name)).map (·.toNode.name)⟩ := by
  induction edges generalizing next with
  | nil => simp
  | cons edge rest ih =>
      rw [List.foldl_cons, ih, visit_edge_eq]
      have cons : ∀ keep : Edge → Bool,
          (edge :: rest).filter keep = [edge].filter keep ++ rest.filter keep := by
        intro keep
        rw [← List.filter_append, List.singleton_append]
      simp only [cons, List.map_append, List.append_assoc, List.any_cons, Bool.or_assoc]

theorem next_nodes_eq : graph.getNextPendingNodes name emitted =
    (graph.edges.filter (takenEdge name emitted)).map (·.toNode.name) ++
      if graph.edges.any (matchedEdge name emitted) then []
      else (graph.edges.filter (fallbackEdge name)).map (·.toNode.name) := by
  simp only [Graph.getNextPendingNodes, visited_edges, List.nil_append, Bool.false_or]
  split <;> simp

theorem taken_edge_own (taken : takenEdge name emitted edge = true) :
    edge.fromNode.name = name := by
  simp only [takenEdge, matchedEdge, Bool.or_eq_true, Bool.and_eq_true, decide_eq_true_eq] at taken
  exact taken.elim And.left And.left

/-- A node only triggers nodes that it has an edge to. -/
theorem next_nodes_edge {target : String} (routed : target ∈ graph.getNextPendingNodes name emitted) :
    ∃ edge ∈ graph.edges, edge.fromNode.name = name ∧ edge.toNode.name = target := by
  rw [next_nodes_eq, List.mem_append] at routed
  rcases routed with taken | falls
  · obtain ⟨edge, chosen, rfl⟩ := List.mem_map.mp taken
    obtain ⟨member, takes⟩ := List.mem_filter.mp chosen
    exact ⟨edge, member, taken_edge_own takes, rfl⟩
  · split at falls
    · cases falls
    · obtain ⟨edge, chosen, rfl⟩ := List.mem_map.mp falls
      obtain ⟨member, back⟩ := List.mem_filter.mp chosen
      simp only [fallbackEdge, Bool.and_eq_true, decide_eq_true_eq] at back
      exact ⟨edge, member, back.1, rfl⟩

theorem Apart.symm (apart : Apart edge other) : Apart other edge := by
  intro sameFrom sameTo
  obtain ⟨here, there, disjoint⟩ := apart sameFrom.symm sameTo.symm
  exact ⟨there, here, fun route listed hit => disjoint route hit listed⟩

/-- Two edges from one node to another both have routes. -/
theorem Apart.routed (apart : Apart edge other) (sameFrom : edge.fromNode.name = other.fromNode.name)
    (sameTo : edge.toNode.name = other.toNode.name) : edge.route ≠ none ∧ other.route ≠ none := by
  obtain ⟨here, there, _⟩ := apart sameFrom sameTo
  constructor
  · intro free
    exact here (by simp [free, normalizeRoute])
  · intro free
    exact there (by simp [free, normalizeRoute])

end Walk

/-! ### At most once -/

section Once

variable {graph : Graph} {name : String} {emitted : Option Routes}

/-- The edges that are taken whatever the node emits lead to nodes of their own,
so only the matched ones can meet. -/
theorem taken_apart (validated : Validated graph) (matched : graph.MatchedApart name emitted) :
    ((graph.edges.filter (takenEdge name emitted)).map (·.toNode.name)).Nodup := by
  have pairs := List.pairwise_filter.mp (List.pairwise_map.mp matched)
  refine List.pairwise_map.mpr (List.pairwise_filter.mpr ?_)
  refine (validated.apart.and pairs).imp fun {edge other} both taken alsoTaken sameTo => ?_
  obtain ⟨apart, different⟩ := both
  have source := taken_edge_own taken
  have alsoSource := taken_edge_own alsoTaken
  simp only [takenEdge, Bool.or_eq_true, Bool.and_eq_true, decide_eq_true_eq] at taken alsoTaken
  obtain ⟨routed, alsoRouted⟩ := apart.routed (source.trans alsoSource.symm) sameTo
  have hit := taken.resolve_left fun free => routed free.2
  have alsoHit := alsoTaken.resolve_left fun free => alsoRouted free.2
  exact different hit alsoHit sameTo

theorem fallback_apart (validated : Validated graph) :
    ((graph.edges.filter (fallbackEdge name)).map (·.toNode.name)).Nodup := by
  refine List.pairwise_map.mpr (List.pairwise_filter.mpr ?_)
  refine validated.apart.imp fun {edge other} apart falls alsoFalls sameTo => ?_
  simp only [fallbackEdge, Bool.and_eq_true, decide_eq_true_eq] at falls alsoFalls
  obtain ⟨_, _, disjoint⟩ := apart (falls.1.trans alsoFalls.1.symm) sameTo
  rw [falls.2, alsoFalls.2] at disjoint
  exact disjoint (some defaultRoute.norm) (by simp [normalizeRoute, Routes.values])
    (by simp [normalizeRoute, Routes.values])

/-- A default edge and an edge without a route do not lead to the same node. -/
theorem fallback_fresh (validated : Validated graph)
    (unmatched : graph.edges.any (matchedEdge name emitted) = false) :
    ∀ target ∈ (graph.edges.filter (takenEdge name emitted)).map (·.toNode.name),
      target ∉ (graph.edges.filter (fallbackEdge name)).map (·.toNode.name) := by
  intro target taken falls
  obtain ⟨edge, chosen, rfl⟩ := List.mem_map.mp taken
  obtain ⟨other, alsoChosen, sameTo⟩ := List.mem_map.mp falls
  obtain ⟨member, takes⟩ := List.mem_filter.mp chosen
  obtain ⟨alsoMember, back⟩ := List.mem_filter.mp alsoChosen
  simp only [takenEdge, Bool.or_eq_true, Bool.and_eq_true, decide_eq_true_eq] at takes
  simp only [fallbackEdge, Bool.and_eq_true, decide_eq_true_eq] at back
  have free := takes.resolve_right fun hit => by
    have some_hit := List.any_eq_true.mpr ⟨edge, member, hit⟩
    rw [unmatched] at some_hit
    cases some_hit
  have different : edge ≠ other := by
    rintro rfl
    rw [free.2] at back
    cases back.2
  have symmetric : Std.Symm Apart := ⟨fun _ _ apart => apart.symm⟩
  have apart : Apart edge other := validated.apart.forall member alsoMember different
  exact (apart.routed (free.1.trans back.1.symm) sameTo.symm).1 free.2

theorem next_nodes_nodup_iff (validated : Validated graph) :
    (graph.getNextPendingNodes name emitted).Nodup ↔ graph.MatchedApart name emitted := by
  rw [next_nodes_eq]
  constructor
  · intro once
    have taken := List.pairwise_map.mp (List.nodup_append.mp once).1
    refine List.pairwise_map.mpr (List.pairwise_filter.mpr ?_)
    refine (List.pairwise_filter.mp taken).imp fun apart hit alsoHit => ?_
    exact apart (by simp [takenEdge, hit]) (by simp [takenEdge, alsoHit])
  · intro matched
    have taken := taken_apart validated matched
    split
    · simpa using taken
    · rename_i unmatched
      refine taken.append (fallback_apart validated) ?_
      exact fallback_fresh validated (by simpa using unmatched)

end Once

end Choirworks.Workflow
