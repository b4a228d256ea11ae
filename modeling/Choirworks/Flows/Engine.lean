import Choirworks.Library.Search
import Mathlib.Data.List.Dedup

/-!
The flow engine: a graph of handlers whose edges are tagged with routes. A
handler answers with a route, which picks its next handler, or with an outcome,
which ends the flow. A flow is validated when it is made.
-/

namespace Choirworks.Flows

abbrev Route := String

def defaultRoute : Route := "__default__"

inductive FlowOutcome where
  | continued | exitWait | exitDone | exitFailed | ended
deriving DecidableEq

/-- What a handler returns. -/
inductive Result where
  | route (route : Route)
  | outcome (outcome : FlowOutcome)
deriving DecidableEq

/-- An edge without routes is unconditional. -/
structure Edge (Handler : Type) where
  source : Handler
  target : Handler
  routes : List Route := []
deriving DecidableEq

structure Flow (Handler : Type) where
  start : Handler
  edges : List (Edge Handler)

/-- What is wrong with a flow. -/
inductive FlowError (Handler : Type) where
  | duplicateEdge (source target : Handler)
  | multipleDefaults (source : Handler)
  | unreachable (handlers : List Handler)
  | danglingRoute (handler : Handler) (route : Route)
deriving DecidableEq

namespace Flow

variable {Handler : Type} [DecidableEq Handler] (flow : Flow Handler)

/-! ### Routing -/

/-- The first target of each kind that the edges offer. -/
structure Candidates (Handler : Type) where
  specific : Option Handler := none
  unconditional : Option Handler := none
  fallback : Option Handler := none

def Candidates.offer (source : Handler) (route : Route) (found : Candidates Handler)
    (edge : Edge Handler) : Candidates Handler :=
  if edge.source ≠ source then found
  else if edge.routes = [] then
    { found with unconditional := found.unconditional <|> some edge.target }
  else if route ∈ edge.routes then
    { found with specific := found.specific <|> some edge.target }
  else if defaultRoute ∈ edge.routes then
    { found with fallback := found.fallback <|> some edge.target }
  else found

def targetFor (source : Handler) (route : Route) : Option Handler :=
  let found := flow.edges.foldl (Candidates.offer source route) {}
  found.specific <|> found.unconditional <|> found.fallback

/-! ### Validation -/

def nodes : List Handler :=
  (flow.start :: flow.edges.flatMap fun edge => [edge.source, edge.target]).eraseDups

def targets (source : Handler) : List Handler :=
  (flow.edges.filter fun edge => edge.source = source).map (·.target)

def reachable : List Handler :=
  Search.spread flow.targets flow.nodes.length [flow.start] [flow.start]

/-- The first pass over the edges. -/
def checkEdges : List (Handler × Handler) → List (Edge Handler) → Except (FlowError Handler) Unit
  | _, [] => .ok ()
  | seen, edge :: rest =>
      if (edge.source, edge.target) ∈ seen then .error (.duplicateEdge edge.source edge.target)
      else checkEdges ((edge.source, edge.target) :: seen) rest

/-- The edges with a default route, for each source. -/
def defaultsFrom (source : Handler) : Nat :=
  flow.edges.countP fun edge => edge.source = source ∧ defaultRoute ∈ edge.routes

def checkDefaults : Except (FlowError Handler) Unit :=
  match flow.edges.find? fun edge => 1 < flow.defaultsFrom edge.source with
  | some edge => .error (.multipleDefaults edge.source)
  | none => .ok ()

def checkReachable : Except (FlowError Handler) Unit :=
  match flow.nodes.filter fun handler => handler ∉ flow.reachable with
  | [] => .ok ()
  | handlers => .error (.unreachable handlers)

/-- The routes that the handlers declare need edges. -/
def checkRoutes (literals : Handler → List Route) : Except (FlowError Handler) Unit :=
  let declared := flow.nodes.flatMap fun handler => (literals handler).map fun route => (handler, route)
  match declared.find? fun (handler, route) => flow.targetFor handler route = none with
  | some (handler, route) => .error (.danglingRoute handler route)
  | none => .ok ()

/-- `literals` are the literal routes of the handlers' return annotations. -/
def validate (literals : Handler → List Route) : Except (FlowError Handler) Unit := do
  checkEdges [] flow.edges
  flow.checkDefaults
  flow.checkReachable
  flow.checkRoutes literals

/-! ### Running -/

variable {State : Type}

/-- How a handler acts on the state: it may raise, and what it did stays. -/
abbrev Acts (Handler State : Type) := Handler → State → State × Except String Result

/-- Where a flow is after one handler. -/
inductive Progress (Handler : Type) where
  | handler (next : Handler)
  | returned (outcome : FlowOutcome)
  | raised (text : String)
  | fellOff
deriving DecidableEq

def progress (current : Handler) : Except String Result → Progress Handler
  | .error text => .raised text
  | .ok (.outcome outcome) => .returned outcome
  | .ok (.route route) =>
      match flow.targetFor current route with
      | some target => .handler target
      | none => .fellOff

/-- The loop of `run`. A route that no edge takes ends the flow as well. -/
def run (acts : Acts Handler State) : Nat → Handler → State → State × Option (Except String FlowOutcome)
  | 0, _, state => (state, none)
  | fuel + 1, current, state =>
      let (after, result) := acts current state
      match flow.progress current result with
      | .handler next => run acts fuel next after
      | .returned outcome => (after, some (.ok outcome))
      | .raised text => (after, some (.error text))
      | .fellOff => (after, some (.ok .ended))

/-- An edge goes from one handler to the other. -/
def Leads (flow : Flow Handler) (source target : Handler) : Prop :=
  ∃ edge ∈ flow.edges, edge.source = source ∧ edge.target = target

end Flow

variable {Handler : Type} [DecidableEq Handler]

/-- What an edge is for a route from the source. -/
def Edge.unconditional (source : Handler) (edge : Edge Handler) : Bool :=
  edge.source = source ∧ edge.routes = []

def Edge.specific (source : Handler) (route : Route) (edge : Edge Handler) : Bool :=
  edge.source = source ∧ edge.routes ≠ [] ∧ route ∈ edge.routes

def Edge.fallback (source : Handler) (route : Route) (edge : Edge Handler) : Bool :=
  edge.source = source ∧ edge.routes ≠ [] ∧ route ∉ edge.routes ∧ defaultRoute ∈ edge.routes

namespace Flow

variable {flow : Flow Handler}

/-- The target of the first edge of a kind. -/
def firstTarget (kind : Edge Handler → Bool) (edges : List (Edge Handler)) : Option Handler :=
  (edges.find? kind).map (·.target)

omit [DecidableEq Handler] in
theorem firstTarget_cons (kind : Edge Handler → Bool) (edge : Edge Handler)
    (rest : List (Edge Handler)) :
    firstTarget kind (edge :: rest) =
      if kind edge then some edge.target else firstTarget kind rest := by
  rw [firstTarget, List.find?_cons]
  split <;> simp_all [firstTarget]

theorem offers (source : Handler) (route : Route) (edges : List (Edge Handler))
    (found : Candidates Handler) :
    edges.foldl (Candidates.offer source route) found =
      { specific := found.specific <|> firstTarget (Edge.specific source route) edges
        unconditional := found.unconditional <|> firstTarget (Edge.unconditional source) edges
        fallback := found.fallback <|> firstTarget (Edge.fallback source route) edges } := by
  induction edges generalizing found with
  | nil => simp [firstTarget]
  | cons edge rest ih =>
      rw [List.foldl_cons, ih]
      simp only [firstTarget_cons, Edge.specific, Edge.unconditional, Edge.fallback,
        Candidates.offer]
      split
      · simp_all
      · split
        · cases found.unconditional <;> simp_all
        · split
          · cases found.specific <;> simp_all
          · split
            · cases found.fallback <;> simp_all
            · simp_all

/-- A specific edge goes before an unconditional one, and that before the default. -/
theorem targetFor_eq (source : Handler) (route : Route) :
    flow.targetFor source route =
      (firstTarget (Edge.specific source route) flow.edges <|>
        firstTarget (Edge.unconditional source) flow.edges <|>
          firstTarget (Edge.fallback source route) flow.edges) := by
  rw [targetFor, offers]
  simp

omit [DecidableEq Handler] in
theorem firstTarget_isSome {kind : Edge Handler → Bool} {edges : List (Edge Handler)} :
    (firstTarget kind edges).isSome ↔ ∃ edge ∈ edges, kind edge := by
  rw [firstTarget, Option.isSome_map, List.find?_isSome]

/-- Some edge from the handler takes the route. -/
def Takes (flow : Flow Handler) (source : Handler) (route : Route) : Prop :=
  ∃ edge ∈ flow.edges, edge.source = source ∧
    (edge.routes = [] ∨ route ∈ edge.routes ∨ defaultRoute ∈ edge.routes)

theorem targetFor_isSome {source : Handler} {route : Route} :
    (flow.targetFor source route).isSome ↔ flow.Takes source route := by
  simp only [targetFor_eq, Option.orElse_eq_orElse, Option.orElse_eq_or, Option.isSome_or,
    Bool.or_eq_true, firstTarget_isSome, ← exists_or, ← and_or_left, Takes]
  refine exists_congr fun edge => and_congr_right fun _ => ?_
  simp only [Edge.specific, Edge.unconditional, Edge.fallback, decide_eq_true_eq]
  grind

omit [DecidableEq Handler] in
theorem leads_of_first {kind : Edge Handler → Bool} {source target : Handler}
    (only : ∀ edge : Edge Handler, kind edge → edge.source = source)
    (found : firstTarget kind flow.edges = some target) : flow.Leads source target := by
  obtain ⟨edge, first, rfl⟩ := Option.map_eq_some_iff.mp found
  exact ⟨edge, List.mem_of_find?_eq_some first, only edge (List.find?_some first), rfl⟩

theorem leads_of_target {source target : Handler} {route : Route}
    (found : flow.targetFor source route = some target) : flow.Leads source target := by
  rw [targetFor_eq] at found
  cases specific : firstTarget (Edge.specific source route) flow.edges with
  | some first =>
      rw [specific] at found
      cases found
      exact leads_of_first (by simp +contextual [Edge.specific]) specific
  | none =>
      cases unconditional : firstTarget (Edge.unconditional source) flow.edges with
      | some first =>
          rw [specific, unconditional] at found
          cases found
          exact leads_of_first (by simp +contextual [Edge.unconditional]) unconditional
      | none =>
          rw [specific, unconditional] at found
          exact leads_of_first (by simp +contextual [Edge.fallback]) found

/-! ### What validation accepts -/

/-- The flow is well formed for the routes that its handlers declare. -/
structure WellFormed (flow : Flow Handler) (literals : Handler → List Route) : Prop where
  distinct : (flow.edges.map fun edge => (edge.source, edge.target)).Nodup
  oneDefault : ∀ source, flow.defaultsFrom source ≤ 1
  entered : ∀ handler ∈ flow.nodes, Relation.ReflTransGen flow.Leads flow.start handler
  routed : ∀ handler ∈ flow.nodes, ∀ route ∈ literals handler, flow.Takes handler route

theorem mem_nodes {handler : Handler} :
    handler ∈ flow.nodes ↔ handler = flow.start ∨
      ∃ edge ∈ flow.edges, handler = edge.source ∨ handler = edge.target := by
  simp [nodes, List.mem_eraseDups]

theorem Leads.mem_nodes {source target : Handler} (leads : flow.Leads source target) :
    target ∈ flow.nodes := by
  obtain ⟨edge, member, _, rfl⟩ := leads
  exact Flow.mem_nodes.mpr (Or.inr ⟨edge, member, Or.inr rfl⟩)

theorem mem_targets {source target : Handler} :
    target ∈ flow.targets source ↔ flow.Leads source target := by
  simp only [targets, List.mem_map, List.mem_filter, decide_eq_true_eq, Leads, and_assoc]

theorem mem_reachable {handler : Handler} :
    handler ∈ flow.reachable ↔ Relation.ReflTransGen flow.Leads flow.start handler := by
  have same : (fun source target => target ∈ flow.targets source) = flow.Leads := by
    funext source target
    exact propext mem_targets
  rw [reachable, Search.mem_spread, Search.Leads, same]
  · intro source _ target edge
    exact (mem_targets.mp edge).mem_nodes
  · exact mem_nodes.mpr (Or.inl rfl)

theorem checkEdges_iff (seen : List (Handler × Handler)) (edges : List (Edge Handler)) :
    checkEdges seen edges = .ok () ↔
      (edges.map fun edge => (edge.source, edge.target)).Nodup ∧
        ∀ edge ∈ edges, (edge.source, edge.target) ∉ seen := by
  induction edges generalizing seen with
  | nil => simp [checkEdges]
  | cons edge rest ih =>
      rw [checkEdges]
      split
      · rename_i again
        constructor
        · intro passed
          cases passed
        · rintro ⟨-, fresh⟩
          exact absurd again (fresh edge List.mem_cons_self)
      · rw [ih]
        simp only [List.map_cons, List.nodup_cons, List.mem_map, List.mem_cons, not_or]
        grind

theorem checkDefaults_iff : flow.checkDefaults = .ok () ↔ ∀ source, flow.defaultsFrom source ≤ 1 := by
  rw [checkDefaults]
  split
  · rename_i edge found
    have many : 1 < flow.defaultsFrom edge.source := by simpa using List.find?_some found
    constructor
    · intro passed
      cases passed
    · intro single
      exact absurd (single edge.source) (by omega)
  · rename_i none_found
    refine iff_of_true rfl fun source => ?_
    by_contra many
    -- a source with two defaults has an edge
    have positive : 0 < flow.defaultsFrom source := by omega
    obtain ⟨edge, member, from_source⟩ := List.countP_pos_iff.mp positive
    have sourced : edge.source = source := (of_decide_eq_true from_source).1
    have single := List.find?_eq_none.mp none_found edge member
    simp only [sourced, decide_eq_true_eq] at single
    omega

theorem checkReachable_iff :
    flow.checkReachable = .ok () ↔
      ∀ handler ∈ flow.nodes, Relation.ReflTransGen flow.Leads flow.start handler := by
  have none_left : flow.nodes.filter (fun handler => handler ∉ flow.reachable) = [] ↔
      ∀ handler ∈ flow.nodes, Relation.ReflTransGen flow.Leads flow.start handler := by
    simp only [List.filter_eq_nil_iff, decide_eq_true_eq, not_not, mem_reachable]
  rw [← none_left, checkReachable]
  split
  · simp_all
  · simp_all

theorem checkRoutes_iff {literals : Handler → List Route} :
    flow.checkRoutes literals = .ok () ↔
      ∀ handler ∈ flow.nodes, ∀ route ∈ literals handler, flow.Takes handler route := by
  have none_dangling : (flow.nodes.flatMap fun handler =>
      (literals handler).map fun route => (handler, route)).find?
        (fun (handler, route) => flow.targetFor handler route = none) = none ↔
      ∀ handler ∈ flow.nodes, ∀ route ∈ literals handler, flow.Takes handler route := by
    simp only [List.find?_eq_none, List.mem_flatMap, List.mem_map, ← targetFor_isSome]
    constructor
    · intro found handler member route declared
      have here := found (handler, route) ⟨handler, member, route, declared, rfl⟩
      simpa [Option.isSome_iff_ne_none] using here
    · rintro takes _ ⟨handler, member, route, declared, rfl⟩
      simpa [Option.isSome_iff_ne_none] using takes handler member route declared
  rw [← none_dangling, checkRoutes]
  dsimp only
  split <;> simp_all

omit [DecidableEq Handler] in
theorem bind_ok {first second : Except (FlowError Handler) Unit} :
    (do first; second) = .ok () ↔ first = .ok () ∧ second = .ok () := by
  cases first with
  | error fault => simp [bind, Except.bind]
  | ok value => simp [bind, Except.bind]

theorem validate_iff (literals : Handler → List Route) :
    flow.validate literals = .ok () ↔ flow.WellFormed literals := by
  rw [validate, bind_ok, bind_ok, bind_ok, checkEdges_iff, checkDefaults_iff, checkReachable_iff,
    checkRoutes_iff]
  constructor
  · rintro ⟨⟨distinct, _⟩, oneDefault, entered, routed⟩
    exact ⟨distinct, oneDefault, entered, routed⟩
  · rintro ⟨distinct, oneDefault, entered, routed⟩
    exact ⟨⟨distinct, by simp⟩, oneDefault, entered, routed⟩

/-! ### Runs -/

section Runs

variable {State : Type} {acts : Acts Handler State} {literals : Handler → List Route}

/-- The handlers return what they declare: a literal route, or any route where
an edge without routes takes them all. -/
def Declared (flow : Flow Handler) (literals : Handler → List Route)
    (acts : Acts Handler State) : Prop :=
  ∀ handler ∈ flow.nodes, ∀ state route, (acts handler state).2 = .ok (.route route) →
    route ∈ literals handler ∨ ∃ edge ∈ flow.edges, edge.source = handler ∧ edge.routes = []

/-- No declared route is left without a target. -/
theorem Declared.onward (declared : flow.Declared literals acts)
    (formed : flow.WellFormed literals) {handler : Handler} (member : handler ∈ flow.nodes)
    {state : State} {route : Route} (returned : (acts handler state).2 = .ok (.route route)) :
    ∃ target, flow.targetFor handler route = some target := by
  apply Option.isSome_iff_exists.mp
  rw [targetFor_isSome]
  rcases declared handler member state route returned with literal | ⟨edge, inside, sourced, open_⟩
  · exact formed.routed handler member route literal
  · exact ⟨edge, inside, sourced, Or.inl open_⟩

/-- What a run of the flow ends with is what its last handler did. -/
theorem run_returned (formed : flow.WellFormed literals) (declared : flow.Declared literals acts)
    (fuel : Nat) {current : Handler} (member : current ∈ flow.nodes) {state after : State}
    {result : Except String FlowOutcome}
    (ran : flow.run acts fuel current state = (after, some result)) :
    ∃ handler ∈ flow.nodes, ∃ before,
      acts handler before = (after, result.map Result.outcome) := by
  induction fuel generalizing current state with
  | zero => cases ran
  | succ fuel ih =>
      cases acted : acts current state with
      | mk changed answer =>
          simp only [run, acted] at ran
          cases answer with
          | error text =>
              cases ran
              exact ⟨current, member, state, acted⟩
          | ok answer =>
              cases answer with
              | outcome outcome =>
                  cases ran
                  exact ⟨current, member, state, acted⟩
              | route route =>
                  obtain ⟨target, found⟩ := declared.onward formed member (by rw [acted])
                  simp only [progress, found] at ran
                  exact ih (leads_of_target found).mem_nodes ran

/-- Without cycles a handler is never called again, so that the handlers not
called yet are rounds enough. -/
theorem run_ends (acyclic : Chains.Acyclic flow.Leads) (fuel : Nat) {current : Handler}
    {called : List Handler} (member : current ∈ flow.nodes) (nodup : called.Nodup)
    (inside : ∀ handler ∈ called, handler ∈ flow.nodes)
    (led : ∀ handler ∈ called, Relation.TransGen flow.Leads handler current)
    (enough : flow.nodes.length ≤ fuel + called.length) (state : State) :
    ∃ after result, flow.run acts fuel current state = (after, some result) := by
  have fresh : current ∉ called := fun again => acyclic current (led current again)
  have nodup_now : (current :: called).Nodup := List.nodup_cons.mpr ⟨fresh, nodup⟩
  have inside_now : ∀ handler ∈ current :: called, handler ∈ flow.nodes :=
    List.forall_mem_cons.mpr ⟨member, inside⟩
  induction fuel generalizing current called state with
  | zero =>
      have room := (nodup_now.subperm inside_now).length_le
      rw [List.length_cons] at room
      omega
  | succ fuel ih =>
      simp only [run]
      cases step : flow.progress current (acts current state).2 with
      | returned outcome => exact ⟨_, _, rfl⟩
      | raised text => exact ⟨_, _, rfl⟩
      | fellOff => exact ⟨_, _, rfl⟩
      | handler next =>
          have leads : flow.Leads current next := by
            unfold progress at step
            split at step
            · cases step
            · cases step
            · split at step
              · rename_i found
                cases step
                exact leads_of_target found
              · cases step
          have led_now : ∀ handler ∈ current :: called,
              Relation.TransGen flow.Leads handler next :=
            List.forall_mem_cons.mpr ⟨.single leads, fun handler before => (led handler before).tail leads⟩
          have fresh_now : next ∉ current :: called :=
            fun again => acyclic next (led_now next again)
          apply ih leads.mem_nodes nodup_now inside_now led_now
          · rw [List.length_cons]
            omega
          · exact fresh_now
          · exact List.nodup_cons.mpr ⟨fresh_now, nodup_now⟩
          · exact List.forall_mem_cons.mpr ⟨leads.mem_nodes, inside_now⟩

/-- One handler of a run and the rest of it. -/
theorem run_route {fuel : Nat} {handler next : Handler} {state after : State} {route : Route}
    (acted : acts handler state = (after, .ok (.route route)))
    (found : flow.targetFor handler route = some next) :
    flow.run acts (fuel + 1) handler state = flow.run acts fuel next after := by
  simp only [run, acted, progress, found]

/-- A run that has ended is not changed by more rounds. -/
theorem run_more (fuel : Nat) {current : Handler} {state after : State}
    {result : Except String FlowOutcome}
    (ran : flow.run acts fuel current state = (after, some result)) {more : Nat}
    (enough : fuel ≤ more) : flow.run acts more current state = (after, some result) := by
  induction fuel generalizing current state more with
  | zero => cases ran
  | succ fuel ih =>
      obtain ⟨more, rfl⟩ : ∃ rounds, more = rounds + 1 := ⟨more - 1, by omega⟩
      simp only [run] at ran ⊢
      cases step : flow.progress current (acts current state).2 with
      | returned outcome => simpa [step] using ran
      | raised text => simpa [step] using ran
      | fellOff => simpa [step] using ran
      | handler next =>
          simp only [step] at ran ⊢
          exact ih ran (by omega)

/-- A validated flow without cycles calls no handler twice, whatever its handlers
do within their annotations, and reports what the last of them returned or raised. -/
theorem validated_run (valid : flow.validate literals = .ok ())
    (acyclic : Chains.Acyclic flow.Leads) (declared : flow.Declared literals acts) (state : State) :
    ∃ after result, (∀ fuel, flow.nodes.length ≤ fuel →
        flow.run acts fuel flow.start state = (after, some result)) ∧
      ∃ handler ∈ flow.nodes, ∃ before, acts handler before = (after, result.map Result.outcome) := by
  have formed := (validate_iff literals).mp valid
  have starts : flow.start ∈ flow.nodes := mem_nodes.mpr (Or.inl rfl)
  have ends : ∃ after result,
      flow.run acts flow.nodes.length flow.start state = (after, some result) :=
    run_ends acyclic _ starts List.nodup_nil (by simp) (by simp) (by simp) state
  obtain ⟨after, result, ran⟩ := ends
  refine ⟨after, result, fun fuel enough => run_more _ ran enough, ?_⟩
  exact run_returned formed declared _ starts ran

end Runs

end Flow

end Choirworks.Flows
