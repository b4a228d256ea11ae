import Choirworks.Orchestration.Edits

/-!
The pending interventions and the nodes they are about. A question is about a
node that waits for input, a confirmation about one that is at work or followed;
`Fitting` says so of every node but the exempt ones, and is checked against the
edits of an operation: no node with a pending intervention may leave the statuses
of its kind, and no intervention may be asked outside of them.
-/

namespace Choirworks.Orchestration

namespace OrchestrationState

/-- At work, or followed after a restart. -/
def flyingStatuses : List NodeStatus := activeNodeStatuses ++ [.recover]

def Pends (state : OrchestrationState) (kind : InterventionKind) (nodeId : String) : Prop :=
  ∃ intervention ∈ state.pendingInterventions,
    intervention.kind = kind ∧ intervention.nodeId = nodeId

instance (state : OrchestrationState) (kind : InterventionKind) (nodeId : String) :
    Decidable (state.Pends kind nodeId) :=
  inferInstanceAs (Decidable (∃ intervention ∈ state.pendingInterventions, _))

/-- The statuses in which an intervention of the kind can be answered. -/
def Fits : InterventionKind → NodeStatus → Prop
  | .question, status => status = .inputRequired
  | .confirmCancel, status => status ∈ flyingStatuses

instance : (kind : InterventionKind) → (status : NodeStatus) → Decidable (Fits kind status)
  | .question, status => inferInstanceAs (Decidable (status = .inputRequired))
  | .confirmCancel, status => inferInstanceAs (Decidable (status ∈ flyingStatuses))

def Fitting (exempt : String → Prop) (state : OrchestrationState) : Prop :=
  ∀ kind nodeId, state.Pends kind nodeId →
    exempt nodeId ∨ ∃ status ∈ state.status? nodeId, Fits kind status

/-- At most one intervention is pending for a node, and the numbers of the
derived ids stay below the counter that draws them. -/
structure Steady (state : OrchestrationState) : Prop where
  single : ∀ left ∈ state.pendingInterventions, ∀ right ∈ state.pendingInterventions,
    left.nodeId = right.nodeId → left = right
  numbered : ∀ node ∈ state.nodes.rows, ∀ parentId kind count,
    node.id = derivedId parentId kind count → count ≤ state.derivedCount

section Pending

variable {state old new : OrchestrationState} {exempt more : String → Prop}
  {kind : InterventionKind} {nodeId : String}

theorem mem_pending {intervention : Intervention} :
    intervention ∈ state.pendingInterventions ↔
      intervention ∈ state.interventions.rows ∧ intervention.status = .pending := by
  simp [pendingInterventions]

theorem pends_of_mem {intervention : Intervention}
    (member : intervention ∈ state.pendingInterventions) :
    state.Pends intervention.kind intervention.nodeId :=
  ⟨intervention, member, rfl, rfl⟩

theorem not_pends (free : state.pendingInterventionFor nodeId = none) :
    ¬ state.Pends kind nodeId := by
  rintro ⟨intervention, member, _, rfl⟩
  obtain ⟨inside, pending⟩ := mem_pending.mp member
  exact List.find?_eq_none.mp free intervention inside (by simp [pending])

theorem Pends.congr (same : new.interventions = old.interventions) :
    new.Pends kind nodeId ↔ old.Pends kind nodeId := by
  simp only [Pends, pendingInterventions, same]

theorem Fitting.mono (fitting : Fitting exempt state) (all : ∀ nodeId, exempt nodeId → more nodeId) :
    Fitting more state :=
  fun kind nodeId pends => (fitting kind nodeId pends).imp_left (all nodeId)

theorem fitting_of_none (none : ∀ kind nodeId, ¬ state.Pends kind nodeId) : Fitting exempt state :=
  fun kind nodeId pends => absurd pends (none kind nodeId)

theorem steady_of_empty (nodes : state.nodes = .empty) (none : state.interventions = .empty) :
    Steady state := by
  constructor <;> simp [pendingInterventions, nodes, none]

theorem Steady.restored (steady : Steady state) : Steady state.restored where
  single := steady.single
  numbered := by
    intro node member
    obtain ⟨old, inside, rfl⟩ := List.mem_map.mp member
    exact steady.numbered old inside

/-- The ids that are still to be drawn are of no node. -/
theorem Steady.undrawn (steady : Steady state) {status : NodeStatus}
    (found : state.status? nodeId = some status) (spawn : Spawn) :
    nodeId ≠ (spawn.node (state.derivedCount + 1)).id := by
  rintro rfl
  obtain ⟨node, member, same, _⟩ := state.status_eq_some _ found
  exact Nat.not_succ_le_self _ (steady.numbered node member _ _ _ same)

/-- What is not stale can be answered. -/
theorem fits_of_fresh {intervention : Intervention}
    (fresh : interventionStale intervention (state.node? intervention.nodeId) = false) :
    ∃ status ∈ state.status? intervention.nodeId, Fits intervention.kind status := by
  cases found : state.node? intervention.nodeId with
  | none => simp [interventionStale, found] at fresh
  | some node =>
      refine ⟨node.status, by simp [status?, found], ?_⟩
      cases kind : intervention.kind with
      | question =>
          have waits : node.status = .inputRequired := by
            simpa [interventionStale, found, kind] using fresh
          exact waits
      | confirmCancel =>
          have active : node.status ∈ activeNodeStatuses := by
            simpa [interventionStale, found, kind] using fresh
          exact List.mem_append_left _ active

/-- Behind the expiry, the nodes concerned are no longer exempt. -/
theorem Fitting.expired {concerns : Intervention → Bool}
    (fitting : Fitting more state)
    (rest : ∀ intervention ∈ state.pendingInterventions, concerns intervention = false →
      more intervention.nodeId → exempt intervention.nodeId) :
    Fitting exempt (state.expireWhere concerns) := by
  rintro kind nodeId ⟨intervention, member, rfl, rfl⟩
  obtain ⟨inside, pending⟩ := mem_pending.mp member
  obtain ⟨before, listed, same⟩ := List.mem_map.mp inside
  -- an intervention that is still pending has not been changed
  split at same
  · rw [← same] at pending
    cases pending
  · rename_i stays
    subst same
    have pends := mem_pending.mpr ⟨listed, pending⟩
    cases concerned : concerns before with
    | true =>
        have fresh : interventionStale before (state.node? before.nodeId) = false := by
          simpa [pending, concerned] using stays
        exact Or.inr (fits_of_fresh fresh)
    | false =>
        exact (fitting before.kind before.nodeId (pends_of_mem pends)).imp_left
          (rest before pends concerned)

theorem Fitting.expireNode (fitting : Fitting (fun other => exempt other ∨ other = nodeId) state) :
    Fitting exempt (state.expireNodeInterventions nodeId) := by
  refine fitting.expired fun intervention _ apart => ?_
  rintro (still | rfl)
  · exact still
  · simp at apart

/-- The normalization needs no invariant. -/
theorem fitting_normalized (state : OrchestrationState) :
    Fitting exempt state.normalizeInterventions :=
  (show Fitting (fun _ => True) state from fun _ _ _ => Or.inl trivial).expired
    fun _ _ apart => by cases apart

end Pending

end OrchestrationState

open OrchestrationState

/-! ### Edits -/

/-- Nothing moves and nothing is asked. -/
def Scope.still : Scope := ⟨fun _ _ _ => False, fun _ _ _ => False, True, True⟩

/-- The moves of watched nodes and the questions asked leave every node that is
not exempt in the statuses of what is pending for it. -/
structure Scope.Spares (scope : Scope) (exempt : String → Prop)
    (watched : InterventionKind → String → Prop) : Prop where
  moves : ∀ kind nodeId status target, watched kind nodeId → scope.moves nodeId status target →
    exempt nodeId ∨ (Fits kind status → Fits kind target)
  asks : ∀ kind nodeId status, scope.asks kind nodeId status → exempt nodeId ∨ Fits kind status

section Edit

variable {scope : Scope} {exempt : String → Prop} {watched : InterventionKind → String → Prop}
  {old new : OrchestrationState} {kind : InterventionKind} {nodeId : String}

theorem settled_pends {change : Intervention → Intervention}
    (keeps : ∀ intervention, (change intervention).id = intervention.id)
    (settles : ∀ intervention ∈ old.interventions.rows,
      Settles intervention (change intervention))
    (pends : Pends { old with interventions := old.interventions.map change keeps } kind nodeId) :
    old.Pends kind nodeId := by
  obtain ⟨later, member, rfl, rfl⟩ := pends
  obtain ⟨inside, pending⟩ := mem_pending.mp member
  obtain ⟨before, listed, rfl⟩ := List.mem_map.mp inside
  have settled := settles before listed
  exact ⟨before, mem_pending.mpr ⟨listed, settled.pending pending⟩, settled.kind.symm,
    settled.nodeId.symm⟩

theorem Edit.pends (edit : Edit scope old new) (pends : new.Pends kind nodeId) :
    old.Pends kind nodeId ∨ ∃ status, scope.asks kind nodeId status := by
  cases edit with
  | rows | draft | spawn | side => exact Or.inl pends
  | settle keeps settles => exact Or.inl (settled_pends keeps settles pends)
  | ask requested found allowed =>
      obtain ⟨_, rfl⟩ := requestUserInput_cases requested
      obtain ⟨later, member, rfl, rfl⟩ := pends
      obtain ⟨inside, pending⟩ := mem_pending.mp member
      rcases (Table.mem_insert _ _ _).mp inside with rfl | ⟨listed, _⟩
      · exact Or.inr ⟨_, allowed⟩
      · exact Or.inl (pends_of_mem (mem_pending.mpr ⟨listed, pending⟩))

theorem Edit.steady (edit : Edit scope old new) (steady : Steady old) : Steady new where
  single := by
    cases edit with
    | rows | draft | spawn | side => exact steady.single
    | settle keeps settles =>
        intro left hl right hr same
        obtain ⟨inl, pl⟩ := mem_pending.mp hl
        obtain ⟨inr, pr⟩ := mem_pending.mp hr
        obtain ⟨first, listed, rfl⟩ := List.mem_map.mp inl
        obtain ⟨second, there, rfl⟩ := List.mem_map.mp inr
        have one := settles first listed
        have two := settles second there
        rw [steady.single first (mem_pending.mpr ⟨listed, one.pending pl⟩) second
          (mem_pending.mpr ⟨there, two.pending pr⟩) (one.nodeId ▸ two.nodeId ▸ same)]
    | ask requested =>
        obtain ⟨free, rfl⟩ := requestUserInput_cases requested
        intro left hl right hr same
        obtain ⟨inl, pl⟩ := mem_pending.mp hl
        obtain ⟨inr, pr⟩ := mem_pending.mp hr
        rcases (Table.mem_insert _ _ _).mp inl with rfl | ⟨listed, _⟩ <;>
          rcases (Table.mem_insert _ _ _).mp inr with rfl | ⟨there, _⟩
        · rfl
        · exact absurd ⟨right, mem_pending.mpr ⟨there, pr⟩, rfl, same.symm⟩ (not_pends free)
        · exact absurd ⟨left, mem_pending.mpr ⟨listed, pl⟩, rfl, same⟩ (not_pends free)
        · exact steady.single left (mem_pending.mpr ⟨listed, pl⟩) right
            (mem_pending.mpr ⟨there, pr⟩) same
  numbered := by
    have all : Numbered (fun _ => True) old := fun node member _ => steady.numbered node member
    exact fun node member => edit.numbered all node member trivial

theorem Edit.fitting (edit : Edit scope old new) (spares : scope.Spares exempt watched)
    (steady : Steady old) (all : ∀ kind nodeId, old.Pends kind nodeId → watched kind nodeId)
    (fitting : Fitting exempt old) : Fitting exempt new := by
  intro kind nodeId pends
  cases edit with
  | rows keeps same allowed =>
      refine (fitting kind nodeId pends).elim Or.inl ?_
      rintro ⟨status, found, fits⟩
      obtain ⟨node, member, rfl, rfl⟩ := old.status_eq_some nodeId found
      have later := status_of_mem { old with nodes := old.nodes.map _ keeps }
        (List.mem_map_of_mem member)
      rw [keeps] at later
      rcases allowed node member with stays | moved
      · exact Or.inr ⟨_, later, stays ▸ fits⟩
      · exact (spares.moves kind node.id _ _ (all kind node.id pends) moved).imp_right
          fun keeps => ⟨_, later, keeps fits⟩
  | @draft drawn number _ named fresh _ =>
      refine (fitting kind nodeId pends).imp_right ?_
      rintro ⟨status, found, fits⟩
      -- nothing is pending about a node that is only now drawn
      have apart : nodeId ≠ drawn.id := by
        rintro rfl
        obtain ⟨node, member, same, _⟩ := old.status_eq_some _ found
        exact fresh (same ▸ old.nodes.key_mem_keys member)
      refine ⟨status, ?_, fits⟩
      exact (old.status_setNode nodeId drawn).trans (by rw [if_neg apart]; exact found)
  | spawn spawn =>
      refine (fitting kind nodeId pends).imp_right ?_
      rintro ⟨status, found, fits⟩
      refine ⟨status, ?_, fits⟩
      exact (old.status_setNode nodeId _).trans
        (by rw [if_neg (steady.undrawn found spawn)]; exact found)
  | side => exact fitting kind nodeId pends
  | settle keeps settles =>
      exact fitting kind nodeId (settled_pends keeps settles pends)
  | ask requested found allowed =>
      obtain ⟨_, rfl⟩ := requestUserInput_cases requested
      obtain ⟨later, member, rfl, rfl⟩ := pends
      obtain ⟨inside, pending⟩ := mem_pending.mp member
      rcases (Table.mem_insert _ _ _).mp inside with rfl | ⟨listed, _⟩
      · exact (spares.asks _ _ _ allowed).imp_right fun fits => ⟨_, found, fits⟩
      · exact fitting _ _ (pends_of_mem (mem_pending.mpr ⟨listed, pending⟩))

end Edit

/-- What a session keeps, in memory and in the store. -/
structure Session.Held (exempt : String → Prop) (session : Session) : Prop where
  memory : Steady session.state
  stored : Steady session.saved
  fitting : Fitting exempt session.state

namespace Session

section Held

variable {scope : Scope} {exempt more : String → Prop} {session next : Session}
  {kind : InterventionKind} {nodeId : String}

theorem Edits.pends (edits : Edits scope session next) (pends : next.state.Pends kind nodeId) :
    session.state.Pends kind nodeId ∨ ∃ status, scope.asks kind nodeId status := by
  let known (state : OrchestrationState) : Prop := ∀ kind nodeId, state.Pends kind nodeId →
    session.state.Pends kind nodeId ∨ ∃ status, scope.asks kind nodeId status
  have kept : ∀ {old new}, Edit scope old new → known old → known new :=
    fun edit before kind nodeId now => (edit.pends now).elim (before kind nodeId) Or.inr
  exact edits.kept kept (show known session.state from fun _ _ => Or.inl) kind nodeId pends

theorem Edits.held (edits : Edits scope session next) (held : session.Held exempt)
    (spares : scope.Spares exempt fun kind nodeId =>
      session.state.Pends kind nodeId ∨ ∃ status, scope.asks kind nodeId status) :
    next.Held exempt := by
  have steady := edits.both Edit.steady ⟨held.memory, held.stored⟩
  refine ⟨steady.1, steady.2, ?_⟩
  let fine (state : OrchestrationState) : Prop :=
    Steady state ∧ Fitting exempt state ∧ ∀ kind nodeId, state.Pends kind nodeId →
      session.state.Pends kind nodeId ∨ ∃ status, scope.asks kind nodeId status
  have kept : ∀ {old new}, Edit scope old new → fine old → fine new := by
    rintro old new edit ⟨steady, fitting, all⟩
    exact ⟨edit.steady steady, edit.fitting spares steady all fitting, fun kind nodeId pends =>
      (edit.pends pends).elim (all kind nodeId) Or.inr⟩
  have begun : fine session.state := ⟨held.memory, held.fitting, fun _ _ => Or.inl⟩
  exact (edits.kept kept begun).2.1

theorem Edits.still_held (edits : Edits .still session next) (held : session.Held exempt) :
    next.Held exempt :=
  edits.held held ⟨fun _ _ _ _ _ moved => moved.elim, fun _ _ _ asked => asked.elim⟩

theorem Held.mono (held : session.Held exempt) (all : ∀ nodeId, exempt nodeId → more nodeId) :
    session.Held more :=
  ⟨held.memory, held.stored, held.fitting.mono all⟩

theorem Held.persist (held : session.Held exempt) : session.persist.Held exempt :=
  ⟨held.memory, held.memory, held.fitting⟩

/-- The expiry of a node ends its exemption. -/
theorem Held.expireNode (held : session.Held fun other => exempt other ∨ other = nodeId) :
    { session with state := session.state.expireNodeInterventions nodeId }.persist.Held exempt := by
  have edit : Edit .still session.state (session.state.expireNodeInterventions nodeId) :=
    expireWhere_edit _
  exact ⟨edit.steady held.memory, edit.steady held.memory, held.fitting.expireNode⟩

end Held

end Session

/-! ### Patches that offer work in progress -/

/-- A listed node that has begun, and that nothing is pending for, is at work. -/
def Offerable (executes : String → Prop) (state : OrchestrationState) (nodeId : String)
    (status : NodeStatus) : Prop :=
  status ∉ invalidatableStatuses → status ≠ .invalidated →
    state.pendingInterventionFor nodeId = none → status ∈ activeNodeStatuses ∧ executes nodeId

instance (executes : String → Prop) [DecidablePred executes] (state : OrchestrationState)
    (nodeId : String) (status : NodeStatus) : Decidable (Offerable executes state nodeId status) :=
  inferInstanceAs (Decidable (_ → _ → _ → _))

/-- A patch offers only work in progress; it takes out no followed node that a
confirmation is about; and the ids it draws are unused. -/
structure OffersWork (executes : String → Prop) (env : Env) (state : OrchestrationState)
    (patch : PlanPatch) : Prop where
  offered : ∀ nodeId ∈ patch.invalidate, ∀ status ∈ state.status? nodeId,
    Offerable executes state nodeId status
  followed : ∀ node, Affected (withDrafts state patch env.agents) patch.invalidate node →
    node.status = .recover → ¬ state.Pends .confirmCancel node.id
  unused : DrawsUnused env state patch

/-- What a patch that offers work, beside the own node of an execution, may do. -/
def offerScope (owns executes : String → Prop) (env : Env) (state : OrchestrationState)
    (brought : Option PlanPatch) : Scope where
  moves nodeId status target :=
    owns nodeId ∨
      (target = .invalidated ∧ (state.status? nodeId = some status ∨ status = .pending) ∧
        ∃ patch ∈ brought, ∃ node,
          Affected (withDrafts state patch env.agents) patch.invalidate node ∧
            node.id = nodeId ∧ node.status = status)
  asks kind nodeId status :=
    kind = .confirmCancel ∧ status ∈ activeNodeStatuses ∧ executes nodeId ∧
      state.status? nodeId = some status
  counts := True
  hands := True

section Offers

variable {owns executes exempt : String → Prop} {env : Env} {state : OrchestrationState}
  {brought : Option PlanPatch}

theorem offered_revises (offers : ∀ patch ∈ brought, OffersWork executes env state patch) :
    ∀ patch ∈ brought, Revises (offerScope owns executes env state brought) env state patch := by
  intro patch member
  have offer := offers patch member
  refine ⟨fun node affected found => ?_, fun nodeId listed status found begun alive free => ?_⟩
  · exact Or.inr ⟨rfl, found, patch, member, node, affected, rfl, rfl⟩
  · obtain ⟨active, executed⟩ :=
      offer.offered nodeId listed status found begun alive (free offer.unused)
    exact ⟨rfl, active, executed, found⟩

theorem offered_spares (offers : ∀ patch ∈ brought, OffersWork executes env state patch)
    (own : ∀ nodeId, owns nodeId → exempt nodeId) :
    (offerScope owns executes env state brought).Spares exempt fun kind nodeId =>
      state.Pends kind nodeId ∨
        ∃ status, (offerScope owns executes env state brought).asks kind nodeId status where
  moves := by
    rintro kind nodeId status target watched (owned | ⟨rfl, found, patch, member, node, affected,
      rfl, rfl⟩)
    · exact Or.inl (own nodeId owned)
    · right
      intro fits
      exfalso
      -- only a followed node can have a pending intervention and be invalidated
      have recovers : kind = .confirmCancel ∧ node.status = .recover := by
        have may := affected.row.2
        revert fits may
        cases kind <;> cases node.status <;> decide
      obtain ⟨rfl, recovers⟩ := recovers
      rcases watched with pends | ⟨active, _, at_work, _, now⟩
      · exact (offers patch member).followed node affected recovers pends
      · rcases found with known | pending
        · rw [known, recovers] at now
          rw [← Option.some.inj now] at at_work
          revert at_work
          decide
        · rw [recovers] at pending
          cases pending
  asks := by
    rintro kind nodeId status ⟨rfl, active, _⟩
    exact Or.inr (List.mem_append_left _ active)

instance [DecidablePred executes] (patch : PlanPatch) :
    Decidable (OffersWork executes env state patch) :=
  decidable_of_iff
    ((∀ nodeId ∈ patch.invalidate, ∀ status ∈ state.status? nodeId,
        Offerable executes state nodeId status) ∧
      (∀ node ∈ (withDrafts state patch env.agents).nodes.rows, node.status = .recover →
        state.Pends .confirmCancel node.id →
          node.id ∉ (applyPatch state patch env.agents).result.invalidated) ∧
      DrawsUnused env state patch) (by
    obtain ⟨_, taken⟩ := applyPatch_cut state patch env.agents
    constructor
    · rintro ⟨offered, followed, unused⟩
      refine ⟨offered, fun node affected recovers pends => ?_, unused⟩
      exact followed node affected.row.1 recovers pends ((taken node.id).mpr ⟨node, affected, rfl⟩)
    · rintro ⟨offered, followed, unused⟩
      refine ⟨offered, fun node member recovers pends cut => ?_, unused⟩
      obtain ⟨other, affected, same⟩ := (taken node.id).mp cut
      obtain rfl := Table.row_unique _ affected.row.1 member same
      exact followed other affected recovers pends)

end Offers

end Choirworks.Orchestration
