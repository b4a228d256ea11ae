import Choirworks.Orchestration.Interventions
import Choirworks.Orchestration.Patch

/-!
What the nodes of a plan rest on. A node that waits has dependencies that are
alive, a node that has begun has completed ones, and the numbers of the derived
ids stay below the counter that draws them. `gone` names the nodes whose end is
not yet handed on to the nodes that wait for them.
-/

namespace Choirworks.Orchestration

def deadStatuses : List NodeStatus := [.canceled, .invalidated]

/-- The node has been dispatched and has not ended for good. -/
def begunStatuses : List NodeStatus :=
  [.ready, .submitted, .working, .inputRequired, .recover, .failed]

/-! ### Derived ids -/

/-- A text with the form of a derived id: `-f`, `-a` or `-h` and digits at its end. -/
def isDerivedId (nodeId : String) : Bool :=
  match Text.beforeDigits nodeId with
  | last :: '-' :: _ => last ∈ ['f', 'a', 'h'] ∧ Text.trailingDigits nodeId ≠ []
  | _ => false

section DerivedId

variable (parentId : String) (kind : DerivedKind) (count : Nat)

theorem suffix_letter : kind.suffix.isDigit = false := by
  cases kind <;> rfl

theorem beforeDigits_derivedId : Text.beforeDigits (derivedId parentId kind count) =
    kind.suffix :: '-' :: parentId.toList.reverse := by
  have split := Text.beforeDigits_number (parentId ++ "-") kind.suffix count (suffix_letter kind)
  rw [String.toList_append, List.reverse_append] at split
  exact split

theorem isDerivedId_derivedId : isDerivedId (derivedId parentId kind count) = true := by
  have digits : Text.trailingDigits (derivedId parentId kind count) =
      (toString count).toList.reverse :=
    Text.trailingDigits_number (parentId ++ "-") kind.suffix count (suffix_letter kind)
  simp only [isDerivedId, beforeDigits_derivedId, digits]
  cases kind <;> simp [DerivedKind.suffix]

variable {parentId kind count}

/-- Derived ids of different numbers differ. -/
theorem derivedId_number {otherParent : String} {otherKind : DerivedKind} {other : Nat}
    (same : derivedId parentId kind count = derivedId otherParent otherKind other) :
    count = other := by
  apply Text.number_of_trailingDigits (parentId ++ "-") kind.suffix count (suffix_letter kind)
  exact (congrArg Text.trailingDigits same).trans
    (Text.trailingDigits_number (otherParent ++ "-") otherKind.suffix other
      (suffix_letter otherKind))

/-- Derived ids of different kinds differ. -/
theorem derivedId_kind {otherParent : String} {otherKind : DerivedKind} {other : Nat}
    (same : derivedId parentId kind count = derivedId otherParent otherKind other) :
    kind = otherKind := by
  have before := congrArg Text.beforeDigits same
  rw [beforeDigits_derivedId, beforeDigits_derivedId] at before
  have letters := (List.cons.inj before).1
  revert letters
  cases kind <;> cases otherKind <;> decide

theorem derivedId_longer : parentId.length < (derivedId parentId kind count).length := by
  simp only [derivedId, String.length_append, String.length_singleton,
    show ("-" : String).length = 1 from rfl]
  omega

/-- The ids that patches draw are no derived ids. -/
theorem patchNodeId_underived (number : Nat) : isDerivedId (Patching.patchNodeId number) = false := by
  have before := Text.beforeDigits_number "" 'x' number rfl
  have same : Patching.patchNodeId number = "" ++ String.singleton 'x' ++ toString number := rfl
  rw [isDerivedId, same, before]
  rfl

end DerivedId

namespace OrchestrationState

/-! ### Support -/

/-- In the plan, and neither canceled nor invalidated. -/
def Alive (state : OrchestrationState) (dep : String) : Prop :=
  ∃ status ∈ state.status? dep, status ∉ deadStatuses

instance (state : OrchestrationState) (dep : String) : Decidable (state.Alive dep) :=
  inferInstanceAs (Decidable (∃ status ∈ state.status? dep, _))

/-- No node waits for something that can no longer complete. -/
def NoDeadDependency (state : OrchestrationState) : Prop :=
  ∀ node ∈ state.nodes.rows, node.status ∈ [.pending, .ready] → ∀ dep ∈ node.deps, state.Alive dep

instance (state : OrchestrationState) : Decidable state.NoDeadDependency :=
  inferInstanceAs (Decidable (∀ node ∈ state.nodes.rows, _))

def Done (state : OrchestrationState) (node : NodeState) : Prop :=
  ∀ dep ∈ node.deps, state.status? dep = some .completed

instance (state : OrchestrationState) (node : NodeState) : Decidable (state.Done node) :=
  inferInstanceAs (Decidable (∀ dep ∈ node.deps, _))

structure Supported (gone : List String) (state : OrchestrationState) : Prop where
  waiting : ∀ node ∈ state.nodes.rows, node.status = .pending →
    ∀ dep ∈ node.deps, dep ∈ gone ∨ state.Alive dep
  begun : ∀ node ∈ state.nodes.rows, node.status ∈ begunStatuses → state.Done node
  numbered : ∀ node ∈ state.nodes.rows, ∀ parentId kind count,
    node.id = derivedId parentId kind count → count ≤ state.derivedCount

/-- Nodes stay in the plan with their dependencies, completed ones stay completed. -/
def Extends (old new : OrchestrationState) : Prop :=
  ∀ node ∈ old.nodes.rows, ∃ later ∈ new.nodes.rows,
    later.id = node.id ∧ later.deps = node.deps ∧
      (node.status = .completed → later.status = .completed)

variable {old new last state : OrchestrationState} {gone all : List String}

theorem alive_of_completed {dep : String} (done : state.status? dep = some .completed) :
    state.Alive dep :=
  ⟨.completed, done, by decide⟩

theorem Supported.none_dead (inv : Supported [] state) : state.NoDeadDependency := by
  intro node member waits dep depends
  simp only [List.mem_cons, List.not_mem_nil, or_false] at waits
  rcases waits with pending | ready
  · simpa using inv.waiting node member pending dep depends
  · have completed := inv.begun node member (by simp [ready, begunStatuses]) dep depends
    exact alive_of_completed completed

/-- The ends are handed on once no waiting node depends on one. -/
theorem Supported.settled (inv : Supported gone state)
    (clear : ∀ node ∈ state.nodes.rows, node.status = .pending → ∀ dep ∈ node.deps, dep ∉ gone) :
    Supported [] state where
  waiting node member pending dep depends :=
    Or.inr ((inv.waiting node member pending dep depends).resolve_left
      (clear node member pending dep depends))
  begun := inv.begun
  numbered := inv.numbered

theorem Extends.refl (state : OrchestrationState) : Extends state state :=
  fun node member => ⟨node, member, rfl, rfl, id⟩

theorem Extends.trans (first : Extends old new) (second : Extends new last) : Extends old last := by
  intro node member
  obtain ⟨later, there, sameId, sameDeps, completed⟩ := first node member
  obtain ⟨final, here, finalId, finalDeps, stays⟩ := second later there
  exact ⟨final, here, finalId.trans sameId, finalDeps.trans sameDeps,
    fun done => stays (completed done)⟩

theorem Extends.completed (extends_ : Extends old new) {dep : String}
    (done : old.status? dep = some .completed) : new.status? dep = some .completed := by
  obtain ⟨node, member, rfl, status⟩ := old.status_eq_some dep done
  obtain ⟨later, there, sameId, _, stays⟩ := extends_ node member
  have found := new.status_of_mem there
  rwa [sameId, stays status] at found

/-- Only the nodes and the counter matter. -/
theorem Supported.congr (inv : Supported gone old) (nodes : new.nodes = old.nodes)
    (count : new.derivedCount = old.derivedCount) : Supported gone new := by
  have alive : ∀ dep, old.Alive dep → new.Alive dep := by
    simp [Alive, status?, node?, nodes]
  constructor
  · intro node member pending dep depends
    exact (inv.waiting node (nodes ▸ member) pending dep depends).imp_right (alive dep)
  · intro node member begun dep depends
    have done := inv.begun node (nodes ▸ member) begun dep depends
    simpa [status?, node?, nodes] using done
  · rw [nodes, count]
    exact inv.numbered

theorem Extends.congr (nodes : new.nodes = old.nodes) : Extends old new := by
  intro node member
  exact ⟨node, nodes ▸ member, rfl, rfl, id⟩

/-! ### Changes of nodes -/

/-- What may happen to one node; `all` names the nodes that may die. -/
structure Changed (state : OrchestrationState) (all : List String) (node later : NodeState) :
    Prop where
  id : later.id = node.id
  deps : later.deps = node.deps
  completed : node.status = .completed → later.status = .completed
  dies : later.status ∈ deadStatuses → node.status ∈ deadStatuses ∨ node.id ∈ all
  waits : later.status = .pending → node.status = .pending ∨ node.status ∈ begunStatuses
  begins : later.status ∈ begunStatuses → node.status ∈ begunStatuses ∨ state.Done node

theorem Changed.same_status {node later : NodeState} (id : later.id = node.id)
    (deps : later.deps = node.deps) (status : later.status = node.status) :
    Changed state all node later where
  id
  deps
  completed := by simp [status]
  dies := by simp +contextual [status]
  waits := by simp +contextual [status]
  begins := by simp +contextual [status]

theorem Supported.changed (inv : Supported gone old) (more : ∀ nodeId ∈ gone, nodeId ∈ all)
    {change : NodeState → NodeState} (rows : new.nodes.rows = old.nodes.rows.map change)
    (count : new.derivedCount = old.derivedCount)
    (each : ∀ node ∈ old.nodes.rows, Changed old all node (change node)) :
    Supported all new ∧ Extends old new := by
  have onward : Extends old new := by
    intro node member
    have changes := each node member
    exact ⟨change node, by simpa [rows] using ⟨node, member, rfl⟩, changes.id, changes.deps,
      changes.completed⟩
  -- a dependency that dies is one of those that are gone
  have alive : ∀ dep, old.Alive dep → dep ∈ all ∨ new.Alive dep := by
    rintro dep ⟨status, found, lives⟩
    obtain ⟨node, member, rfl, rfl⟩ := old.status_eq_some dep found
    by_cases dies : (change node).status ∈ deadStatuses
    · exact Or.inl (((each node member).dies dies).resolve_left lives)
    · have there : change node ∈ new.nodes.rows := by simpa [rows] using ⟨node, member, rfl⟩
      have later := new.status_of_mem there
      rw [(each node member).id] at later
      exact Or.inr ⟨_, later, dies⟩
  refine ⟨⟨?_, ?_, ?_⟩, onward⟩
  · intro later there pending dep depends
    rw [rows] at there
    obtain ⟨node, member, rfl⟩ := List.mem_map.mp there
    have changes := each node member
    rw [changes.deps] at depends
    rcases changes.waits pending with waited | begun
    · rcases inv.waiting node member waited dep depends with fallen | lives
      · exact Or.inl (more dep fallen)
      · exact alive dep lives
    · exact Or.inr (alive_of_completed (onward.completed (inv.begun node member begun dep depends)))
  · intro later there begun dep depends
    rw [rows] at there
    obtain ⟨node, member, rfl⟩ := List.mem_map.mp there
    have changes := each node member
    rw [changes.deps] at depends
    apply onward.completed
    rcases changes.begins begun with before | done
    · exact inv.begun node member before dep depends
    · exact done dep depends
  · intro later there
    rw [rows] at there
    obtain ⟨node, member, rfl⟩ := List.mem_map.mp there
    rw [(each node member).id, count]
    exact inv.numbered node member

theorem Supported.set (inv : Supported gone state) (more : ∀ nodeId ∈ gone, nodeId ∈ all)
    {node later : NodeState} (changes : Changed state all node later)
    (found : state.node? later.id = some node) :
    Supported all (state.setNode later) ∧ Extends state (state.setNode later) := by
  have known : later.id ∈ state.nodes.keys :=
    (Table.mem_keys_iff_find? _ _).mpr ⟨node, found⟩
  have rows : (state.setNode later).nodes.rows =
      state.nodes.rows.map fun other => if other.id = later.id then later else other := by
    rw [OrchestrationState.setNode, state.nodes.insert_known later known]
    rfl
  refine inv.changed more rows rfl ?_
  intro other member
  split
  · rename_i same
    have itself : some other = some node := by
      rw [← state.node_of_mem member, same, found]
    cases itself
    exact changes
  · exact .same_status rfl rfl rfl

/-- Nodes that have not completed may die. -/
theorem Supported.kill (inv : Supported gone state) (nodeIds : List String)
    (target : NodeStatus) (dead : target ∈ deadStatuses)
    (undone : ∀ nodeId ∈ nodeIds, state.status? nodeId ≠ some .completed) :
    Supported (gone ++ nodeIds) (state.moveNodes nodeIds target) ∧
      Extends state (state.moveNodes nodeIds target) := by
  refine inv.changed (fun _ => List.mem_append_left _) rfl rfl ?_
  intro node member
  split
  · rename_i moved
    have not_completed : node.status ≠ .completed := by
      intro completed
      exact undone node.id moved (completed ▸ state.status_of_mem member)
    constructor
    · rfl
    · rfl
    · exact fun completed => absurd completed not_completed
    · exact fun _ => Or.inr (List.mem_append_right _ moved)
    all_goals
      revert dead
      cases target <;> simp [deadStatuses, begunStatuses]
  · exact .same_status rfl rfl rfl

/-- A new node that waits for alive nodes. -/
theorem Supported.add (inv : Supported [] old) (new : OrchestrationState) {node : NodeState}
    (nodes : new.nodes = old.nodes.insert node) (count : old.derivedCount ≤ new.derivedCount)
    (fresh : node.id ∉ old.nodes.keys) (waits : node.status = .pending)
    (alive : ∀ dep ∈ node.deps, old.Alive dep)
    (number : ∀ parentId kind number, node.id = derivedId parentId kind number →
      number ≤ new.derivedCount) :
    Supported [] new ∧ Extends old new := by
  have inserted : ∀ other, other ∈ new.nodes.rows ↔
      other = node ∨ (other ∈ old.nodes.rows ∧ other.id ≠ node.id) := by
    intro other
    rw [nodes]
    exact Table.mem_insert old.nodes node other
  have different : ∀ other ∈ old.nodes.rows, other.id ≠ node.id := by
    intro other member same
    exact fresh (same ▸ old.nodes.key_mem_keys member)
  have onward : Extends old new := fun other member =>
    ⟨other, (inserted other).mpr (Or.inr ⟨member, different other member⟩), rfl, rfl, id⟩
  have stays : ∀ dep, old.Alive dep → new.Alive dep := by
    rintro dep ⟨status, found, lives⟩
    obtain ⟨other, member, rfl, rfl⟩ := old.status_eq_some dep found
    have there := (inserted other).mpr (Or.inr ⟨member, different other member⟩)
    exact ⟨_, new.status_of_mem there, lives⟩
  refine ⟨⟨?_, ?_, ?_⟩, onward⟩
  · intro other there pending dep depends
    rcases (inserted other).mp there with rfl | ⟨member, _⟩
    · exact Or.inr (stays dep (alive dep depends))
    · exact (inv.waiting other member pending dep depends).imp_right (stays dep)
  · intro other there begun dep depends
    rcases (inserted other).mp there with rfl | ⟨member, _⟩
    · simp [waits, begunStatuses] at begun
    · exact onward.completed (inv.begun other member begun dep depends)
  · intro other there parentId kind derived named
    rcases (inserted other).mp there with rfl | ⟨member, _⟩
    · exact number parentId kind derived named
    · exact Nat.le_trans (inv.numbered other member parentId kind derived named) count

/-! ### Cancellation of a node -/

/-- A waiting node that the cancellation of `nodeId` invalidates. -/
def BlockedBy (state : OrchestrationState) (nodeId : String) (node : NodeState) : Prop :=
  node.status = .pending ∧ (nodeId ∈ node.deps ∨ state.depEnded node = true)

/-- Whoever waits for a node that the cancellation invalidates is invalidated too. -/
def CutsThrough (state : OrchestrationState) (nodeId : String) : Prop :=
  ∀ node ∈ state.nodes.rows, node.status = .pending → ∀ dep ∈ node.deps,
    ∀ other ∈ state.node? dep, state.BlockedBy nodeId other → state.BlockedBy nodeId node

instance (state : OrchestrationState) (nodeId : String) (node : NodeState) :
    Decidable (state.BlockedBy nodeId node) :=
  inferInstanceAs (Decidable (_ ∧ _))

instance (state : OrchestrationState) (nodeId : String) :
    Decidable (state.CutsThrough nodeId) :=
  inferInstanceAs (Decidable (∀ node ∈ state.nodes.rows, _))

section Cut

variable {target canceled : NodeState} (found : state.node? target.id = some target)
  (active : target.status ∈ activeNodeStatuses) (sameId : canceled.id = target.id)
  (status : canceled.status = .canceled)

include found active sameId status

theorem depEnded_canceled (node : NodeState) :
    (state.setNode canceled).depEnded node = true ↔
      target.id ∈ node.deps ∨ state.depEnded node = true := by
  have unended : ∀ status ∈ state.status? target.id, status ∉ terminalNodeStatuses := by
    simp only [status?, found, Option.map_some, Option.mem_some_iff]
    rintro _ rfl
    revert active
    cases target.status <;> simp [activeNodeStatuses, terminalNodeStatuses]
  simp only [depEnded, List.any_eq_true, status_setNode, sameId]
  constructor
  · rintro ⟨dep, depends, ended⟩
    by_cases itself : dep = target.id
    · exact Or.inl (itself ▸ depends)
    · exact Or.inr ⟨dep, depends, by simpa [itself] using ended⟩
  · rintro (depends | ⟨dep, depends, ended⟩)
    · exact ⟨target.id, depends, by simp [status, terminalNodeStatuses]⟩
    · refine ⟨dep, depends, ?_⟩
      by_cases itself : dep = target.id
      · simp [itself, status, terminalNodeStatuses]
      · simpa [itself] using ended

theorem mem_blocked_canceled (node : NodeState) :
    node ∈ (state.setNode canceled).blockedNodes ↔
      node ∈ state.nodes.rows ∧ state.BlockedBy target.id node := by
  have ended := depEnded_canceled found active sameId status node
  simp only [blockedNodes, List.mem_filter, mem_setNode, decide_eq_true_eq, ended, BlockedBy]
  constructor
  · rintro ⟨rfl | ⟨member, _⟩, pending, blocked⟩
    · simp [status] at pending
    · exact ⟨member, pending, blocked⟩
  · rintro ⟨member, pending, blocked⟩
    refine ⟨Or.inr ⟨member, ?_⟩, pending, blocked⟩
    intro same
    have itself : node = target :=
      state.nodes.row_unique member (state.node_mem _ found).1 (same.trans sameId)
    rw [itself] at pending
    simp [pending, activeNodeStatuses] at active

/-- The node is canceled and the nodes that are then blocked are invalidated. -/
theorem Supported.cut (inv : Supported [] state) (deps : canceled.deps = target.deps)
    (cuts : state.CutsThrough target.id) :
    Supported [] (state.setNode canceled).invalidateBlocked ∧
      Extends state (state.setNode canceled).invalidateBlocked := by
  have blocked := mem_blocked_canceled found active sameId status
  have changes : Changed state [target.id] target canceled := by
    refine ⟨sameId, deps, ?_, ?_, ?_, ?_⟩
    · intro completed
      simp [completed, activeNodeStatuses] at active
    · exact fun _ => Or.inr List.mem_cons_self
    · simp [status]
    · simp [status, begunStatuses]
  obtain ⟨falls, first⟩ := inv.set (by simp) changes (sameId ▸ found)
  have undone : ∀ nodeId ∈ (state.setNode canceled).blockedNodes.map (·.id),
      (state.setNode canceled).status? nodeId ≠ some .completed := by
    intro nodeId listed completed
    obtain ⟨node, blocks, rfl⟩ := List.mem_map.mp listed
    have row := (List.mem_filter.mp blocks).1
    have pending := ((blocked node).mp blocks).2.1
    rw [status_of_mem _ row, pending] at completed
    cases completed
  obtain ⟨cut, second⟩ := falls.kill _ .invalidated (by decide) undone
  refine ⟨cut.settled ?_, first.trans second⟩
  intro node member pending dep depends fallen
  rcases (mem_moveNodes _ _ _ _).mp member with ⟨_, _, _, rfl⟩ | ⟨stays, unblocked⟩
  · cases pending
  · rcases (mem_setNode _ _ _).mp stays with rfl | ⟨row, _⟩
    · rw [status] at pending
      cases pending
    · apply unblocked
      apply List.mem_map_of_mem
      apply (blocked node).mpr
      refine ⟨row, ?_⟩
      rcases List.mem_append.mp fallen with itself | listed
      · exact ⟨pending, Or.inl (List.mem_singleton.mp itself ▸ depends)⟩
      · obtain ⟨other, blocks, rfl⟩ := List.mem_map.mp listed
        obtain ⟨there, blockedBy⟩ := (blocked other).mp blocks
        exact cuts node row pending _ depends other (state.node_of_mem there) blockedBy

end Cut

end OrchestrationState

/-! ### Patches -/

/-- No draft that a patch adds depends on a canceled or invalidated node. -/
def LivingDrafts (agents : List String) (state : OrchestrationState) (patch : PlanPatch) : Prop :=
  ∀ draft ∈ patch.add, draft.agentName ∈ agents →
    ∀ dep ∈ draft.deps, ∀ status ∈ state.status? dep, status ∉ deadStatuses

instance (agents : List String) (state : OrchestrationState) (patch : PlanPatch) :
    Decidable (LivingDrafts agents state patch) :=
  inferInstanceAs (Decidable (∀ draft ∈ patch.add, _))

namespace Patching

open OrchestrationState

/-- While the drafts are added, only waiting nodes are new. -/
structure Added (state : OrchestrationState) (patching : Patching) : Prop where
  supported : Supported [] patching.state
  onward : Extends state patching.state
  waiting : ∀ dep status, patching.state.status? dep = some status →
    state.status? dep = some status ∨ status = .pending
  none : patching.result.invalidated = []

variable {agents : List String} {state : OrchestrationState} {patching : Patching}

theorem Added.draft (added : Added state patching) {draft : PatchNode}
    (living : draft.agentName ∈ agents →
      ∀ dep ∈ draft.deps, ∀ status ∈ state.status? dep, status ∉ deadStatuses) :
    Added state (patching.addDraft agents draft) := by
  rcases addDraft_cases agents patching draft with ⟨same, _, none⟩ | ⟨node, count, accepted⟩
  · exact ⟨same ▸ added.supported, same ▸ added.onward, same ▸ added.waiting,
      none.trans added.none⟩
  · have alive : ∀ dep ∈ node.deps, patching.state.Alive dep := by
      rw [accepted.deps]
      intro dep depends
      obtain ⟨other, found⟩ := (Table.mem_keys_iff_find? _ _).mp (accepted.known dep depends)
      have status : patching.state.status? dep = some other.status := by
        simp [status?, node?, found]
      refine ⟨other.status, status, ?_⟩
      rcases added.waiting dep _ status with before | pending
      · exact living accepted.agent dep depends _ before
      · simp [pending, deadStatuses]
    have underived : ∀ parentId kind number, node.id = derivedId parentId kind number →
        number ≤ (patching.addDraft agents draft).state.derivedCount := by
      intro parentId kind number same
      have derived := isDerivedId_derivedId parentId kind number
      rw [← same, accepted.id, patchNodeId_underived] at derived
      cases derived
    obtain ⟨supported, onward⟩ := added.supported.add (patching.addDraft agents draft).state
      (by rw [accepted.state]; rfl) (by rw [accepted.state]; exact Nat.le_refl _) accepted.fresh
      accepted.waits alive underived
    refine ⟨supported, added.onward.trans onward, ?_, accepted.invalidated.trans added.none⟩
    intro dep status found
    rw [accepted.state] at found
    have looked : (if dep = node.id then some node.status else patching.state.status? dep) =
        some status := by
      rw [← status_setNode]
      exact found
    split at looked
    · cases looked
      exact Or.inr accepted.waits
    · exact added.waiting dep status looked

theorem Added.drafts (drafts : List PatchNode) (added : Added state patching)
    (living : ∀ draft ∈ drafts, draft.agentName ∈ agents →
      ∀ dep ∈ draft.deps, ∀ status ∈ state.status? dep, status ∉ deadStatuses) :
    Added state (drafts.foldl (addDraft agents) patching) := by
  induction drafts generalizing patching with
  | nil => exact added
  | cons draft rest ih =>
      exact ih (added.draft (living draft List.mem_cons_self)) fun other later =>
        living other (List.mem_cons_of_mem _ later)

/-- The nodes that a patch has invalidated are those whose end is to be handed on. -/
def Cutting (state : OrchestrationState) (patching : Patching) : Prop :=
  Supported patching.result.invalidated patching.state ∧ Extends state patching.state

theorem Added.cutting (added : Added state patching) : Cutting state patching := by
  rw [Cutting, added.none]
  exact ⟨added.supported, added.onward⟩

theorem Cutting.kill (cutting : Cutting state patching) (next : Patching) {nodeIds : List String}
    (moved : next.state = patching.state.moveNodes nodeIds .invalidated)
    (recorded : next.result.invalidated = patching.result.invalidated ++ nodeIds)
    (may : ∀ nodeId ∈ nodeIds, ∃ status ∈ patching.state.status? nodeId,
      status ∈ invalidatableStatuses) : Cutting state next := by
  have undone : ∀ nodeId ∈ nodeIds, patching.state.status? nodeId ≠ some .completed := by
    intro nodeId listed completed
    obtain ⟨status, found, allowed⟩ := may nodeId listed
    rw [Option.mem_def, completed, Option.some.injEq] at found
    simp [← found, invalidatableStatuses] at allowed
  obtain ⟨supported, onward⟩ := cutting.1.kill nodeIds .invalidated (by decide) undone
  rw [Cutting, recorded, moved]
  exact ⟨supported, cutting.2.trans onward⟩

theorem Cutting.listed (nodeIds : List String) (cutting : Cutting state patching) :
    Cutting state (nodeIds.foldl invalidateListed patching) := by
  induction nodeIds generalizing patching with
  | nil => exact cutting
  | cons nodeId rest ih =>
      apply ih
      rcases invalidateListed_cases patching nodeId with ⟨same, none, _⟩ | ⟨moved, more, may⟩
      · rw [Cutting, none, same]
        exact cutting
      · exact cutting.kill _ moved more (by simpa using may)

theorem Cutting.cascade (fuel : Nat) (cutting : Cutting state patching) :
    Cutting state (patching.cascade fuel) := by
  induction fuel generalizing patching with
  | zero => exact cutting
  | succ fuel ih =>
      simp only [Patching.cascade]
      split
      · exact cutting
      · apply ih
        refine cutting.kill ⟨_, _⟩ rfl rfl ?_
        intro nodeId listed
        obtain ⟨node, taken, rfl⟩ := List.mem_map.mp listed
        obtain ⟨row, may⟩ := List.mem_filter.mp taken
        simp only [decide_eq_true_eq] at may
        exact ⟨node.status, patching.state.status_of_mem row, may.1⟩

/-- A cascade that finds nothing more has handed every end on. -/
theorem Cutting.settled (cutting : Cutting state patching) (settled : patching.cascaded = []) :
    Supported [] patching.state ∧ Extends state patching.state := by
  refine ⟨cutting.1.settled ?_, cutting.2⟩
  intro node member pending dep depends fallen
  apply List.filter_eq_nil_iff.mp settled node member
  simp only [decide_eq_true_eq]
  exact ⟨by simp [pending, invalidatableStatuses], dep, depends, fallen⟩

end Patching

theorem applyPatch_onward {agents : List String} {state : OrchestrationState} {patch : PlanPatch}
    (inv : OrchestrationState.Supported [] state) (living : LivingDrafts agents state patch) :
    OrchestrationState.Supported [] (applyPatch state patch agents).state ∧
      OrchestrationState.Extends state (applyPatch state patch agents).state := by
  have start : Patching.Added state ⟨state, {}⟩ :=
    ⟨inv, .refl state, fun _ _ => Or.inl, rfl⟩
  have added := start.drafts patch.add living
  have cascaded := (added.cutting.listed patch.invalidate).cascade
    ((patch.invalidate.foldl Patching.invalidateListed
      (patch.add.foldl (Patching.addDraft agents) ⟨state, {}⟩)).state.nodes.rows.length + 1)
  apply cascaded.settled
  apply Patching.cascade_settles
  exact Nat.lt_succ_of_le (List.length_filter_le _ _)

end Choirworks.Orchestration
