import Choirworks.Library.Table
import Choirworks.Library.Text

/-!
`OrchestrationState`: the nodes, members, interventions and queued messages of
one conversation, its queries, and the node status machine. Timestamps and
drawn ids are arguments.
-/

namespace Choirworks.Orchestration

inductive NodeStatus where
  | pending | ready | submitted | working | inputRequired | recover
  | completed | failed | canceled | invalidated
deriving DecidableEq

/-- The text of the enumeration member. -/
def NodeStatus.value : NodeStatus → String
  | .pending => "pending"
  | .ready => "ready"
  | .submitted => "submitted"
  | .working => "working"
  | .inputRequired => "input_required"
  | .recover => "recover"
  | .completed => "completed"
  | .failed => "failed"
  | .canceled => "canceled"
  | .invalidated => "invalidated"

inductive InterventionStatus where
  | pending | resolved | expired
deriving DecidableEq

inductive InterventionKind where
  | question | confirmCancel
deriving DecidableEq

inductive QuestionType where
  | input | select | confirm
deriving DecidableEq

def terminalNodeStatuses : List NodeStatus := [.completed, .failed, .canceled, .invalidated]

def activeNodeStatuses : List NodeStatus := [.submitted, .working]

def pendingNodeStatuses : List NodeStatus := [.pending, .ready, .recover]

def inputNodeStatuses : List NodeStatus := [.inputRequired]

structure NodeState where
  id : String
  name : String
  agentName : String
  status : NodeStatus := .pending
  attempt : Nat := 0
  a2aTaskId : Option String := none
  output : Option String := none
  error : Option String := none
  deps : List String := []
  inputText : String := ""
  derived : Bool := false
  question : Option String := none
  answerText : Option String := none
  answerFrom : Option String := none
  assistRequestedBy : Option String := none
  adoptedHelpers : List String := []
deriving DecidableEq

structure Member where
  name : String
  reason : String
  joinedAt : String
deriving DecidableEq

inductive Answer where
  | text (value : String)
  | choices (values : List String)
  | flag (value : Bool)
deriving DecidableEq

structure Intervention where
  id : String
  nodeId : String
  question : String
  status : InterventionStatus := .pending
  answer : Option Answer := none
  responder : Option String := none
  kind : InterventionKind := .question
  questionType : QuestionType := .input
  options : List String := []
  multi : Bool := false
  requester : String := ""
  createdAt : String
  announced : Bool := false
deriving DecidableEq

/-- `render_answer`: the continuation text of a typed answer. -/
def Intervention.renderAnswer (intervention : Intervention) : String :=
  match intervention.questionType, intervention.answer with
  | .select, some (.choices values) => Text.join "、" values
  | .confirm, some (.flag true) => "确认"
  | .confirm, _ => "取消"
  | _, some (.text value) => value
  | _, _ => ""

structure QueuedMessage where
  id : String
  text : String
  sender : String
  quoteId : Option String
  createdAt : String
deriving DecidableEq

structure OrchestrationState where
  planId : String := ""
  planVersion : Nat := 1
  nodes : Table NodeState.id := .empty
  members : Table Member.name := .empty
  interventions : Table Intervention.id := .empty
  queue : Dict String (List QueuedMessage) := .empty
  derivedCount : Nat := 0
  patchCount : Nat := 0
  revisionCount : Nat := 0
  nextMessage : Nat := 1
deriving DecidableEq

/-! ### The node status machine -/

namespace NodeState

def allowedTransitions : NodeStatus → List NodeStatus
  | .pending => [.ready, .submitted, .inputRequired, .failed, .canceled, .invalidated]
  | .ready => [.submitted, .inputRequired, .failed, .canceled, .invalidated]
  | .submitted => [.working, .completed, .failed, .inputRequired, .canceled, .recover, .pending,
      .invalidated]
  | .working => [.submitted, .completed, .failed, .inputRequired, .canceled, .recover, .pending,
      .invalidated]
  | .recover => [.submitted, .working, .completed, .failed, .inputRequired, .canceled, .pending,
      .invalidated]
  | .inputRequired => [.ready, .submitted, .failed, .canceled, .invalidated]
  | .failed => [.pending, .invalidated]
  | .completed | .canceled | .invalidated => []

def canTransition (node : NodeState) (target : NodeStatus) : Bool :=
  target = node.status ∨ target ∈ allowedTransitions node.status

/-- A failed node with attempts left. -/
def canRetry (node : NodeState) (maxAttempts : Nat) : Bool :=
  node.status = .failed ∧ node.attempt < maxAttempts

def applyTransition (node : NodeState) (target : NodeStatus) : Except String NodeState :=
  if node.canTransition target then .ok { node with status := target }
  else .error ("node " ++ node.id ++ ": " ++ node.status.value ++ " -> " ++ target.value)

theorem apply_transition_ok {node next : NodeState} {target : NodeStatus}
    (moved : node.applyTransition target = .ok next) :
    node.canTransition target = true ∧ next = { node with status := target } := by
  unfold applyTransition at moved
  split at moved
  · rename_i allowed
    cases moved
    exact ⟨allowed, rfl⟩
  · cases moved

/-- Ended nodes never move again. -/
theorem can_transition_ended {node : NodeState} {target : NodeStatus}
    (ended : node.status ∈ [.completed, .canceled, .invalidated])
    (moves : node.canTransition target = true) : target = node.status := by
  simp only [List.mem_cons, List.not_mem_nil, or_false] at ended
  rcases ended with same | same | same <;>
    simpa [canTransition, same, allowedTransitions] using moves

end NodeState

namespace OrchestrationState

/-! ### Queries -/

def node? (state : OrchestrationState) (nodeId : String) : Option NodeState :=
  state.nodes.find? nodeId

def status? (state : OrchestrationState) (nodeId : String) : Option NodeStatus :=
  (state.node? nodeId).map (·.status)

def readyNodes (state : OrchestrationState) : List NodeState :=
  state.nodes.rows.filter fun node =>
    node.status ∈ pendingNodeStatuses ∧ ∀ dep ∈ node.deps, state.status? dep = some .completed

/-- Some dependency of the node has ended. -/
def depEnded (state : OrchestrationState) (node : NodeState) : Bool :=
  node.deps.any fun dep =>
    match state.status? dep with
    | some status => status ∈ terminalNodeStatuses
    | none => false

def blockedNodes (state : OrchestrationState) : List NodeState :=
  state.nodes.rows.filter fun node => node.status = .pending ∧ state.depEnded node

def activeNodes (state : OrchestrationState) : List NodeState :=
  state.nodes.rows.filter fun node => node.status ∈ activeNodeStatuses

def inputRequiredNodes (state : OrchestrationState) : List NodeState :=
  state.nodes.rows.filter fun node => node.status ∈ inputNodeStatuses

def failedNodes (state : OrchestrationState) : List NodeState :=
  state.nodes.rows.filter fun node => node.status = .failed

/-- Some node is not invalidated, and all of those are completed or canceled. -/
def allCompleted (state : OrchestrationState) : Bool :=
  let active := state.nodes.rows.filter fun node => node.status ≠ .invalidated
  !active.isEmpty && active.all fun node => node.status ∈ [.completed, .canceled]

def hasFailures (state : OrchestrationState) : Bool :=
  state.nodes.rows.any fun node => node.status = .failed

def hasPendingWork (state : OrchestrationState) : Bool :=
  state.nodes.rows.any fun node =>
    node.status ∈ pendingNodeStatuses ++ activeNodeStatuses ++ inputNodeStatuses

def assistNodesFor (state : OrchestrationState) (agentName requestedBy : String) :
    List NodeState :=
  state.nodes.rows.filter fun node =>
    node.derived ∧ node.assistRequestedBy = some requestedBy ∧ node.agentName = agentName

/-- The walk along `assist_requested_by`; it stops at a node it has seen. -/
def chainAgents (state : OrchestrationState) : Nat → List String → NodeState → List String
  | 0, _, _ => []
  | fuel + 1, seen, current =>
      match current.assistRequestedBy with
      | none => []
      | some requester =>
          if requester = "" ∨ requester ∈ seen then []
          else match state.node? requester with
            | none => []
            | some parent => parent.agentName :: state.chainAgents fuel (requester :: seen) parent

/-- Every step of the walk sees a further node of the plan. -/
def assistChainAgents (state : OrchestrationState) (node : NodeState) : List String :=
  node.agentName :: state.chainAgents (state.nodes.rows.length + 1) [node.id] node

def pendingInterventions (state : OrchestrationState) : List Intervention :=
  state.interventions.rows.filter fun intervention => intervention.status = .pending

def pendingInterventionFor (state : OrchestrationState) (nodeId : String) : Option Intervention :=
  state.interventions.rows.find? fun intervention =>
    intervention.nodeId = nodeId ∧ intervention.status = .pending

/-! ### Transitions of the state -/

/-- `apply_transition` on every node of the list, at places where the source
only has nodes that may move. -/
def moveNodes (state : OrchestrationState) (nodeIds : List String) (target : NodeStatus) :
    OrchestrationState :=
  { state with
    nodes := state.nodes.map
      (fun node => if node.id ∈ nodeIds then { node with status := target } else node)
      (fun node => by split <;> rfl) }

/-- The nodes are objects: a change of one is a change of its row. -/
def setNode (state : OrchestrationState) (node : NodeState) : OrchestrationState :=
  { state with nodes := state.nodes.insert node }

def addMember (state : OrchestrationState) (name reason now : String) : OrchestrationState :=
  if name ∈ state.members.keys then state
  else { state with members := state.members.insert ⟨name, reason, now⟩ }

/-- None when a question is already pending for the node. -/
def requestUserInput (state : OrchestrationState) (intervention : Intervention) :
    Option OrchestrationState :=
  match state.pendingInterventionFor intervention.nodeId with
  | some _ => none
  | none => some { state with interventions := state.interventions.insert intervention }

end OrchestrationState

def interventionStale (intervention : Intervention) : Option NodeState → Bool
  | none => true
  | some node =>
      match intervention.kind with
      | .confirmCancel => node.status ∉ activeNodeStatuses
      | .question => node.status ≠ .inputRequired

namespace OrchestrationState

/-- Expire the pending interventions that are stale and meet the condition. -/
def expireWhere (state : OrchestrationState) (concerns : Intervention → Bool) :
    OrchestrationState :=
  { state with
    interventions := state.interventions.map
      (fun intervention =>
        if intervention.status = .pending ∧ concerns intervention ∧
            interventionStale intervention (state.node? intervention.nodeId) then
          { intervention with status := .expired }
        else intervention)
      (fun intervention => by split <;> rfl) }

def expireNodeInterventions (state : OrchestrationState) (nodeId : String) : OrchestrationState :=
  state.expireWhere fun intervention => intervention.nodeId = nodeId

def normalizeInterventions (state : OrchestrationState) : OrchestrationState :=
  state.expireWhere fun _ => true

def queued (state : OrchestrationState) (nodeId : String) : List QueuedMessage :=
  state.queue.getD nodeId []

def enqueue (state : OrchestrationState) (nodeId text : String) (quoteId : Option String)
    (now : String) : OrchestrationState :=
  let message : QueuedMessage :=
    ⟨"qm" ++ toString state.nextMessage, text, "user", quoteId, now⟩
  { state with
    nextMessage := state.nextMessage + 1
    queue := state.queue.set nodeId (state.queued nodeId ++ [message]) }

/-- The queue of the node, popped. -/
def takeQueued (state : OrchestrationState) (nodeId : String) :
    List QueuedMessage × OrchestrationState :=
  (state.queued nodeId, { state with queue := state.queue.erase nodeId })

/-- Members survive a new plan. -/
def startNewPlan (state : OrchestrationState) (planId : String) : OrchestrationState :=
  { planId, planVersion := state.planVersion + 1, members := state.members }

/-! ### Snapshots -/

def maxMetadataOutput : Nat := 2000

def truncate (text : Option String) : Option String :=
  text.map fun text => String.ofList (text.toList.take maxMetadataOutput)

/-- `state_from_json` of `state_to_json`: only long outputs are cut. -/
def restored (state : OrchestrationState) : OrchestrationState :=
  { state with
    nodes := state.nodes.map (fun node => { node with output := truncate node.output })
      (fun _ => rfl) }

/-! ### Lookup after a transition -/

section Lookup

variable (state : OrchestrationState) (nodeId : String)

theorem node_mem {node : NodeState} (found : state.node? nodeId = some node) :
    node ∈ state.nodes.rows ∧ node.id = nodeId :=
  ⟨Table.mem_of_find? found, Table.key_of_find? found⟩

theorem node_of_mem {node : NodeState} (member : node ∈ state.nodes.rows) :
    state.node? node.id = some node :=
  Table.find?_of_mem state.nodes member

theorem status_of_mem {node : NodeState} (member : node ∈ state.nodes.rows) :
    state.status? node.id = some node.status := by
  simp [status?, state.node_of_mem member]

theorem status_eq_some {status : NodeStatus} (found : state.status? nodeId = some status) :
    ∃ node ∈ state.nodes.rows, node.id = nodeId ∧ node.status = status := by
  obtain ⟨node, row, same⟩ := Option.map_eq_some_iff.mp found
  exact ⟨node, (state.node_mem nodeId row).1, (state.node_mem nodeId row).2, same⟩

theorem status_of_nodes {other : OrchestrationState} (same : other.nodes = state.nodes) :
    other.status? nodeId = state.status? nodeId := by
  unfold status? node?
  rw [same]

@[simp] theorem status_moveNodes (nodeIds : List String) (target : NodeStatus) :
    (state.moveNodes nodeIds target).status? nodeId =
      (state.status? nodeId).map fun status => if nodeId ∈ nodeIds then target else status := by
  simp only [status?, node?, moveNodes, Table.find?_map, Option.map_map]
  cases found : state.nodes.find? nodeId with
  | none => rfl
  | some node =>
      have same := Table.key_of_find? found
      simp only [Option.map_some, Function.comp_apply, same]
      split <;> rfl

@[simp] theorem status_setNode (node : NodeState) :
    (state.setNode node).status? nodeId =
      if nodeId = node.id then some node.status else state.status? nodeId := by
  simp only [status?, node?, setNode, Table.find?_insert]
  split <;> rfl

theorem mem_setNode (node other : NodeState) :
    other ∈ (state.setNode node).nodes.rows ↔
      other = node ∨ (other ∈ state.nodes.rows ∧ other.id ≠ node.id) :=
  Table.mem_insert state.nodes node other

theorem mem_moveNodes (nodeIds : List String) (target : NodeStatus) (other : NodeState) :
    other ∈ (state.moveNodes nodeIds target).nodes.rows ↔
      (∃ node ∈ state.nodes.rows, node.id ∈ nodeIds ∧ other = { node with status := target }) ∨
        (other ∈ state.nodes.rows ∧ other.id ∉ nodeIds) := by
  simp only [moveNodes, Table.rows_map, List.mem_map]
  constructor
  · rintro ⟨node, member, result⟩
    by_cases moved : node.id ∈ nodeIds
    · simp only [moved, ↓reduceIte] at result
      exact Or.inl ⟨node, member, moved, result.symm⟩
    · simp only [moved, ↓reduceIte] at result
      exact Or.inr ⟨result ▸ member, result ▸ moved⟩
  · rintro (⟨node, member, moved, rfl⟩ | ⟨member, stays⟩)
    · exact ⟨node, member, by simp [moved]⟩
    · exact ⟨other, member, by simp [stays]⟩

theorem status_restored : state.restored.status? nodeId = state.status? nodeId := by
  simp only [status?, node?, restored, Table.find?_map, Option.map_map]
  cases state.nodes.find? nodeId <;> rfl

end Lookup

end OrchestrationState

end Choirworks.Orchestration
