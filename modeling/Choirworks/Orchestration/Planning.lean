import Choirworks.Orchestration.Prompts
import Choirworks.Orchestration.State
import Choirworks.Planning.Validation

/-!
The operations that add nodes to a plan or take them out: plan creation, plan
patches and derived nodes. A `Session` is the state in memory together with the
snapshot in the contexts store; an operation that persists copies the one to
the other.
-/

namespace Choirworks.Orchestration

structure ExecutorConfig where
  maxParallel : Nat := 5
  maxNodeAttempts : Nat := 2
  maxDerivedNodes : Nat := 5
  maxRevisions : Nat := 3
  replanOnFailure : Bool := true
  maxNodes : Nat := 20
  maxPlanRetries : Nat := 2

/-- What an operation reads outside of the session: the names in the agent
registry, the clock and the drawn ids. -/
structure Env where
  agents : List String
  now : String
  fresh : Nat → String

structure Session where
  state : OrchestrationState
  saved : OrchestrationState
deriving DecidableEq

namespace Session

def persist (session : Session) : Session := { session with saved := session.state }

/-- The pending questions are announced once, which is persisted. -/
def emitPendingQuestions (session : Session) : Session :=
  if session.state.pendingInterventions.all (·.announced) then session
  else
    persist { session with
      state := { session.state with
        interventions := session.state.interventions.map
          (fun intervention =>
            if intervention.status = .pending then { intervention with announced := true }
            else intervention)
          (fun intervention => by split <;> rfl) } }

@[simp] theorem persist_state (session : Session) : session.persist.state = session.state := rfl

@[simp] theorem persist_saved (session : Session) : session.persist.saved = session.state := rfl

@[simp] theorem emitPendingQuestions_nodes (session : Session) :
    session.emitPendingQuestions.state.nodes = session.state.nodes := by
  unfold emitPendingQuestions
  split <;> rfl

end Session

/-- Registered agents join, those that are members stay. -/
def joinMembers (env : Env) (state : OrchestrationState) (names : List String) (reason : String) :
    OrchestrationState :=
  (names.filter (· ∈ env.agents)).foldl (fun state name => state.addMember name reason env.now)
    state

/-! ### Plan creation -/

structure PlanNodeDraft where
  id : String
  name : String
  agentName : String
  input : Dict String String
  deps : List String

def validatePlan (nodes : List PlanNodeDraft) (maxNodes : Nat) : Except String Unit :=
  Planning.validateNodes PlanNodeDraft.id PlanNodeDraft.deps nodes maxNodes

/-- The planner is asked again after an invalid draft; `none` is an answer
without a draft. -/
def plan (config : ExecutorConfig) (env : Env) (drafts : List (Option (List PlanNodeDraft))) :
    Option (List PlanNodeDraft) :=
  if env.agents = [] then none
  else
    (drafts.take (config.maxPlanRetries + 1)).findSome? fun draft =>
      draft.filter fun nodes => validatePlan nodes config.maxNodes matches .ok ()

def PlanNodeDraft.node (draft : PlanNodeDraft) : NodeState :=
  { id := draft.id
    name := draft.name
    agentName := draft.agentName
    deps := draft.deps
    inputText := draft.input.getD "text" "" }

def createPlan (env : Env) (state : OrchestrationState) (drafts : List PlanNodeDraft) :
    OrchestrationState :=
  let planned := drafts.foldl (fun state draft => state.setNode draft.node) state
  joinMembers env planned
    ((planned.nodes.rows.map (·.agentName)).filter (· ≠ "")) "plan"

/-! ### Plan patches -/

def invalidatableStatuses : List NodeStatus := [.pending, .ready, .recover, .failed]

structure PatchNode where
  agentName : String
  name : String := ""
  instruction : String
  deps : List String := []
deriving DecidableEq

structure PlanPatch where
  add : List PatchNode := []
  invalidate : List String := []
  reason : String := ""
deriving DecidableEq

structure PatchResult where
  added : List String := []
  invalidated : List String := []
  skippedInFlight : List String := []
  rejected : List String := []
deriving DecidableEq

def PatchResult.changed (result : PatchResult) : Bool :=
  !result.added.isEmpty || !result.invalidated.isEmpty

/-- The state and the result while `apply_patch` goes through a patch. -/
structure Patching where
  state : OrchestrationState
  result : PatchResult

namespace Patching

def patchNodeId (count : Nat) : String := "x" ++ toString count

/-- The loop that counts on while the id is taken. -/
def freePatchCount (taken : List String) : Nat → Nat → Nat
  | 0, count => count
  | fuel + 1, count =>
      if patchNodeId count ∈ taken then freePatchCount taken fuel (count + 1) else count

def addDraft (knownAgents : List String) (patching : Patching) (draft : PatchNode) : Patching :=
  let state := patching.state
  let result := patching.result
  if draft.agentName ∉ knownAgents then
    { patching with
      result := { result with
        rejected := result.rejected ++ ["unknown agent: " ++ draft.agentName] } }
  else
    let unknown := draft.deps.filter (· ∉ state.nodes.keys)
    if unknown ≠ [] then
      { patching with
        result := { result with
          rejected := result.rejected ++
            ["unknown deps for " ++ draft.agentName ++ ": " ++ Text.join ", " unknown] } }
    else
      let count := freePatchCount state.nodes.keys (state.nodes.rows.length + 1)
        (state.patchCount + 1)
      let node : NodeState :=
        { id := patchNodeId count
          name := if draft.name = "" then draft.agentName else draft.name
          agentName := draft.agentName
          deps := draft.deps
          inputText := draft.instruction
          derived := true }
      { state := { state.setNode node with patchCount := count }
        result := { result with added := result.added ++ [node.id] } }

def invalidateListed (patching : Patching) (nodeId : String) : Patching :=
  let result := patching.result
  match patching.state.node? nodeId with
  | none =>
      { patching with
        result := { result with rejected := result.rejected ++ ["unknown node: " ++ nodeId] } }
  | some node =>
      if node.status ∈ invalidatableStatuses then
        { state := patching.state.moveNodes [nodeId] .invalidated
          result := { result with invalidated := result.invalidated ++ [nodeId] } }
      else if node.status ≠ .invalidated then
        { patching with
          result := { result with skippedInFlight := result.skippedInFlight ++ [nodeId] } }
      else patching

/-- The nodes that a cascade round takes out. -/
def cascaded (patching : Patching) : List NodeState :=
  patching.state.nodes.rows.filter fun node =>
    node.status ∈ invalidatableStatuses ∧ ∃ dep ∈ node.deps, dep ∈ patching.result.invalidated

def cascade : Nat → Patching → Patching
  | 0, patching => patching
  | fuel + 1, patching =>
      let nodeIds := patching.cascaded.map (·.id)
      if nodeIds = [] then patching
      else cascade fuel
        { state := patching.state.moveNodes nodeIds .invalidated
          result := { patching.result with
            invalidated := patching.result.invalidated ++ nodeIds } }

end Patching

/-- Every round of the cascade takes out a node, so as many rounds as there are
nodes are enough. -/
def applyPatch (state : OrchestrationState) (patch : PlanPatch) (knownAgents : List String) :
    Patching :=
  let added := patch.add.foldl (Patching.addDraft knownAgents) ⟨state, {}⟩
  let listed := patch.invalidate.foldl Patching.invalidateListed added
  listed.cascade (listed.state.nodes.rows.length + 1)

def confirmCancelQuestion (agentName reason : String) : String :=
  "计划修订建议作废进行中的任务 @" ++ agentName ++ "（" ++
    (if reason = "" then "无说明" else reason) ++ "）。是否打断？" ++
    "回复「确认」打断，回复其他内容则保留。"

/-- Ask whether the skipped nodes shall be cancelled. -/
def askConfirmations (env : Env) (reason : String) :
    Nat → List String → OrchestrationState → OrchestrationState
  | _, [], state => state
  | drawn, nodeId :: rest, state =>
      match state.node? nodeId with
      | none => askConfirmations env reason drawn rest state
      | some node =>
          let intervention : Intervention :=
            { id := env.fresh drawn
              nodeId
              question := confirmCancelQuestion node.agentName reason
              kind := .confirmCancel
              questionType := .confirm
              requester := "assistant"
              createdAt := env.now }
          match state.requestUserInput intervention with
          | none => askConfirmations env reason drawn rest state
          | some asked => askConfirmations env reason (drawn + 1) rest asked

def applyPatchLocked (env : Env) (session : Session) (patch : PlanPatch) :
    Session × PatchResult :=
  let patched := applyPatch session.state patch env.agents
  let asked := askConfirmations env patch.reason 0 patched.result.skippedInFlight patched.state
  let joined := joinMembers env asked
    ((patch.add.map (·.agentName)).filter (· ∈ env.agents)) "plan_revision"
  (({ session with state := joined }).persist.emitPendingQuestions, patched.result)

/-- The revision is counted after the patch has been persisted. -/
def revisePlan (env : Env) (session : Session) (patch : PlanPatch) : Session × PatchResult :=
  let (patched, result) := applyPatchLocked env session patch
  if result.changed then
    ({ patched with
        state := { patched.state with revisionCount := patched.state.revisionCount + 1 } },
      result)
  else (patched, result)

/-! ### Derived nodes -/

inductive DerivedKind where
  | followup | assist | helper
deriving DecidableEq

def DerivedKind.suffix : DerivedKind → Char
  | .followup => 'f'
  | .assist => 'a'
  | .helper => 'h'

def DerivedKind.joinReason : DerivedKind → Option String
  | .followup => none
  | .assist => some "agent_mention"
  | .helper => some "peer_assist"

def derivedId (parentId : String) (kind : DerivedKind) (count : Nat) : String :=
  parentId ++ "-" ++ String.singleton kind.suffix ++ toString count

structure Spawn where
  kind : DerivedKind
  parentId : String
  agentName : String
  inputText : String
  deps : List String := []
  assistRequestedBy : Option String := none

def Spawn.node (spawn : Spawn) (count : Nat) : NodeState :=
  { id := derivedId spawn.parentId spawn.kind count
    name := ""
    agentName := spawn.agentName
    deps := spawn.deps
    inputText := spawn.inputText
    derived := true
    assistRequestedBy := spawn.assistRequestedBy }

section Spawning

variable (config : ExecutorConfig) (env : Env)

/-- `None` when the budget of derived nodes is used up. -/
def spawnDerivedNode (session : Session) (spawn : Spawn) : Session × Option NodeState :=
  let state := session.state
  if state.derivedCount ≥ config.maxDerivedNodes then (session, none)
  else
    let node := spawn.node (state.derivedCount + 1)
    let spawned := { state.setNode node with derivedCount := state.derivedCount + 1 }
    let joined := match spawn.kind.joinReason with
      | none => spawned
      | some reason => joinMembers env spawned [spawn.agentName] reason
    (({ session with state := joined }).persist, some node)

/-- The result of the spawn is not looked at. -/
def spawnFollowupNode (session : Session) (text : String) (anchor : NodeState)
    (deps : List String) : Session :=
  (spawnDerivedNode config env session
    { kind := .followup, parentId := anchor.id, agentName := anchor.agentName, inputText := text,
      deps }).1

def isMentionChar (char : Char) : Bool := char.isAlphanum || char = '_' || char = '-'

/-- The names that a text mentions, without repetitions. -/
def mentionsOf (text : String) : List String :=
  fromKeys [] (Text.findWords '@' isMentionChar text.toList)

def spawnMentioned (node : NodeState) (output : String) : List String → Session → Session
  | [], session => session
  | name :: rest, session =>
      if name = node.agentName ∨ name ∉ env.agents ∨
          session.state.assistNodesFor name node.id ≠ [] then
        spawnMentioned node output rest session
      else
        match spawnDerivedNode config env session
          { kind := .assist, parentId := node.id, agentName := name,
            inputText := buildAssistInput node.agentName (some output),
            assistRequestedBy := some node.id } with
        | (session, none) => session
        | (session, some _) => spawnMentioned node output rest session

/-- Every mentioned agent that is registered helps once. -/
def arbitrateMentions (session : Session) (node : NodeState) : Session :=
  match node.output with
  | none => session
  | some output => spawnMentioned config env node output (mentionsOf output) session

/-- The tool a settlement asks another agent with. -/
def callSubagent (session : Session) (requestedBy targetAgent instruction : String) :
    Session × Except String NodeState :=
  if requestedBy = "assistant" then
    (session, .error "assistant dispatch does not create helper nodes")
  else if targetAgent ∉ env.agents then
    (session, .error ("unknown agent: " ++ targetAgent))
  else
    let requester := session.state.node? requestedBy
    let refusal : Option String :=
      match requester with
      | none => none
      | some node =>
          if targetAgent = node.agentName then some "cannot target the requesting agent"
          else if targetAgent ∈ session.state.assistChainAgents node then
            some ("agent already in this assist chain: " ++ targetAgent)
          else if session.state.assistNodesFor targetAgent node.id ≠ [] then
            some ("agent already asked for help: " ++ targetAgent)
          else none
    match refusal with
    | some text => (session, .error text)
    | none =>
        let fallback := buildPeerFallbackInput ((requester.bind (·.question)).getD "")
        match spawnDerivedNode config env session
          { kind := .helper, parentId := requestedBy, agentName := targetAgent,
            inputText := if instruction = "" then fallback else instruction,
            assistRequestedBy := some requestedBy } with
        | (session, none) => (session, .error "max derived nodes reached")
        | (session, some helper) => (session, .ok helper)

end Spawning

end Choirworks.Orchestration
