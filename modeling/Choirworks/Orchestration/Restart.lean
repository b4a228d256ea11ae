import Choirworks.Library.Runs
import Choirworks.Orchestration.Message

/-!
What a restart makes of the work in flight. The process ends at any point, the
session is loaded from its last snapshot, and the recovery message resets the
nodes that the snapshot has as active: to be followed at their remote task if
the snapshot names it, else to be dispatched again.
-/

namespace Choirworks.Orchestration

/-! ### The state behind the recovery -/

namespace OrchestrationState

/-- What the recovery makes of a snapshot. -/
def recovered (saved : OrchestrationState) : OrchestrationState :=
  saved.restored.normalizeInterventions.recoverNodes

def recoverNode (node : NodeState) : NodeState :=
  if node.status ∈ activeNodeStatuses then
    { node with status := if given node.a2aTaskId then .recover else .pending }
  else node

@[simp] theorem node_restored (state : OrchestrationState) (nodeId : String) :
    state.restored.node? nodeId =
      (state.node? nodeId).map fun node => { node with output := truncate node.output } := by
  simp [node?, restored]

@[simp] theorem node_recoverNodes (state : OrchestrationState) (nodeId : String) :
    state.recoverNodes.node? nodeId = (state.node? nodeId).map recoverNode := by
  simp only [node?, recoverNodes, Table.find?_map]
  rfl

@[simp] theorem node_normalizeInterventions (state : OrchestrationState) (nodeId : String) :
    state.normalizeInterventions.node? nodeId = state.node? nodeId := rfl

theorem node_recovered (saved : OrchestrationState) (nodeId : String) :
    saved.recovered.node? nodeId = (saved.node? nodeId).map fun node =>
      recoverNode { node with output := truncate node.output } := by
  simp [recovered, Function.comp_def]

end OrchestrationState

namespace Runtime

theorem recover_run (config : ExecutorConfig) (saved : OrchestrationState) (inbound : Inbound)
    (env : Env) (drafts : List (Option (List PlanNodeDraft))) (restarts : inbound.recover = true) :
    ∃ next, (loaded saved).step config (.message inbound env drafts) = some next ∧
      next.session.state = saved.recovered := by
  refine ⟨_, rfl, ?_⟩
  unfold classify
  rw [if_pos restarts]
  rfl

/-! ### Remote tasks that are known -/

/-- The process runs the node and knows its remote task. -/
def Known (runtime : Runtime) (nodeId remoteId : String) : Prop :=
  remoteId ≠ "" ∧
    (∃ task ∈ runtime.inFlight, task.ref = .planned nodeId) ∧
    ∃ node ∈ runtime.session.state.node? nodeId, node.a2aTaskId = some remoteId

end Runtime

namespace OrchestrationState

/-- The runner starts the node next in order to follow the remote task, or the
node has nothing left to follow. -/
def Follows (state : OrchestrationState) (nodeId remoteId : String) : Prop :=
  ∃ node ∈ state.node? nodeId,
    (modeOf node.status = .recover ∧ node.a2aTaskId = some remoteId) ∨
      node.status ∈ terminalNodeStatuses ++ inputNodeStatuses

/-- The snapshot names the remote task of the node, or has its outcome. -/
def Stored (saved : OrchestrationState) (nodeId remoteId : String) : Prop :=
  ∃ node ∈ saved.node? nodeId,
    (node.status ∈ .recover :: activeNodeStatuses ∧ node.a2aTaskId = some remoteId) ∨
      node.status ∈ terminalNodeStatuses ++ inputNodeStatuses

theorem recovered_follows (saved : OrchestrationState) (nodeId : String) {remoteId : String}
    (named : remoteId ≠ "") :
    saved.recovered.Follows nodeId remoteId ↔ saved.Stored nodeId remoteId := by
  unfold Follows Stored
  rw [node_recovered]
  cases saved.node? nodeId with
  | none => simp
  | some node =>
      simp only [Option.map_some, Option.mem_def, Option.some.injEq, exists_eq_left',
        recoverNode]
      by_cases active : node.status ∈ activeNodeStatuses
      · have unended : node.status ∉ terminalNodeStatuses ++ inputNodeStatuses := by
          revert active
          cases node.status <;> decide
        -- the name of the remote task decides what becomes of an active node
        by_cases known : given node.a2aTaskId = true
        · have follows : modeOf .recover = .recover := rfl
          have unfinished : NodeStatus.recover ∉ terminalNodeStatuses ++ inputNodeStatuses := by
            decide
          simp only [active, known, follows, unfinished, unended, ↓reduceIte, List.mem_cons,
            or_true, or_false, true_and]
        · have other : node.a2aTaskId ≠ some remoteId := by
            intro same
            simp [given, same, named] at known
          have unfinished : NodeStatus.pending ∉ terminalNodeStatuses ++ inputNodeStatuses := by
            decide
          simp only [active, known, other, unfinished, unended, Bool.false_eq_true, ↓reduceIte,
            and_false, or_false]
      · have follows : modeOf node.status = .recover ↔ node.status = .recover := by
          cases node.status <;> decide
        simp only [active, follows, ↓reduceIte, List.mem_cons, or_false]

end OrchestrationState

namespace Runtime

/-- If the process ends now, the recovery follows the remote task. -/
def Resumes (config : ExecutorConfig) (runtime : Runtime) (nodeId remoteId : String) : Prop :=
  ∀ (inbound : Inbound) (env : Env) (drafts : List (Option (List PlanNodeDraft))),
    inbound.recover = true →
    Runs.Ends (step config) runtime [.reload, .message inbound env drafts] fun next =>
      next.session.state.Follows nodeId remoteId

theorem resumes_iff (config : ExecutorConfig) (runtime : Runtime) (nodeId : String)
    {remoteId : String} (named : remoteId ≠ "") :
    runtime.Resumes config nodeId remoteId ↔ runtime.session.saved.Stored nodeId remoteId := by
  have reloads : runtime.step config .reload = some (loaded runtime.session.saved) := by
    cases present : runtime.evicted <;> simp [step, present, advance]
  rw [← OrchestrationState.recovered_follows _ _ named]
  constructor
  · intro resumes
    let restart : Inbound := { taskId := "", recover := true }
    let env : Env := ⟨[], "", fun _ => ""⟩
    obtain ⟨final, ran, follows⟩ := resumes restart env [] rfl
    obtain ⟨next, stepped, state⟩ := recover_run config runtime.session.saved restart env [] rfl
    simp only [Runs.run, reloads, stepped, Option.some.injEq] at ran
    rwa [← ran, state] at follows
  · intro follows inbound env drafts restarts
    obtain ⟨next, stepped, state⟩ := recover_run config runtime.session.saved inbound env drafts
      restarts
    exact ⟨next, by simp [Runs.run, reloads, stepped], by simpa only [state] using follows⟩

end Runtime

/-- A restart follows every remote task that is known when the process ends,
exactly if the store has learnt of each of them. -/
theorem restart_follows_iff (config : ExecutorConfig) (runtime : Runtime) :
    (∀ nodeId remoteId, runtime.Known nodeId remoteId →
        runtime.Resumes config nodeId remoteId) ↔
      ∀ nodeId remoteId, runtime.Known nodeId remoteId →
        runtime.session.saved.Stored nodeId remoteId := by
  constructor
  · intro resumes nodeId remoteId known
    exact (runtime.resumes_iff config nodeId known.1).mp (resumes nodeId remoteId known)
  · intro stored nodeId remoteId known
    exact (runtime.resumes_iff config nodeId known.1).mpr (stored nodeId remoteId known)

/-! ### Open confirmations -/

namespace OrchestrationState

/-- No node that the recovery has seen is active. -/
theorem recovered_inactive (saved : OrchestrationState) (nodeId : String) :
    ∀ status ∈ saved.recovered.status? nodeId, status ∉ activeNodeStatuses := by
  intro status found
  simp only [status?, node_recovered, Option.map_map, Option.mem_def,
    Option.map_eq_some_iff] at found
  obtain ⟨node, _, rfl⟩ := found
  have reset : NodeStatus.recover ∉ activeNodeStatuses ∧ NodeStatus.pending ∉ activeNodeStatuses := by
    decide
  simp only [Function.comp_apply, recoverNode]
  split
  · dsimp only
    split
    · exact reset.1
    · exact reset.2
  · rename_i inactive
    exact inactive

theorem recovered_unended {saved : OrchestrationState} {node : NodeState}
    (row : node ∈ saved.nodes.rows) (active : node.status ∈ activeNodeStatuses) :
    ∃ status ∈ saved.recovered.status? node.id,
      status ∉ terminalNodeStatuses ∧ status ≠ .canceled := by
  refine ⟨if given node.a2aTaskId then .recover else .pending, ?_, ?_⟩
  · simp [status?, node_recovered, saved.node_of_mem row, recoverNode, active]
  · split <;> decide

/-- Expiry changes the status of interventions only. -/
theorem recovered_kind {saved : OrchestrationState} {interventionId : String}
    {current : Intervention}
    (found : saved.recovered.interventions.find? interventionId = some current) :
    ∃ intervention, saved.interventions.find? interventionId = some intervention ∧
      current.kind = intervention.kind ∧ current.nodeId = intervention.nodeId := by
  have rows : saved.recovered.interventions = saved.restored.normalizeInterventions.interventions :=
    rfl
  rw [rows] at found
  simp only [normalizeInterventions, expireWhere, Table.find?_map,
    Option.map_eq_some_iff] at found
  obtain ⟨intervention, before, rfl⟩ := found
  refine ⟨intervention, before, ?_⟩
  split <;> exact ⟨rfl, rfl⟩

end OrchestrationState

namespace Session

/-- A confirmation about a node that is not active changes no node. -/
theorem confirmation_inactive (session : Session) (response : QuestionResponse)
    (about : ∀ intervention,
      session.state.interventions.find? response.interventionId = some intervention →
        intervention.kind = .confirmCancel ∧
          ∀ status ∈ session.state.status? intervention.nodeId, status ∉ activeNodeStatuses) :
    (session.answerIntervention response).1.state.nodes = session.state.nodes := by
  have idle : ∀ {intervention target}, session.Awaited response intervention →
      session.state.node? intervention.nodeId = some target →
        target.status ∉ activeNodeStatuses := fun awaited there =>
    (about _ awaited.found).2 _ (by simp [OrchestrationState.status?, there])
  have answers := session.answers response
  generalize session.answerIntervention response = result at answers ⊢
  cases answers with
  | ignored | stale => rfl
  | declined awaited _ there active => exact absurd active (idle awaited there)
  | canceled awaited _ there active => exact absurd active (idle awaited there)
  | @continued intervention awaited asks =>
      rw [(about intervention awaited.found).1] at asks
      cases asks

end Session

namespace Runtime

/-- After the restart, as long as the node has not ended the intervention is
pending and a confirming answer cancels the node. -/
def Survives (config : ExecutorConfig) (saved : OrchestrationState) (intervention : Intervention) :
    Prop :=
  ∀ (inbound : Inbound) (env : Env) (drafts : List (Option (List PlanNodeDraft)))
    (events : List Event) (reached : Runtime), inbound.recover = true →
    Runs.run (step config) (loaded saved) (.message inbound env drafts :: events) = some reached →
    (∃ status ∈ reached.session.state.status? intervention.nodeId,
      status ∉ terminalNodeStatuses) →
    (∃ current ∈ reached.session.state.pendingInterventions, current.id = intervention.id) ∧
      (reached.session.answerIntervention ⟨intervention.id, .flag true⟩).1.state.status?
        intervention.nodeId = some .canceled

/-- Right behind the recovery a confirming answer leaves every node as it is. -/
theorem recovered_refuses (config : ExecutorConfig) (saved : OrchestrationState)
    {intervention : Intervention}
    (known : saved.interventions.find? intervention.id = some intervention)
    (confirms : intervention.kind = .confirmCancel) :
    ∃ (inbound : Inbound) (env : Env) (next : Runtime), inbound.recover = true ∧
      (loaded saved).step config (.message inbound env []) = some next ∧
      next.session.state = saved.recovered ∧
      (next.session.answerIntervention ⟨intervention.id, .flag true⟩).1.state.nodes =
        saved.recovered.nodes := by
  let restart : Inbound := { taskId := "", recover := true }
  let env : Env := ⟨[], "", fun _ => ""⟩
  obtain ⟨next, stepped, state⟩ := recover_run config saved restart env [] rfl
  refine ⟨restart, env, next, rfl, stepped, state, ?_⟩
  rw [Session.confirmation_inactive, state]
  intro current found
  rw [state] at found ⊢
  obtain ⟨before, listed, kind, nodeId⟩ := OrchestrationState.recovered_kind found
  obtain rfl : intervention = before := Option.some.inj (known.symm.trans listed)
  exact ⟨kind.trans confirms, fun status now => saved.recovered_inactive _ status now⟩

end Runtime

/-- No pending confirmation on a node that was in flight survives a restart:
right behind the recovery the node is not active, so a confirming answer does
not cancel it. -/
theorem confirmation_lost (config : ExecutorConfig) (saved : OrchestrationState)
    (intervention : Intervention) (pending : intervention ∈ saved.pendingInterventions)
    (confirms : intervention.kind = .confirmCancel) (node : NodeState)
    (row : node ∈ saved.nodes.rows) (about : intervention.nodeId = node.id)
    (active : node.status ∈ activeNodeStatuses) :
    ¬ Runtime.Survives config saved intervention := by
  intro survives
  have known := saved.interventions.find?_of_mem (List.mem_filter.mp pending).1
  obtain ⟨inbound, env, next, restarts, stepped, state, refused⟩ :=
    Runtime.recovered_refuses config saved known confirms
  obtain ⟨status, now, unended, other⟩ := OrchestrationState.recovered_unended row active
  have answered := (survives inbound env [] [] next restarts (by simp [Runs.run, stepped])
    ⟨status, by rw [state, about]; exact now, unended⟩).2
  rw [OrchestrationState.status?, OrchestrationState.node?, refused, about] at answered
  exact other (Option.some.inj (now.symm.trans answered))

section Crash

/-! A plan of two nodes at work. The first one knows its remote task; then the
second delivers with a revision that would take the first one out, so that the
human is asked. -/

def crashEnv : Env := ⟨["writer"], "now", fun drawn => toString drawn⟩

def following : List Event := [
  .message { taskId := "t1", text := "write" } crashEnv
    [some [⟨"n1", "first", "writer", .empty, []⟩, ⟨"n2", "second", "writer", .empty, []⟩]],
  .clearWake, .dispatch, .start 0, .start 1, .chunk 0 (some "r1") false]

def askedToCancel : List Event :=
  following ++ [
    .outcome 1 crashEnv { ended := .completed, output := some "without the first" }
      (some { intent := .revise, patch := some { invalidate := ["n1"] } })]

def restart : Event := .message { taskId := "t1", recover := true } crashEnv []

/-- A crash before the next snapshot: the store has not learnt of the remote task. -/
theorem unsaved_remote_task :
    ¬ ∀ (config : ExecutorConfig) (events : List Event) (reached : Runtime),
      Runs.run (Runtime.step config) (.loaded {}) events = some reached →
      ∀ nodeId remoteId, reached.Known nodeId remoteId →
        reached.Resumes config nodeId remoteId := by
  intro claim
  have ends : Runs.Ends (Runtime.step {}) (.loaded {}) following fun runtime =>
      (∃ task ∈ runtime.inFlight, task.ref = .planned "n1") ∧
        (∃ node ∈ runtime.session.state.node? "n1", node.a2aTaskId = some "r1") ∧
        runtime.session.saved.recovered.status? "n1" = some .pending := by
    decide +kernel
  obtain ⟨reached, ran, flies, known, reset⟩ := ends
  have resumes := claim {} following reached ran "n1" "r1" ⟨by decide, flies, known⟩
  rw [Runtime.resumes_iff {} reached "n1" (by decide),
    ← OrchestrationState.recovered_follows _ _ (by decide)] at resumes
  obtain ⟨node, found, follows⟩ := resumes
  rw [OrchestrationState.status?, found] at reset
  have status : node.status = .pending := Option.some.inj reset
  rw [status] at follows
  rcases follows with ⟨again, _⟩ | ended
  · cases again
  · revert ended
    decide

/-- The pending confirmation of a reachable snapshot is refused after the restart. -/
theorem restart_refuses_confirmation :
    ¬ ∀ (config : ExecutorConfig) (events : List Event) (before : Runtime),
      Runs.run (Runtime.step config) (.loaded {}) events = some before →
      ∀ intervention ∈ before.session.saved.pendingInterventions,
        intervention.kind = .confirmCancel →
        ∀ node ∈ before.session.saved.nodes.rows, intervention.nodeId = node.id →
        node.status ∈ activeNodeStatuses →
        Runtime.Survives config before.session.saved intervention := by
  intro claim
  have ends : Runs.Ends (Runtime.step {}) (.loaded {}) askedToCancel fun runtime =>
      ∃ intervention ∈ runtime.session.saved.pendingInterventions,
        intervention.kind = .confirmCancel ∧
        (∃ node ∈ runtime.session.saved.nodes.rows, intervention.nodeId = node.id ∧
          node.status ∈ activeNodeStatuses) ∧
        Runs.Ends (Runtime.step {}) (.loaded runtime.session.saved) [restart] fun next =>
          (∃ status ∈ next.session.state.status? intervention.nodeId,
            status ∉ terminalNodeStatuses) ∧
          (next.session.answerIntervention ⟨intervention.id, .flag true⟩).1.state.status?
            intervention.nodeId ≠ some .canceled := by
    decide +kernel
  obtain ⟨before, ran, intervention, pending, confirms, ⟨node, row, about, active⟩, next, restarts,
    unended, kept⟩ := ends
  exact kept (claim {} askedToCancel before ran intervention pending confirms node row about active
    { taskId := "t1", recover := true } crashEnv [] [] next rfl restarts unended).2

/-- The confirmation of that snapshot. -/
theorem asked_confirmation_lost :
    Runs.Ends (Runtime.step {}) (.loaded {}) askedToCancel fun runtime =>
      ∃ intervention ∈ runtime.session.saved.pendingInterventions,
        ¬ Runtime.Survives {} runtime.session.saved intervention := by
  have ends : Runs.Ends (Runtime.step {}) (.loaded {}) askedToCancel fun runtime =>
      ∃ intervention ∈ runtime.session.saved.pendingInterventions,
        intervention.kind = .confirmCancel ∧
        ∃ node ∈ runtime.session.saved.nodes.rows, intervention.nodeId = node.id ∧
          node.status ∈ activeNodeStatuses := by
    decide +kernel
  obtain ⟨before, ran, intervention, pending, confirms, node, row, about, active⟩ := ends
  exact ⟨before, ran, intervention, pending,
    confirmation_lost {} before.session.saved intervention pending confirms node row about active⟩

end Crash

end Choirworks.Orchestration
