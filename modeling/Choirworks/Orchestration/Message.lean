import Choirworks.Orchestration.Runner

/-!
`message_flow`: an inbound message is classified against the session, and its
handler runs. The whole flow holds the session lock.
-/

namespace Choirworks.Orchestration

/-- A request as the flow has parsed it. -/
structure Inbound where
  taskId : String
  recover : Bool := false
  text : String := ""
  responses : Except String (List QuestionResponse) := .ok []
  mentions : List String := []
  quoteId : Option String := none
  interrupt : Bool := false

namespace Inbound

def request (inbound : Inbound) : String := Text.stripString inbound.text

/-- The mentions of the room options and of the text. -/
def allMentions (inbound : Inbound) : List String :=
  fromKeys inbound.mentions (Text.findWords '@' isMentionChar inbound.request.toList)

end Inbound

inductive Handler where
  | recover | reject
  | answers (responses : List QuestionResponse)
  | reemitQuestions | complete | planAndLaunch | noop
  | enqueue (target : NodeState) (quoteId : Option String)
  | spawnFollowup (target : NodeState)
  | interrupt (target : NodeState)
  | newPlan

/-- The handlers that call `plan_and_launch`, and so `start_new_plan`. -/
def Handler.plans : Handler → Bool
  | .planAndLaunch | .newPlan => true
  | _ => false

/-- The handlers of the room route. -/
def Handler.inRoom : Handler → Bool
  | .noop | .enqueue _ _ | .spawnFollowup _ | .interrupt _ | .newPlan => true
  | _ => false

namespace Runtime

section Classify

variable (runtime : Runtime) (inbound : Inbound)

def quotedNode : Option NodeState :=
  match inbound.quoteId with
  | none => none
  | some quoteId =>
      runtime.session.state.nodes.rows.find? fun node =>
        node.id = quoteId ∨ inbound.taskId ++ ":" ++ node.id = quoteId

/-- What a message of the room is about when it quotes nothing usable. -/
def classifyUnquoted : Handler :=
  let state := runtime.session.state
  match inbound.interrupt, state.activeNodes with
  | true, active :: _ => .interrupt active
  | false, active :: _ => .enqueue active (if given inbound.quoteId then inbound.quoteId else none)
  | _, [] =>
      match state.nodes.rows.find? fun node => node.status ∈ [.pending, .ready] with
      | some target => .enqueue target (if given inbound.quoteId then inbound.quoteId else none)
      | none => .newPlan

def classifyRoom : Handler :=
  if inbound.request = "" then .noop
  else if given inbound.quoteId ∧ !inbound.interrupt then
    match runtime.quotedNode inbound with
    | none => runtime.classifyUnquoted inbound
    | some quoted =>
        if quoted.status ∈ activeNodeStatuses then .enqueue quoted inbound.quoteId
        else if quoted.status = .completed then .spawnFollowup quoted
        else runtime.classifyUnquoted inbound
  else runtime.classifyUnquoted inbound

/-- The route into the room without a live runner, which then has to start. -/
def needsRunner : Bool := !runtime.alive && runtime.session.state.hasPendingWork

def classifyInbound : Handler :=
  match inbound.responses with
  | .error _ => .reject
  | .ok (response :: rest) => .answers (response :: rest)
  | .ok [] =>
      if runtime.session.state.pendingInterventions ≠ [] then .reemitQuestions
      else if runtime.alive then runtime.classifyRoom inbound
      else if runtime.session.state.hasPendingWork then runtime.classifyRoom inbound
      else if inbound.request = "" then .complete
      else .planAndLaunch

def classify : Handler :=
  if inbound.recover then .recover else runtime.classifyInbound inbound

end Classify

/-! ### The handlers -/

section Handlers

variable (config : ExecutorConfig) (env : Env)

def detach (session : Session) : NodeRef → NodeRef
  | .planned nodeId =>
      match session.state.node? nodeId with
      | some node => .detached node
      | none => .planned nodeId
  | .detached node => .detached node

/-- `start_new_plan` replaces the nodes; executions keep theirs. -/
def startNewPlan (runtime : Runtime) (planId : String) : Runtime :=
  let session := runtime.session
  { runtime with
    session := { session with state := session.state.startNewPlan planId }
    nodeTasks := runtime.nodeTasks.map fun task => { task with ref := detach session task.ref }
    settleTasks := runtime.settleTasks.map fun task =>
      { task with ref := detach session task.ref } }

def planId : String := "plan-" ++ String.ofList ((env.fresh 0).toList.take 8)

/-- `drafts` are the answers of the planner, attempt by attempt. A failed or
empty plan ends the session. -/
def planAndLaunch (runtime : Runtime) (drafts : List (Option (List PlanNodeDraft)))
    (mentions : List String) : Runtime :=
  let started := runtime.startNewPlan (planId env)
  match plan config env drafts with
  | none | some [] => { started with session := started.session.persist }.evict
  | some nodes =>
      let created := createPlan env started.session.state nodes
      let joined := joinMembers env created mentions "human_mention"
      let session := { started.session with state := joined }.persist
      startRunner { started with session }

/-- `_finish`: the room route may have to start a runner. -/
def finish (runtime : Runtime) (needsRunner : Bool) : Runtime :=
  if needsRunner then runtime.startRunner else runtime

def handle (runtime : Runtime) (inbound : Inbound) (drafts : List (Option (List PlanNodeDraft))) :
    Handler → Runtime
  | .recover => startRunner { runtime with session := runtime.session.recoverSession }
  | .reject => runtime
  | .answers responses =>
      let (session, resolved) := runtime.session.answerAll responses
      if resolved then
        startRunner { runtime with session := session.emitPendingQuestions, wake := true }
      else { runtime with session }
  | .reemitQuestions => { runtime with session := runtime.session.emitPendingQuestions }
  | .complete => runtime.evict
  | .planAndLaunch => runtime.planAndLaunch config env drafts inbound.allMentions
  | .noop => runtime.finish (runtime.needsRunner)
  | .enqueue target quoteId =>
      let state := runtime.session.state.enqueue target.id inbound.request quoteId env.now
      { runtime with session := { runtime.session with state }.persist }.finish runtime.needsRunner
  | .spawnFollowup target =>
      let session := spawnFollowupNode config env runtime.session inbound.request target [target.id]
      { runtime with session }.finish runtime.needsRunner
  | .interrupt target =>
      let session := runtime.session.interrupt config env target inbound.request
      { runtime with session }.finish runtime.needsRunner
  | .newPlan => (runtime.planAndLaunch config env drafts []).finish runtime.needsRunner

end Handlers

end Runtime

/-! ### What the start of a runner leaves alone -/

namespace Runtime

@[simp] theorem startRunner_session (runtime : Runtime) :
    runtime.startRunner.session = runtime.session := by
  unfold startRunner
  split <;> rfl

@[simp] theorem finish_session (runtime : Runtime) (needsRunner : Bool) :
    (runtime.finish needsRunner).session = runtime.session := by
  unfold finish
  split
  · exact runtime.startRunner_session
  · rfl

@[simp] theorem startRunner_nodeTasks (runtime : Runtime) :
    runtime.startRunner.nodeTasks = runtime.nodeTasks := by
  unfold startRunner
  split <;> rfl

@[simp] theorem finish_nodeTasks (runtime : Runtime) (needsRunner : Bool) :
    (runtime.finish needsRunner).nodeTasks = runtime.nodeTasks := by
  unfold finish
  split
  · exact runtime.startRunner_nodeTasks
  · rfl

end Runtime

/-! ### What a handler is called on -/

namespace Runtime

/-- The node that a handler works on is in the plan, with a status for it. -/
def Apt (state : OrchestrationState) : Handler → Prop
  | .enqueue target _ =>
      target ∈ state.nodes.rows ∧ target.status ∈ activeNodeStatuses ++ [.pending, .ready]
  | .spawnFollowup target => target ∈ state.nodes.rows ∧ target.status = .completed
  | .interrupt target => target ∈ state.nodes.rows ∧ target.status ∈ activeNodeStatuses
  | _ => True

theorem classifyUnquoted_apt (runtime : Runtime) (inbound : Inbound) :
    Apt runtime.session.state (runtime.classifyUnquoted inbound) := by
  have first : ∀ active others, runtime.session.state.activeNodes = active :: others →
      active ∈ runtime.session.state.nodes.rows ∧ active.status ∈ activeNodeStatuses := by
    intro active others nodes
    have member : active ∈ runtime.session.state.activeNodes := nodes ▸ List.mem_cons_self
    obtain ⟨row, status⟩ := List.mem_filter.mp member
    exact ⟨row, of_decide_eq_true status⟩
  unfold classifyUnquoted
  dsimp only
  split
  · rename_i active others _ nodes
    exact first active others nodes
  · rename_i active others _ nodes
    exact (first active others nodes).imp_right (List.mem_append_left _)
  · split
    · rename_i target found
      have status := List.find?_some found
      exact ⟨List.mem_of_find?_eq_some found,
        List.mem_append_right _ (of_decide_eq_true status)⟩
    · trivial

theorem classifyRoom_apt (runtime : Runtime) (inbound : Inbound) :
    Apt runtime.session.state (runtime.classifyRoom inbound) := by
  have unquoted := runtime.classifyUnquoted_apt inbound
  unfold classifyRoom
  split
  · trivial
  · split
    · split
      · exact unquoted
      · rename_i quoted found
        have row : quoted ∈ runtime.session.state.nodes.rows := by
          unfold quotedNode at found
          split at found
          · cases found
          · exact List.mem_of_find?_eq_some found
        split
        · rename_i active
          exact ⟨row, List.mem_append_left _ active⟩
        · split
          · rename_i completed
            exact ⟨row, completed⟩
          · exact unquoted
    · exact unquoted

theorem classifyUnquoted_inRoom (runtime : Runtime) (inbound : Inbound) :
    (runtime.classifyUnquoted inbound).inRoom = true := by
  unfold classifyUnquoted
  dsimp only
  split
  · rfl
  · rfl
  · split <;> rfl

theorem classifyRoom_inRoom (runtime : Runtime) (inbound : Inbound) :
    (runtime.classifyRoom inbound).inRoom = true := by
  have unquoted := runtime.classifyUnquoted_inRoom inbound
  unfold classifyRoom
  split
  · rfl
  · split
    · split
      · exact unquoted
      · split
        · rfl
        · split
          · rfl
          · exact unquoted
    · exact unquoted

theorem classify_apt (runtime : Runtime) (inbound : Inbound) :
    Apt runtime.session.state (runtime.classify inbound) := by
  have room := runtime.classifyRoom_apt inbound
  unfold classify classifyInbound
  split
  · trivial
  · split
    · trivial
    · trivial
    · split
      · trivial
      · split
        · exact room
        · split
          · exact room
          · split <;> trivial

end Runtime

/-! ### The machine -/

inductive Event where
  | message (inbound : Inbound) (env : Env) (drafts : List (Option (List PlanNodeDraft)))
  | clearWake
  | dispatch
  | collect
  | flow (env : Env) (decision : Option PlanPatch)
  | start (taskId : Nat)
  | chunk (taskId : Nat) (a2aTaskId : Option String) (submitted : Bool)
  | outcome (taskId : Nat) (env : Env) (remote : Remote) (answered : Option OutcomeResult)
  | close (taskId : Nat)
  | inspect (taskId : Nat)
  | resolve (taskId : Nat)
  | act (taskId : Nat) (env : Env) (decision : Option AssistanceResult)
  | cancel
  | reload

namespace Runtime

section Steps

variable (config : ExecutorConfig) (runtime : Runtime)

def start (taskId : Nat) : Option Runtime :=
  (runtime.task? taskId .created).map fun task =>
    runtime.finishPart task (startNode runtime.session task.ref task.mode) .remote

/-- A forbidden report of submission raises instead: the call is then stopped. -/
def chunk (taskId : Nat) (a2aTaskId : Option String) (submitted : Bool) : Option Runtime :=
  match runtime.task? taskId .remote with
  | none => none
  | some task =>
      let handled := chunkNode runtime.session task.ref a2aTaskId submitted
      if handled.raised = none then some (runtime.setTask task handled .remote) else none

def outcome (taskId : Nat) (env : Env) (remote : Remote) (answered : Option OutcomeResult) :
    Option Runtime :=
  (runtime.task? taskId .remote).map fun task =>
    runtime.finishPart task
      (interpretRemote config env runtime.session task.ref remote answered) .closing

def close (taskId : Nat) : Option Runtime :=
  (runtime.task? taskId .closing).map fun task =>
    runtime.setTask task ⟨closeNode runtime.session task.ref.nodeId, task.ref, none⟩ (.done none)

def inspect (taskId : Nat) : Option Runtime :=
  match runtime.settleTask? taskId with
  | none => none
  | some task =>
      match task.phase, runtime.session.read task.ref with
      | .created, some node =>
          let phase : SettlePhase :=
            match runtime.session.state.inspectHelpers node with
            | .alreadyPending | .helperActive | .helperBlocked => .done
            | .helperCompleted helper => .resolving helper
            | .decide => .deciding
          some (runtime.setSettleTask task runtime.session task.ref phase)
      | _, _ => none

def resolve (taskId : Nat) : Option Runtime :=
  match runtime.settleTask? taskId with
  | none => none
  | some task =>
      match task.phase with
      | .resolving helper =>
          let handled := resolveFromHelper runtime.session task.ref helper
          some (runtime.setSettleTask task handled.session handled.ref .done)
      | _ => none

def act (taskId : Nat) (env : Env) (decision : Option AssistanceResult) : Option Runtime :=
  match runtime.settleTask? taskId with
  | none => none
  | some task =>
      if task.phase = .deciding then
        let handled := actOnDecision config env runtime.session task.ref decision
        some (runtime.setSettleTask task handled.session handled.ref .done)
      else none

end Steps

/-- The steps of a session that has not been evicted. -/
def advance (config : ExecutorConfig) (runtime : Runtime) : Event → Option Runtime
  | .message inbound env drafts =>
      some (runtime.handle config env inbound drafts (runtime.classify inbound))
  | .clearWake =>
      if runtime.runner = .head then some { runtime with wake := false, runner := .locking }
      else none
  | .dispatch => if runtime.runner = .locking then some (runtime.dispatch config) else none
  | .collect =>
      if runtime.runner = .waiting ∧ (runtime.wake ∨ runtime.someDone) then some runtime.collect
      else none
  | .flow env decision =>
      if runtime.runner = .flow then some (runtime.flow config env decision) else none
  | .start taskId => runtime.start taskId
  | .chunk taskId a2aTaskId submitted => runtime.chunk taskId a2aTaskId submitted
  | .outcome taskId env remote answered => runtime.outcome config taskId env remote answered
  | .close taskId => runtime.close taskId
  | .inspect taskId => runtime.inspect taskId
  | .resolve taskId => runtime.resolve taskId
  | .act taskId env decision => runtime.act config taskId env decision
  | .cancel => some { runtime with session := runtime.session.cancelAll }.evict
  | .reload => some (loaded runtime.session.saved)

/-- What each step of a session does, and when it can be taken. -/
inductive Advances (config : ExecutorConfig) (runtime : Runtime) : Event → Runtime → Prop where
  | message (inbound : Inbound) (env : Env) (drafts : List (Option (List PlanNodeDraft))) :
      Advances config runtime (.message inbound env drafts)
        (runtime.handle config env inbound drafts (runtime.classify inbound))
  | clearWake (atHead : runtime.runner = .head) :
      Advances config runtime .clearWake { runtime with wake := false, runner := .locking }
  | dispatch (locking : runtime.runner = .locking) :
      Advances config runtime .dispatch (runtime.dispatch config)
  | collect (waiting : runtime.runner = .waiting) (done : runtime.wake ∨ runtime.someDone) :
      Advances config runtime .collect runtime.collect
  | flow (env : Env) (decision : Option PlanPatch) (atFlow : runtime.runner = .flow) :
      Advances config runtime (.flow env decision) (runtime.flow config env decision)
  | start {taskId : Nat} (task : NodeTask) (found : runtime.task? taskId .created = some task) :
      Advances config runtime (.start taskId)
        (runtime.finishPart task (startNode runtime.session task.ref task.mode) .remote)
  | chunk {taskId : Nat} (a2aTaskId : Option String) (submitted : Bool) (task : NodeTask)
      (found : runtime.task? taskId .remote = some task)
      (allowed : (chunkNode runtime.session task.ref a2aTaskId submitted).raised = none) :
      Advances config runtime (.chunk taskId a2aTaskId submitted)
        (runtime.setTask task (chunkNode runtime.session task.ref a2aTaskId submitted) .remote)
  | outcome {taskId : Nat} (env : Env) (remote : Remote) (answered : Option OutcomeResult)
      (task : NodeTask) (found : runtime.task? taskId .remote = some task) :
      Advances config runtime (.outcome taskId env remote answered)
        (runtime.finishPart task
          (interpretRemote config env runtime.session task.ref remote answered) .closing)
  | close {taskId : Nat} (task : NodeTask) (found : runtime.task? taskId .closing = some task) :
      Advances config runtime (.close taskId)
        (runtime.setTask task ⟨closeNode runtime.session task.ref.nodeId, task.ref, none⟩
          (.done none))
  | inspect {taskId : Nat} (task : SettleTask) (phase : SettlePhase)
      (found : runtime.settleTask? taskId = some task)
      (inspected : runtime.inspect taskId =
        some (runtime.setSettleTask task runtime.session task.ref phase)) :
      Advances config runtime (.inspect taskId)
        (runtime.setSettleTask task runtime.session task.ref phase)
  | resolve {taskId : Nat} (task : SettleTask) (helper : NodeState)
      (found : runtime.settleTask? taskId = some task) (resolving : task.phase = .resolving helper) :
      Advances config runtime (.resolve taskId)
        (runtime.setSettleTask task (resolveFromHelper runtime.session task.ref helper).session
          (resolveFromHelper runtime.session task.ref helper).ref .done)
  | act {taskId : Nat} (env : Env) (decision : Option AssistanceResult) (task : SettleTask)
      (found : runtime.settleTask? taskId = some task) (deciding : task.phase = .deciding) :
      Advances config runtime (.act taskId env decision)
        (runtime.setSettleTask task
          (actOnDecision config env runtime.session task.ref decision).session
          (actOnDecision config env runtime.session task.ref decision).ref .done)
  | cancel :
      Advances config runtime .cancel { runtime with session := runtime.session.cancelAll }.evict
  | reload : Advances config runtime .reload (loaded runtime.session.saved)

theorem advances {config : ExecutorConfig} {runtime next : Runtime} {event : Event}
    (advanced : runtime.advance config event = some next) : Advances config runtime event next := by
  cases event with
  | message inbound env drafts =>
      cases advanced
      exact .message inbound env drafts
  -- every other event opens the guard of its own step first
  | clearWake =>
      obtain ⟨atHead, ⟨⟩⟩ := Option.ite_none_right_eq_some.mp advanced
      exact .clearWake atHead
  | dispatch =>
      obtain ⟨locking, ⟨⟩⟩ := Option.ite_none_right_eq_some.mp advanced
      exact .dispatch locking
  | collect =>
      obtain ⟨⟨waiting, done⟩, ⟨⟩⟩ := Option.ite_none_right_eq_some.mp advanced
      exact .collect waiting done
  | flow env decision =>
      obtain ⟨atFlow, ⟨⟩⟩ := Option.ite_none_right_eq_some.mp advanced
      exact .flow env decision atFlow
  | start taskId =>
      obtain ⟨task, found, rfl⟩ := Option.map_eq_some_iff.mp advanced
      exact .start task found
  | chunk taskId a2aTaskId submitted =>
      simp only [advance, chunk] at advanced
      split at advanced
      · cases advanced
      · rename_i task found
        obtain ⟨allowed, ⟨⟩⟩ := Option.ite_none_right_eq_some.mp advanced
        exact .chunk a2aTaskId submitted task found allowed
  | outcome taskId env remote answered =>
      obtain ⟨task, found, rfl⟩ := Option.map_eq_some_iff.mp advanced
      exact .outcome env remote answered task found
  | close taskId =>
      obtain ⟨task, found, rfl⟩ := Option.map_eq_some_iff.mp advanced
      exact .close task found
  | inspect taskId =>
      have inspected : runtime.inspect taskId = some next := advanced
      simp only [advance, inspect] at advanced
      split at advanced
      · cases advanced
      · rename_i task found
        split at advanced
        · cases advanced
          exact .inspect task _ found inspected
        · cases advanced
  | resolve taskId =>
      simp only [advance, resolve] at advanced
      split at advanced
      · cases advanced
      · rename_i task found
        split at advanced
        · rename_i helper resolving
          cases advanced
          exact .resolve task helper found resolving
        · cases advanced
  | act taskId env decision =>
      simp only [advance, act] at advanced
      split at advanced
      · cases advanced
      · rename_i task found
        obtain ⟨deciding, ⟨⟩⟩ := Option.ite_none_right_eq_some.mp advanced
        exact .act env decision task found deciding
  | cancel =>
      cases advanced
      exact .cancel
  | reload =>
      cases advanced
      exact .reload

/-- An evicted session can only be loaded again. -/
def step (config : ExecutorConfig) (runtime : Runtime) (event : Event) : Option Runtime :=
  match runtime.evicted, event with
  | true, .reload => some (loaded runtime.session.saved)
  | true, _ => none
  | false, event => runtime.advance config event

theorem step_cases {config : ExecutorConfig} {runtime next : Runtime} {event : Event}
    (stepped : runtime.step config event = some next) :
    next = loaded runtime.session.saved ∨
      (runtime.evicted = false ∧ runtime.advance config event = some next) := by
  cases present : runtime.evicted with
  | true =>
      left
      cases event <;> simp_all [step]
  | false =>
      right
      exact ⟨rfl, by simpa [step, present] using stepped⟩

/-- A session that takes a message is in memory, and handles it. -/
theorem step_message {config : ExecutorConfig} {runtime next : Runtime} {inbound : Inbound}
    {env : Env} {drafts : List (Option (List PlanNodeDraft))}
    (stepped : runtime.step config (.message inbound env drafts) = some next) :
    next = runtime.handle config env inbound drafts (runtime.classify inbound) := by
  cases present : runtime.evicted with
  | true => simp [step, present] at stepped
  | false => simpa [step, present, advance] using stepped.symm

end Runtime

end Choirworks.Orchestration
