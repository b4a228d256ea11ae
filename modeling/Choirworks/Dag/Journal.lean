import Choirworks.Dag.Phases

/-!
What the journal of a run says: no node has two tasks, nothing is dispatched
while a completion waits for its judgement, a completed node runs again only for
an assist, no output is lost, and every recorded completion has one fate, in the
order of recording.
-/

namespace Choirworks.Dag

open DagRuntime

/-! ### The fates of the recorded completions -/

section Fates

inductive Fate where
  | judged
  | left
  | ended
deriving DecidableEq

/-- The completions that an act puts into the queue. -/
def recordedBy (runtime : DagRuntime) : Act → List CompletionRecord
  | .collect nodeId task => (runtime.collectedRecord (nodeId, task)).toList
  | _ => []

/-- The completions that an act takes out of it, and what becomes of them. -/
def fatesBy (runtime : DagRuntime) : Act → List (CompletionRecord × Fate)
  | .route record => [(record, .judged)]
  | .skip record => [(record, .left)]
  | .applyPlan plan =>
      if plan.nodes.isEmpty then runtime.completions.map fun record => (record, .ended) else []
  | _ => []

def recorded (runtime : DagRuntime) (acts : List Act) : List CompletionRecord :=
  Runs.log perform recordedBy runtime acts

def fates (runtime : DagRuntime) (acts : List Act) : List (CompletionRecord × Fate) :=
  Runs.log perform fatesBy runtime acts

variable {runtime next final : DagRuntime}

theorem collect_task_completions (runtime : DagRuntime) (nodeId : String) (task : NodeTask) :
    (runtime.collectTask (nodeId, task)).completions =
      runtime.completions ++ (runtime.collectedRecord (nodeId, task)).toList := by
  have folded := collect_rows_completions [(nodeId, task)] runtime
  cases made : runtime.collectedRecord (nodeId, task) <;> simpa [made] using folded

/-- One act: what was queued or comes in is taken out or stays queued. -/
theorem act_settles {act : Act} (performed : runtime.perform act = some next) :
    runtime.completions ++ recordedBy runtime act =
      (fatesBy runtime act).map Prod.fst ++ next.completions := by
  cases act with
  | applyPlan plan =>
      obtain ⟨_, rfl⟩ := apply_plan_ok (to_option_some performed)
      cases empty : plan.nodes.isEmpty <;> simp [recordedBy, fatesBy, empty, Function.comp_def]
  | dispatch nodeId =>
      obtain ⟨node, rfl⟩ := dispatch_node_ok (to_option_some performed)
      simp [recordedBy, fatesBy]
  | finish nodeId result =>
      cases performed
      rw [finish_task_frame]
      simp [recordedBy, fatesBy]
  | collect nodeId task =>
      cases performed
      simp [recordedBy, fatesBy, collect_task_completions]
  | skip record | route record =>
      obtain ⟨rest, queue, rfl⟩ := take_record_some performed
      simp [recordedBy, fatesBy, queue]
  | judge nodeId =>
      cases performed
      simp [recordedBy, fatesBy]
  | addAssist parentId agentName instruction =>
      simp only [perform] at performed
      split at performed
      · cases performed
        simp [recordedBy, fatesBy, addAssist]
      · cases performed

theorem completions_settled (acts : List Act) (ran : Runs.run perform runtime acts = some final) :
    runtime.completions ++ recorded runtime acts =
      (fates runtime acts).map Prod.fst ++ final.completions := by
  induction acts generalizing runtime with
  | nil =>
      cases ran
      simp [recorded, fates, Runs.log]
  | cons act rest ih =>
      cases performed : runtime.perform act with
      | none => simp [Runs.run, performed] at ran
      | some next =>
          simp only [Runs.run, performed] at ran
          have now := act_settles performed
          have later := ih ran
          simp only [recorded, fates, Runs.log, performed] at later ⊢
          calc runtime.completions ++ (recordedBy runtime act ++ Runs.log perform recordedBy next rest)
              = (fatesBy runtime act).map Prod.fst ++
                  (next.completions ++ Runs.log perform recordedBy next rest) := by
                rw [← List.append_assoc, now, List.append_assoc]
            _ = _ := by rw [later, List.map_append, List.append_assoc]

/-- The records that the acts hand over to the helper. -/
def routed (acts : List Act) : List CompletionRecord :=
  acts.filterMap fun act =>
    match act with
    | .route record => some record
    | _ => none

theorem fates_judged (acts : List Act) (ran : Runs.run perform runtime acts = some final) :
    ((fates runtime acts).filter (·.2 = .judged)).map Prod.fst = routed acts := by
  induction acts generalizing runtime with
  | nil => rfl
  | cons act rest ih =>
      cases performed : runtime.perform act with
      | none => simp [Runs.run, performed] at ran
      | some next =>
          simp only [Runs.run, performed] at ran
          have later := ih ran
          simp only [fates, routed, Runs.log, performed, List.filter_append, List.map_append] at later ⊢
          rw [later]
          cases act with
          | applyPlan plan => cases empty : plan.nodes.isEmpty <;> simp [fatesBy, empty]
          | _ => simp [fatesBy]

end Fates

/-! ### One act of a guarded run -/

section Moments

/-- What the acts of a run with fresh ids heed. -/
def Heeded (runtime : DagRuntime) (act : Act) : Prop := runtime.Proper act ∧ runtime.Fresh act

variable {runtime next start : DagRuntime} {acts : List Act}

/-- In a state that tracks its tasks, a fresh id is vacant. -/
theorem Tracks.vacant (tracks : Tracks runtime) {act : Act} (fresh : runtime.Fresh act) :
    runtime.Vacant act := by
  cases act with
  | addAssist parentId agentName instruction =>
      intro planned
      obtain ⟨unplanned, unused⟩ := fresh planned
      refine ⟨unplanned, fun tracked => unused ?_⟩
      exact (Dict.mem_keys_iff_get? _ _).mpr ⟨.running, (tracks.running _).mp tracked⟩
  | _ => trivial

theorem Tracks.heeded (runtime : DagRuntime) (act : Act) (next : DagRuntime)
    (tracks : Tracks runtime) (heeded : Heeded runtime act)
    (performed : runtime.perform act = some next) : Tracks next :=
  tracks.performed heeded.1 (tracks.vacant heeded.2) performed

/-- A completed node stays completed under all acts but an assist of its own. -/
theorem completed_kept (tracks : Tracks runtime) {act : Act} (heeded : Heeded runtime act)
    (performed : runtime.perform act = some next) {nodeId : String}
    (unassisted : ∀ agentName instruction, act ≠ .addAssist nodeId agentName instruction)
    (completed : runtime.status nodeId = some .completed) : next.status nodeId = some .completed := by
  have untracked : nodeId ∉ runtime.runningTasks.keys := by
    rw [tracks.running, completed]
    simp
  cases act with
  | applyPlan plan =>
      obtain ⟨_, rfl⟩ := apply_plan_ok (to_option_some performed)
      exact add_statuses_kept completed (by decide) _
  | dispatch other =>
      have ready := ready_dispatchable runtime other heeded.1.2
      obtain ⟨node, rfl⟩ := dispatch_node_ok (to_option_some performed)
      have different : nodeId ≠ other := by
        rintro rfl
        simp [completed] at ready
      simpa [status, different] using completed
  | finish other result =>
      cases performed
      rw [finish_task_frame]
      exact completed
  | collect other task =>
      cases performed
      obtain ⟨tracked, done⟩ := heeded.1
      have different : nodeId ≠ other := by
        rintro rfl
        exact untracked (mem_running_iff.mpr ⟨task, tracked⟩)
      obtain ⟨status, record, _, _, same⟩ := collect_task_done runtime other done
      rw [same]
      simpa [DagRuntime.status, different] using completed
  | skip record | route record =>
      obtain ⟨rest, _, rfl⟩ := take_record_some performed
      exact completed
  | judge other =>
      cases performed
      exact completed
  | addAssist parentId agentName instruction =>
      simp only [perform] at performed
      split at performed
      · rename_i planned
        cases performed
        have notParent : nodeId ≠ parentId := by
          rintro rfl
          exact unassisted agentName instruction rfl
        -- an id that has a status is not fresh
        have notAssist : nodeId ≠ runtime.nextAssist parentId := by
          rintro rfl
          exact (heeded.2 planned).2 ((Dict.mem_keys_iff_get? _ _).mpr ⟨.completed, completed⟩)
        rw [add_assist_status, if_neg notParent]
        exact (if_neg notAssist).trans completed
      · cases performed

theorem outputs_kept {act : Act} (performed : runtime.perform act = some next) :
    runtime.nodeOutputs.keys ⊆ next.nodeOutputs.keys := by
  intro nodeId known
  cases act with
  | applyPlan plan =>
      obtain ⟨_, rfl⟩ := apply_plan_ok (to_option_some performed)
      exact known
  | dispatch other =>
      obtain ⟨node, rfl⟩ := dispatch_node_ok (to_option_some performed)
      exact known
  | finish other result =>
      cases performed
      rw [finish_task_frame]
      exact known
  -- only a finished task writes an output, over an older one of its node
  | collect other task =>
      cases performed
      cases task with
      | running message => exact known
      | finished output => exact (Dict.mem_keys_set _ _ _ _).mpr (Or.inr known)
      | raised error => exact known
  | skip record | route record =>
      obtain ⟨rest, _, rfl⟩ := take_record_some performed
      exact known
  | judge other =>
      cases performed
      exact known
  | addAssist parentId agentName instruction =>
      simp only [perform] at performed
      split at performed
      · cases performed
        exact known
      · cases performed

end Moments

/-! ### The journal of the workflow -/

section Workflow

/-- The node that is at the helper and not judged yet. -/
def held (before : Option String) : Act → Option String
  | .route record => some record.nodeId
  | .judge _ => none
  | _ => before

def awaiting (acts : List Act) : Option String := acts.foldl held none

/-- Whatever is dispatched, nothing waits at the helper. -/
def Paused (journal : List Act) : Prop :=
  ∀ front nodeId back, journal = front ++ .dispatch nodeId :: back → awaiting front = none

def Stage.judging : Stage → Option String
  | .helper nodeId => some nodeId
  | _ => none

/-- The state between two acts; an error may have shut it down. -/
def Loop.At (loop : Loop) (moment : DagRuntime) : Prop :=
  match loop.stage with
  | .failed _ => loop.runtime = moment ∨ loop.runtime = moment.shutdown
  | _ => loop.runtime = moment

variable {acts journal : List Act}

theorem quiet_held (quiet : Quiet acts) (before : Option String) :
    acts.foldl held before = before := by
  induction acts with
  | nil => rfl
  | cons act rest ih =>
      obtain ⟨now, later⟩ := List.forall_mem_cons.mp quiet
      have same : held before act = before := by
        cases act with
        | route record | judge nodeId | addAssist parentId agentName instruction => cases now
        | _ => rfl
      rw [List.foldl_cons, same]
      exact ih later

theorem DagRuntime.Routes.held {outcome : Outcome} (routes : Routes acts outcome) :
    awaiting acts = (Loop.ended outcome).judging := by
  cases outcome with
  | judge nodeId =>
      obtain ⟨front, record, quiet, named, rfl⟩ := routes
      simp [awaiting, Loop.ended, Stage.judging, Choirworks.Dag.held, named]
  | default => exact quiet_held routes none
  | raised error => exact quiet_held routes none

/-- In front of a dispatch an invocation hands nothing over. -/
theorem DagRuntime.Routes.before {outcome : Outcome} (routes : Routes acts outcome) {part back : List Act}
    {nodeId : String} (split : acts = part ++ .dispatch nodeId :: back) : Quiet part := by
  have inside : ∀ others, Quiet others → part <+: others → Quiet part :=
    fun others quiet isPrefix act member => quiet act (isPrefix.subset member)
  cases outcome with
  | judge target =>
      obtain ⟨front, record, quiet, _, rfl⟩ := routes
      rcases List.append_eq_append_iff.mp split with ⟨between, _, last⟩ | ⟨between, rfl, _⟩
      · cases between <;> simp at last
      · exact inside _ quiet (List.prefix_append part between)
  | default => exact inside _ routes (split ▸ List.prefix_append _ _)
  | raised error => exact inside _ routes (split ▸ List.prefix_append _ _)

theorem Paused.append (paused : Paused journal) (idle : awaiting journal = none)
    (before : ∀ part nodeId back, acts = part ++ .dispatch nodeId :: back → Quiet part) :
    Paused (journal ++ acts) := by
  intro front nodeId back split
  rcases List.append_eq_append_iff.mp split with ⟨part, rfl, rest⟩ | ⟨between, rfl, rest⟩
  · rw [awaiting, List.foldl_append]
    exact (quiet_held (before part nodeId back rest) _).trans idle
  · cases between with
    | nil =>
        rw [List.append_nil] at idle
        exact idle
    | cons act others =>
        obtain ⟨rfl, rfl⟩ := List.cons.inj rest
        exact paused front nodeId others rfl

theorem Paused.append_undispatched (paused : Paused journal)
    (undispatched : ∀ nodeId, .dispatch nodeId ∉ acts) : Paused (journal ++ acts) := by
  intro front nodeId back split
  rcases List.append_eq_append_iff.mp split with ⟨part, _, rest⟩ | ⟨between, same, rest⟩
  · exact absurd (by simp [rest]) (undispatched nodeId)
  · cases between with
    | nil => exact absurd (by simp [show acts = _ from rest.symm]) (undispatched nodeId)
    | cons act others =>
        obtain ⟨rfl, rfl⟩ := List.cons.inj rest
        exact paused front nodeId others same

/-- A condition on assists under which their ids are vacant. -/
structure AssistGuard (guard : DagRuntime → Act → Prop) : Prop where
  free : ∀ runtime act,
    (∀ parentId agentName instruction, act ≠ .addAssist parentId agentName instruction) →
      guard runtime act
  vacant : ∀ runtime act, Tracks runtime → guard runtime act → runtime.Vacant act

theorem fresh_guard : AssistGuard Fresh where
  free := by
    intro runtime act other
    cases act with
    | addAssist parentId agentName instruction => exact absurd rfl (other _ _ _)
    | _ => trivial
  vacant := fun _ _ tracks fresh => tracks.vacant fresh

structure Coherent (guard : DagRuntime → Act → Prop) (start : DagRuntime) (loop : Loop) : Prop where
  led : ∃ moment, Steps start loop.journal moment ∧
    Runs.Guarded perform guard start loop.journal ∧ loop.At moment
  held : awaiting loop.journal = loop.stage.judging
  paused : Paused loop.journal
  idle : ∀ nodeId, loop.stage = .helper nodeId → nodeId ∉ loop.runtime.runningTasks.keys

variable {guard : DagRuntime → Act → Prop} {start moment next : DagRuntime} {loop : Loop}

theorem DagRuntime.Steps.tracks (assistGuard : AssistGuard guard) (tracks : Tracks start)
    (steps : Steps start acts moment) (guarded : Runs.Guarded perform guard start acts) :
    Tracks moment :=
  Runs.run_invariant Tracks
    (fun runtime act _ inv both performed =>
      inv.performed both.1 (assistGuard.vacant runtime act inv both.2) performed)
    acts start moment tracks (Runs.Guarded.both steps.2 guarded) steps.1

/-- Acts without an assist meet every such condition. -/
theorem DagRuntime.Steps.free (assistGuard : AssistGuard guard) (steps : Steps start acts moment)
    (unassisted : ∀ parentId agentName instruction,
      .addAssist parentId agentName instruction ∉ acts) : Runs.Guarded perform guard start acts :=
  steps.2.mono fun runtime act member _ => assistGuard.free runtime act
    fun parentId agentName instruction same => unassisted parentId agentName instruction (same ▸ member)

theorem DagRuntime.Quiet.unassisted (quiet : Quiet acts) (parentId agentName instruction : String) :
    .addAssist parentId agentName instruction ∉ acts := by
  intro member
  cases quiet _ member

theorem DagRuntime.Routes.unassisted {outcome : Outcome} (routes : Routes acts outcome)
    (parentId agentName instruction : String) :
    .addAssist parentId agentName instruction ∉ acts := by
  cases outcome with
  | judge nodeId =>
      obtain ⟨front, record, quiet, _, rfl⟩ := routes
      simpa using quiet.unassisted parentId agentName instruction
  | default => exact Quiet.unassisted routes _ _ _
  | raised error => exact Quiet.unassisted routes _ _ _

theorem Loop.At.of_live (here : loop.At moment) (live : ∀ error, loop.stage ≠ .failed error) :
    loop.runtime = moment := by
  unfold Loop.At at here
  split at here
  · rename_i error failed
    exact absurd failed (live error)
  · exact here

theorem steps_append_guarded (steps : Steps start journal moment)
    (guarded : Runs.Guarded perform guard start journal)
    (later : Runs.Guarded perform guard moment acts) :
    Runs.Guarded perform guard start (journal ++ acts) := by
  rw [Runs.guarded_append]
  refine ⟨guarded, fun reached ran => ?_⟩
  cases steps.1.symm.trans ran
  exact later

theorem start_coherent (guard : DagRuntime → Act → Prop) (agents : Dict String AgentInfo)
    (userTask : String) : Coherent guard (.start agents userTask) (.start agents userTask) where
  led := ⟨_, Steps.nil _, trivial, rfl⟩
  held := rfl
  paused := by simp [Paused, Loop.start]
  idle := by simp [Loop.start]

theorem Coherent.invoke (assistGuard : AssistGuard guard) (tracks : Tracks start)
    (coherent : Coherent guard start loop) {input : Option DagPlan} {waves : List Wave}
    (turn : loop.stage = .executor input) {after : Loop}
    (ran : loop.invoke input waves = some after) : Coherent guard start after := by
  obtain ⟨moment, steps, guarded, here⟩ := coherent.led
  have now : loop.runtime = moment := here.of_live (by simp [turn])
  subst now
  have tracksNow := steps.tracks assistGuard tracks guarded
  have unheld : awaiting loop.journal = none := by
    rw [coherent.held, turn]
    rfl
  obtain ⟨⟨outcome, runtime⟩, invoked, rfl⟩ := Option.map_eq_some_iff.mp ran
  obtain ⟨moment, later, routes, leaves⟩ := run_impl_invoked tracksNow.once invoked
  constructor
  case led =>
    refine ⟨moment, steps.append later,
      steps_append_guarded steps guarded (later.free assistGuard routes.unassisted), ?_⟩
    cases outcome <;> exact leaves
  case held =>
    show awaiting (loop.journal ++ _) = _
    rw [awaiting, List.foldl_append, show loop.journal.foldl _ none = none from unheld]
    exact routes.held
  case paused => exact coherent.paused.append unheld fun _ _ _ split => routes.before split
  case idle =>
    intro nodeId stage
    cases outcome with
    | judge target =>
        cases stage
        -- the record is taken out last, where no node that is queued has a task
        obtain ⟨front, record, quiet, rfl, same⟩ := routes
        subst leaves
        have ran := later.1
        have proper := later.2
        rw [same, Runs.run_append] at ran
        rw [same, Runs.guarded_append] at proper
        cases reached : Runs.run perform loop.runtime front with
        | none => simp [reached] at ran
        | some before =>
            have tracksBefore : Tracks before :=
              Steps.tracks assistGuard tracksNow ⟨reached, proper.1⟩
                (Steps.free assistGuard ⟨reached, proper.1⟩ quiet.unassisted)
            simp only [reached, Option.bind_some, Runs.run] at ran
            cases taken : before.perform (.route record) with
            | none => simp [taken] at ran
            | some last =>
                simp only [taken, Option.some.injEq] at ran
                subst ran
                exact (tracksBefore.take taken).2
    | default => cases stage
    | raised error => cases stage

theorem Coherent.judge (assistGuard : AssistGuard guard) (coherent : Coherent guard start loop)
    {nodeId : String} (turn : loop.stage = .helper nodeId)
    (heeds : loop.Heeds guard .judge) : Coherent guard start (loop.judge nodeId) := by
  obtain ⟨moment, steps, guarded, here⟩ := coherent.led
  have now : loop.runtime = moment := here.of_live (by simp [turn])
  subst now
  have later := judge_steps nodeId (coherent.idle nodeId turn)
  have planned : Runs.Guarded perform guard loop.runtime
      (.judge nodeId :: loop.runtime.assistActs nodeId) := by
    refine ⟨assistGuard.free _ _ (by simp), ?_⟩
    simpa only [perform, Loop.Heeds, Loop.assistActs, turn] using heeds
  have settled : ∀ error, (loop.judge nodeId).stage ≠ .failed error ∧
      (loop.judge nodeId).stage.judging = none := by
    intro error
    simp only [Loop.judge]
    split <;> simp [Stage.judging]
  -- an assist puts nothing at the helper
  have assists : ∀ before : Option String,
      (loop.runtime.assistActs nodeId).foldl Choirworks.Dag.held before = before := by
    intro before
    unfold assistActs
    induction Helper.assists loop.runtime nodeId with
    | nil => rfl
    | cons mention rest ih => exact ih
  constructor
  case led =>
    refine ⟨_, steps.append later, steps_append_guarded steps guarded planned, ?_⟩
    unfold Loop.At
    split
    · rename_i error failed
      exact absurd failed (settled error).1
    · rfl
  case held =>
    rw [(settled "").2]
    show awaiting (loop.journal ++ _) = _
    rw [awaiting, List.foldl_append]
    exact assists none
  case paused =>
    apply coherent.paused.append_undispatched
    simp [assistActs]
  case idle =>
    intro other stage
    have none := (settled "").2
    rw [stage] at none
    cases none

theorem Coherent.finish (assistGuard : AssistGuard guard) (coherent : Coherent guard start loop)
    (live : ∀ error, loop.stage ≠ .failed error) (wave : Wave) :
    Coherent guard start { loop with
      runtime := loop.runtime.finish wave
      journal := loop.journal ++ finishActs wave } := by
  obtain ⟨moment, steps, guarded, here⟩ := coherent.led
  have now : loop.runtime = moment := here.of_live live
  subst now
  have later := finish_steps wave loop.runtime
  have quiet := finish_acts_quiet wave
  constructor
  case led =>
    refine ⟨_, steps.append later,
      steps_append_guarded steps guarded (later.free assistGuard quiet.unassisted), ?_⟩
    unfold Loop.At
    split
    · rename_i error failed
      exact absurd failed (live error)
    · rfl
  case held =>
    rw [awaiting, List.foldl_append]
    exact (quiet_held quiet _).trans coherent.held
  case paused =>
    apply coherent.paused.append_undispatched
    simp [finishActs]
  case idle =>
    intro nodeId stage tracked
    exact coherent.idle nodeId stage ((finish_keys _ _ _).mp tracked)

theorem Coherent.step (assistGuard : AssistGuard guard) (tracks : Tracks start)
    (coherent : Coherent guard start loop) {event : LoopEvent} (heeds : loop.Heeds guard event)
    {after : Loop} (stepped : loop.step event = some after) : Coherent guard start after := by
  cases event with
  | plan plan =>
      simp only [Loop.step] at stepped
      split at stepped
      · rename_i turn
        cases stepped
        obtain ⟨moment, steps, guarded, here⟩ := coherent.led
        have unheld := coherent.held
        rw [turn.1] at unheld
        refine ⟨⟨moment, steps, guarded, ?_⟩, unheld, coherent.paused, ?_⟩
        · exact here.of_live (by simp [turn.1])
        · intro nodeId stage
          cases stage
      · cases stepped
  | invoke waves =>
      simp only [Loop.step] at stepped
      split at stepped
      · rename_i input turn
        exact coherent.invoke assistGuard tracks turn stepped
      · cases stepped
  | judge =>
      simp only [Loop.step] at stepped
      split at stepped
      · rename_i nodeId turn
        cases stepped
        exact coherent.judge assistGuard turn heeds
      · cases stepped
  | finish wave =>
      simp only [Loop.step] at stepped
      split at stepped
      · cases stepped
      · rename_i live
        cases stepped
        exact coherent.finish assistGuard live wave

theorem run_coherent (assistGuard : AssistGuard guard) (agents : Dict String AgentInfo)
    (userTask : String) (events : List LoopEvent)
    (guarded : Runs.Guarded Loop.step (Loop.Heeds guard) (.start agents userTask) events)
    (ran : Runs.run Loop.step (.start agents userTask) events = some loop) :
    Coherent guard (.start agents userTask) loop :=
  Runs.run_invariant (Coherent guard (.start agents userTask))
    (fun _ _ _ coherent heeds stepped =>
      coherent.step assistGuard (start_tracks agents userTask) heeds stepped)
    events _ loop (start_coherent guard agents userTask) guarded ran

end Workflow

/-! ### No repeated and no paused-over work -/

section Order

/-- What holds of a run that starts there and has taken these acts up to the
moment. -/
structure Orderly (start : DagRuntime) (acts : List Act) (moment : DagRuntime) : Prop where
  performs : Runs.run perform start acts = some moment
  tasks : ∀ front, front <+: acts → ∀ reached, Runs.run perform start front = some reached →
    ∀ nodeId, nodeId ∈ reached.runningTasks.keys ↔ reached.status nodeId = some .running
  once : ∀ front nodeId back, acts = front ++ .dispatch nodeId :: back →
    ∀ reached, Runs.run perform start front = some reached →
      nodeId ∉ reached.runningTasks.keys
  pauses : ∀ front nodeId back, acts = front ++ .dispatch nodeId :: back →
    awaiting front = none ∧
      ∀ reached, Runs.run perform start front = some reached → reached.completions = []
  reruns : ∀ front nodeId output between back,
    acts = front ++ .collect nodeId (.finished output) :: (between ++ .dispatch nodeId :: back) →
      ∃ agentName instruction, .addAssist nodeId agentName instruction ∈ between
  keeps : ∀ front back, acts = front ++ back →
    ∀ reached, Runs.run perform start front = some reached →
      reached.nodeOutputs.keys ⊆ moment.nodeOutputs.keys
  settles : recorded start acts = (fates start acts).map Prod.fst ++ moment.completions
  judges : routed acts = ((fates start acts).filter (·.2 = .judged)).map Prod.fst
  skips : ∀ front record back, acts = front ++ .skip record :: back →
    ∀ reached, Runs.run perform start front = some reached →
      reached.inPlan record.nodeId = false

variable {start moment : DagRuntime} {acts : List Act}

theorem heeded_at (tracks : Tracks start) (heeded : Runs.Guarded perform Heeded start acts)
    {front : List Act} {act : Act} {back : List Act} (split : acts = front ++ act :: back)
    {reached : DagRuntime} (ran : Runs.run perform start front = some reached) :
    Tracks reached ∧ Heeded reached act :=
  Runs.guarded_at Tracks Tracks.heeded acts start tracks heeded front act back split reached ran

/-- Between a completion and the next dispatch of its node lies an assist. -/
theorem assisted_before (tracks : Tracks start) (between : List Act) (back : List Act)
    {nodeId : String} (completed : start.status nodeId = some .completed)
    (heeded : Runs.Guarded perform Heeded start (between ++ .dispatch nodeId :: back))
    (ran : Runs.run perform start (between ++ .dispatch nodeId :: back) = some moment) :
    ∃ agentName instruction, .addAssist nodeId agentName instruction ∈ between := by
  induction between generalizing start with
  | nil =>
      -- a completed node is not dispatchable
      have ready := ready_dispatchable start nodeId heeded.1.1.2
      simp [completed] at ready
  | cons act rest ih =>
      by_cases assist : ∃ agentName instruction, act = .addAssist nodeId agentName instruction
      · obtain ⟨agentName, instruction, rfl⟩ := assist
        exact ⟨agentName, instruction, List.mem_cons_self⟩
      · have other : ∀ agentName instruction, act ≠ .addAssist nodeId agentName instruction :=
          fun agentName instruction same => assist ⟨agentName, instruction, same⟩
        cases performed : start.perform act with
        | none => simp [Runs.run, performed] at ran
        | some next =>
            have later := heeded.2
            simp only [List.append_eq, performed] at later
            simp only [List.cons_append, Runs.run, performed] at ran
            obtain ⟨agentName, instruction, member⟩ :=
              ih (tracks.heeded _ _ _ heeded.1 performed)
                (completed_kept tracks heeded.1 performed other completed) later ran
            exact ⟨agentName, instruction, List.mem_cons_of_mem _ member⟩

theorem outputs_grow (acts : List Act) (ran : Runs.run perform start acts = some moment) :
    start.nodeOutputs.keys ⊆ moment.nodeOutputs.keys :=
  Runs.run_invariant_of_step (fun runtime => start.nodeOutputs.keys ⊆ runtime.nodeOutputs.keys)
    (fun _ _ _ before performed => List.Subset.trans before (outputs_kept performed))
    acts start moment (List.Subset.refl _) ran

/-- A run of proper acts with fresh ids that dispatches nothing over a held
judgement is orderly. -/
theorem orderly_of_heeded (tracks : Tracks start) (nothing : start.completions = [])
    (ran : Runs.run perform start acts = some moment)
    (heeded : Runs.Guarded perform Heeded start acts) (paused : Paused acts) :
    Orderly start acts moment where
  performs := ran
  tasks := by
    rintro front ⟨back, rfl⟩ reached begun
    have first := (Runs.guarded_append front back start).mp heeded
    exact (Runs.run_invariant Tracks Tracks.heeded front start reached tracks first.1 begun).running
  once := by
    intro front nodeId back split reached begun
    obtain ⟨tracksThen, proper, _⟩ := heeded_at tracks heeded split begun
    have ready := ready_dispatchable reached nodeId proper.2
    rw [tracksThen.running]
    rcases ready with pending | waiting
    · simp [pending]
    · simp [waiting]
  pauses := by
    intro front nodeId back split
    refine ⟨paused front nodeId back split, fun reached begun => ?_⟩
    exact (heeded_at tracks heeded split begun).2.1.1
  reruns := by
    rintro front nodeId output between back rfl
    rw [Runs.guarded_append] at heeded
    rw [Runs.run_append] at ran
    cases begun : Runs.run perform start front with
    | none => simp [begun] at ran
    | some reached =>
        have tracksThen := Runs.run_invariant Tracks Tracks.heeded front start reached tracks
          heeded.1 begun
        have later := heeded.2 reached begun
        simp only [begun, Option.bind_some, Runs.run, perform] at ran
        simp only [Runs.Guarded, perform] at later
        apply assisted_before _ between back _ later.2 ran
        · exact tracksThen.collect nodeId rfl
        · simp [collectTask, recordCompletion, status]
  keeps := by
    rintro front back rfl reached begun
    rw [Runs.run_append, begun] at ran
    exact outputs_grow back ran
  settles := by
    have conserved := completions_settled acts ran
    rwa [nothing, List.nil_append] at conserved
  judges := (fates_judged acts ran).symm
  skips := by
    intro front record back split reached begun
    obtain ⟨tracksThen, unjudgable, _⟩ := heeded_at tracks heeded split begun
    have skipped : ∃ next, reached.perform (.skip record) = some next := by
      subst split
      rw [Runs.run_append, begun] at ran
      cases performed : reached.perform (.skip record) with
      | none => simp [Runs.run, performed] at ran
      | some next => exact ⟨next, rfl⟩
    obtain ⟨next, performed⟩ := skipped
    obtain ⟨rest, queue, _⟩ := take_record_some performed
    -- a queue that holds a record is not behind an empty plan
    have live : reached.doneRequested = false := by
      cases asked : reached.doneRequested with
      | false => rfl
      | true => simp [(tracksThen.ended asked).2] at queue
    simpa [Proper, judgable, live] using unjudgable

/-- At every moment of a run, up to the shutdown behind an error. -/
theorem work_never_repeated (agents : Dict String AgentInfo) (userTask : String)
    (events : List LoopEvent) (loop : Loop)
    (fresh : Runs.Guarded Loop.step (Loop.Heeds Fresh) (.start agents userTask) events)
    (ran : Runs.run Loop.step (.start agents userTask) events = some loop) :
    ∃ moment, loop.At moment ∧ Orderly (.start agents userTask) loop.journal moment := by
  have coherent := run_coherent fresh_guard agents userTask events fresh ran
  obtain ⟨moment, steps, guarded, here⟩ := coherent.led
  exact ⟨moment, here, orderly_of_heeded (start_tracks agents userTask) rfl steps.1
    (Runs.Guarded.both steps.2 guarded) coherent.paused⟩

/-! The first node asks for help, runs again behind its assist, and the planner
is content. -/

def pairAgents : Dict String AgentInfo :=
  Dict.set (Dict.set .empty "writer" ⟨"writer", "", ""⟩) "helper" ⟨"helper", "", ""⟩

def pairPlan : DagPlan :=
  ⟨[⟨"a", "a", "writer", "write", [], none⟩, ⟨"b", "b", "writer", "write", [], none⟩]⟩

def helpedPlan : DagPlan :=
  ⟨pairPlan.nodes ++ [⟨"a-assist1", "check", "helper", "check", [], none⟩]⟩

def assistedRun : List LoopEvent :=
  [.plan pairPlan, .invoke [[("a", .ok "@helper check")]], .judge,
    .invoke [[("a-assist1", .ok "checked")]], .judge, .plan helpedPlan,
    .invoke [[("a", .ok "done"), ("b", .ok "done")]], .judge, .plan ⟨[]⟩, .invoke []]

theorem assisted_run_orderly :
    ∃ loop, Runs.run Loop.step (.start pairAgents "task") assistedRun = some loop ∧
      loop.stage = .done ∧
      ∃ moment, loop.At moment ∧ Orderly (.start pairAgents "task") loop.journal moment := by
  have ends : Runs.Ends Loop.step (.start pairAgents "task") assistedRun
      fun loop => loop.stage = .done := by
    decide +kernel
  obtain ⟨loop, ran, done⟩ := ends
  exact ⟨loop, ran, done,
    work_never_repeated pairAgents "task" assistedRun loop (by decide +kernel) ran⟩

def abortedRun : List LoopEvent := [.plan pairPlan, .invoke [[("a", .error "boom")]]]

/-- The shutdown behind a failure forgets the task of the other node, which
keeps its status. -/
theorem aborted_node_stays_running :
    ¬ ∀ (agents : Dict String AgentInfo) (userTask : String) (events : List LoopEvent) (loop : Loop),
      Runs.Guarded Loop.step (Loop.Heeds Fresh) (.start agents userTask) events →
        Runs.run Loop.step (.start agents userTask) events = some loop →
          ∀ nodeId, nodeId ∈ loop.runtime.runningTasks.keys ↔
            loop.runtime.status nodeId = some .running := by
  intro claim
  have ends : Runs.Ends Loop.step (.start pairAgents "task") abortedRun fun loop =>
      "b" ∉ loop.runtime.runningTasks.keys ∧ loop.runtime.status "b" = some .running := by
    decide +kernel
  obtain ⟨loop, ran, forgotten, still⟩ := ends
  exact forgotten ((claim pairAgents "task" abortedRun loop (by decide +kernel) ran "b").mpr still)

end Order

end Choirworks.Dag
