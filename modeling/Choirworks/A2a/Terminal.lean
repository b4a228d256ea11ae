import Choirworks.A2a.Executor

/-!
One terminal status per task, at the end of its queue. The relayed status of a
remote agent goes under the id of the calling task, and `cancel` reports in any
case, so the code keeps this only where no remote agent shows that it has ended
and a task is neither cancelled nor executed anew behind its end. The invariant
of such runs has two stages: as long as no terminal status is enqueued, at most
one run can still report one, and from then on every coroutine is silent.
-/

namespace Choirworks.A2a

open Closings (Open Closed AtEnd)
open Workflow (TaskState Part)

/-! ### What is to hold -/

/-- The queue has nothing behind a terminal status, and has one once an
`execute` returned by itself or a `cancel` is back. -/
structure Settled (served : Served) : Prop where
  last : AtEnd Queued.Terminal served.queue
  ended : ((∃ run ∈ served.runs.rows, run.ReturnedItself) ∨
    (∃ call ∈ served.cancels.rows, call.awaits = none)) → ∃ entry ∈ served.queue, entry.Terminal

/-- No remote agent fails, and no response tells that a remote task has ended. -/
def RunAct.Plain : RunAct → Prop
  | .respond _ response => ¬ response.EndsTask
  | .lose .. => False
  | .advance | .emit .. | .conclude _ | .dispatch .. | .relay _ | .finish _ | .interrupt => True

instance (act : RunAct) : Decidable act.Plain := by
  unfold RunAct.Plain
  cases act <;> infer_instance

/-- No terminal status is enqueued, and no `cancel` is waiting. -/
def Served.Fresh (served : Served) : Prop :=
  Open Queued.Terminal served.queue ∧ ∀ call ∈ served.cancels.rows, call.awaits = none

/-- The steps under which the queues keep what is to hold. -/
def Allowed (executor : Executor) (label : String × Act) : Prop :=
  match label.2 with
  | .execute .. =>
      (executor label.1).Fresh ∧ ∀ run ∈ (executor label.1).runs.rows, ¬ run.UnderWay
  | .cancel .. => (executor label.1).Fresh
  | .act _ act => act.Plain
  | .collect _ | .resume _ => True

instance (served : Served) : Decidable served.Fresh := by
  unfold Served.Fresh
  infer_instance

instance (executor : Executor) (label : String × Act) : Decidable (Allowed executor label) := by
  unfold Allowed
  cases label.2 <;> infer_instance

/-! ### The invariant -/

/-- Puts nothing on the queue any more. -/
def Phase.Silent : Phase → Prop
  | .reported | .stopping | .done _ => True
  | .created | .submitted | .working | .closing _ => False

/-- Ends without a status of its own. -/
def Phase.Dying (phase : Phase) : Prop := phase = .closing .cancelled ∨ phase = .stopping

/-- Has put its terminal status. -/
def Phase.HasReported (phase : Phase) : Prop := phase = .reported ∨ phase = .done false

def Run.Clean (run : Run) : Prop :=
  ∀ entry ∈ run.streams.rows, ∀ event ∈ entry.2.pending, ¬ event.Terminal

/-- No terminal status yet; a waiting `cancel` is the only one and has stopped
whatever is not done. -/
structure Pending (served : Served) : Prop where
  opens : Open Queued.Terminal served.queue
  unreported : ∀ run ∈ served.runs.rows, ¬ run.phase.HasReported
  awaits : ∀ call ∈ served.cancels.rows, ∃ id, call.awaits = some id ∧
    ∀ run ∈ served.runs.rows, run.phase.isDone = false → run.id = id ∧ run.phase.Dying
  single : ∀ call ∈ served.cancels.rows, ∀ other ∈ served.cancels.rows, call.id = other.id

/-- One terminal status at the end of the queue, and nothing to come. -/
structure Over (served : Served) : Prop where
  closed : Closed Queued.Terminal served.queue
  silent : ∀ run ∈ served.runs.rows, run.phase.Silent
  returned : ∀ call ∈ served.cancels.rows, call.awaits = none

structure Sound (served : Served) : Prop where
  clean : ∀ run ∈ served.runs.rows, run.Clean
  underWay : ∀ run ∈ served.runs.rows, run.phase.isDone = false → run.UnderWay
  registered : ∀ run ∈ served.runs.rows, run.UnderWay → served.active = some run.id
  stage : Pending served ∨ Over served

theorem Sound.settled {served : Served} (sound : Sound served) : Settled served := by
  rcases sound.stage with pending | ended
  · constructor
    · exact pending.opens.at_end
    · rintro (⟨run, member, _, done⟩ | ⟨call, member, back⟩)
      · exact absurd (Or.inr done) (pending.unreported run member)
      · obtain ⟨id, waits, _⟩ := pending.awaits call member
        simp [back] at waits
  · exact ⟨ended.closed.at_end, fun _ => ended.closed.has⟩

/-- Only one `execute` is under way. -/
theorem Sound.unique {served : Served} (sound : Sound served) {run other : Run}
    (member : run ∈ served.runs.rows) (listed : other ∈ served.runs.rows) (runs : run.UnderWay)
    (goes : other.UnderWay) : run = other := by
  apply served.runs.row_unique member listed
  have same := (sound.registered run member runs).symm.trans (sound.registered other listed goes)
  exact Option.some.inj same

/-! ### Steps of a run -/

/-- What a step of a run keeps, and what it may put on the queue. -/
structure Shift (run next : Run) (entries : List Queued) : Prop where
  id : next.id = run.id
  underWay : next.UnderWay ↔ run.UnderWay
  undone : next.phase.isDone = false → run.phase.isDone = false
  clean : next.Clean
  silent : run.phase.Silent → entries = [] ∧ next.phase.Silent
  reports : ¬ run.phase.HasReported →
    (Open Queued.Terminal entries ∧ ¬ next.phase.HasReported ∧
      (run.phase.Dying → next.phase.isDone = false → next.phase.Dying)) ∨
    (¬ run.phase.Dying ∧ next.phase = .reported ∧ ∃ entry, entries = [entry] ∧ entry.Terminal)

variable {taskId : String} {run next : Run} {entries : List Queued}

theorem agent_runs_loud {phase : Phase} (runs : phase.agentRuns = true) :
    ¬ phase.Silent ∧ ¬ phase.HasReported := by
  cases phase <;> simp_all [Phase.agentRuns, Phase.Silent, Phase.HasReported]

theorem loud_undone {phase : Phase} (loud : ¬ phase.Silent) : phase.isDone = false := by
  cases phase with
  | done cancelled => exact absurd trivial loud
  | _ => rfl

/-- A step of the agent's tasks leaves the phase and puts at most plain events. -/
theorem agent_shift (runs : run.phase.agentRuns = true) (id : next.id = run.id)
    (phase : next.phase = run.phase) (execution : next.execution = run.execution)
    (clean : next.Clean) (plain : Open Queued.Terminal entries) : Shift run next entries where
  id := id
  underWay := by simp only [Run.UnderWay, execution]
  undone := by simp only [phase, imp_self]
  clean := clean
  silent := fun silent => absurd silent (agent_runs_loud runs).1
  reports := by
    intro unreported
    left
    rw [phase]
    exact ⟨plain, unreported, fun dying _ => dying⟩

theorem status_entry_terminal (contextId : String) (state : TaskState) (parts : List Part) :
    (statusEntry taskId contextId state parts).Terminal ↔ state ∈ terminalStates :=
  Iff.rfl

/-- Before the last report a run moves on with plain events. -/
theorem plain_shift {phase : Phase} (clean : run.Clean) (loud : ¬ run.phase.Silent)
    (plain : Open Queued.Terminal entries) (unreported : ¬ phase.HasReported)
    (dying : run.phase.Dying → phase.isDone = false → phase.Dying) :
    Shift run { run with phase } entries where
  id := rfl
  underWay := Iff.rfl
  undone := fun _ => loud_undone loud
  clean := clean
  silent := fun silent => absurd silent loud
  reports := fun _ => Or.inl ⟨plain, unreported, dying⟩

/-- An agent that was not cancelled ends with a terminal status. -/
theorem report_shift {outcome : Outcome} (clean : run.Clean) (phase : run.phase = .closing outcome)
    (alive : outcome ≠ .cancelled) {entry : Queued} (terminal : entry.Terminal) :
    Shift run { run with phase := .reported } [entry] where
  id := rfl
  underWay := Iff.rfl
  undone := by simp [phase, Phase.isDone]
  clean := clean
  silent := by simp [phase, Phase.Silent]
  reports := fun _ => Or.inr ⟨by simp [phase, Phase.Dying, alive], rfl, entry, rfl, terminal⟩

/-- A silent run comes to its end. -/
theorem silent_shift {cancelled : Bool} (clean : run.Clean)
    (reported : cancelled = false → run.phase = .reported) :
    Shift run { run with phase := .done cancelled } [] where
  id := rfl
  underWay := Iff.rfl
  undone := by simp [Phase.isDone]
  clean := clean
  silent := fun _ => ⟨rfl, trivial⟩
  reports := by
    intro unreported
    refine Or.inl ⟨Closings.open_nil, ?_, by simp [Phase.isDone]⟩
    rintro (early | done)
    · cases early
    · cases done
      exact unreported (Or.inl (reported rfl))

theorem advance_shift (clean : run.Clean) (taken : run.advance taskId = some (next, entries)) :
    Shift run next entries := by
  unfold Run.advance at taken
  cases phase : run.phase with
  | created =>
      simp only [phase, Option.some.injEq, Prod.mk.injEq] at taken
      obtain ⟨rfl, rfl⟩ := taken
      apply plain_shift clean
      · simp [phase, Phase.Silent]
      · exact Closings.open_singleton (by simp [Queued.Terminal])
      · simp [Phase.HasReported]
      · simp [phase, Phase.Dying]
  | submitted =>
      simp only [phase, Option.some.injEq, Prod.mk.injEq] at taken
      obtain ⟨rfl, rfl⟩ := taken
      apply plain_shift clean
      · simp [phase, Phase.Silent]
      · exact Closings.open_singleton (by simp [status_entry_terminal, terminalStates])
      · simp [Phase.HasReported]
      · simp [phase, Phase.Dying]
  | working => simp [phase] at taken
  | closing outcome =>
      simp only [phase, Option.ite_none_right_eq_some] at taken
      obtain ⟨_, taken⟩ := taken
      -- only an execution that was not cancelled reports an end
      cases outcome with
      | returned =>
          simp only [Option.some.injEq, Prod.mk.injEq] at taken
          obtain ⟨rfl, rfl⟩ := taken
          exact report_shift clean phase (by simp)
            (by simp [status_entry_terminal, terminalStates])
      | raised text =>
          simp only [Option.some.injEq, Prod.mk.injEq] at taken
          obtain ⟨rfl, rfl⟩ := taken
          exact report_shift clean phase (by simp)
            (by simp [status_entry_terminal, terminalStates])
      | cancelled =>
          simp only [Option.some.injEq, Prod.mk.injEq] at taken
          obtain ⟨rfl, rfl⟩ := taken
          apply plain_shift clean
          · simp [phase, Phase.Silent]
          · exact Closings.open_nil
          · simp [Phase.HasReported]
          · simp [Phase.isDone]
  | reported =>
      simp only [phase, Option.some.injEq, Prod.mk.injEq] at taken
      obtain ⟨rfl, rfl⟩ := taken
      exact silent_shift clean fun _ => phase
  | stopping =>
      simp only [phase, Option.some.injEq, Prod.mk.injEq] at taken
      obtain ⟨rfl, rfl⟩ := taken
      exact silent_shift clean (by simp)
  | done cancelled => simp [phase] at taken

/-- `task.cancel()` silences a run outside the agent and has the agent wind up. -/
theorem cancel_shift (clean : run.Clean) {execution : Execution}
    (same : ({ run with execution } : Run).UnderWay ↔ run.UnderWay) :
    Shift run { run with phase := run.phase.cancel, execution } [] where
  id := rfl
  underWay := same
  undone := by
    intro undone
    cases phase : run.phase with
    | done cancelled => simp [phase, Phase.cancel, Phase.isDone] at undone
    | _ => rfl
  clean := clean
  silent := by
    intro silent
    refine ⟨rfl, ?_⟩
    cases phase : run.phase <;> simp_all [Phase.Silent, Phase.cancel]
  reports := by
    intro unreported
    refine Or.inl ⟨Closings.open_nil, ?_, ?_⟩
    · cases phase : run.phase <;> simp_all [Phase.HasReported, Phase.cancel]
    · intro _ undone
      cases phase : run.phase <;> simp_all [Phase.Dying, Phase.cancel, Phase.isDone]

theorem clean_set (clean : run.Clean) (nodeId : String) {stream : Stream}
    (plain : ∀ event ∈ stream.pending, ¬ event.Terminal) :
    ({ run with streams := run.streams.set nodeId stream } : Run).Clean := by
  intro entry member event listed
  rcases (Table.mem_insert run.streams (nodeId, stream) entry).mp member with rfl | ⟨old, _⟩
  · exact plain event listed
  · exact clean entry old event listed

theorem clean_stream (clean : run.Clean) {nodeId : String} {stream : Stream}
    (found : run.streams.get? nodeId = some stream) : ∀ event ∈ stream.pending, ¬ event.Terminal :=
  clean (nodeId, stream) ((Dict.get?_eq_some_iff run.streams nodeId stream).mp found)

theorem receive_shift (clean : run.Clean) {nodeId : String}
    {take : Stream → Dict String (List Part) × List Event}
    (plain : ∀ stream, ∀ event ∈ (take stream).2, ¬ event.Terminal)
    (taken : run.receive nodeId take = some (next, entries)) : Shift run next entries := by
  unfold Run.receive at taken
  cases found : run.streams.get? nodeId with
  | none => simp [found] at taken
  | some stream =>
      simp only [found, Option.ite_none_right_eq_some, Option.some.injEq, Prod.mk.injEq] at taken
      obtain ⟨⟨runs, _⟩, rfl, rfl⟩ := taken
      exact agent_shift runs rfl rfl rfl (clean_set clean nodeId (plain stream)) Closings.open_nil

/-- A plain step of a run makes a shift. -/
theorem act_shift (clean : run.Clean) {act : RunAct} (plain : act.Plain)
    (taken : run.act taskId act = some (next, entries)) : Shift run next entries := by
  cases act with
  | advance => exact advance_shift clean taken
  -- what the agent emits itself is no end of the task
  | emit artifactId parts append lastChunk =>
      simp only [Run.act, Option.ite_none_right_eq_some, Option.some.injEq, Prod.mk.injEq] at taken
      obtain ⟨runs, rfl, rfl⟩ := taken
      exact agent_shift runs rfl rfl rfl clean
        (Closings.open_singleton (by simp [Queued.Terminal, Event.Terminal]))
  | conclude failure =>
      simp only [Run.act, Option.ite_none_right_eq_some, Option.some.injEq, Prod.mk.injEq] at taken
      obtain ⟨working, rfl, rfl⟩ := taken
      apply plain_shift clean
      · simp [working, Phase.Silent]
      · exact Closings.open_nil
      · simp [Phase.HasReported]
      · simp [working, Phase.Dying]
  | dispatch nodeId agentName =>
      simp only [Run.act, Option.ite_none_right_eq_some, Option.some.injEq, Prod.mk.injEq] at taken
      obtain ⟨⟨runs, _⟩, rfl, rfl⟩ := taken
      exact agent_shift runs rfl rfl rfl (clean_set clean nodeId (by simp)) Closings.open_nil
  | respond nodeId response =>
      apply receive_shift clean _ taken
      intro stream event member terminal
      exact plain ((handle_response_terminal stream.agentName taskId run.contextId stream.buffers
        response).mp ⟨event, member, terminal⟩)
  -- a lost stream is not plain: its failure reads like an end
  | lose nodeId text => exact absurd plain id
  -- the stream holds plain events only, and the rest of it stays plain
  | relay nodeId =>
      simp only [Run.act] at taken
      cases found : run.streams.get? nodeId with
      | none => simp [found] at taken
      | some stream =>
          have plainly := clean_stream clean found
          cases waiting : stream.pending with
          | nil => simp [found, waiting] at taken
          | cons event rest =>
              simp only [found, waiting, Option.ite_none_right_eq_some, Option.some.injEq,
                Prod.mk.injEq] at taken
              obtain ⟨runs, rfl, rfl⟩ := taken
              simp only [waiting, List.mem_cons, forall_eq_or_imp] at plainly
              exact agent_shift runs rfl rfl rfl (clean_set clean nodeId plainly.2)
                (Closings.open_singleton plainly.1)
  | finish nodeId =>
      simp only [Run.act] at taken
      cases found : run.streams.get? nodeId with
      | none => simp [found] at taken
      | some stream =>
          simp only [found, Option.ite_none_right_eq_some, Option.some.injEq,
            Prod.mk.injEq] at taken
          obtain ⟨⟨runs, _⟩, rfl, rfl⟩ := taken
          have kept : ({ run with streams := run.streams.erase nodeId } : Run).Clean := by
            intro entry member
            exact clean entry ((Table.mem_erase run.streams nodeId entry).mp member).1
          exact agent_shift runs rfl rfl rfl kept Closings.open_nil
  | interrupt =>
      simp only [Run.act, Option.ite_none_right_eq_some, Option.some.injEq, Prod.mk.injEq] at taken
      obtain ⟨awaiting, rfl, rfl⟩ := taken
      exact cancel_shift clean (by simp [Run.UnderWay, awaiting])

/-! ### Steps of the executor -/

variable {served after : Served}

theorem done_silent {phase : Phase} (done : phase.isDone = true) : phase.Silent := by
  by_contra loud
  simp [loud_undone loud] at done

theorem mem_put (entries : List Queued) {other : Run} :
    other ∈ (served.put next entries).runs.rows ↔
      other = next ∨ (other ∈ served.runs.rows ∧ other.id ≠ next.id) :=
  Table.mem_insert served.runs next other

/-- The report of a run ends its task: nothing else was still to come. -/
theorem report_over (sound : Sound served) (pending : Pending served)
    (member : run ∈ served.runs.rows) (id : next.id = run.id) (live : run.phase.isDone = false)
    (alive : ¬ run.phase.Dying) (silent : next.phase.Silent) {entry : Queued}
    (terminal : entry.Terminal) : Over (served.put next [entry]) where
  closed := pending.opens.close terminal
  silent := by
    intro other listed
    rcases (mem_put _).mp listed with rfl | ⟨old, different⟩
    · exact silent
    · by_contra loud
      have goes := sound.underWay other old (loud_undone loud)
      have same := sound.unique old member goes (sound.underWay run member live)
      rw [same, id] at different
      exact different rfl
  returned := by
    intro call listed
    obtain ⟨_, _, dying⟩ := pending.awaits call listed
    exact absurd (dying run member live).2 alive

theorem put_sound (sound : Sound served) (member : run ∈ served.runs.rows)
    (shift : Shift run next entries) : Sound (served.put next entries) where
  clean := by
    intro other listed
    rcases (mem_put _).mp listed with rfl | ⟨old, _⟩
    · exact shift.clean
    · exact sound.clean other old
  underWay := by
    intro other listed live
    rcases (mem_put _).mp listed with rfl | ⟨old, _⟩
    · exact shift.underWay.mpr (sound.underWay run member (shift.undone live))
    · exact sound.underWay other old live
  registered := by
    intro other listed runs
    rcases (mem_put _).mp listed with rfl | ⟨old, _⟩
    · rw [shift.id]
      exact sound.registered run member (shift.underWay.mp runs)
    · exact sound.registered other old runs
  stage := by
    rcases sound.stage with pending | ended
    · -- the step either stays silent or is the one report of the task
      rcases shift.reports (pending.unreported run member) with
        ⟨plain, unreported, dying⟩ | ⟨alive, reported, entry, rfl, terminal⟩
      · left
        constructor
        · exact pending.opens.append plain
        · intro other listed
          rcases (mem_put _).mp listed with rfl | ⟨old, _⟩
          · exact unreported
          · exact pending.unreported other old
        · intro call listed
          obtain ⟨id, waits, stopped⟩ := pending.awaits call listed
          refine ⟨id, waits, ?_⟩
          intro other present live
          rcases (mem_put _).mp present with rfl | ⟨old, _⟩
          · have before := stopped run member (shift.undone live)
            exact ⟨shift.id.trans before.1, dying before.2 live⟩
          · exact stopped other old live
        · exact pending.single
      · right
        have live : run.phase.isDone = false := shift.undone (by rw [reported]; rfl)
        exact report_over sound pending member shift.id live alive (by rw [reported]; trivial)
          terminal
    · right
      -- behind the end nothing more is enqueued
      obtain ⟨rfl, silent⟩ := shift.silent (ended.silent run member)
      constructor
      · simpa [Served.put] using ended.closed
      · intro other listed
        rcases (mem_put _).mp listed with rfl | ⟨old, _⟩
        · exact silent
        · exact ended.silent other old
      · exact ended.returned

/-- `execute` comes back only from a run that is done, and leaves its phase. -/
theorem collected_spec (back : run.collected = some next) :
    run.UnderWay ∧ run.phase.isDone = true ∧ ¬ next.UnderWay ∧
      ∃ execution, next = { run with execution } := by
  unfold Run.collected at back
  split at back
  · rename_i done awaiting
    cases back
    exact ⟨Or.inl awaiting, by rw [done]; rfl, by simp [Run.UnderWay], _, rfl⟩
  · rename_i cancelled done interrupted
    cases back
    refine ⟨Or.inr interrupted, by rw [done]; rfl, ?_, _, rfl⟩
    cases cancelled <;> simp [Run.UnderWay]
  · cases back

theorem collect_sound (sound : Sound served) (member : run ∈ served.runs.rows)
    (back : run.collected = some next) : Sound { served.put next [] with active := none } := by
  obtain ⟨runs, done, settled, execution, rfl⟩ := collected_spec back
  have phases : ∀ other ∈ (served.put { run with execution } []).runs.rows,
      ∃ old ∈ served.runs.rows, other.id = old.id ∧ other.phase = old.phase ∧
        other.streams = old.streams := by
    intro other listed
    rcases (mem_put []).mp listed with rfl | ⟨old, _⟩
    · exact ⟨run, member, rfl, rfl, rfl⟩
    · exact ⟨other, old, rfl, rfl, rfl⟩
  constructor
  · intro other listed
    obtain ⟨old, there, _, _, streams⟩ := phases other listed
    rw [Run.Clean, streams]
    exact sound.clean old there
  · intro other listed live
    rcases (mem_put []).mp listed with rfl | ⟨old, _⟩
    · simp [done] at live
    · exact sound.underWay other old live
  · -- the run that was collected is the only one that was under way
    intro other listed goes
    rcases (mem_put []).mp listed with rfl | ⟨old, different⟩
    · exact absurd goes settled
    · have same : other = run := sound.unique old member goes runs
      rw [same] at different
      exact absurd rfl different
  · rcases sound.stage with pending | ended
    · left
      constructor
      · simpa [Served.put] using pending.opens
      · intro other listed
        obtain ⟨old, there, _, phase, _⟩ := phases other listed
        rw [phase]
        exact pending.unreported old there
      · intro call listed
        obtain ⟨id, waits, stopped⟩ := pending.awaits call listed
        refine ⟨id, waits, ?_⟩
        intro other present live
        obtain ⟨old, there, same, phase, _⟩ := phases other present
        rw [phase] at live ⊢
        rw [same]
        exact stopped old there live
      · exact pending.single
    · right
      constructor
      · simpa [Served.put] using ended.closed
      · intro other listed
        obtain ⟨old, there, _, phase, _⟩ := phases other listed
        rw [phase]
        exact ended.silent old there
      · exact ended.returned

/-- Before its end a task with no waiting `cancel` has had none. -/
theorem Sound.fresh (sound : Sound served) (fresh : served.Fresh) :
    Pending served ∧ served.cancels.rows = [] := by
  rcases sound.stage with pending | ended
  · refine ⟨pending, List.eq_nil_iff_forall_not_mem.mpr ?_⟩
    intro call listed
    obtain ⟨id, waits, _⟩ := pending.awaits call listed
    simp [fresh.2 call listed] at waits
  · obtain ⟨entry, listed, terminal⟩ := ended.closed.has
    exact absurd terminal (fresh.1 entry listed)

theorem execute_sound (sound : Sound served) (fresh : served.Fresh)
    (resting : ∀ run ∈ served.runs.rows, ¬ run.UnderWay) {id : Nat} {contextId : String} :
    Sound { served with active := some id, runs := served.runs.insert { id, contextId } } := by
  obtain ⟨pending, uncancelled⟩ := sound.fresh fresh
  have listed : ∀ other ∈ (served.runs.insert { id, contextId }).rows,
      other = { id, contextId } ∨ other ∈ served.runs.rows := by
    intro other member
    exact ((Table.mem_insert served.runs _ other).mp member).imp_right And.left
  constructor
  · intro other member
    rcases listed other member with rfl | old
    · intro entry stream
      cases stream
    · exact sound.clean other old
  · intro other member live
    rcases listed other member with rfl | old
    · exact Or.inl rfl
    · exact sound.underWay other old live
  · intro other member runs
    rcases listed other member with rfl | old
    · rfl
    · exact absurd runs (resting other old)
  · left
    constructor
    · exact pending.opens
    · intro other member
      rcases listed other member with rfl | old
      · simp [Phase.HasReported]
      · exact pending.unreported other old
    · intro call member
      simp [uncancelled] at member
    · exact pending.single

theorem active_run_spec (found : served.activeRun = some run) :
    run ∈ served.runs.rows ∧ run.phase.isDone = false := by
  simp only [Served.activeRun, Option.filter_eq_some_iff, Option.bind_eq_some_iff,
    Bool.not_eq_eq_eq_not, Bool.not_true] at found
  obtain ⟨⟨id, _, known⟩, live⟩ := found
  exact ⟨Table.mem_of_find? known, live⟩

/-- Without an active run everything is done. -/
theorem Sound.all_done (sound : Sound served) (idle : served.activeRun = none)
    (member : run ∈ served.runs.rows) : run.phase.isDone = true := by
  by_contra alive
  have live : run.phase.isDone = false := by simpa using alive
  have active := sound.registered run member (sound.underWay run member live)
  simp [Served.activeRun, active, Table.find?_of_mem served.runs member, live] at idle

theorem canceled_terminal (contextId : String) :
    (statusEntry taskId contextId .canceled []).Terminal := by
  simp [status_entry_terminal, terminalStates]

/-- A `cancel` with nothing to wait for reports at once. -/
theorem cancel_idle_sound (sound : Sound served) (fresh : served.Fresh)
    (idle : served.activeRun = none) {id : Nat} {contextId : String} :
    Sound { served with
      cancels := served.cancels.insert { id, contextId, awaits := none }
      queue := served.queue ++ [statusEntry taskId contextId .canceled []] } where
  clean := sound.clean
  underWay := sound.underWay
  registered := sound.registered
  stage := by
    obtain ⟨pending, uncancelled⟩ := sound.fresh fresh
    right
    constructor
    · exact pending.opens.close (canceled_terminal contextId)
    · intro run member
      exact done_silent (sound.all_done idle member)
    · intro call member
      rcases (Table.mem_insert served.cancels _ call).mp member with rfl | ⟨old, _⟩
      · rfl
      · simp [uncancelled] at old

/-- A `cancel` that stops a run waits for it. -/
theorem cancel_run_sound (sound : Sound served) (fresh : served.Fresh)
    (found : served.activeRun = some run) {id : Nat} {contextId : String} :
    Sound { served.put { run with phase := run.phase.cancel } [] with
      cancels := served.cancels.insert { id, contextId, awaits := some run.id } } := by
  obtain ⟨pending, uncancelled⟩ := sound.fresh fresh
  obtain ⟨member, live⟩ := active_run_spec found
  have shift : Shift run { run with phase := run.phase.cancel } [] :=
    cancel_shift (sound.clean run member) Iff.rfl
  have stopped := put_sound sound member shift
  -- a cancelled run can only wind up
  have dying : run.phase.cancel.isDone = false → run.phase.cancel.Dying := by
    intro undone
    cases phase : run.phase with
    | done cancelled => simp [phase, Phase.isDone] at live
    | closing outcome => exact Or.inl rfl
    | _ => simp [Phase.cancel, Phase.Dying]
  refine ⟨stopped.clean, stopped.underWay, stopped.registered, Or.inl ?_⟩
  constructor
  · simpa [Served.put] using pending.opens
  · intro other listed
    rcases (mem_put []).mp listed with rfl | ⟨old, _⟩
    · rcases shift.reports (pending.unreported run member) with ⟨_, unreported, _⟩ | ⟨_, _, clash⟩
      · exact unreported
      · obtain ⟨entry, empty, _⟩ := clash
        cases empty
    · exact pending.unreported other old
  · intro call listed
    rcases (Table.mem_insert served.cancels _ call).mp listed with rfl | ⟨old, _⟩
    · refine ⟨run.id, rfl, ?_⟩
      intro other present goes
      rcases (mem_put []).mp present with rfl | ⟨old, different⟩
      · exact ⟨rfl, dying goes⟩
      · -- a second run under way would be this one
        have same : other = run :=
          sound.unique old member (sound.underWay other old goes) (sound.underWay run member live)
        exact absurd (congrArg Run.id same) different
    · simp [uncancelled] at old
  · intro call listed other present
    rcases (Table.mem_insert served.cancels _ call).mp listed with rfl | ⟨old, _⟩
    · rcases (Table.mem_insert served.cancels _ other).mp present with rfl | ⟨old, _⟩
      · rfl
      · simp [uncancelled] at old
    · simp [uncancelled] at old

/-- A `cancel` that goes on behind its run reports the end. -/
theorem resume_sound (sound : Sound served) {call : Cancel} (listed : call ∈ served.cancels.rows)
    (member : run ∈ served.runs.rows) (waits : call.awaits = some run.id)
    (done : run.phase.isDone = true) :
    Sound { served with
      cancels := served.cancels.insert { call with awaits := none }
      queue := served.queue ++ [statusEntry taskId call.contextId .canceled []] } where
  clean := sound.clean
  underWay := sound.underWay
  registered := sound.registered
  stage := by
    rcases sound.stage with pending | ended
    · right
      obtain ⟨id, awaited, stopped⟩ := pending.awaits call listed
      constructor
      · exact pending.opens.close (canceled_terminal call.contextId)
      · -- whatever were not done would be the run that is
        intro other present
        by_contra loud
        have live := loud_undone loud
        have same : other = run := served.runs.row_unique present member
          ((stopped other present live).1.trans (Option.some.inj (awaited.symm.trans waits)))
        simp [same, done] at live
      · intro other present
        rcases (Table.mem_insert served.cancels _ other).mp present with rfl | ⟨old, different⟩
        · rfl
        · exact absurd (pending.single other old call listed) different
    · simp [ended.returned call listed] at waits

/-- An allowed step keeps the invariant of its task. -/
theorem step_sound {executor : Executor} {act : Act} (sound : Sound (executor taskId))
    (allowed : Allowed executor (taskId, act))
    (taken : (executor taskId).step taskId act = some after) : Sound after := by
  generalize held : executor taskId = served at sound taken
  cases act with
  | execute id contextId =>
      simp only [Served.step, Option.ite_none_left_eq_some, Option.some.injEq] at taken
      obtain ⟨_, rfl⟩ := taken
      simp only [Allowed, held] at allowed
      exact execute_sound sound allowed.1 allowed.2
  | act id act =>
      simp only [Served.step] at taken
      cases known : served.runs.find? id with
      | none => simp [known] at taken
      | some run =>
          simp only [known, Option.map_eq_some_iff] at taken
          obtain ⟨⟨next, entries⟩, moved, rfl⟩ := taken
          have member := Table.mem_of_find? known
          exact put_sound sound member (act_shift (sound.clean run member) allowed moved)
  | collect id =>
      simp only [Served.step] at taken
      cases known : served.runs.find? id with
      | none => simp [known] at taken
      | some run =>
          simp only [known, Option.map_eq_some_iff] at taken
          obtain ⟨next, back, rfl⟩ := taken
          exact collect_sound sound (Table.mem_of_find? known) back
  | cancel id contextId =>
      simp only [Served.step, Option.ite_none_left_eq_some] at taken
      obtain ⟨_, taken⟩ := taken
      simp only [Allowed, held] at allowed
      cases found : served.activeRun with
      | none =>
          simp only [found, Option.some.injEq] at taken
          subst taken
          exact cancel_idle_sound sound allowed found
      | some run =>
          simp only [found, Option.some.injEq] at taken
          subst taken
          exact cancel_run_sound sound allowed found
  | resume id =>
      simp only [Served.step] at taken
      cases known : served.cancels.find? id with
      | none => simp [known] at taken
      | some call =>
          simp only [known, Option.ite_none_right_eq_some, Option.some.injEq] at taken
          obtain ⟨⟨run, member, waits, done⟩, rfl⟩ := taken
          exact resume_sound sound (Table.mem_of_find? known) member waits done

/-! ### Runs of the executor -/

theorem start_sound (taskId : String) : Sound (start taskId) where
  clean := by
    intro run member
    cases member
  underWay := by
    intro run member
    cases member
  registered := by
    intro run member
    cases member
  stage := by
    left
    constructor
    · exact Closings.open_nil
    · intro run member
      cases member
    · intro call member
      cases member
    · intro call member
      cases member

/-- In every run of allowed steps each task has at most one terminal status, with
nothing behind it, and exactly one once an `execute` of it returned by itself or
a `cancel` of it is back. -/
theorem one_terminal_last {labels : List (String × Act)} {final : Executor}
    (ran : Runs.run step start labels = some final)
    (allowed : Runs.Guarded step Allowed start labels) (taskId : String) :
    Settled (final taskId) := by
  have sound : ∀ taskId, Sound (final taskId) := by
    apply Runs.run_invariant (fun executor => ∀ taskId, Sound (executor taskId)) _ labels start
      final start_sound allowed ran
    intro executor label next sound allowed taken other
    simp only [step, Option.map_eq_some_iff] at taken
    obtain ⟨after, moved, rfl⟩ := taken
    by_cases same : other = label.1
    · rw [same, Function.update_self]
      exact step_sound (sound label.1) allowed moved
    · rw [Function.update_of_ne same]
      exact sound other
  exact (sound taskId).settled

/-- One remote node that answers with the response, from `execute` to the report. -/
def answered (response : Response) : List (String × Act) :=
  [("t1", .execute 0 "c1"), ("t1", .act 0 .advance), ("t1", .act 0 .advance),
    ("t1", .act 0 (.dispatch "n1" "writer")), ("t1", .act 0 (.respond "n1" response)),
    ("t1", .act 0 (.relay "n1")), ("t1", .act 0 (.finish "n1")), ("t1", .act 0 (.conclude none)),
    ("t1", .act 0 .advance), ("t1", .act 0 .advance), ("t1", .collect 0)]

def reply : Response := .artifactUpdate "r1" "c2" "a1" [textPart "done"] false true

theorem reply_settled : ∃ final, Runs.run step start (answered reply) = some final ∧
    Settled (final "t1") := by
  have ends : (Runs.run step start (answered reply)).isSome := by decide +kernel
  obtain ⟨final, ran⟩ := Option.isSome_iff_exists.mp ends
  exact ⟨final, ran, one_terminal_last ran (by decide +kernel) "t1"⟩

/-- The end of the remote task, relayed, is followed by that of the caller. -/
theorem relayed_end_counts :
    ¬ ∀ labels final, Runs.run step start labels = some final → ∀ taskId, Settled (final taskId) := by
  intro all
  have settled := all (answered (.statusUpdate "r1" "c2" .completed [])) _ rfl "t1"
  have none_behind := settled.last
    [.task "t1" "c1" .submitted, statusEntry "t1" "c1" .working []]
    (.event { taskId := "t1", contextId := "c1", author := "writer", remoteTaskId := some "r1",
              remoteContextId := some "c2", body := .status .completed [] })
    [statusEntry "t1" "c1" .completed []] rfl (by decide)
  cases none_behind

end Choirworks.A2a
