import Choirworks.Dag.Executor

/-!
What each operation of the runtime changes: one exact lemma for each field an
operation writes, and one that says that the rest is as before.
-/

namespace Choirworks.Dag.DagRuntime

theorem inPlan_iff {runtime : DagRuntime} {nodeId : String} :
    runtime.inPlan nodeId = true ↔ nodeId ∈ runtime.plan.ids := by
  simp [inPlan, DagPlan.ids]

def task? (runtime : DagRuntime) (nodeId : String) : Option NodeTask :=
  runtime.runningTasks.get? nodeId

def output? (runtime : DagRuntime) (nodeId : String) : Option String :=
  runtime.nodeOutputs.get? nodeId

theorem hasOutput_iff {runtime : DagRuntime} {nodeId : String} :
    runtime.hasOutput nodeId ↔ ∃ output, runtime.output? nodeId = some output :=
  Dict.mem_keys_iff_get? _ _

theorem mem_running_iff {runtime : DagRuntime} {nodeId : String} :
    nodeId ∈ runtime.runningTasks.keys ↔ ∃ task, runtime.task? nodeId = some task :=
  Dict.mem_keys_iff_get? _ _

/-! ### Collecting finished tasks -/

section Collect

variable {Seen : Type}

def lookup (rows : List (String × NodeTask)) (nodeId : String) : Option NodeTask :=
  (rows.find? fun row => row.1 = nodeId).map Prod.snd

theorem lookup_cons_self (nodeId : String) (task : NodeTask) (rest : List (String × NodeTask)) :
    lookup ((nodeId, task) :: rest) nodeId = some task := by
  simp [lookup]

theorem lookup_cons_other {row : String × NodeTask} {nodeId : String} (different : nodeId ≠ row.1)
    (rest : List (String × NodeTask)) : lookup (row :: rest) nodeId = lookup rest nodeId := by
  simp [lookup, Ne.symm different]

theorem lookup_fresh {rows : List (String × NodeTask)} {nodeId : String}
    (fresh : nodeId ∉ rows.map Prod.fst) : lookup rows nodeId = none := by
  simp only [List.mem_map, not_exists, not_and] at fresh
  simpa [lookup] using fun name task member same => fresh (name, task) member same

/-- A per-node observation that collecting a task changes at that task's node
only: over all rows the node's own row decides. -/
theorem collect_rows_at (observe : DagRuntime → String → Seen) (effect : Seen → NodeTask → Seen)
    (own : ∀ runtime nodeId task, observe (collectTask runtime (nodeId, task)) nodeId =
      effect (observe runtime nodeId) task)
    (other : ∀ runtime row nodeId, nodeId ≠ row.1 →
      observe (collectTask runtime row) nodeId = observe runtime nodeId)
    (rows : List (String × NodeTask)) (once : (rows.map Prod.fst).Nodup)
    (runtime : DagRuntime) (nodeId : String) :
    observe (rows.foldl collectTask runtime) nodeId =
      (lookup rows nodeId).elim (observe runtime nodeId) (effect (observe runtime nodeId)) := by
  induction rows generalizing runtime with
  | nil => rfl
  | cons row rest ih =>
      obtain ⟨fresh, once⟩ := List.nodup_cons.mp once
      rw [List.foldl_cons, ih once]
      by_cases same : nodeId = row.1
      · subst same
        rw [lookup_fresh fresh, lookup_cons_self]
        exact own runtime row.1 row.2
      · rw [lookup_cons_other same, other runtime row nodeId same]

theorem collect_done_at (observe : DagRuntime → String → Seen) (effect : Seen → NodeTask → Seen)
    (own : ∀ runtime nodeId task, observe (collectTask runtime (nodeId, task)) nodeId =
      effect (observe runtime nodeId) task)
    (other : ∀ runtime row nodeId, nodeId ≠ row.1 →
      observe (collectTask runtime row) nodeId = observe runtime nodeId)
    (runtime : DagRuntime) (nodeId : String) :
    observe runtime.collectDone nodeId =
      (runtime.task? nodeId).elim (observe runtime nodeId) (effect (observe runtime nodeId)) :=
  collect_rows_at observe effect own other _ runtime.runningTasks.unique runtime nodeId

theorem collect_rows_frame (rows : List (String × NodeTask)) (runtime : DagRuntime) :
    (rows.foldl collectTask runtime).agents = runtime.agents ∧
      (rows.foldl collectTask runtime).plan = runtime.plan ∧
      (rows.foldl collectTask runtime).doneRequested = runtime.doneRequested := by
  induction rows generalizing runtime with
  | nil => exact ⟨rfl, rfl, rfl⟩
  | cons row rest ih =>
      obtain ⟨nodeId, task⟩ := row
      obtain ⟨agents, plan, done⟩ := ih (runtime.collectTask (nodeId, task))
      rw [List.foldl_cons, agents, plan, done]
      cases task <;> exact ⟨rfl, rfl, rfl⟩

@[simp] theorem collect_done_agents (runtime : DagRuntime) :
    runtime.collectDone.agents = runtime.agents := (collect_rows_frame _ runtime).1

@[simp] theorem collect_done_plan (runtime : DagRuntime) :
    runtime.collectDone.plan = runtime.plan := (collect_rows_frame _ runtime).2.1

@[simp] theorem collect_done_done_requested (runtime : DagRuntime) :
    runtime.collectDone.doneRequested = runtime.doneRequested := (collect_rows_frame _ runtime).2.2

/-- What the collection of a task leaves of the status of its node. -/
@[simp] def settledStatus (before : Option NodeStatus) : NodeTask → Option NodeStatus
  | .running _ => before
  | .finished _ => some .completed
  | .raised _ => some .failed

/-- What it leaves of the output. -/
@[simp] def settledOutput (before : Option String) : NodeTask → Option String
  | .finished output => some output
  | _ => before

/-- What it leaves of the task itself. -/
@[simp] def settledTask (before : Option NodeTask) : NodeTask → Option NodeTask
  | .running _ => before
  | _ => none

theorem collect_done_status (runtime : DagRuntime) (nodeId : String) :
    runtime.collectDone.status nodeId =
      match runtime.task? nodeId with
      | some (.finished _) => some .completed
      | some (.raised _) => some .failed
      | _ => runtime.status nodeId := by
  rw [collect_done_at status settledStatus]
  · rcases runtime.task? nodeId with _ | ⟨_⟩ | ⟨_⟩ | ⟨_⟩ <;> rfl
  · intro runtime nodeId task
    cases task <;> simp [collectTask, status, recordCompletion, recordFailure]
  · rintro runtime ⟨name, task⟩ nodeId different
    cases task <;> simp_all [collectTask, status, recordCompletion, recordFailure]

theorem collect_done_output (runtime : DagRuntime) (nodeId : String) :
    runtime.collectDone.output? nodeId =
      match runtime.task? nodeId with
      | some (.finished output) => some output
      | _ => runtime.output? nodeId := by
  rw [collect_done_at output? settledOutput]
  · rcases runtime.task? nodeId with _ | ⟨_⟩ | ⟨_⟩ | ⟨_⟩ <;> rfl
  · intro runtime nodeId task
    cases task <;> simp [collectTask, output?, recordCompletion, recordFailure]
  · rintro runtime ⟨name, task⟩ nodeId different
    cases task <;> simp_all [collectTask, output?, recordCompletion, recordFailure]

theorem collect_done_task (runtime : DagRuntime) (nodeId : String) :
    runtime.collectDone.task? nodeId =
      match runtime.task? nodeId with
      | some (.running message) => some (.running message)
      | _ => none := by
  rw [collect_done_at task? settledTask]
  · rcases known : runtime.task? nodeId with _ | ⟨_⟩ | ⟨_⟩ | ⟨_⟩ <;> simp
  · intro runtime nodeId task
    cases task <;> simp [collectTask, task?, recordCompletion, recordFailure]
  · rintro runtime ⟨name, task⟩ nodeId different
    cases task <;> simp_all [collectTask, task?, recordCompletion, recordFailure]

/-- The boundary event of a collected task. -/
def collectedRecord (runtime : DagRuntime) (row : String × NodeTask) : Option CompletionRecord :=
  if runtime.judgable row.1 then
    match row.2 with
    | .running _ => none
    | .finished output => some ⟨row.1, output, none⟩
    | .raised error => some ⟨row.1, "", some error⟩
  else none

theorem collect_rows_completions (rows : List (String × NodeTask)) (runtime : DagRuntime) :
    (rows.foldl collectTask runtime).completions =
      runtime.completions ++ rows.filterMap runtime.collectedRecord := by
  induction rows generalizing runtime with
  | nil => simp
  | cons row rest ih =>
      obtain ⟨nodeId, task⟩ := row
      have sameRecord : (runtime.collectTask (nodeId, task)).collectedRecord =
          runtime.collectedRecord := by
        cases task <;> rfl
      rw [List.foldl_cons, ih, sameRecord]
      cases task with
      | running message => simp [collectTask, collectedRecord]
      | finished output =>
          by_cases judged : runtime.judgable nodeId = true <;>
            simp_all [collectTask, recordCompletion, collectedRecord, judgable, inPlan]
      | raised error =>
          by_cases judged : runtime.judgable nodeId = true <;>
            simp_all [collectTask, recordFailure, collectedRecord, judgable, inPlan]

theorem collect_done_completions (runtime : DagRuntime) :
    runtime.collectDone.completions =
      runtime.completions ++ runtime.runningTasks.rows.filterMap runtime.collectedRecord :=
  collect_rows_completions _ runtime

end Collect

/-! ### Tasks that finish -/

section Finish

theorem finish_frame (runtime : DagRuntime) (wave : Wave) :
    runtime.finish wave = { runtime with runningTasks := (runtime.finish wave).runningTasks } := by
  simp only [finish]
  induction wave generalizing runtime with
  | nil => rfl
  | cons ended rest ih =>
      rw [List.foldl_cons, ih]
      simp only [finishTask]
      split <;> rfl

/-- The result a wave holds for a node. -/
def ending (wave : Wave) (nodeId : String) : Option (Except String String) :=
  (wave.find? fun ended => ended.1 = nodeId).map Prod.snd

theorem ending_some {wave : Wave} {nodeId : String} (listed : nodeId ∈ wave.map Prod.fst) :
    ∃ result, (nodeId, result) ∈ wave ∧ ending wave nodeId = some result := by
  obtain ⟨ended, member, same⟩ := List.mem_map.mp listed
  cases found : wave.find? (fun ended => ended.1 = nodeId) with
  | none => exact absurd same (by simpa using List.find?_eq_none.mp found ended member)
  | some first =>
      have named : first.1 = nodeId := by simpa using List.find?_some found
      exact ⟨first.2, named ▸ List.mem_of_find?_eq_some found, by simp [ending, found]⟩

/-- A task at work takes the first result the wave holds for it; every other
task is as before. -/
theorem finish_task (runtime : DagRuntime) (wave : Wave) (nodeId : String) :
    (runtime.finish wave).task? nodeId =
      match runtime.task? nodeId, ending wave nodeId with
      | some (.running _), some result => some (.ofResult result)
      | task, _ => task := by
  induction wave generalizing runtime with
  | nil =>
      rw [show runtime.finish [] = runtime from rfl]
      rcases runtime.task? nodeId with _ | ⟨_⟩ | ⟨_⟩ | ⟨_⟩ <;> rfl
  | cons ended rest ih =>
      obtain ⟨name, result⟩ := ended
      rw [show runtime.finish ((name, result) :: rest) =
        (runtime.finishTask (name, result)).finish rest from rfl, ih]
      by_cases same : nodeId = name
      · subst same
        have hit : ending ((nodeId, result) :: rest) nodeId = some result := by simp [ending]
        rw [hit]
        rcases known : runtime.runningTasks.get? nodeId with _ | ⟨_⟩ | ⟨_⟩ | ⟨_⟩
        all_goals simp only [finishTask, task?, known]
        rw [Dict.get?_set, if_pos rfl]
        cases result <;> rfl
      · have miss : ending ((name, result) :: rest) nodeId = ending rest nodeId := by
          simp [ending, Ne.symm same]
        have kept : (runtime.finishTask (name, result)).task? nodeId = runtime.task? nodeId := by
          simp only [finishTask]
          split
          · simp [task?, same]
          · rfl
        rw [miss, kept]

theorem finish_keys (runtime : DagRuntime) (wave : Wave) (nodeId : String) :
    nodeId ∈ (runtime.finish wave).runningTasks.keys ↔ nodeId ∈ runtime.runningTasks.keys := by
  rw [mem_running_iff, mem_running_iff, finish_task]
  rcases runtime.task? nodeId with _ | ⟨_⟩ | ⟨_⟩ | ⟨_⟩ <;> cases ending wave nodeId <;> simp

/-- A wave of other tasks changes nothing. -/
theorem finish_untracked (runtime : DagRuntime) (wave : Wave)
    (untracked : ∀ ended ∈ wave, ended.1 ∉ runtime.runningTasks.keys) :
    runtime.finish wave = runtime := by
  simp only [finish]
  induction wave with
  | nil => rfl
  | cons ended rest ih =>
      have absent := untracked ended List.mem_cons_self
      rw [mem_running_iff] at absent
      have same : runtime.finishTask ended = runtime := by
        unfold finishTask
        split
        · rename_i message known
          exact absurd ⟨_, known⟩ absent
        · rfl
      rw [List.foldl_cons, same]
      exact ih fun other member => untracked other (List.mem_cons_of_mem _ member)

end Finish

/-! ### Waiting -/

section Wait

/-- The first wave that ends a tracked task, and the waves behind it. -/
def firstHit (tracked : List String) : List Wave → Option (Wave × List Wave)
  | [] => none
  | wave :: rest =>
      if ∃ ended ∈ wave, ended.1 ∈ tracked then some (wave, rest) else firstHit tracked rest

/-- Nothing of what runs has finished yet. -/
def Undone (runtime : DagRuntime) : Prop :=
  ∀ nodeId task, runtime.task? nodeId = some task → task.done = false

theorem undone_rows {runtime : DagRuntime} (undone : runtime.Undone) :
    ∀ row ∈ runtime.runningTasks.rows, row.2.done = false := by
  rintro ⟨nodeId, task⟩ member
  exact undone nodeId task ((Dict.get?_eq_some_iff _ _ _).mpr member)

theorem wait_one_eq (runtime : DagRuntime) (undone : runtime.Undone)
    (busy : runtime.runningTasks.rows ≠ []) (waves : List Wave) :
    runtime.waitOne waves =
      (firstHit runtime.runningTasks.keys waves).map fun (wave, rest) =>
        (runtime.finish wave, rest) := by
  have waits : ¬ (runtime.runningTasks.rows = [] ∨
      ∃ row ∈ runtime.runningTasks.rows, row.2.done = true) := by
    rintro (empty | ⟨row, member, done⟩)
    · exact busy empty
    · simp [undone_rows undone row member] at done
  induction waves with
  | nil => rw [waitOne, if_neg waits]; rfl
  | cons wave rest ih =>
      rw [waitOne, if_neg waits]
      by_cases hit : ∃ ended ∈ wave, ended.1 ∈ runtime.runningTasks.keys
      · obtain ⟨⟨name, result⟩, member, tracked⟩ := hit
        have ended : ∃ row ∈ (runtime.finish wave).runningTasks.rows, row.2.done = true := by
          obtain ⟨task, known⟩ := mem_running_iff.mp tracked
          obtain ⟨taken, _, found⟩ := ending_some (List.mem_map_of_mem member)
          have running := undone name task known
          cases task with
          | finished output => cases running
          | raised error => cases running
          | running message =>
              have now : (runtime.finish wave).task? name = some (.ofResult taken) := by
                rw [finish_task, known, found]
              refine ⟨_, (Dict.get?_eq_some_iff _ _ _).mp now, ?_⟩
              cases taken <;> rfl
        have done : (runtime.finish wave).waitOne rest = some (runtime.finish wave, rest) := by
          unfold waitOne
          rw [if_pos (Or.inr ended)]
        rw [done, firstHit, if_pos ⟨_, member, tracked⟩]
        rfl
      · have same := finish_untracked runtime wave fun ended member tracked =>
          hit ⟨ended, member, tracked⟩
        rw [same, ih, firstHit, if_neg hit]

theorem first_hit_congr {left right : List String} (same : ∀ nodeId, nodeId ∈ left ↔ nodeId ∈ right)
    (waves : List Wave) : firstHit left waves = firstHit right waves := by
  induction waves with
  | nil => rfl
  | cons wave rest ih => simp only [firstHit, same, ih]

theorem first_hit_spec {tracked : List String} {waves : List Wave} {wave : Wave}
    {rest : List Wave} (hit : firstHit tracked waves = some (wave, rest)) :
    ∃ before, waves = before ++ wave :: rest ∧
      (∀ earlier ∈ before, ∀ ended ∈ earlier, ended.1 ∉ tracked) ∧
      ∃ ended ∈ wave, ended.1 ∈ tracked := by
  induction waves with
  | nil => cases hit
  | cons first others ih =>
      by_cases ends : ∃ ended ∈ first, ended.1 ∈ tracked
      · rw [firstHit, if_pos ends] at hit
        cases hit
        exact ⟨[], rfl, by simp, ends⟩
      · rw [firstHit, if_neg ends] at hit
        obtain ⟨before, same, missed, found⟩ := ih hit
        refine ⟨first :: before, by simp [same], ?_, found⟩
        intro earlier member ended inside tracks
        rcases List.mem_cons.mp member with same | later
        · exact ends ⟨ended, same ▸ inside, tracks⟩
        · exact missed earlier later ended inside tracks

/-- Every one of these tasks finishes in some wave. -/
def Covers (nodeIds : List String) (waves : List Wave) : Prop :=
  ∀ nodeId ∈ nodeIds, ∃ wave ∈ waves, nodeId ∈ wave.map Prod.fst

instance (nodeIds : List String) (waves : List Wave) : Decidable (Covers nodeIds waves) :=
  inferInstanceAs (Decidable (∀ nodeId ∈ nodeIds, ∃ wave ∈ waves, nodeId ∈ wave.map Prod.fst))

theorem first_hit_covered {tracked : List String} {waves : List Wave}
    (covers : Covers tracked waves) (some_tracked : tracked ≠ []) :
    ∃ wave rest, firstHit tracked waves = some (wave, rest) := by
  obtain ⟨nodeId, others, rfl⟩ := List.exists_cons_of_ne_nil some_tracked
  obtain ⟨wave, member, listed⟩ := covers nodeId List.mem_cons_self
  clear covers
  induction waves with
  | nil => cases member
  | cons first rest ih =>
      by_cases ends : ∃ ended ∈ first, ended.1 ∈ nodeId :: others
      · exact ⟨first, rest, if_pos ends⟩
      · rcases List.mem_cons.mp member with same | later
        · obtain ⟨ended, inside, named⟩ := List.mem_map.mp listed
          exact absurd ⟨ended, same ▸ inside, by simp [named]⟩ ends
        · obtain ⟨hit, behind, found⟩ := ih later
          exact ⟨hit, behind, by rw [firstHit, if_neg ends, found]⟩

theorem undone_collect_done (runtime : DagRuntime) : runtime.collectDone.Undone := by
  intro nodeId task known
  rw [collect_done_task] at known
  split at known
  · cases known
    rfl
  · cases known

/-- A task that is left after a wave was collected ran before and is not in the wave. -/
theorem finish_collect_keys {runtime : DagRuntime} {wave : Wave} {nodeId : String}
    (left : nodeId ∈ (runtime.finish wave).collectDone.runningTasks.keys) :
    nodeId ∈ runtime.runningTasks.keys ∧ nodeId ∉ wave.map Prod.fst := by
  rw [mem_running_iff, collect_done_task, finish_task] at left
  rw [mem_running_iff]
  rcases known : runtime.task? nodeId with _ | ⟨_⟩ | ⟨_⟩ | ⟨_⟩
  all_goals simp only [known] at left
  · simp at left
  · refine ⟨⟨_, rfl⟩, ?_⟩
    intro listed
    obtain ⟨result, _, found⟩ := ending_some listed
    cases result <;> simp [found, NodeTask.ofResult] at left
  · simp at left
  · simp at left

theorem keys_length (runtime : DagRuntime) :
    runtime.runningTasks.keys.length = runtime.runningTasks.rows.length := List.length_map ..

theorem keys_eq_nil (runtime : DagRuntime) :
    runtime.runningTasks.keys = [] ↔ runtime.runningTasks.rows = [] := List.map_eq_nil_iff

/-- Behind an empty plan an invocation returns as soon as every task has finished. -/
theorem drain_ends (fuel : Nat) (runtime : DagRuntime) (undone : runtime.Undone)
    (enough : runtime.runningTasks.rows.length ≤ fuel) (waves : List Wave)
    (covers : Covers runtime.runningTasks.keys waves) :
    ∃ drained, drain fuel runtime waves = some drained ∧
      drained.doneRequested = runtime.doneRequested := by
  induction fuel generalizing runtime waves with
  | zero =>
      have none : runtime.runningTasks.rows = [] := List.length_eq_zero_iff.mp (by omega)
      exact ⟨runtime, if_pos none, rfl⟩
  | succ fuel ih =>
      by_cases idle : runtime.runningTasks.rows = []
      · exact ⟨runtime, if_pos idle, rfl⟩
      · have busy : runtime.runningTasks.keys ≠ [] := (keys_eq_nil runtime).not.mpr idle
        obtain ⟨wave, rest, hit⟩ := first_hit_covered covers busy
        obtain ⟨before, split, missed, ended, member, tracked⟩ := first_hit_spec hit
        have waited : runtime.waitOne waves = some (runtime.finish wave, rest) := by
          rw [wait_one_eq runtime undone idle, hit]
          rfl
        let next := (runtime.finish wave).collectDone
        -- the task that ended the wait is gone, so the rest is shorter
        have shrinks : next.runningTasks.rows.length < runtime.runningTasks.rows.length := by
          rw [← keys_length, ← keys_length]
          have inside : next.runningTasks.keys ⊆ runtime.runningTasks.keys.erase ended.1 := by
            intro nodeId left
            obtain ⟨old, absent⟩ := finish_collect_keys left
            have different : nodeId ≠ ended.1 := by
              rintro rfl
              exact absent (List.mem_map_of_mem member)
            exact (List.mem_erase_of_ne different).mpr old
          have shorter := (List.subperm_of_subset next.runningTasks.unique inside).length_le
          have positive := List.length_pos_of_mem tracked
          rw [List.length_erase_of_mem tracked] at shorter
          exact Nat.lt_of_le_of_lt shorter (by omega)
        have covered : Covers next.runningTasks.keys rest := by
          intro nodeId left
          obtain ⟨old, absent⟩ := finish_collect_keys left
          obtain ⟨other, inside, listed⟩ := covers nodeId old
          rw [split] at inside
          rcases List.mem_append.mp inside with earlier | later
          · obtain ⟨entry, found, named⟩ := List.mem_map.mp listed
            exact absurd (named ▸ old) (missed other earlier entry found)
          · rcases List.mem_cons.mp later with same | behind
            · exact absurd (same ▸ listed) absent
            · exact ⟨other, behind, listed⟩
        obtain ⟨drained, ran, same⟩ := ih next (undone_collect_done _) (by omega) rest covered
        refine ⟨drained, ?_, ?_⟩
        · rw [drain, if_neg idle, waited]
          exact ran
        · rw [same, collect_done_done_requested, finish_frame]

end Wait

/-! ### The boundary queue -/

section Queue

theorem pop_judgable_none {judged : String → Bool} {records : List CompletionRecord} :
    popJudgable judged records = none ↔ ∀ record ∈ records, judged record.nodeId = false := by
  induction records with
  | nil => simp [popJudgable]
  | cons first rest ih =>
      cases hit : judged first.nodeId <;> simp [popJudgable, hit, ih]

theorem pop_judgable_some {judged : String → Bool} {records rest : List CompletionRecord}
    {record : CompletionRecord} (popped : popJudgable judged records = some (record, rest)) :
    judged record.nodeId = true ∧ (record :: rest).Sublist records := by
  induction records with
  | nil => cases popped
  | cons first others ih =>
      cases hit : judged first.nodeId with
      | true =>
          simp only [popJudgable, hit, ↓reduceIte] at popped
          cases popped
          exact ⟨hit, List.Sublist.refl _⟩
      | false =>
          simp only [popJudgable, hit, Bool.false_eq_true, ↓reduceIte] at popped
          obtain ⟨judgedRecord, inside⟩ := ih popped
          exact ⟨judgedRecord, inside.cons first⟩

end Queue

/-! ### Dispatching -/

section Dispatch

/-- `next` differs from `runtime` in the statuses and tasks of `started` only. -/
structure Started (started : List String) (runtime next : DagRuntime) : Prop where
  frame : next =
    { runtime with nodeStatus := next.nodeStatus, runningTasks := next.runningTasks }
  statuses : ∀ nodeId, next.status nodeId =
    if nodeId ∈ started then some .running else runtime.status nodeId
  tasks : ∀ nodeId, nodeId ∉ started → next.task? nodeId = runtime.task? nodeId
  spawned : ∀ nodeId ∈ started, ∃ message, next.task? nodeId = some (.running message)

theorem dispatch_node_ok {runtime next : DagRuntime} {nodeId : String}
    (ran : runtime.dispatchNode nodeId = .ok next) :
    ∃ node, next = { runtime with
      nodeStatus := runtime.nodeStatus.set nodeId .running
      runningTasks := runtime.runningTasks.set nodeId
        (.running (runtime.buildNodeMessage node)) } := by
  unfold dispatchNode at ran
  split at ran
  · cases ran
  · rename_i node found
    split at ran
    · cases ran
      exact ⟨node, rfl⟩
    · cases ran

theorem dispatch_nodes_ok {nodeIds : List String} {runtime next : DagRuntime}
    (ran : dispatchNodes nodeIds runtime = .ok next) : Started nodeIds runtime next := by
  induction nodeIds generalizing runtime with
  | nil =>
      cases ran
      exact ⟨rfl, by simp, by simp, by simp⟩
  | cons nodeId rest ih =>
      rw [dispatchNodes] at ran
      split at ran
      · cases ran
      · rename_i first dispatched
        obtain ⟨node, rfl⟩ := dispatch_node_ok dispatched
        obtain ⟨frame, statuses, tasks, spawned⟩ := ih ran
        refine ⟨frame, ?_, ?_, ?_⟩
        · intro other
          rw [statuses]
          by_cases later : other ∈ rest
          · simp [later]
          · by_cases same : other = nodeId <;> simp [later, same, status]
        · intro other outside
          simp only [List.mem_cons, not_or] at outside
          rw [tasks other outside.2]
          simp [task?, outside.1]
        · intro other started
          by_cases later : other ∈ rest
          · exact spawned other later
          · obtain rfl := (List.mem_cons.mp started).resolve_right later
            rw [tasks other later]
            exact ⟨runtime.buildNodeMessage node, by simp [task?]⟩

theorem dispatch_nodes_started (nodeIds : List String) (runtime : DagRuntime)
    (known : KnownAgents runtime.agents runtime.plan)
    (planned : ∀ nodeId ∈ nodeIds, nodeId ∈ runtime.plan.ids) :
    ∃ next, dispatchNodes nodeIds runtime = .ok next ∧ Started nodeIds runtime next := by
  have ran : ∃ next, dispatchNodes nodeIds runtime = .ok next := by
    induction nodeIds generalizing runtime with
    | nil => exact ⟨runtime, rfl⟩
    | cons nodeId rest ih =>
        obtain ⟨entry, member, named⟩ := DagPlan.mem_ids.mp (planned nodeId List.mem_cons_self)
        cases found : runtime.plan.find? nodeId with
        | none => exact absurd named (by simpa using List.find?_eq_none.mp found entry member)
        | some node =>
            have agent := known node (List.mem_of_find?_eq_some found)
            simp only [dispatchNodes, dispatchNode, found, agent, ↓reduceIte]
            exact ih _ known fun other later => planned other (List.mem_cons_of_mem _ later)
  obtain ⟨next, ran⟩ := ran
  exact ⟨next, ran, dispatch_nodes_ok ran⟩

end Dispatch

/-! ### Applying a plan -/

section Apply

theorem merge_deps_reachable (reachable : String → Bool) (deps oldDeps : List String) :
    ∀ dep ∈ mergeDeps reachable deps oldDeps, reachable dep = true := by
  have fold : ∀ (rest merged : List String), (∀ dep ∈ merged, reachable dep = true) →
      ∀ dep ∈ rest.foldl (fun merged dep =>
        if dep ∉ merged ∧ reachable dep then merged ++ [dep] else merged) merged,
      reachable dep = true := by
    intro rest
    induction rest with
    | nil => exact fun merged holds => holds
    | cons first rest ih =>
        intro merged holds
        rw [List.foldl_cons]
        apply ih
        split
        · rename_i added
          simpa [or_imp, forall_and] using ⟨holds, added.2⟩
        · exact holds
  exact fold (deps ++ oldDeps) [] (by simp)

theorem adopt_node_id (runtime : DagRuntime) (newIds : List String) (node : PlanNode) :
    (runtime.adoptNode newIds node).id = node.id := by
  unfold adoptNode
  split <;> rfl

theorem adopt_node_agent (runtime : DagRuntime) (newIds : List String) (node : PlanNode) :
    (runtime.adoptNode newIds node).agentName = node.agentName := by
  unfold adoptNode
  split <;> rfl

/-- Only a node that waits for an assist gets other dependencies than the plan gives it. -/
theorem adopt_node_deps (runtime : DagRuntime) (newIds : List String) (node : PlanNode) :
    (runtime.adoptNode newIds node).deps = node.deps ∨
      (runtime.status node.id = some .waitingAssist ∧
        ∀ dep ∈ (runtime.adoptNode newIds node).deps, dep ∈ newIds ∨ runtime.hasOutput dep) := by
  unfold adoptNode
  split
  · exact Or.inl rfl
  · rename_i old _
    by_cases waiting : runtime.status node.id = some .waitingAssist
    · right
      refine ⟨waiting, ?_⟩
      intro dep member
      simp only [waiting, ↓reduceIte] at member
      simpa using merge_deps_reachable _ node.deps old.deps dep member
    · left
      simp [waiting]

theorem add_statuses_status (runtime : DagRuntime) (nodes : List PlanNode) (nodeId : String) :
    (runtime.addStatuses nodes).get? nodeId =
      if nodeId ∈ nodes.map (·.id) ∧ runtime.inPlan nodeId = false then
        some (addedStatus (runtime.status nodeId))
      else runtime.status nodeId := by
  have fold : ∀ statuses : Dict String NodeStatus,
      Dict.get? (nodes.foldl (fun statuses node =>
        if runtime.inPlan node.id then statuses
        else statuses.set node.id (addedStatus (runtime.status node.id))) statuses) nodeId =
      if nodeId ∈ nodes.map (·.id) ∧ runtime.inPlan nodeId = false then
        some (addedStatus (runtime.status nodeId))
      else statuses.get? nodeId := by
    induction nodes with
    | nil => simp
    | cons node rest ih =>
        intro statuses
        rw [List.foldl_cons, ih]
        by_cases same : nodeId = node.id
        · subst same
          cases planned : runtime.inPlan node.id <;> simp
        · cases planned : runtime.inPlan node.id <;> simp [same]
  exact fold runtime.nodeStatus

theorem add_statuses_kept {runtime : DagRuntime} {nodeId : String} {kept : NodeStatus}
    (known : runtime.status nodeId = some kept) (alive : kept ≠ .cancelled) (nodes : List PlanNode) :
    (runtime.addStatuses nodes).get? nodeId = some kept := by
  rw [add_statuses_status, known]
  split
  · cases kept <;> simp_all [addedStatus]
  · rfl

theorem add_statuses_back {runtime : DagRuntime} {nodeId : String} {found : NodeStatus}
    {nodes : List PlanNode} (now : (runtime.addStatuses nodes).get? nodeId = some found)
    (settled : found ≠ .pending) : runtime.status nodeId = some found := by
  rw [add_statuses_status] at now
  split at now
  · generalize runtime.status nodeId = old at now ⊢
    rcases old with _ | old
    · simp_all [addedStatus]
    · cases old <;> simp_all [addedStatus]
  · exact now

variable {runtime next : DagRuntime} {newPlan : DagPlan}

/-- The fields of an accepted plan change. -/
theorem apply_plan_ok (applied : runtime.applyPlan newPlan = .ok next) :
    newPlan.Valid ∧ next = { runtime with
      doneRequested := newPlan.nodes.isEmpty
      completions := if newPlan.nodes.isEmpty then [] else runtime.completions
      plan := ⟨newPlan.nodes.map (runtime.adoptNode newPlan.ids)⟩
      nodeStatus := runtime.addStatuses newPlan.nodes } := by
  unfold applyPlan at applied
  split at applied
  · cases applied
  · rename_i passed
    cases applied
    exact ⟨validatePlan_valid passed, rfl⟩

theorem apply_plan_ids (applied : runtime.applyPlan newPlan = .ok next) :
    next.plan.ids = newPlan.ids := by
  obtain ⟨_, rfl⟩ := apply_plan_ok applied
  simp [DagPlan.ids, Function.comp_def, adopt_node_id]

end Apply

/-! ### Assists -/

section Assist

theorem assist_id_ne (parentId : String) (sequence : Nat) : assistId parentId sequence ≠ parentId := by
  intro same
  have lengths := congrArg String.length same
  have suffix : "-assist".length = 7 := rfl
  simp only [assistId, String.length_append] at lengths
  omega

theorem add_assist_status (runtime : DagRuntime) (parentId agentName instruction nodeId : String) :
    (runtime.addAssist parentId agentName instruction).status nodeId =
      if nodeId = parentId then some .waitingAssist
      else if nodeId = assistId parentId (runtime.assistSeq + 1) then some .pending
      else runtime.status nodeId := by
  simp [addAssist, status]

/-- Wiring changes the dependencies of the parent only, by the assist. -/
theorem wire_parent_mem {parentId assist : String} {nodes : List PlanNode} {node : PlanNode}
    (member : node ∈ wireParent parentId assist nodes) :
    ∃ old ∈ nodes, node.id = old.id ∧ node.agentName = old.agentName ∧
      (node.deps = old.deps ∨ (old.id = parentId ∧ ∀ dep ∈ node.deps, dep ∈ old.deps ∨ dep = assist)) := by
  induction nodes with
  | nil => simp [wireParent] at member
  | cons first rest ih =>
      by_cases hit : first.id = parentId
      · rw [wireParent, if_pos hit, List.mem_cons] at member
        rcases member with same | later
        · refine ⟨first, List.mem_cons_self, ?_⟩
          subst same
          refine ⟨rfl, rfl, Or.inr ⟨hit, ?_⟩⟩
          intro dep depends
          dsimp only at depends
          split at depends
          · exact Or.inl depends
          · simpa using depends
        · exact ⟨node, List.mem_cons_of_mem _ later, rfl, rfl, Or.inl rfl⟩
      · simp only [wireParent, hit, ↓reduceIte, List.mem_cons] at member
        rcases member with same | later
        · subst same
          exact ⟨node, List.mem_cons_self, rfl, rfl, Or.inl rfl⟩
        · obtain ⟨old, inside, wired⟩ := ih later
          exact ⟨old, List.mem_cons_of_mem _ inside, wired⟩

theorem wire_parent_ids (parentId assist : String) (nodes : List PlanNode) :
    (wireParent parentId assist nodes).map (·.id) = nodes.map (·.id) := by
  induction nodes with
  | nil => rfl
  | cons first rest ih =>
      by_cases hit : first.id = parentId <;> simp [wireParent, hit, ih]

theorem add_assist_ids (runtime : DagRuntime) (parentId agentName instruction : String) :
    (runtime.addAssist parentId agentName instruction).plan.ids =
      runtime.plan.ids ++ [assistId parentId (runtime.assistSeq + 1)] := by
  simp [addAssist, DagPlan.ids, wire_parent_ids]

end Assist

/-! ### The ends of an invocation -/

section Ends

variable {runtime next : DagRuntime} {waves rest : List Wave} {ended : Outcome × DagRuntime}

/-- The end of an invocation that has waited. -/
inductive RouteEnds (runtime : DagRuntime) : Outcome × DagRuntime → Prop where
  | abort {failed : CompletionRecord} (found : runtime.failedCompletion = some failed) :
      RouteEnds runtime (.raised (abortText failed), runtime.shutdown)
  | judge {record : CompletionRecord} {next : DagRuntime} (fine : runtime.failedCompletion = none)
      (popped : runtime.popCompletion = (some record, next)) :
      RouteEnds runtime (.judge record.nodeId, next)
  | stuck {next : DagRuntime} (fine : runtime.failedCompletion = none)
      (popped : runtime.popCompletion = (none, next)) :
      RouteEnds runtime (.raised noProgressText, next)

theorem route_waited_ends (runtime : DagRuntime) : RouteEnds runtime runtime.routeWaited := by
  unfold routeWaited
  cases failing : runtime.failedCompletion with
  | some failed => exact .abort failing
  | none =>
      cases popped : runtime.popCompletion with
      | mk found next =>
          cases found with
          | some record => exact .judge failing popped
          | none => exact .stuck failing popped

inductive DispatchEnds (runtime : DagRuntime) (waves : List Wave) : Outcome × DagRuntime → Prop where
  | unknown {text : String} {stopped : DagRuntime}
      (ready : runtime.dispatchReady = .error (text, stopped)) :
      DispatchEnds runtime waves (.raised text, stopped)
  | idle {next : DagRuntime} (ready : runtime.dispatchReady = .ok next)
      (idle : next.hasWork = false) : DispatchEnds runtime waves (.default, next)
  | waited {next waited : DagRuntime} {rest : List Wave} {ended : Outcome × DagRuntime}
      (ready : runtime.dispatchReady = .ok next) (busy : next.hasWork ≠ false)
      (waits : next.waitOne waves = some (waited, rest))
      (routed : RouteEnds waited.collectDone ended) : DispatchEnds runtime waves ended

theorem dispatch_and_wait_ends (ran : runtime.dispatchAndWait waves = some ended) :
    DispatchEnds runtime waves ended := by
  unfold dispatchAndWait at ran
  split at ran
  · rename_i ready
    cases ran
    exact .unknown ready
  · rename_i next ready
    split at ran
    · rename_i idle
      cases ran
      exact .idle ready idle
    · rename_i busy
      obtain ⟨⟨waited, rest⟩, waits, rfl⟩ := Option.map_eq_some_iff.mp ran
      exact .waited ready busy waits (route_waited_ends _)

/-- The end of an invocation behind its plan and its collection. -/
inductive ProceedEnds (runtime : DagRuntime) (waves : List Wave) : Outcome × DagRuntime → Prop where
  | drained {last : DagRuntime} (asked : runtime.doneRequested = true)
      (drained : drain runtime.runningTasks.rows.length runtime waves = some last) :
      ProceedEnds runtime waves (.default, last)
  | abort {failed : CompletionRecord} (unasked : ¬runtime.doneRequested = true)
      (found : runtime.failedCompletion = some failed) :
      ProceedEnds runtime waves (.raised (abortText failed), runtime.shutdown)
  | judge {record : CompletionRecord} {next : DagRuntime} (unasked : ¬runtime.doneRequested = true)
      (fine : runtime.failedCompletion = none)
      (popped : runtime.popCompletion = (some record, next)) :
      ProceedEnds runtime waves (.judge record.nodeId, next)
  | dispatch {next : DagRuntime} {ended : Outcome × DagRuntime}
      (unasked : ¬runtime.doneRequested = true) (fine : runtime.failedCompletion = none)
      (popped : runtime.popCompletion = (none, next))
      (later : next.dispatchAndWait waves = some ended) : ProceedEnds runtime waves ended

theorem proceed_ends (ran : runtime.proceed waves = some ended) :
    ProceedEnds runtime waves ended := by
  unfold DagRuntime.proceed at ran
  split at ran
  · rename_i asked
    obtain ⟨last, drained, rfl⟩ := Option.map_eq_some_iff.mp ran
    exact .drained asked drained
  · rename_i unasked
    split at ran
    · rename_i failed found
      cases ran
      exact .abort unasked found
    · rename_i fine
      split at ran
      · rename_i record next popped
        cases ran
        exact .judge unasked fine popped
      · rename_i next popped
        exact .dispatch unasked fine popped ran

inductive InvocationEnds (runtime : DagRuntime) (input : Option DagPlan) (waves : List Wave) :
    Outcome × DagRuntime → Prop where
  | refused {text : String} (applied : runtime.applyPlanInput input = .error text) :
      InvocationEnds runtime input waves (.raised text, runtime)
  | proceeded {planned : DagRuntime} {ended : Outcome × DagRuntime}
      (applied : runtime.applyPlanInput input = .ok planned)
      (later : planned.collectDone.proceed waves = some ended) :
      InvocationEnds runtime input waves ended

theorem run_impl_ends {input : Option DagPlan} (ran : runtime.runImpl input waves = some ended) :
    InvocationEnds runtime input waves ended := by
  unfold runImpl at ran
  split at ran
  · rename_i text applied
    cases ran
    exact .refused applied
  · rename_i planned applied
    exact .proceeded applied ran

/-! What none of it touches. -/

theorem pop_plan (runtime : DagRuntime) :
    runtime.popCompletion.2 =
      { runtime with completions := runtime.popCompletion.2.completions } := by
  unfold popCompletion
  split <;> rfl

theorem wait_one_frame (ended : runtime.waitOne waves = some (next, rest)) :
    next = { runtime with runningTasks := next.runningTasks } := by
  induction waves generalizing runtime with
  | nil =>
      unfold waitOne at ended
      split at ended
      · cases ended
        rfl
      · cases ended
  | cons wave waves ih =>
      unfold waitOne at ended
      split at ended
      · cases ended
        rfl
      · rw [ih ended, finish_frame]

/-- Waiting for all tasks keeps the plan, the request to end and the catalog. -/
theorem drain_frame (fuel : Nat) (ended : drain fuel runtime waves = some next) :
    next.plan = runtime.plan ∧ next.doneRequested = runtime.doneRequested ∧
      next.agents = runtime.agents := by
  induction fuel generalizing runtime waves with
  | zero =>
      unfold drain at ended
      split at ended <;> cases ended
      exact ⟨rfl, rfl, rfl⟩
  | succ fuel ih =>
      unfold drain at ended
      split at ended
      · cases ended
        exact ⟨rfl, rfl, rfl⟩
      · cases waiting : runtime.waitOne waves with
        | none => simp [waiting] at ended
        | some waited =>
            simp only [waiting] at ended
            obtain ⟨plan, done, agents⟩ := ih ended
            rw [plan, done, agents, collect_done_plan, collect_done_done_requested,
              collect_done_agents, wait_one_frame waiting]
            exact ⟨rfl, rfl, rfl⟩

end Ends

end Choirworks.Dag.DagRuntime
