import Choirworks.Dag.Effects

/-!
The invariant of an orchestrator run without failing tasks: plan, statuses,
tasks, outputs and boundary queue agree, and what is not finished in the plan
is ranked by its dependencies. Every event keeps it, provided no assist gets
the id of a completion that is still queued.
-/

namespace Choirworks.Dag

open DagRuntime

structure Wf (runtime : DagRuntime) : Prop where
  agents : KnownAgents runtime.agents runtime.plan
  statuses : ∀ nodeId ∈ runtime.plan.ids, ∃ status, runtime.status nodeId = some status
  noFailure : ∀ nodeId, runtime.status nodeId ≠ some .failed ∧
    runtime.status nodeId ≠ some .cancelled
  outputs : ∀ nodeId, runtime.status nodeId = some .completed ∨
    runtime.status nodeId = some .waitingAssist → runtime.hasOutput nodeId
  running : ∀ nodeId, runtime.status nodeId = some .running →
    nodeId ∈ runtime.runningTasks.keys
  tasks : ∀ nodeId ∈ runtime.runningTasks.keys,
    runtime.status nodeId = some .running ∨ runtime.status nodeId = some .pending
  noRaise : ∀ nodeId error, runtime.task? nodeId ≠ some (.raised error)
  ranked : ∃ rank : String → Nat, ∀ node ∈ runtime.plan.nodes, ¬ runtime.hasOutput node.id →
    ∀ dep ∈ node.deps, rank dep < rank node.id
  deps : ∀ node ∈ runtime.plan.nodes, ∀ dep ∈ node.deps,
    dep ∈ runtime.plan.ids ∨ runtime.hasOutput dep
  queue : ∀ record ∈ runtime.completions,
    record.error = none ∧ runtime.status record.nodeId = some .completed
  queueOnce : (runtime.completions.map (·.nodeId)).Nodup

/-- The id handed to the helper is completed and not queued again. -/
def RoutedOk (runtime : DagRuntime) (nodeId : String) : Prop :=
  runtime.status nodeId = some .completed ∧ nodeId ∉ runtime.completions.map (·.nodeId)

def Inv (system : Orchestrator) : Prop :=
  Wf system.runtime ∧ ∀ nodeId ∈ system.routed, RoutedOk system.runtime nodeId

def Succeeds (wave : Wave) : Prop := ∀ ended ∈ wave, ended.2.isOk = true

instance (wave : Wave) : Decidable (Succeeds wave) :=
  inferInstanceAs (Decidable (∀ ended ∈ wave, ended.2.isOk = true))

theorem start_wf (agents : Dict String AgentInfo) (userTask : String) :
    Wf (.start agents userTask) where
  agents := by simp [KnownAgents, start, DagPlan.empty]
  statuses := by simp [start, DagPlan.ids, DagPlan.empty]
  noFailure := by simp [status, start]
  outputs := by simp [status, start]
  running := by simp [status, start]
  tasks := by simp [start]
  noRaise := by simp [task?, start]
  ranked := ⟨fun _ => 0, by simp [start, DagPlan.empty]⟩
  deps := by simp [start, DagPlan.empty]
  queue := by simp [start]
  queueOnce := by simp [start]

/-! ### The invariant under each operation -/

section Keep

variable {runtime : DagRuntime}

theorem Wf.of_result (wf : Wf runtime) (wave : Wave) (succeeds : Succeeds wave) :
    Wf (runtime.finish wave) := by
  have frame := finish_frame runtime wave
  have keys := finish_keys runtime wave
  have tasks := finish_task runtime wave
  generalize runtime.finish wave = next at *
  rw [frame] at *
  refine { wf with running := ?_, tasks := ?_, noRaise := ?_ }
  · intro nodeId isRunning
    exact (keys nodeId).mpr (wf.running nodeId isRunning)
  · intro nodeId tracked
    exact wf.tasks nodeId ((keys nodeId).mp tracked)
  · intro nodeId error failed
    rw [tasks] at failed
    cases known : runtime.task? nodeId with
    | none => simp [known] at failed
    | some task =>
        have fine := wf.noRaise nodeId
        rw [known] at failed fine
        cases task with
        | finished output => simp at failed
        | raised text => exact fine text rfl
        | running message =>
            cases found : ending wave nodeId with
            | none => simp [found] at failed
            | some result =>
                simp only [found, Option.some.injEq] at failed
                simp only [ending, Option.map_eq_some_iff] at found
                obtain ⟨ended, hit, same⟩ := found
                have ok := succeeds ended (List.mem_of_find?_eq_some hit)
                rw [same] at ok
                cases result with
                | ok output => simp [NodeTask.ofResult] at failed
                | error text => simp [Except.isOk, Except.toBool] at ok

theorem collected_records (wf : Wf runtime) {record : CompletionRecord}
    (member : record ∈ runtime.runningTasks.rows.filterMap runtime.collectedRecord) :
    record.error = none ∧ runtime.judgable record.nodeId = true ∧
      ∃ output, runtime.task? record.nodeId = some (.finished output) := by
  obtain ⟨⟨nodeId, task⟩, row, made⟩ := List.mem_filterMap.mp member
  have known : runtime.task? nodeId = some task := (Dict.get?_eq_some_iff _ _ _).mpr row
  unfold collectedRecord at made
  split at made
  · rename_i judged
    cases task with
    | running message => cases made
    | finished output =>
        cases made
        exact ⟨rfl, judged, output, known⟩
    | raised error => exact absurd known (wf.noRaise nodeId error)
  · cases made

theorem collected_ids_sublist (runtime : DagRuntime) (rows : List (String × NodeTask)) :
    ((rows.filterMap runtime.collectedRecord).map (·.nodeId)).Sublist (rows.map Prod.fst) := by
  induction rows with
  | nil => simp
  | cons row rest ih =>
      cases made : runtime.collectedRecord row with
      | none =>
          rw [List.filterMap_cons_none made, List.map_cons]
          exact ih.cons row.1
      | some record =>
          have named : record.nodeId = row.1 := by
            obtain ⟨nodeId, task⟩ := row
            unfold collectedRecord at made
            split at made
            · cases task <;> cases made <;> rfl
            · cases made
          rw [List.filterMap_cons_some made, List.map_cons, List.map_cons, named]
          exact ih.cons_cons row.1

/-- A queued id is completed, so it has no task. -/
theorem Wf.queued_no_task (wf : Wf runtime) {nodeId : String}
    (completed : runtime.status nodeId = some .completed) : runtime.task? nodeId = none := by
  cases known : runtime.task? nodeId with
  | none => rfl
  | some task =>
      rcases wf.tasks nodeId (mem_running_iff.mpr ⟨task, known⟩) with same | same <;>
        simp [completed] at same

theorem Wf.collect_done (wf : Wf runtime) : Wf runtime.collectDone := by
  have statusOf := collect_done_status runtime
  have outputOf := collect_done_output runtime
  have taskOf := collect_done_task runtime
  -- an output stays, and a finished task adds one
  have grows : ∀ nodeId, runtime.hasOutput nodeId → runtime.collectDone.hasOutput nodeId := by
    intro nodeId has
    rw [hasOutput_iff] at has ⊢
    rw [outputOf]
    rcases runtime.task? nodeId with _ | ⟨_⟩ | ⟨_⟩ | ⟨_⟩ <;> simp [has]
  constructor
  case agents => simpa using wf.agents
  case statuses =>
    intro nodeId planned
    rw [collect_done_plan] at planned
    rw [statusOf]
    rcases runtime.task? nodeId with _ | ⟨_⟩ | ⟨_⟩ | ⟨_⟩ <;> simp [wf.statuses nodeId planned]
  case noFailure =>
    intro nodeId
    rw [statusOf]
    rcases known : runtime.task? nodeId with _ | ⟨_⟩ | ⟨_⟩ | ⟨_⟩
    · exact wf.noFailure nodeId
    · exact wf.noFailure nodeId
    · simp
    · exact absurd known (wf.noRaise nodeId _)
  case outputs =>
    intro nodeId done
    rw [statusOf] at done
    rcases known : runtime.task? nodeId with _ | ⟨_⟩ | ⟨_⟩ | ⟨_⟩
    all_goals rw [known] at done
    · exact grows nodeId (wf.outputs nodeId done)
    · exact grows nodeId (wf.outputs nodeId done)
    · rw [hasOutput_iff, outputOf, known]
      exact ⟨_, rfl⟩
    · exact absurd known (wf.noRaise nodeId _)
  case running =>
    intro nodeId isRunning
    rw [statusOf] at isRunning
    rw [mem_running_iff, taskOf]
    rcases known : runtime.task? nodeId with _ | ⟨_⟩ | ⟨_⟩ | ⟨_⟩
    all_goals simp only [known] at isRunning
    · obtain ⟨task, tracked⟩ := mem_running_iff.mp (wf.running nodeId isRunning)
      simp [known] at tracked
    · simp
    · simp at isRunning
    · simp at isRunning
  case tasks =>
    intro nodeId tracked
    rw [mem_running_iff, taskOf] at tracked
    rw [statusOf]
    rcases known : runtime.task? nodeId with _ | ⟨_⟩ | ⟨_⟩ | ⟨_⟩
    all_goals simp only [known] at tracked ⊢
    · simp at tracked
    · exact wf.tasks nodeId (mem_running_iff.mpr ⟨_, known⟩)
    · simp at tracked
    · simp at tracked
  case noRaise =>
    intro nodeId error
    rw [taskOf]
    rcases runtime.task? nodeId with _ | ⟨_⟩ | ⟨_⟩ | ⟨_⟩ <;> simp
  case ranked =>
    obtain ⟨rank, ranked⟩ := wf.ranked
    refine ⟨rank, ?_⟩
    rw [collect_done_plan]
    intro node member unfinished
    exact ranked node member fun has => unfinished (grows node.id has)
  case deps =>
    rw [collect_done_plan]
    intro node member dep depends
    exact (wf.deps node member dep depends).imp_right (grows dep)
  case queue =>
    rw [collect_done_completions]
    intro record member
    rw [statusOf]
    rcases List.mem_append.mp member with old | new
    · obtain ⟨ok, completed⟩ := wf.queue record old
      rw [wf.queued_no_task completed]
      exact ⟨ok, completed⟩
    · obtain ⟨ok, _, output, known⟩ := collected_records wf new
      rw [known]
      exact ⟨ok, rfl⟩
  case queueOnce =>
    rw [collect_done_completions, List.map_append]
    have once := (collected_ids_sublist runtime _).nodup runtime.runningTasks.unique
    refine wf.queueOnce.append once ?_
    intro nodeId old new
    obtain ⟨record, queued, rfl⟩ := List.mem_map.mp old
    obtain ⟨fresh, collected, same⟩ := List.mem_map.mp new
    obtain ⟨_, _, output, known⟩ := collected_records wf collected
    rw [same, wf.queued_no_task (wf.queue record queued).2] at known
    cases known

theorem Wf.apply_plan (wf : Wf runtime) {newPlan : DagPlan} {next : DagRuntime}
    (known : KnownAgents runtime.agents newPlan) (applied : runtime.applyPlan newPlan = .ok next) :
    Wf next := by
  have ids := apply_plan_ids applied
  obtain ⟨valid, rfl⟩ := apply_plan_ok applied
  constructor
  case agents =>
    intro node member
    obtain ⟨source, inside, rfl⟩ := List.mem_map.mp member
    rw [adopt_node_agent]
    exact known source inside
  case statuses =>
    intro nodeId planned
    rw [ids] at planned
    by_cases old : runtime.inPlan nodeId = true
    · obtain ⟨found, same⟩ := wf.statuses nodeId (inPlan_iff.mp old)
      exact ⟨found, by simp [status, add_statuses_status, old, ← same]⟩
    · simp only [Bool.not_eq_true] at old
      exact ⟨_, by
        simp only [status, add_statuses_status]
        exact if_pos ⟨planned, old⟩⟩
  case noFailure =>
    intro nodeId
    have fine := wf.noFailure nodeId
    exact ⟨fun now => fine.1 (add_statuses_back now (by simp)),
      fun now => fine.2 (add_statuses_back now (by simp))⟩
  case outputs =>
    rintro nodeId (now | now)
    · exact wf.outputs nodeId (Or.inl (add_statuses_back now (by simp)))
    · exact wf.outputs nodeId (Or.inr (add_statuses_back now (by simp)))
  case running =>
    intro nodeId now
    exact wf.running nodeId (add_statuses_back now (by simp))
  case tasks =>
    intro nodeId tracked
    rcases wf.tasks nodeId tracked with same | same
    · exact Or.inl (add_statuses_kept same (by simp) _)
    · exact Or.inr (add_statuses_kept same (by simp) _)
  case noRaise => exact wf.noRaise
  case ranked =>
    obtain ⟨rank, ranked⟩ := valid.ranked
    refine ⟨rank, ?_⟩
    intro node member unfinished dep depends
    obtain ⟨source, inside, rfl⟩ := List.mem_map.mp member
    rw [adopt_node_id] at unfinished ⊢
    rcases adopt_node_deps runtime newPlan.ids source with same | ⟨waiting, _⟩
    · exact ranked source inside dep (same ▸ depends)
    · -- Only a waiting node keeps its old dependencies, and it has its output.
      exact absurd (wf.outputs source.id (Or.inr waiting)) unfinished
  case deps =>
    intro node member dep depends
    rw [ids]
    obtain ⟨source, inside, rfl⟩ := List.mem_map.mp member
    rcases adopt_node_deps runtime newPlan.ids source with same | ⟨_, reachable⟩
    · exact Or.inl (valid.known source inside dep (same ▸ depends))
    · exact reachable dep depends
  case queue =>
    intro record member
    dsimp only at member
    split at member
    · cases member
    · obtain ⟨ok, completed⟩ := wf.queue record member
      exact ⟨ok, add_statuses_kept completed (by simp) _⟩
  case queueOnce =>
    dsimp only
    split
    · simp
    · exact wf.queueOnce

theorem RoutedOk.apply_plan {nodeId : String} (routed : RoutedOk runtime nodeId)
    {newPlan : DagPlan} {next : DagRuntime} (applied : runtime.applyPlan newPlan = .ok next) :
    RoutedOk next nodeId := by
  obtain ⟨_, rfl⟩ := apply_plan_ok applied
  refine ⟨add_statuses_kept routed.1 (by simp) _, ?_⟩
  dsimp only
  split
  · simp
  · exact routed.2

/-- Dropping records from the queue keeps the invariant. -/
theorem Wf.drop_records (wf : Wf runtime) {records : List CompletionRecord}
    (fewer : records.Sublist runtime.completions) : Wf { runtime with completions := records } :=
  { wf with
    queue := fun record member => wf.queue record (fewer.subset member)
    queueOnce := (fewer.map _).nodup wf.queueOnce }

theorem Wf.started (wf : Wf runtime) {started : List String} {next : DagRuntime}
    (effect : Started started runtime next)
    (ready : ∀ nodeId ∈ started, runtime.status nodeId = some .pending ∨
      runtime.status nodeId = some .waitingAssist) : Wf next := by
  obtain ⟨frame, statuses, tasks, spawned⟩ := effect
  have statusOf : ∀ nodeId ∉ started, next.status nodeId = runtime.status nodeId :=
    fun nodeId outside => (statuses nodeId).trans (if_neg outside)
  have startedStatus : ∀ nodeId ∈ started, next.status nodeId = some .running :=
    fun nodeId inside => (statuses nodeId).trans (if_pos inside)
  have trackedOld : ∀ nodeId ∉ started, nodeId ∈ next.runningTasks.keys ↔
      nodeId ∈ runtime.runningTasks.keys := by
    intro nodeId outside
    rw [mem_running_iff, mem_running_iff, tasks nodeId outside]
  have agents : next.agents = runtime.agents := by rw [frame]
  have plan : next.plan = runtime.plan := by rw [frame]
  have outputs : ∀ nodeId, next.hasOutput nodeId ↔ runtime.hasOutput nodeId := by
    intro nodeId
    rw [frame]
    exact Iff.rfl
  have completions : next.completions = runtime.completions := by rw [frame]
  constructor
  case agents =>
    rw [agents, plan]
    exact wf.agents
  case statuses =>
    intro nodeId planned
    by_cases inside : nodeId ∈ started
    · exact ⟨_, startedStatus nodeId inside⟩
    · rw [statusOf nodeId inside]
      exact wf.statuses nodeId (plan ▸ planned)
  case noFailure =>
    intro nodeId
    by_cases inside : nodeId ∈ started
    · simp [startedStatus nodeId inside]
    · rw [statusOf nodeId inside]
      exact wf.noFailure nodeId
  case outputs =>
    intro nodeId done
    rw [outputs]
    by_cases inside : nodeId ∈ started
    · simp [startedStatus nodeId inside] at done
    · rw [statusOf nodeId inside] at done
      exact wf.outputs nodeId done
  case running =>
    intro nodeId isRunning
    by_cases inside : nodeId ∈ started
    · obtain ⟨message, task⟩ := spawned nodeId inside
      exact mem_running_iff.mpr ⟨_, task⟩
    · rw [statusOf nodeId inside] at isRunning
      exact (trackedOld nodeId inside).mpr (wf.running nodeId isRunning)
  case tasks =>
    intro nodeId tracked
    by_cases inside : nodeId ∈ started
    · exact Or.inl (startedStatus nodeId inside)
    · rw [statusOf nodeId inside]
      exact wf.tasks nodeId ((trackedOld nodeId inside).mp tracked)
  case noRaise =>
    intro nodeId error
    by_cases inside : nodeId ∈ started
    · obtain ⟨message, task⟩ := spawned nodeId inside
      simp [task]
    · rw [tasks nodeId inside]
      exact wf.noRaise nodeId error
  case ranked =>
    obtain ⟨rank, ranked⟩ := wf.ranked
    refine ⟨rank, ?_⟩
    rw [plan]
    intro node member unfinished
    exact ranked node member fun has => unfinished ((outputs node.id).mpr has)
  case deps =>
    rw [plan]
    intro node member dep depends
    exact (wf.deps node member dep depends).imp_right (outputs dep).mpr
  case queue =>
    rw [completions]
    intro record member
    obtain ⟨ok, completed⟩ := wf.queue record member
    refine ⟨ok, ?_⟩
    rw [statusOf, completed]
    -- A queued node is completed, and what was started was pending or waiting.
    intro inside
    rcases ready _ inside with same | same <;> simp [completed] at same
  case queueOnce =>
    rw [completions]
    exact wf.queueOnce

/-- An assist for a node that has ended, under an id that is not queued. -/
theorem Wf.add_assist (wf : Wf runtime) {parentId agentName : String} (instruction : String)
    (agent : agentName ∈ runtime.agents.keys)
    (ended : runtime.status parentId = some .completed ∨
      runtime.status parentId = some .waitingAssist)
    (parentFresh : parentId ∉ runtime.completions.map (·.nodeId))
    (fresh : assistId parentId (runtime.assistSeq + 1) ∉ runtime.completions.map (·.nodeId)) :
    Wf (runtime.addAssist parentId agentName instruction) := by
  have statusOf := add_assist_status runtime parentId agentName instruction
  have ids := add_assist_ids runtime parentId agentName instruction
  have different := assist_id_ne parentId (runtime.assistSeq + 1)
  have nodes : (runtime.addAssist parentId agentName instruction).plan.nodes =
      wireParent parentId (assistId parentId (runtime.assistSeq + 1)) runtime.plan.nodes ++
        [{ id := assistId parentId (runtime.assistSeq + 1)
           name := "assist:" ++ agentName
           agentName
           instruction := instruction ++ "\n\n[" ++ parentId ++ " output]\n" ++ outputRef parentId
           deps := []
           assistFor := some parentId }] := rfl
  have parentOutput := wf.outputs parentId ended
  -- A task belongs to a running or a pending node, so the parent has none.
  have untracked : parentId ∉ runtime.runningTasks.keys := by
    intro tracked
    rcases ended with same | same <;> rcases wf.tasks parentId tracked with now | now <;>
      simp [same] at now
  generalize assistId parentId (runtime.assistSeq + 1) = assist at *
  constructor
  case agents =>
    intro node member
    rw [nodes] at member
    rcases List.mem_append.mp member with wired | added
    · obtain ⟨old, inside, _, same, _⟩ := wire_parent_mem wired
      rw [same]
      exact wf.agents old inside
    · rw [List.mem_singleton.mp added]
      exact agent
  case statuses =>
    intro nodeId planned
    rw [statusOf]
    split
    · exact ⟨_, rfl⟩
    · split
      · exact ⟨_, rfl⟩
      · rename_i other
        rw [ids] at planned
        simp only [List.mem_append, List.mem_singleton, other, or_false] at planned
        exact wf.statuses nodeId planned
  case noFailure =>
    intro nodeId
    rw [statusOf]
    split
    · simp
    · split
      · simp
      · exact wf.noFailure nodeId
  case outputs =>
    intro nodeId done
    rw [statusOf] at done
    split at done
    · rename_i same
      exact same ▸ parentOutput
    · split at done
      · simp at done
      · exact wf.outputs nodeId done
  case running =>
    intro nodeId isRunning
    rw [statusOf] at isRunning
    split at isRunning
    · cases isRunning
    · split at isRunning
      · cases isRunning
      · exact wf.running nodeId isRunning
  case tasks =>
    intro nodeId tracked
    rw [statusOf]
    split
    · rename_i same
      exact absurd (same ▸ tracked) untracked
    · split
      · exact Or.inr rfl
      · exact wf.tasks nodeId tracked
  case noRaise => exact wf.noRaise
  case ranked =>
    obtain ⟨rank, ranked⟩ := wf.ranked
    refine ⟨rank, ?_⟩
    intro node member unfinished dep depends
    rw [nodes] at member
    rcases List.mem_append.mp member with wired | added
    · obtain ⟨old, inside, same, _, deps⟩ := wire_parent_mem wired
      rw [same] at unfinished ⊢
      rcases deps with deps | ⟨isParent, _⟩
      · exact ranked old inside unfinished dep (deps ▸ depends)
      · -- Only the parent was rewired, and it is not unfinished.
        exact absurd (isParent ▸ parentOutput) unfinished
    · rw [List.mem_singleton.mp added] at depends
      cases depends
  case deps =>
    intro node member dep depends
    rw [ids]
    rw [nodes] at member
    rcases List.mem_append.mp member with wired | added
    · obtain ⟨old, inside, _, _, deps⟩ := wire_parent_mem wired
      have known : dep ∈ old.deps ∨ dep = assist := by
        rcases deps with deps | ⟨_, deps⟩
        · exact Or.inl (deps ▸ depends)
        · exact deps dep depends
      rcases known with known | same
      · exact (wf.deps old inside dep known).imp_left (List.mem_append_left _)
      · exact Or.inl (by simp [same])
    · rw [List.mem_singleton.mp added] at depends
      cases depends
  case queue =>
    intro record member
    obtain ⟨ok, completed⟩ := wf.queue record member
    refine ⟨ok, ?_⟩
    have queued : record.nodeId ∈ runtime.completions.map (·.nodeId) :=
      List.mem_map_of_mem member
    -- Neither the parent nor the new id is queued, so no queued node changes status.
    have notParent : record.nodeId ≠ parentId := fun same => parentFresh (same ▸ queued)
    have notAssist : record.nodeId ≠ assist := fun same => fresh (same ▸ queued)
    rw [statusOf, if_neg notParent, if_neg notAssist]
    exact completed
  case queueOnce => exact wf.queueOnce

end Keep

/-! ### The helper -/

section Assists

theorem parse_mention_agent {agents : List String} {part : List Char} {mention : String × String}
    (parsed : Helper.parseMention agents part = some mention) : mention.1 ∈ agents := by
  unfold Helper.parseMention at parsed
  split at parsed
  · cases parsed
  · dsimp only at parsed
    split at parsed
    · rename_i known
      cases parsed
      exact known.1
    · cases parsed

theorem candidates_subset (runtime : DagRuntime) (parent : PlanNode) (nodeId : String)
    (mentions : List (String × String)) (seen : List String) :
    Helper.candidates runtime parent nodeId seen mentions ⊆ mentions := by
  induction mentions generalizing seen with
  | nil => simp [Helper.candidates]
  | cons mention rest ih =>
      obtain ⟨agentName, instruction⟩ := mention
      rw [Helper.candidates]
      split
      · exact List.subset_cons_of_subset _ (ih seen)
      · split
        · exact List.subset_cons_of_subset _ (ih _)
        · exact List.cons_subset_cons _ (ih _)

theorem assists_agents (runtime : DagRuntime) (nodeId : String) :
    ∀ mention ∈ Helper.assists runtime nodeId, mention.1 ∈ runtime.agents.keys := by
  intro mention member
  unfold Helper.assists at member
  split at member
  · cases member
  · dsimp only at member
    split at member
    · have parsed := candidates_subset runtime _ nodeId _ [] member
      obtain ⟨part, _, made⟩ := List.mem_filterMap.mp parsed
      exact parse_mention_agent made
    · cases member

/-- The ids `add_assist` will generate for the node that is judged next. -/
def generatedIds (runtime : DagRuntime) (nodeId : String) : List String :=
  (List.range (Helper.assists runtime nodeId).length).map fun count =>
    assistId nodeId (runtime.assistSeq + count + 1)

theorem Wf.add_assists {runtime : DagRuntime} (wf : Wf runtime) {parentId : String}
    (mentions : List (String × String))
    (agents : ∀ mention ∈ mentions, mention.1 ∈ runtime.agents.keys)
    (ended : runtime.status parentId = some .completed ∨
      runtime.status parentId = some .waitingAssist)
    (parentFresh : parentId ∉ runtime.completions.map (·.nodeId))
    (fresh : ∀ count < mentions.length,
      assistId parentId (runtime.assistSeq + count + 1) ∉ runtime.completions.map (·.nodeId)) :
    Wf (mentions.foldl (fun current mention =>
      current.addAssist parentId mention.1 mention.2) runtime) := by
  induction mentions generalizing runtime with
  | nil => exact wf
  | cons mention rest ih =>
      have first := wf.add_assist mention.2 (agents mention List.mem_cons_self) ended parentFresh
        (fresh 0 (by simp))
      apply ih first
      · exact fun other later => agents other (List.mem_cons_of_mem _ later)
      · exact Or.inr ((add_assist_status runtime parentId mention.1 mention.2 parentId).trans
          (if_pos rfl))
      · exact parentFresh
      · intro count bound
        have shifted := fresh (count + 1) (by simpa using bound)
        have same : runtime.assistSeq + 1 + count + 1 = runtime.assistSeq + (count + 1) + 1 := by
          omega
        exact same ▸ shifted

theorem Wf.judge {runtime : DagRuntime} (wf : Wf runtime) {nodeId : String}
    (routed : RoutedOk runtime nodeId)
    (fresh : ∀ record ∈ runtime.completions, record.nodeId ∉ generatedIds runtime nodeId) :
    Wf (Helper.runImpl runtime nodeId) := by
  apply wf.add_assists _ (assists_agents runtime nodeId) (Or.inl routed.1) routed.2
  intro count bound queued
  obtain ⟨record, member, same⟩ := List.mem_map.mp queued
  apply fresh record member
  rw [same]
  exact List.mem_map.mpr ⟨count, List.mem_range.mpr bound, rfl⟩

end Assists

/-! ### An invocation keeps the invariant -/

section Invocation

variable {runtime : DagRuntime}

theorem Wf.wait_one (wf : Wf runtime) (waves : List Wave)
    (succeed : ∀ wave ∈ waves, Succeeds wave) {waited : DagRuntime} {rest : List Wave}
    (ended : runtime.waitOne waves = some (waited, rest)) :
    Wf waited ∧ ∀ wave ∈ rest, Succeeds wave := by
  induction waves generalizing runtime with
  | nil =>
      unfold waitOne at ended
      split at ended
      · cases ended
        exact ⟨wf, succeed⟩
      · cases ended
  | cons wave others ih =>
      unfold waitOne at ended
      split at ended
      · cases ended
        exact ⟨wf, succeed⟩
      · exact ih (wf.of_result wave (succeed wave List.mem_cons_self))
          (fun other later => succeed other (List.mem_cons_of_mem _ later)) ended

theorem Wf.drain (wf : Wf runtime) (fuel : Nat) (waves : List Wave)
    (succeed : ∀ wave ∈ waves, Succeeds wave) {drained : DagRuntime}
    (ended : DagRuntime.drain fuel runtime waves = some drained) : Wf drained := by
  induction fuel generalizing runtime waves with
  | zero =>
      unfold DagRuntime.drain at ended
      split at ended
      · cases ended
        exact wf
      · cases ended
  | succ fuel ih =>
      unfold DagRuntime.drain at ended
      split at ended
      · cases ended
        exact wf
      · split at ended
        · cases ended
        · rename_i waited
          obtain ⟨wfWaited, fine⟩ := wf.wait_one waves succeed waited
          exact ih wfWaited.collect_done _ fine ended

theorem Wf.failed_completion (wf : Wf runtime) : runtime.failedCompletion = none := by
  apply List.find?_eq_none.mpr
  intro record member
  simp [CompletionRecord.ok, (wf.queue record member).1]

/-- The popped record was queued and judgable; what follows it stays queued. -/
theorem Wf.pop_completion (wf : Wf runtime) {record : CompletionRecord} {next : DagRuntime}
    (popped : runtime.popCompletion = (some record, next)) :
    Wf next ∧ RoutedOk next record.nodeId ∧ next.inPlan record.nodeId = true := by
  unfold popCompletion at popped
  split at popped
  · rename_i found rest inside
    cases popped
    obtain ⟨judged, fewer⟩ := pop_judgable_some inside
    have completed := (wf.queue record (fewer.subset List.mem_cons_self)).2
    have once := (fewer.map (·.nodeId)).nodup wf.queueOnce
    rw [List.map_cons, List.nodup_cons] at once
    refine ⟨wf.drop_records (List.Sublist.trans (List.sublist_cons_self _ _) fewer),
      ⟨completed, once.1⟩, ?_⟩
    simp only [judgable, Bool.and_eq_true] at judged
    exact judged.2
  · cases popped

theorem pop_nothing {next : DagRuntime}
    (popped : runtime.popCompletion = (none, next)) :
    next = { runtime with completions := [] } ∧
      ∀ record ∈ runtime.completions, runtime.judgable record.nodeId = false := by
  unfold popCompletion at popped
  split at popped
  · cases popped
  · rename_i inside
    cases popped
    exact ⟨rfl, pop_judgable_none.mp inside⟩

theorem ready_dispatchable (runtime : DagRuntime) :
    ∀ nodeId ∈ runtime.dispatchable, runtime.status nodeId = some .pending ∨
      runtime.status nodeId = some .waitingAssist := by
  intro nodeId member
  obtain ⟨node, inside, rfl⟩ := List.mem_map.mp member
  have can := (List.mem_filter.mp inside).2
  simp only [canDispatch, Bool.and_eq_true, Bool.or_eq_true, decide_eq_true_eq] at can
  exact can.1

theorem dispatchable_planned (runtime : DagRuntime) :
    ∀ nodeId ∈ runtime.dispatchable, nodeId ∈ runtime.plan.ids := by
  intro nodeId member
  obtain ⟨node, inside, rfl⟩ := List.mem_map.mp member
  exact DagPlan.mem_ids.mpr ⟨node, List.mem_of_mem_filter inside, rfl⟩

theorem Wf.dispatch_ready (wf : Wf runtime) :
    ∃ next, runtime.dispatchReady = .ok next ∧ Started runtime.dispatchable runtime next ∧
      Wf next := by
  obtain ⟨next, ran, effect⟩ :=
    dispatch_nodes_started runtime.dispatchable runtime wf.agents (dispatchable_planned runtime)
  exact ⟨next, ran, effect, wf.started effect (ready_dispatchable runtime)⟩

/-- What an invocation that routes leaves behind. -/
def Kept (outcome : Outcome) (next : DagRuntime) : Prop :=
  match outcome with
  | .judge nodeId => Wf next ∧ RoutedOk next nodeId
  | .default => Wf next
  | .raised _ => True

theorem Wf.route_waited (wf : Wf runtime) :
    Kept runtime.routeWaited.1 runtime.routeWaited.2 := by
  unfold routeWaited
  rw [wf.failed_completion]
  dsimp only
  split
  · rename_i record next popped
    obtain ⟨wfNext, routed, _⟩ := wf.pop_completion popped
    exact ⟨wfNext, routed⟩
  · trivial

theorem Wf.dispatch_and_wait (wf : Wf runtime) (waves : List Wave)
    (succeed : ∀ wave ∈ waves, Succeeds wave) {outcome : Outcome} {next : DagRuntime}
    (ended : runtime.dispatchAndWait waves = some (outcome, next)) : Kept outcome next := by
  obtain ⟨dispatched, ran, _, wfDispatched⟩ := wf.dispatch_ready
  simp only [dispatchAndWait, ran] at ended
  split at ended
  · cases ended
    exact wfDispatched
  · obtain ⟨⟨waited, rest⟩, waits, same⟩ := Option.map_eq_some_iff.mp ended
    obtain ⟨wfWaited, _⟩ := wfDispatched.wait_one waves succeed waits
    have kept := wfWaited.collect_done.route_waited
    rw [same] at kept
    exact kept

theorem Wf.proceed (wf : Wf runtime) (waves : List Wave)
    (succeed : ∀ wave ∈ waves, Succeeds wave) {outcome : Outcome} {next : DagRuntime}
    (ended : runtime.proceed waves = some (outcome, next)) : Kept outcome next := by
  unfold DagRuntime.proceed at ended
  rw [wf.failed_completion] at ended
  split at ended
  · obtain ⟨drained, ran, same⟩ := Option.map_eq_some_iff.mp ended
    cases same
    exact wf.drain _ waves succeed ran
  · dsimp only at ended
    split at ended
    · rename_i record rest popped
      cases ended
      obtain ⟨wfNext, routed, _⟩ := wf.pop_completion popped
      exact ⟨wfNext, routed⟩
    · rename_i rest popped
      obtain ⟨rfl, _⟩ := pop_nothing popped
      exact (wf.drop_records (List.nil_sublist _)).dispatch_and_wait waves succeed ended

end Invocation

/-- No task that ends in this event fails. -/
def Succeeding : Event → Prop
  | .applyPlan _ | .judge => True
  | .invoke _ waves => ∀ wave ∈ waves, Succeeds wave
  | .finish wave => Succeeds wave

/-- No id that an assist gets is the id of a completion that is still queued. -/
def FreshAssists (system : Orchestrator) : Event → Prop
  | .judge => ∀ nodeId ∈ system.routed, ∀ record ∈ system.runtime.completions,
      record.nodeId ∉ generatedIds system.runtime nodeId
  | _ => True

def Clean (system : Orchestrator) (event : Event) : Prop :=
  Succeeding event ∧ FreshAssists system event

instance : (event : Event) → Decidable (Succeeding event)
  | .applyPlan _ | .judge => .isTrue trivial
  | .invoke _ waves => inferInstanceAs (Decidable (∀ wave ∈ waves, Succeeds wave))
  | .finish wave => inferInstanceAs (Decidable (Succeeds wave))

instance (system : Orchestrator) : (event : Event) → Decidable (FreshAssists system event)
  | .judge => inferInstanceAs (Decidable (∀ nodeId ∈ system.routed,
      ∀ record ∈ system.runtime.completions,
        record.nodeId ∉ generatedIds system.runtime nodeId))
  | .applyPlan _ | .invoke _ _ | .finish _ => .isTrue trivial

instance (system : Orchestrator) (event : Event) : Decidable (Clean system event) :=
  inferInstanceAs (Decidable (_ ∧ _))

/-- One event of a clean run keeps the invariant. -/
theorem step_inv (system : Orchestrator) (event : Event) (next : Orchestrator) (inv : Inv system)
    (clean : Clean system event) (stepped : system.step event = some next) : Inv next := by
  obtain ⟨wf, routed⟩ := inv
  cases event with
  | applyPlan plan =>
      simp only [Orchestrator.step, Orchestrator.applyPlan] at stepped
      split at stepped
      · rename_i known
        split at stepped
        · cases stepped
        · rename_i runtime applied
          cases stepped
          exact ⟨wf.apply_plan known applied,
            fun nodeId handed => (routed nodeId handed).apply_plan applied⟩
      · cases stepped
  | invoke input waves =>
      simp only [Orchestrator.step, Orchestrator.invoke] at stepped
      split at stepped
      · rename_i known
        cases ran : system.runtime.runImpl input waves with
        | none => simp [ran] at stepped
        | some ended =>
            obtain ⟨outcome, runtime⟩ := ended
            -- An invocation that raised is no step; any other one kept the invariant.
            have kept : (∃ error, outcome = .raised error) ∨ Kept outcome runtime := by
              unfold runImpl at ran
              split at ran
              · cases ran
                exact Or.inl ⟨_, rfl⟩
              · rename_i planned applied
                right
                have wfPlanned : Wf planned := by
                  cases input with
                  | none =>
                      cases applied
                      exact wf
                  | some plan => exact wf.apply_plan (known plan rfl) applied
                exact wfPlanned.collect_done.proceed waves clean.1 ran
            rw [ran] at stepped
            cases outcome with
            | judge nodeId =>
                cases stepped
                rcases kept with ⟨_, same⟩ | ⟨wfNext, ok⟩
                · cases same
                · exact ⟨wfNext, fun other handed => by cases handed; exact ok⟩
            | default =>
                cases stepped
                rcases kept with ⟨_, same⟩ | wfNext
                · cases same
                · exact ⟨wfNext, fun other handed => by cases handed⟩
            | raised error => cases stepped
      · cases stepped
  | judge =>
      simp only [Orchestrator.step, Orchestrator.judge] at stepped
      split at stepped
      · cases stepped
      · rename_i nodeId handed
        cases stepped
        exact ⟨wf.judge (routed nodeId handed) (clean.2 nodeId handed), fun other none => by cases none⟩
  | finish wave =>
      cases stepped
      refine ⟨wf.of_result wave clean.1, ?_⟩
      intro nodeId handed
      have ok := routed nodeId handed
      dsimp only
      rw [finish_frame]
      exact ok

theorem run_inv (agents : Dict String AgentInfo) (userTask : String) (events : List Event)
    (system : Orchestrator)
    (clean : Runs.Guarded Orchestrator.step Clean (.start agents userTask) events)
    (ran : Runs.run Orchestrator.step (.start agents userTask) events = some system) :
    Inv system :=
  Runs.run_invariant Inv step_inv events _ system
    ⟨start_wf agents userTask, fun nodeId handed => by cases handed⟩ clean ran

end Choirworks.Dag
