import Choirworks.Dag.Invariant

/-!
The single changes of a `DagRuntime`, each made without an await in between. A
run of them is a journal of what happened. `Proper` is what the executor and the
helper heed; without it, the acts are what a caller of the runtime may do in any
order. The ids of the nodes are unique exactly as long as every assist gets an
id that has never been used.
-/

namespace Choirworks.Dag

inductive Act where
  | applyPlan (plan : DagPlan)
  | dispatch (nodeId : String)
  | finish (nodeId : String) (result : Except String String)
  | collect (nodeId : String) (task : NodeTask)
  | skip (record : CompletionRecord)
  | route (record : CompletionRecord)
  | judge (nodeId : String)
  | addAssist (parentId agentName instruction : String)

/-- Neither a hand-over to the helper nor an act of the helper. -/
def Act.quiet : Act → Bool
  | .route _ | .judge _ | .addAssist _ _ _ => false
  | .applyPlan _ | .dispatch _ | .finish _ _ | .collect _ _ | .skip _ => true

namespace DagRuntime

/-- The record at the head of the queue is taken out. -/
def takeRecord (runtime : DagRuntime) (record : CompletionRecord) : Option DagRuntime :=
  match runtime.completions with
  | [] => none
  | first :: rest => if first = record then some { runtime with completions := rest } else none

/-- `none` where the operation raises. -/
def perform (runtime : DagRuntime) : Act → Option DagRuntime
  | .applyPlan plan => (runtime.applyPlan plan).toOption
  | .dispatch nodeId => (runtime.dispatchNode nodeId).toOption
  | .finish nodeId result => some (runtime.finishTask (nodeId, result))
  | .collect nodeId task => some (runtime.collectTask (nodeId, task))
  | .skip record | .route record => runtime.takeRecord record
  | .judge _ => some runtime
  | .addAssist parentId agentName instruction =>
      if runtime.inPlan parentId then some (runtime.addAssist parentId agentName instruction)
      else none

/-- The id that the next assist of the parent gets. -/
def nextAssist (runtime : DagRuntime) (parentId : String) : String :=
  assistId parentId (runtime.assistSeq + 1)

/-- What the executor and the helper heed. -/
def Proper (runtime : DagRuntime) : Act → Prop
  | .dispatch nodeId => runtime.completions = [] ∧ nodeId ∈ runtime.dispatchable
  | .collect nodeId task => runtime.task? nodeId = some task ∧ task.done = true
  | .skip record => runtime.judgable record.nodeId = false
  | .route record => runtime.judgable record.nodeId = true ∧
      ∀ other ∈ runtime.completions, runtime.judgable other.nodeId = true → other.ok = true
  | .addAssist parentId _ _ => parentId ∉ runtime.runningTasks.keys
  | .applyPlan _ | .finish _ _ | .judge _ => True

/-- The id of an assist belongs to no node of the plan and to no task. -/
def Vacant (runtime : DagRuntime) : Act → Prop
  | .addAssist parentId _ _ => runtime.inPlan parentId = true →
      runtime.nextAssist parentId ∉ runtime.plan.ids ∧
        runtime.nextAssist parentId ∉ runtime.runningTasks.keys
  | _ => True

instance (runtime : DagRuntime) : (act : Act) → Decidable (runtime.Vacant act)
  | .addAssist _ _ _ => inferInstanceAs (Decidable (_ → _ ∧ _))
  | .applyPlan _ | .dispatch _ | .finish _ _ | .collect _ _ | .skip _ | .route _ | .judge _ =>
      .isTrue trivial

/-- The id of an assist has never been that of a node. -/
def Fresh (runtime : DagRuntime) : Act → Prop
  | .addAssist parentId _ _ => runtime.inPlan parentId = true →
      runtime.nextAssist parentId ∉ runtime.plan.ids ∧
        runtime.nextAssist parentId ∉ runtime.nodeStatus.keys
  | _ => True

instance (runtime : DagRuntime) : (act : Act) → Decidable (runtime.Fresh act)
  | .addAssist _ _ _ => inferInstanceAs (Decidable (_ → _ ∧ _))
  | .applyPlan _ | .dispatch _ | .finish _ _ | .collect _ _ | .skip _ | .route _ | .judge _ =>
      .isTrue trivial

/-! ### What one act changes -/

section Effects

variable {runtime next : DagRuntime} {act : Act}

theorem take_record_some {record : CompletionRecord} (taken : runtime.takeRecord record = some next) :
    ∃ rest, runtime.completions = record :: rest ∧ next = { runtime with completions := rest } := by
  unfold takeRecord at taken
  split at taken
  · cases taken
  · rename_i first rest queue
    split at taken
    · rename_i same
      cases taken
      exact ⟨rest, same ▸ queue, rfl⟩
    · cases taken

theorem to_option_some {Error Value : Type} {result : Except Error Value} {value : Value}
    (found : result.toOption = some value) : result = .ok value := by
  cases result with
  | error failure => cases found
  | ok other =>
      cases found
      rfl

theorem finish_task_frame (runtime : DagRuntime) (nodeId : String) (result : Except String String) :
    runtime.finishTask (nodeId, result) =
      { runtime with runningTasks := (runtime.finishTask (nodeId, result)).runningTasks } :=
  finish_frame runtime [(nodeId, result)]

theorem finish_task_keys (runtime : DagRuntime) (nodeId : String) (result : Except String String)
    (other : String) : other ∈ (runtime.finishTask (nodeId, result)).runningTasks.keys ↔
      other ∈ runtime.runningTasks.keys :=
  finish_keys runtime [(nodeId, result)] other

theorem add_assist_inPlan (parentId agentName instruction : String) {nodeId : String}
    (planned : runtime.inPlan nodeId = true) :
    (runtime.addAssist parentId agentName instruction).inPlan nodeId = true := by
  rw [inPlan_iff, add_assist_ids]
  exact List.mem_append_left _ (inPlan_iff.mp planned)

end Effects

end DagRuntime

open DagRuntime

/-! ### Unique ids -/

section Ids

/-- The ids stay unique, and an assist changes nothing of any node that was
there before it, its parent apart. -/
def KeepsOthers (runtime : DagRuntime) (act : Act) : Prop :=
  ∀ next, runtime.perform act = some next → next.plan.ids.Nodup ∧
    ∀ parentId agentName instruction, act = .addAssist parentId agentName instruction →
      ∀ nodeId, nodeId ∈ runtime.plan.ids ∨ nodeId ∈ runtime.nodeStatus.keys → nodeId ≠ parentId →
        next.status nodeId = runtime.status nodeId ∧ next.output? nodeId = runtime.output? nodeId ∧
          next.plan.find? nodeId = runtime.plan.find? nodeId

theorem wire_parent_find (parentId assist : String) (nodes : List PlanNode) {nodeId : String}
    (other : nodeId ≠ parentId) :
    (wireParent parentId assist nodes).find? (fun node => node.id = nodeId) =
      nodes.find? fun node => node.id = nodeId := by
  induction nodes with
  | nil => rfl
  | cons first rest ih =>
      by_cases hit : first.id = parentId
      · have apart : first.id ≠ nodeId := fun same => other (same.symm.trans hit)
        simp [wireParent, hit, Ne.symm other]
      · rw [wireParent, if_neg hit, List.find?_cons, List.find?_cons, ih]

theorem add_assist_find (runtime : DagRuntime) (parentId agentName instruction : String)
    {nodeId : String} (other : nodeId ≠ parentId) (old : nodeId ≠ runtime.nextAssist parentId) :
    (runtime.addAssist parentId agentName instruction).plan.find? nodeId =
      runtime.plan.find? nodeId := by
  have miss : runtime.nextAssist parentId ≠ nodeId := Ne.symm old
  simp only [addAssist, DagPlan.find?, List.find?_append, wire_parent_find _ _ _ other]
  unfold nextAssist at miss
  simp [miss]

variable {runtime next : DagRuntime}

theorem ids_kept {act : Act} (once : runtime.plan.ids.Nodup) (fresh : runtime.Fresh act)
    (performed : runtime.perform act = some next) : next.plan.ids.Nodup := by
  cases act with
  | applyPlan plan =>
      have applied := to_option_some performed
      rw [apply_plan_ids applied]
      exact (apply_plan_ok applied).1.unique
  | dispatch nodeId =>
      obtain ⟨node, rfl⟩ := dispatch_node_ok (to_option_some performed)
      exact once
  | finish nodeId result =>
      cases performed
      rw [finish_task_frame]
      exact once
  | collect nodeId task =>
      cases performed
      cases task <;> exact once
  | skip record | route record =>
      obtain ⟨rest, _, rfl⟩ := take_record_some performed
      exact once
  | judge nodeId =>
      cases performed
      exact once
  | addAssist parentId agentName instruction =>
      simp only [perform] at performed
      split at performed
      · rename_i planned
        cases performed
        rw [add_assist_ids, List.nodup_append]
        refine ⟨once, List.nodup_singleton _, ?_⟩
        rintro nodeId inside _ (_ | ⟨_, ⟨⟩⟩) rfl
        exact (fresh planned).1 inside
      · cases performed

/-- One act keeps all others exactly if its assist gets a fresh id. -/
theorem fresh_iff_keeps {act : Act} (once : runtime.plan.ids.Nodup) :
    runtime.Fresh act ↔ KeepsOthers runtime act := by
  constructor
  · rintro fresh next performed
    refine ⟨ids_kept once fresh performed, ?_⟩
    rintro parentId agentName instruction rfl nodeId known other
    simp only [perform] at performed
    split at performed
    · rename_i planned
      cases performed
      obtain ⟨unplanned, unused⟩ := fresh planned
      have old : nodeId ≠ runtime.nextAssist parentId := by
        rintro rfl
        exact known.elim unplanned unused
      refine ⟨?_, rfl, add_assist_find runtime parentId agentName instruction other old⟩
      rw [add_assist_status, if_neg other]
      exact if_neg old
    · cases performed
  · intro keeps
    cases act with
    | addAssist parentId agentName instruction =>
        intro planned
        obtain ⟨unique, others⟩ := keeps _ (if_pos planned)
        rw [add_assist_ids, List.nodup_append] at unique
        have unplanned : runtime.nextAssist parentId ∉ runtime.plan.ids := fun inside =>
          unique.2.2 _ inside _ List.mem_cons_self rfl
        refine ⟨unplanned, fun used => ?_⟩
        -- a dropped node with that id would get an entry in the plan
        obtain ⟨_, _, entry⟩ := others parentId agentName instruction rfl _ (Or.inr used)
          (assist_id_ne _ _)
        have absent : runtime.plan.find? (runtime.nextAssist parentId) = none := by
          apply List.find?_eq_none.mpr
          intro node member named
          exact unplanned (DagPlan.mem_ids.mpr ⟨node, member, of_decide_eq_true named⟩)
        have listed : runtime.nextAssist parentId ∈
            (runtime.addAssist parentId agentName instruction).plan.ids := by
          rw [add_assist_ids]
          exact List.mem_append_right _ List.mem_cons_self
        obtain ⟨node, member, named⟩ := DagPlan.mem_ids.mp listed
        rw [absent] at entry
        exact absurd (decide_eq_true named) (List.find?_eq_none.mp entry node member)
    | _ => trivial

/-- In a run of the operations in any order, the ids are unique and every assist
leaves the other nodes alone, exactly as long as every assist gets a fresh id. -/
theorem node_ids_unique_iff (agents : Dict String AgentInfo) (userTask : String)
    (acts : List Act) :
    Runs.Guarded perform Fresh (.start agents userTask) acts ↔
      ∀ front act back, acts = front ++ act :: back →
        ∀ reached, Runs.run perform (.start agents userTask) front = some reached →
          KeepsOthers reached act :=
  Runs.guarded_iff_each (fun runtime => runtime.plan.ids.Nodup) KeepsOthers
    (fun _ _ once => fresh_iff_keeps once)
    (fun _ _ _ once fresh performed => ids_kept once fresh performed) acts _ List.nodup_nil

end Ids

section Taken

def takenAgents : Dict String AgentInfo := Dict.set .empty "writer" ⟨"writer", "", ""⟩

/-- The planner has chosen the id that the assist of its other node gets. -/
def takenPlan : DagPlan :=
  ⟨[⟨"a", "a", "writer", "work", [], none⟩, ⟨"a-assist1", "b", "writer", "work", [], none⟩]⟩

theorem assist_takes_planned_id :
    ¬ ∀ (agents : Dict String AgentInfo) (userTask : String) (acts : List Act) (final : DagRuntime),
      Runs.run perform (.start agents userTask) acts = some final → final.plan.ids.Nodup := by
  intro claim
  have ends : Runs.Ends perform (.start takenAgents "task")
      [.applyPlan takenPlan, .collect "a" (.finished "@writer help"), .addAssist "a" "writer" "help"]
      fun final => ¬ final.plan.ids.Nodup := by
    decide +kernel
  obtain ⟨final, ran, repeated⟩ := ends
  exact repeated (claim takenAgents "task" _ final ran)

end Taken

end Choirworks.Dag
