import Choirworks.Dag.Plan
import Choirworks.Orchestration.Planning

/-!
The two functions that validate a plan: the one of the DAG orchestrator and the
one of the planner. Each accepts the directed acyclic graphs within its limit,
so that they never disagree about a plan.
-/

namespace Choirworks.Planning

/-- Both validations accept exactly the well-formed plans, and so the same ones. -/
theorem accepts_well_formed_plans :
    (∀ (plan : Dag.DagPlan) (limit : Nat), Dag.validatePlan plan limit = .ok () ↔
      WellFormed Dag.PlanNode.id Dag.PlanNode.deps limit plan.nodes) ∧
    (∀ (drafts : List Orchestration.PlanNodeDraft) (limit : Nat),
      Orchestration.validatePlan drafts limit = .ok () ↔
        WellFormed Orchestration.PlanNodeDraft.id Orchestration.PlanNodeDraft.deps limit drafts) ∧
    ∀ (plan : Dag.DagPlan) (drafts : List Orchestration.PlanNodeDraft) (limit : Nat),
      shape Dag.PlanNode.id Dag.PlanNode.deps plan.nodes =
          shape Orchestration.PlanNodeDraft.id Orchestration.PlanNodeDraft.deps drafts →
        (Dag.validatePlan plan limit = .ok () ↔ Orchestration.validatePlan drafts limit = .ok ()) := by
  have dag : ∀ (plan : Dag.DagPlan) (limit : Nat), Dag.validatePlan plan limit = .ok () ↔
      WellFormed Dag.PlanNode.id Dag.PlanNode.deps limit plan.nodes :=
    fun _ _ => validateNodes_iff
  have drafted : ∀ (drafts : List Orchestration.PlanNodeDraft) (limit : Nat),
      Orchestration.validatePlan drafts limit = .ok () ↔
        WellFormed Orchestration.PlanNodeDraft.id Orchestration.PlanNodeDraft.deps limit drafts :=
    fun _ _ => validateNodes_iff
  refine ⟨dag, drafted, fun plan drafts limit same => ?_⟩
  rw [dag, drafted, ← wellFormed_shape, same, wellFormed_shape]

section Sample

/-! The second node lists its only dependency twice. -/

def repeatedPlan : Dag.DagPlan where
  nodes :=
    [{ id := "n1", name := "", agentName := "a", instruction := "", deps := [], assistFor := none },
      { id := "n2", name := "", agentName := "b", instruction := "", deps := ["n1", "n1"]
        assistFor := none }]

def repeatedDrafts : List Orchestration.PlanNodeDraft :=
  [{ id := "n1", name := "", agentName := "a", input := .empty, deps := [] },
    { id := "n2", name := "", agentName := "b", input := .empty, deps := ["n1", "n1"] }]

theorem repeated_dependency_accepted : Orchestration.validatePlan repeatedDrafts 2 = .ok () :=
  (accepts_well_formed_plans.2.2 repeatedPlan repeatedDrafts 2 rfl).mp (by decide)

end Sample

end Choirworks.Planning
