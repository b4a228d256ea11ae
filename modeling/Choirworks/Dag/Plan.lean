import Choirworks.Library.Table
import Choirworks.Library.Text
import Choirworks.Planning.Validation

/-!
The plan of the DAG orchestrator: its nodes, the output placeholders of their
instructions and the structural validation of a plan.
-/

namespace Choirworks.Dag

structure PlanNode where
  id : String
  name : String
  agentName : String
  instruction : String
  deps : List String
  assistFor : Option String
deriving DecidableEq

structure DagPlan where
  nodes : List PlanNode
deriving DecidableEq

namespace DagPlan

def empty : DagPlan := ⟨[]⟩

def ids (plan : DagPlan) : List String := plan.nodes.map (·.id)

def find? (plan : DagPlan) (nodeId : String) : Option PlanNode :=
  plan.nodes.find? fun node => node.id = nodeId

end DagPlan

def outputRef (nodeId : String) : String :=
  "\x7b\x7boutput:" ++ nodeId ++ "\x7d\x7d"

def isRefChar (char : Char) : Bool :=
  char.isAlphanum || char = '_' || char = '.' || char = '-'

/-- `REF_RE` at the start of a text: the id inside the placeholder and the
length of the match. -/
def matchRef (text : List Char) : Option (String × Nat) :=
  match Text.afterPrefix "\x7b\x7boutput:".toList text with
  | none => none
  | some behind =>
      let name := behind.takeWhile isRefChar
      if name.isEmpty then none
      else match Text.afterPrefix "\x7d\x7d".toList (behind.dropWhile isRefChar) with
        | none => none
        | some _ => some (String.ofList name, name.length + 11)

/-- A missing output resolves to the empty string. -/
def resolveInstruction (instruction : String) (outputs : Dict String String) : String :=
  let matcher := fun text =>
    (matchRef text).map fun (name, length) => ((outputs.getD name "").toList, length - 1)
  String.ofList (Text.replaceMatches matcher 0 instruction.toList)

def maxNodes : Nat := 20

def validatePlan (plan : DagPlan) (limit : Nat) : Except String Unit :=
  Planning.validateNodes PlanNode.id PlanNode.deps plan.nodes limit

/-- What validation establishes. -/
def DagPlan.Valid (plan : DagPlan) : Prop :=
  Planning.Valid PlanNode.id PlanNode.deps plan.nodes

theorem DagPlan.mem_ids {plan : DagPlan} {nodeId : String} :
    nodeId ∈ plan.ids ↔ ∃ node ∈ plan.nodes, node.id = nodeId := by
  simp [DagPlan.ids]

theorem validatePlan_valid {plan : DagPlan} {limit : Nat}
    (passed : validatePlan plan limit = .ok ()) : plan.Valid :=
  Planning.validateNodes_valid passed

end Choirworks.Dag
