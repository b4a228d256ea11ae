import Mathlib.Data.Fintype.Card
import Mathlib.Data.Fintype.EquivFin
import Mathlib.Data.Fintype.Sets
import Mathlib.Logic.Relation
import Mathlib.Order.WellFounded

/-!
Chains of items that wait for one another. `Leads` says that finitely many steps
lead from an item to one that is over; where every item that is not over has a
step to a higher one, and the heights are bounded, all chains end. `Acyclic`
says that no chain comes back; items that are placed behind the old ones, each
with steps to earlier ones only, close no cycle.
-/

namespace Choirworks.Chains

universe u
variable {Item : Type u}

inductive Leads (step : Item → Item → Prop) (goal : Item → Prop) : Item → Prop where
  | here {item : Item} (ends : goal item) : Leads step goal item
  | onward {item next : Item} (taken : step item next) (later : Leads step goal next) :
      Leads step goal item

variable {step : Item → Item → Prop} {goal : Item → Prop}

theorem Leads.first {item : Item} (leads : Leads step goal item) :
    goal item ∨ ∃ next, step item next := by
  cases leads with
  | here ends => exact Or.inl ends
  | onward taken _ => exact Or.inr ⟨_, taken⟩

/-- Induction on how much higher the items can still get. -/
theorem leads_of_climb (inside : Item → Prop) (height : Item → Nat) (bound : Nat)
    (below : ∀ item, inside item → height item ≤ bound)
    (climb : ∀ item, inside item →
      goal item ∨ ∃ next, step item next ∧ inside next ∧ height item < height next)
    (item : Item) (member : inside item) : Leads step goal item := by
  have room : ∀ gap item, inside item → bound < height item + gap → Leads step goal item := by
    intro gap
    induction gap with
    | zero =>
        intro item member high
        exact absurd (below item member) (by omega)
    | succ gap ih =>
        intro item member high
        rcases climb item member with ends | ⟨next, taken, there, higher⟩
        · exact .here ends
        · exact .onward taken (ih next there (by omega))
  exact room (bound + 1) item member (by omega)

/-! ### No chain comes back -/

def Acyclic (step : Item → Item → Prop) : Prop := ∀ item, ¬Relation.TransGen step item item

/-- A rank that falls along every step. -/
theorem acyclic_of_rank {rank : Item → Nat}
    (falls : ∀ item next, step item next → rank next < rank item) : Acyclic step := by
  have chain : ∀ item last, Relation.TransGen step item last → rank last < rank item := by
    intro item last chain
    induction chain with
    | single taken => exact falls _ _ taken
    | tail _ taken ih => exact Nat.lt_trans (falls _ _ taken) ih
  intro item cycle
  exact Nat.lt_irrefl _ (chain item item cycle)

/-- Among finitely many items one has no step to any of them. -/
theorem Acyclic.last (acyclic : Acyclic step) {items : List Item} (some_item : items ≠ []) :
    ∃ item ∈ items, ∀ next ∈ items, ¬step item next := by
  classical
  let below := fun (next item : {item // item ∈ items}) => Relation.TransGen step item.1 next.1
  have : Std.Irrefl below := ⟨fun item => acyclic item.1⟩
  have : IsTrans _ below := ⟨fun _ _ _ lower upper => upper.trans lower⟩
  have ends : WellFounded below := Finite.wellFounded_of_trans_of_irrefl below
  obtain ⟨first, member⟩ := List.exists_mem_of_ne_nil items some_item
  obtain ⟨item, _, lowest⟩ := ends.has_min Set.univ ⟨⟨first, member⟩, trivial⟩
  exact ⟨item.1, item.2, fun next inside taken => lowest ⟨next, inside⟩ trivial (.single taken)⟩

/-- The new relation: the old items keep their steps, the others step back. -/
structure Grown (step later : Item → Item → Prop) (old : Item → Prop) (place : Item → Nat) :
    Prop where
  stays : ∀ item next, old item → later item next → old next ∧ step item next
  falls : ∀ item next, ¬old item → later item next → old next ∨ place next < place item

variable {later : Item → Item → Prop} {old : Item → Prop} {place : Item → Nat}

theorem Grown.old_chain (grown : Grown step later old place) {item last : Item}
    (chain : Relation.TransGen later item last) (begins : old item) :
    old last ∧ Relation.TransGen step item last := by
  induction chain with
  | single taken =>
      obtain ⟨ends, same⟩ := grown.stays _ _ begins taken
      exact ⟨ends, .single same⟩
  | tail _ taken ih =>
      obtain ⟨ends, same⟩ := grown.stays _ _ ih.1 taken
      exact ⟨ends, ih.2.tail same⟩

theorem Grown.new_chain (grown : Grown step later old place) {item last : Item}
    (chain : Relation.TransGen later item last) (begins : ¬old item) :
    old last ∨ place last < place item := by
  induction chain with
  | single taken => exact grown.falls _ _ begins taken
  | @tail mid last _ taken ih =>
      by_cases there : old mid
      · exact Or.inl (grown.stays _ _ there taken).1
      · have lower := ih.resolve_left there
        exact (grown.falls _ _ there taken).imp_right fun next => Nat.lt_trans next lower

theorem Grown.acyclic (grown : Grown step later old place) (acyclic : Acyclic step) :
    Acyclic later := by
  intro item cycle
  by_cases begins : old item
  · exact acyclic item (grown.old_chain cycle begins).2
  · rcases grown.new_chain cycle begins with ends | lower
    · exact begins ends
    · exact Nat.lt_irrefl _ lower

end Choirworks.Chains
