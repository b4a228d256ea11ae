import Mathlib.Data.List.Nodup

/-!
Stamps of a name and a number, which a sender draws by counting up. As long as
the count of a name is never behind what was drawn for it, no stamp is drawn
twice, whatever happens to the counts of other names.
-/

namespace Choirworks.Stamps

universe u
variable {Name : Type u}

structure Stamp (Name : Type u) where
  name : Name
  number : Nat
deriving DecidableEq

/-- Nothing beyond the number was drawn for the name. -/
def Ahead (sent : List (Stamp Name)) (name : Name) (number : Nat) : Prop :=
  ∀ stamp ∈ sent, stamp.name = name → stamp.number ≤ number

instance [DecidableEq Name] (sent : List (Stamp Name)) (name : Name) (number : Nat) :
    Decidable (Ahead sent name number) :=
  inferInstanceAs (Decidable (∀ stamp ∈ sent, _ → _))

section Ahead

variable {sent : List (Stamp Name)} {name other : Name} {number later : Nat}

theorem Ahead.mono (ahead : Ahead sent name number) (more : number ≤ later) :
    Ahead sent name later := by
  intro stamp member named
  exact Nat.le_trans (ahead stamp member named) more

theorem ahead_of_unsent (unsent : ∀ stamp ∈ sent, stamp.name ≠ name) : Ahead sent name number := by
  intro stamp member named
  exact absurd named (unsent stamp member)

/-- The next stamp of the name is new. -/
theorem Ahead.nodup (ahead : Ahead sent name number) (distinct : sent.Nodup) :
    (sent ++ [Stamp.mk name (number + 1)]).Nodup := by
  refine List.Nodup.append distinct (List.nodup_singleton _) ?_
  intro stamp member last
  rw [List.mem_singleton.mp last] at member
  exact Nat.not_succ_le_self number (ahead _ member rfl)

/-- The count that has been drawn keeps up with its stamp. -/
theorem Ahead.drawn (ahead : Ahead sent name number) :
    Ahead (sent ++ [Stamp.mk name (number + 1)]) name (number + 1) := by
  intro stamp member named
  rcases List.mem_append.mp member with before | last
  · exact Nat.le_succ_of_le (ahead stamp before named)
  · exact Nat.le_of_eq (congrArg Stamp.number (List.mem_singleton.mp last))

theorem Ahead.apart (ahead : Ahead sent name number) (apart : other ≠ name) :
    Ahead (sent ++ [Stamp.mk other later]) name number := by
  intro stamp member named
  rcases List.mem_append.mp member with before | last
  · exact ahead stamp before named
  · rw [List.mem_singleton.mp last] at named
    exact absurd named apart

end Ahead

end Choirworks.Stamps
