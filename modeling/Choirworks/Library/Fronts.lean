/-!
A property of every event of a history and of what has happened before it.
-/

namespace Choirworks.Fronts

universe u
variable {Event : Type u} (holds : List Event → Event → Prop)

def EachFrom : List Event → List Event → Prop
  | _, [] => True
  | front, event :: rest => holds front event ∧ EachFrom (front ++ [event]) rest

def Each (history : List Event) : Prop := EachFrom holds [] history

instance decidableEachFrom [∀ front event, Decidable (holds front event)] :
    (front rest : List Event) → Decidable (EachFrom holds front rest)
  | _, [] => .isTrue trivial
  | front, event :: rest =>
      have := decidableEachFrom (front ++ [event]) rest
      inferInstanceAs (Decidable (_ ∧ _))

instance [∀ front event, Decidable (holds front event)] (history : List Event) :
    Decidable (Each holds history) :=
  decidableEachFrom holds [] history

variable {holds}

theorem each_from_append (front left right : List Event) :
    EachFrom holds front (left ++ right) ↔
      EachFrom holds front left ∧ EachFrom holds (front ++ left) right := by
  induction left generalizing front with
  | nil => simp [EachFrom]
  | cons event rest ih => simp [EachFrom, ih, and_assoc]

theorem Each.front {left history : List Event} (each : Each holds history)
    (isFront : left <+: history) : Each holds left := by
  obtain ⟨behind, rfl⟩ := isFront
  exact ((each_from_append [] left behind).mp each).1

theorem each_snoc (history : List Event) (event : Event) :
    Each holds (history ++ [event]) ↔ Each holds history ∧ holds history event := by
  rw [Each, each_from_append]
  simp [EachFrom, Each]

theorem Each.at_split {history front rest : List Event} {event : Event} (each : Each holds history)
    (split : history = front ++ event :: rest) : holds front event := by
  subst split
  exact ((each_from_append [] front (event :: rest)).mp each).2.1

theorem each_congr {other : List Event → Event → Prop}
    (same : ∀ front event, holds front event ↔ other front event) (history : List Event) :
    Each holds history ↔ Each other history := by
  have from_ : ∀ front rest, EachFrom holds front rest ↔ EachFrom other front rest := by
    intro front rest
    induction rest generalizing front with
    | nil => rfl
    | cons event rest ih => simp only [EachFrom, ih, same]
  exact from_ [] history

end Choirworks.Fronts
