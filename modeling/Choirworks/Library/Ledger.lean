/-!
Items that are each kept in one place. An account lists the items in the order
in which they came, each with the place that it is kept in now; `held` reads a
place, `handOn` moves what one place holds into another one.
-/

namespace Choirworks.Ledger

universe u v
variable {Item : Type u} {Place : Type v}

abbrev Account (Item : Type u) (Place : Type v) := List (Item × Place)

/-- The items that came, wherever they are. -/
def items (account : Account Item Place) : List Item := account.map (·.1)

theorem items_append (account : Account Item Place) (item : Item) (place : Place) :
    items (account ++ [(item, place)]) = items account ++ [item] := by
  simp [items]

variable [DecidableEq Place]

def held (account : Account Item Place) (place : Place) : List Item :=
  (account.filter fun entry => entry.2 = place).map (·.1)

def handOn (source target : Place) (account : Account Item Place) : Account Item Place :=
  account.map fun entry => (entry.1, if entry.2 = source then target else entry.2)

variable {account : Account Item Place} {source target place : Place}

@[simp] theorem held_nil : held ([] : Account Item Place) place = [] := rfl

@[simp] theorem held_cons (entry : Item × Place) (rest : Account Item Place) :
    held (entry :: rest) place =
      if entry.2 = place then entry.1 :: held rest place else held rest place := by
  by_cases hit : entry.2 = place <;> simp [held, hit]

theorem held_append (item : Item) (other : Place) :
    held (account ++ [(item, place)]) other =
      if place = other then held account other ++ [item] else held account other := by
  by_cases hit : place = other <;> simp [held, hit]

@[simp] theorem handOn_cons (entry : Item × Place) (rest : Account Item Place) :
    handOn source target (entry :: rest) =
      (entry.1, if entry.2 = source then target else entry.2) :: handOn source target rest := rfl

@[simp] theorem items_handOn : items (handOn source target account) = items account := by
  simp [items, handOn]

/-- Into an empty place, in the same order. -/
theorem held_handOn_target (empty : held account target = []) :
    held (handOn source target account) target = held account source := by
  induction account with
  | nil => rfl
  | cons entry rest ih =>
      have apart : entry.2 ≠ target := by
        intro same
        simp [same] at empty
      have later : held rest target = [] := by simpa [apart] using empty
      by_cases hit : entry.2 = source
      · simp [hit, ih later]
      · simp [hit, apart, ih later]

theorem held_handOn_source (apart : source ≠ target) :
    held (handOn source target account) source = [] := by
  induction account with
  | nil => rfl
  | cons entry rest ih =>
      by_cases hit : entry.2 = source
      · simp [hit, Ne.symm apart, ih]
      · simp [hit, ih]

theorem held_handOn_other (unsent : place ≠ source) (unreached : place ≠ target) :
    held (handOn source target account) place = held account place := by
  induction account with
  | nil => rfl
  | cons entry rest ih =>
      by_cases hit : entry.2 = source
      · simp [hit, Ne.symm unsent, Ne.symm unreached, ih]
      · simp [hit, ih]

end Choirworks.Ledger
