import Mathlib.Data.List.Basic

/-!
Logs with closing entries. A log is open as long as it has none, and closed
once its last entry is its only one.
-/

namespace Choirworks.Closings

universe u
variable {Entry : Type u} {closing : Entry → Prop}

def Open (closing : Entry → Prop) (log : List Entry) : Prop := ∀ entry ∈ log, ¬ closing entry

instance [DecidablePred closing] (log : List Entry) : Decidable (Open closing log) :=
  inferInstanceAs (Decidable (∀ entry ∈ log, ¬ closing entry))

def Closed (closing : Entry → Prop) (log : List Entry) : Prop :=
  ∃ front last, log = front ++ [last] ∧ Open closing front ∧ closing last

/-- Nothing comes behind a closing entry. -/
def AtEnd (closing : Entry → Prop) (log : List Entry) : Prop :=
  ∀ front entry rest, log = front ++ entry :: rest → closing entry → rest = []

theorem open_nil : Open closing [] := by
  intro entry member
  cases member

theorem Open.append {left right : List Entry} (before : Open closing left)
    (behind : Open closing right) : Open closing (left ++ right) := by
  intro entry member
  rcases List.mem_append.mp member with early | late
  · exact before entry early
  · exact behind entry late

theorem open_singleton {entry : Entry} (plain : ¬ closing entry) : Open closing [entry] := by
  intro other member
  rw [List.mem_singleton.mp member]
  exact plain

theorem Open.close {log : List Entry} (before : Open closing log) {entry : Entry}
    (closes : closing entry) : Closed closing (log ++ [entry]) :=
  ⟨log, entry, rfl, before, closes⟩

theorem Open.at_end {log : List Entry} (before : Open closing log) : AtEnd closing log := by
  intro front entry rest split closes
  have member : entry ∈ log := by
    rw [split]
    exact List.mem_append_right front List.mem_cons_self
  exact absurd closes (before entry member)

theorem Closed.at_end {log : List Entry} (closed : Closed closing log) : AtEnd closing log := by
  intro front entry rest split closes
  obtain ⟨before, last, same, opens, _⟩ := closed
  rcases List.eq_nil_or_concat' rest with none_ | ⟨behind, final, rfl⟩
  · exact none_
  · -- an entry with something behind it lies in the open front
    have member : entry ∈ before := by
      have parts : before ++ [last] = (front ++ entry :: behind) ++ [final] := by
        rw [← same, split]
        simp
      rw [(List.append_inj' parts rfl).1]
      exact List.mem_append_right front List.mem_cons_self
    exact absurd closes (opens entry member)

theorem Closed.has {log : List Entry} (closed : Closed closing log) : ∃ entry ∈ log, closing entry := by
  obtain ⟨before, last, rfl, _, closes⟩ := closed
  exact ⟨last, List.mem_append_right before List.mem_cons_self, closes⟩

end Choirworks.Closings
