import Mathlib.Data.List.Basic

/-!
Readers that stop at the first fault. A survey of a document lists its faults in
the order of reading, whatever is read from it; a reader that follows the survey
reads the documents without a fault and fails with the first fault of the others.
-/

namespace Choirworks

variable {ε α β : Type}

/-- The outcome of a reader against the survey of what it reads. -/
def Reports (read : Except ε α) (faults : List ε) : Prop :=
  match read with
  | .ok _ => faults = []
  | .error fault => faults.head? = some fault

namespace Reports

variable {read : Except ε α} {step : α → Except ε β} {faults later : List ε}

theorem ok (value : α) : Reports (.ok value : Except ε α) [] := rfl

theorem error (fault : ε) : Reports (.error fault : Except ε α) [fault] := rfl

/-- What is read second is surveyed behind; it is not reached behind a fault. -/
theorem bind_of (first : Reports read faults)
    (next : ∀ value, read = .ok value → Reports (step value) later) :
    Reports (read >>= step) (faults ++ later) := by
  cases read with
  | ok value =>
      have clean : faults = [] := first
      subst clean
      exact next value rfl
  | error fault =>
      have head : faults.head? = some fault := first
      change (faults ++ later).head? = some fault
      rw [List.head?_append, head]
      rfl

theorem bind (first : Reports read faults) (next : ∀ value, Reports (step value) later) :
    Reports (read >>= step) (faults ++ later) :=
  first.bind_of fun value _ => next value

/-- The last reading has nothing behind it. -/
theorem finish (first : Reports read faults) (result : α → β) :
    Reports (read >>= fun value => .ok (result value)) faults := by
  have reports := first.bind fun value => ok (result value)
  rwa [List.append_nil] at reports

/-- A list is read item by item. -/
theorem mapM (items : List α) (survey : α → List ε) (each : ∀ item, Reports (step item) (survey item)) :
    Reports (items.mapM step) (items.flatMap survey) := by
  induction items with
  | nil => exact ok []
  | cons item rest ih =>
      rw [List.mapM_cons, List.flatMap_cons]
      exact (each item).bind fun _ => ih.finish _

theorem reads_iff (reports : Reports read faults) : (∃ value, read = .ok value) ↔ faults = [] := by
  cases read with
  | ok value => exact ⟨fun _ => reports, fun _ => ⟨value, rfl⟩⟩
  | error fault =>
      have head : faults.head? = some fault := reports
      constructor
      · rintro ⟨_, same⟩
        cases same
      · rintro rfl
        cases head

end Reports

end Choirworks
