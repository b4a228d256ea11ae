import Mathlib.Data.List.Induction
import Mathlib.Data.List.Nodup

/-!
The values of a list in the order of their first occurrences, `eraseDups`, one
value at a time.
-/

namespace Choirworks.Firsts

universe u
variable {Value : Type u} [DecidableEq Value]

theorem firsts_snoc (values : List Value) (value : Value) :
    (values ++ [value]).eraseDups =
      if value ∈ values then values.eraseDups else values.eraseDups ++ [value] := by
  rw [List.eraseDups_append]
  by_cases seen : value ∈ values <;> simp [List.removeAll, List.eraseDups_cons, seen]

theorem firsts_nodup (values : List Value) : values.eraseDups.Nodup := by
  induction values using List.reverseRecOn with
  | nil => simp
  | append_singleton values value ih =>
      rw [firsts_snoc]
      split
      · exact ih
      · rename_i fresh
        exact ih.append (List.nodup_singleton value) (by simpa using fresh)

/-- Values without repetitions are their own first occurrences. -/
theorem firsts_of_nodup {values : List Value} (once : values.Nodup) : values.eraseDups = values := by
  induction values using List.reverseRecOn with
  | nil => simp
  | append_singleton values value ih =>
      have parts := List.nodup_append.mp once
      have fresh : value ∉ values := fun seen => parts.2.2 value seen value (by simp) rfl
      rw [firsts_snoc, if_neg fresh, ih parts.1]

end Choirworks.Firsts
