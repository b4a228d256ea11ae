import Mathlib.Data.List.Induction
import Choirworks.History.Tasks

/-!
What the rewind filter means. Read oldest first, a marker truncates the list of
its context from the target on. `iter_all_tasks` reads newest first and must
skip before it knows what older markers did; the stack of pending rewinds of a
context is enough for it, because a marker names a task that was visible.
-/

namespace Choirworks.History

/-- The visible tasks without those of the context from the named one on. -/
def truncateFrom (contextId before : String) : List Task → List Task
  | [] => []
  | task :: rest =>
      if task.contextId = contextId ∧ task.id = before then
        rest.filter fun other => other.contextId ≠ contextId
      else task :: truncateFrom contextId before rest

/-- The visible tasks, oldest first, once the task is written. -/
def addTask (visible : List Task) (task : Task) : List Task :=
  match extractRewind task with
  | none => visible ++ [task]
  | some before => truncateFrom task.contextId before visible

def visibleTasks (history : List Task) : List Task := history.foldl addTask []

/-- Each marker targets a task of its context that is visible when it is written. -/
def TargetsVisible : List Task → List Task → Prop
  | _, [] => True
  | visible, task :: rest =>
      (∀ before ∈ extractRewind task, ∃ target ∈ visible,
        target.contextId = task.contextId ∧ target.id = before) ∧
      TargetsVisible (addTask visible task) rest

instance decidableTargetsVisible : (visible history : List Task) →
    Decidable (TargetsVisible visible history)
  | _, [] => .isTrue trivial
  | visible, task :: rest =>
      have := decidableTargetsVisible (addTask visible task) rest
      inferInstanceAs (Decidable ((∀ before ∈ extractRewind task, _) ∧ _))

/-! ### The pending rewind at the bottom of a stack -/

/-- Newest first: the tasks of the context down to the named one are hidden. -/
def hideTo (contextId before : String) : List Task → List Task
  | [] => []
  | task :: rest =>
      if task.contextId ≠ contextId then task :: hideTo contextId before rest
      else if task.id = before then rest
      else hideTo contextId before rest

section Filter

variable {skips : Dict String (List String)} {task : Task} (rest : List Task)

theorem getD_set (contextId other : String) (stack : List String) :
    (skips.set contextId stack).getD other [] =
      if other = contextId then stack else skips.getD other [] := by
  by_cases own : other = contextId <;> simp [Dict.getD, own]

theorem iter_marker {before : String} (marker : extractRewind task = some before) :
    iterTasks skips (task :: rest) = iterTasks
      (skips.set task.contextId (skips.getD task.contextId [] ++ [before])) rest := by
  simp [iterTasks, filterTask, marker]

theorem iter_shown (ordinary : extractRewind task = none)
    (none : skips.getD task.contextId [] = []) :
    iterTasks skips (task :: rest) = task :: iterTasks skips rest := by
  simp [iterTasks, filterTask, ordinary, none]

/-- The task that the newest pending rewind waits for. -/
theorem iter_target (ordinary : extractRewind task = none) {lower : List String}
    (stack : skips.getD task.contextId [] = lower ++ [task.id]) :
    iterTasks skips (task :: rest) = iterTasks (skips.set task.contextId lower) rest := by
  simp [iterTasks, filterTask, ordinary, stack]

theorem iter_skipped (ordinary : extractRewind task = none) {lower : List String}
    {wanted : String} (stack : skips.getD task.contextId [] = lower ++ [wanted])
    (other : task.id ≠ wanted) : iterTasks skips (task :: rest) = iterTasks skips rest := by
  simp [iterTasks, filterTask, ordinary, stack, other]

end Filter

/-- One pending rewind more in one context. -/
def Pending (contextId before : String) (left right : Dict String (List String)) : Prop :=
  ∀ other, left.getD other [] =
    if other = contextId then before :: right.getD other [] else right.getD other []

section Pending

variable {contextId before : String} {left right : Dict String (List String)}

theorem Pending.set (pending : Pending contextId before left right) {own : String}
    {behind : List String} (stack : List String)
    (same : behind = if own = contextId then before :: stack else stack) :
    Pending contextId before (left.set own behind) (right.set own stack) := by
  intro other
  rw [getD_set, getD_set]
  by_cases hit : other = own
  · subst hit
    simpa using same
  · simpa [hit] using pending other

/-- Only the stacks matter. -/
theorem iter_tasks_congr (same : ∀ other, left.getD other [] = right.getD other [])
    (tasks : List Task) : iterTasks left tasks = iterTasks right tasks := by
  induction tasks generalizing left right with
  | nil => rfl
  | cons task rest ih =>
      have set : ∀ stack other, (left.set task.contextId stack).getD other [] =
          (right.set task.contextId stack).getD other [] := by
        intro stack other
        rw [getD_set, getD_set, same]
      cases marker : extractRewind task with
      | some before =>
          rw [iter_marker rest marker, iter_marker rest marker, same]
          exact ih (set _)
      | none =>
          rcases List.eq_nil_or_concat' (right.getD task.contextId []) with none | ⟨lower, top, stack⟩
          · rw [iter_shown rest marker none, iter_shown rest marker ((same _).trans none), ih same]
          · by_cases hit : task.id = top
            · rw [← hit] at stack
              rw [iter_target rest marker stack, iter_target rest marker ((same _).trans stack)]
              exact ih (set _)
            · rw [iter_skipped rest marker stack hit,
                iter_skipped rest marker ((same _).trans stack) hit, ih same]

/-- A pending rewind that lies below all others of its context hides what is
visible without it, down to its target. -/
theorem iter_tasks_pending (pending : Pending contextId before left right) (tasks : List Task) :
    iterTasks left tasks = hideTo contextId before (iterTasks right tasks) := by
  induction tasks generalizing left right with
  | nil => rfl
  | cons task rest ih =>
      have own := pending task.contextId
      cases marker : extractRewind task with
      | some other =>
          rw [iter_marker rest marker, iter_marker rest marker]
          apply ih
          apply pending.set
          rw [own]
          split <;> rfl
      | none =>
          rcases List.eq_nil_or_concat' (right.getD task.contextId []) with none | ⟨lower, top, stack⟩
          · by_cases here : task.contextId = contextId
            · -- only the pending rewind is on the stack
              rw [none, if_pos here] at own
              rw [iter_shown rest marker none]
              by_cases hit : task.id = before
              · have single : left.getD task.contextId [] = [] ++ [task.id] := by
                  rw [own, hit]
                  rfl
                rw [iter_target rest marker single]
                simp only [hideTo, here, hit, ne_eq, not_true_eq_false, ↓reduceIte]
                apply iter_tasks_congr
                intro other
                rw [getD_set, pending other]
                by_cases this : other = contextId
                · simp [this, ← here, none]
                · simp [this]
              · have single : left.getD task.contextId [] = [] ++ [before] := own
                rw [iter_skipped rest marker single hit]
                simp only [hideTo, here, hit, ne_eq, not_true_eq_false, ↓reduceIte]
                exact ih pending
            · rw [none, if_neg here] at own
              rw [iter_shown rest marker none, iter_shown rest marker own]
              simp only [hideTo, here, ne_eq, not_false_eq_true, ↓reduceIte]
              rw [ih pending]
          · -- a newer rewind of the context is on top in both
            have above : left.getD task.contextId [] =
                (if task.contextId = contextId then before :: lower else lower) ++ [top] := by
              rw [own, stack]
              split <;> rfl
            by_cases hit : task.id = top
            · rw [← hit] at stack above
              rw [iter_target rest marker stack, iter_target rest marker above]
              exact ih (pending.set lower rfl)
            · rw [iter_skipped rest marker stack hit, iter_skipped rest marker above hit]
              exact ih pending

end Pending

/-! ### Hiding and truncating -/

section Hide

variable {contextId before : String}

/-- Behind the target nothing is hidden. -/
theorem hideTo_found {left : List Task} (right : List Task)
    (found : ∃ task ∈ left, task.contextId = contextId ∧ task.id = before) :
    hideTo contextId before (left ++ right) = hideTo contextId before left ++ right := by
  induction left with
  | nil => simp at found
  | cons task rest ih =>
      simp only [List.cons_append, hideTo]
      by_cases own : task.contextId = contextId
      · by_cases hit : task.id = before
        · simp [own, hit]
        · simp only [own, hit, ne_eq, not_true_eq_false, ↓reduceIte]
          apply ih
          simpa [hit] using found
      · simp only [own, ne_eq, not_false_eq_true, ↓reduceIte, List.cons_append]
        rw [ih (by simpa [own] using found)]

/-- In front of the target the whole context is hidden. -/
theorem hideTo_missing {left : List Task} (right : List Task)
    (missing : ∀ task ∈ left, ¬ (task.contextId = contextId ∧ task.id = before)) :
    hideTo contextId before (left ++ right) =
      left.filter (fun task => task.contextId ≠ contextId) ++ hideTo contextId before right := by
  induction left with
  | nil => rfl
  | cons task rest ih =>
      have later := ih fun other member => missing other (List.mem_cons_of_mem _ member)
      have first := missing task List.mem_cons_self
      simp only [List.cons_append, hideTo]
      by_cases own : task.contextId = contextId
      · have other : task.id ≠ before := fun hit => first ⟨own, hit⟩
        simp [own, other, later]
      · simp [own, later]

theorem hideTo_reverse {visible : List Task} (unique : (visible.map (·.id)).Nodup)
    (found : ∃ task ∈ visible, task.contextId = contextId ∧ task.id = before) :
    hideTo contextId before visible.reverse = (truncateFrom contextId before visible).reverse := by
  induction visible with
  | nil => simp at found
  | cons task rest ih =>
      simp only [List.map_cons, List.nodup_cons] at unique
      rw [List.reverse_cons]
      by_cases hit : task.contextId = contextId ∧ task.id = before
      · have missing : ∀ other ∈ rest.reverse,
            ¬ (other.contextId = contextId ∧ other.id = before) := by
          rintro other member ⟨_, same⟩
          exact unique.1 (List.mem_map.mpr ⟨other, List.mem_reverse.mp member, same.trans hit.2.symm⟩)
        rw [hideTo_missing _ missing]
        simp [hideTo, truncateFrom, hit]
      · have later : ∃ other ∈ rest, other.contextId = contextId ∧ other.id = before := by
          obtain ⟨other, member, same⟩ := found
          rcases List.mem_cons.mp member with rfl | inside
          · exact absurd same hit
          · exact ⟨other, inside, same⟩
        rw [hideTo_found _ (by simpa using later), ih unique.2 later]
        simp [truncateFrom, hit]

end Hide

/-! ### The filter computes the visible history -/

theorem truncateFrom_sublist (contextId before : String) (visible : List Task) :
    (truncateFrom contextId before visible).Sublist visible := by
  induction visible with
  | nil => exact List.Sublist.refl _
  | cons task rest ih =>
      simp only [truncateFrom]
      split
      · exact List.filter_sublist.cons task
      · exact ih.cons_cons task

theorem visibleTasks_snoc (history : List Task) (task : Task) :
    visibleTasks (history ++ [task]) = addTask (visibleTasks history) task := by
  simp [visibleTasks]

theorem visibleTasks_sublist (history : List Task) : (visibleTasks history).Sublist history := by
  induction history using List.reverseRecOn with
  | nil => exact List.Sublist.refl _
  | append_singleton older task ih =>
      rw [visibleTasks_snoc]
      unfold addTask
      split
      · exact ih.append (List.Sublist.refl _)
      · exact ((truncateFrom_sublist _ _ _).trans ih).trans (List.sublist_append_left _ _)

theorem targetsVisible_snoc (visible history : List Task) (task : Task) :
    TargetsVisible visible (history ++ [task]) ↔ TargetsVisible visible history ∧
      ∀ before ∈ extractRewind task, ∃ target ∈ history.foldl addTask visible,
        target.contextId = task.contextId ∧ target.id = before := by
  induction history generalizing visible with
  | nil => simp [TargetsVisible]
  | cons first rest ih =>
      simp only [List.cons_append, TargetsVisible, List.foldl_cons, ih, and_assoc]

/-- The stream over the reversed history, before it is cut into pages. -/
theorem iter_tasks_visible (history : List Task) (unique : (history.map (·.id)).Nodup)
    (targets : TargetsVisible [] history) :
    iterTasks .empty history.reverse = (visibleTasks history).reverse := by
  induction history using List.reverseRecOn with
  | nil => rfl
  | append_singleton older task ih =>
      obtain ⟨before_targets, target⟩ := (targetsVisible_snoc [] older task).mp targets
      have before_unique : (older.map (·.id)).Nodup :=
        (List.Sublist.map _ (List.sublist_append_left older [task])).nodup unique
      have behind := ih before_unique before_targets
      rw [List.reverse_append, List.reverse_singleton, List.singleton_append, visibleTasks_snoc]
      cases marker : extractRewind task with
      | none =>
          rw [iter_shown _ marker rfl, behind]
          simp [addTask, marker]
      | some before =>
          have pending : Pending task.contextId before (Dict.set .empty task.contextId [before])
              .empty := by
            intro other
            rw [getD_set]
            rfl
          have own_unique : ((visibleTasks older).map (·.id)).Nodup :=
            ((visibleTasks_sublist older).map _).nodup before_unique
          have stack : Dict.getD (.empty : Dict String (List String)) task.contextId [] = [] := rfl
          rw [iter_marker _ marker, stack, List.nil_append, iter_tasks_pending pending, behind,
            hideTo_reverse own_unique (target before marker)]
          simp [addTask, marker]

section Contexts

variable (contextId before : String) (visible : List Task)

theorem truncateFrom_own :
    (truncateFrom contextId before visible).filter (fun task => task.contextId = contextId) =
      truncateFrom contextId before (visible.filter fun task => task.contextId = contextId) := by
  induction visible with
  | nil => rfl
  | cons task rest ih =>
      by_cases mine : task.contextId = contextId
      · by_cases hit : task.id = before
        · simp [truncateFrom, mine, hit, List.filter_filter]
        · simp [truncateFrom, mine, hit, ih]
      · simp [truncateFrom, mine, ih]

/-- A rewind leaves the other contexts alone. -/
theorem truncateFrom_other {own : String} (elsewhere : own ≠ contextId) :
    (truncateFrom own before visible).filter (fun task => task.contextId = contextId) =
      visible.filter fun task => task.contextId = contextId := by
  induction visible with
  | nil => rfl
  | cons task rest ih =>
      by_cases target : task.contextId = own ∧ task.id = before
      · have other : task.contextId ≠ contextId := fun mine => elsewhere (target.1.symm.trans mine)
        simp only [truncateFrom, target, and_self, ↓reduceIte, List.filter_filter]
        rw [List.filter_cons_of_neg (by simpa using other)]
        apply List.filter_congr
        intro later _
        by_cases mine : later.contextId = contextId
        · simp [mine, elsewhere.symm]
        · simp [mine]
      · simp only [truncateFrom, target, ↓reduceIte, List.filter_cons, ih]

/-- The visible tasks of a context are what its own tasks leave. -/
theorem visibleTasks_filter (history : List Task) :
    (visibleTasks history).filter (fun task => task.contextId = contextId) =
      visibleTasks (history.filter fun task => task.contextId = contextId) := by
  induction history using List.reverseRecOn with
  | nil => rfl
  | append_singleton older task ih =>
      rw [visibleTasks_snoc, List.filter_append]
      by_cases mine : task.contextId = contextId
      · have kept : [task].filter (fun task => task.contextId = contextId) = [task] := by
          simp [mine]
        rw [kept, visibleTasks_snoc, ← ih]
        cases marker : extractRewind task with
        | none => simp [addTask, marker, mine]
        | some before => simp [addTask, marker, mine, truncateFrom_own]
      · have dropped : [task].filter (fun task => task.contextId = contextId) = [] := by
          simp [mine]
        rw [dropped, List.append_nil, ← ih]
        cases marker : extractRewind task with
        | none => simp [addTask, marker, mine]
        | some before => simp [addTask, marker, truncateFrom_other _ _ _ mine]

end Contexts

/-- For every history and every cut of its listing into pages: the stream is the
visible history, newest first, and each context's part of it depends on the
tasks of that context only. -/
theorem iter_all_tasks_visible (history : List Task) (pages : List (List Task))
    (unique : (history.map (·.id)).Nodup) (targets : TargetsVisible [] history)
    (listed : pages.flatten = history.reverse) :
    iterAllTasks pages = (visibleTasks history).reverse ∧
      ∀ contextId, (iterAllTasks pages).filter (fun task => task.contextId = contextId) =
        (visibleTasks (history.filter fun task => task.contextId = contextId)).reverse := by
  have stream : iterAllTasks pages = (visibleTasks history).reverse := by
    rw [iterAllTasks, iter_pages_flatten, listed, iter_tasks_visible history unique targets]
  refine ⟨stream, fun contextId => ?_⟩
  rw [stream, List.filter_reverse, visibleTasks_filter]

section Nested

/-! Two contexts. In the first a rewind hides `a2`, and a later one hides the
turn behind it together with the marker; the second rewinds its only task. -/

def turn (contextId id : String) : Task := ⟨id, contextId, none, []⟩

def rewindTo (contextId id before : String) : Task := ⟨id, contextId, some before, []⟩

def nestedRewinds : List Task := [
  turn "A" "a1", turn "B" "b1", turn "A" "a2", rewindTo "A" "m1" "a2", turn "A" "a3",
  rewindTo "B" "m2" "b1", rewindTo "A" "m3" "a1", turn "A" "a4", turn "B" "b2"]

theorem nested_rewinds_visible :
    iterAllTasks [nestedRewinds.reverse.take 4, nestedRewinds.reverse.drop 4] =
      [turn "B" "b2", turn "A" "a4"] := by
  have filtered := (iter_all_tasks_visible nestedRewinds
    [nestedRewinds.reverse.take 4, nestedRewinds.reverse.drop 4] (by decide) (by decide)
    (by decide)).1
  rw [filtered]
  decide

end Nested

end Choirworks.History
