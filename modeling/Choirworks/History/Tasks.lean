import Choirworks.History.Messages
import Choirworks.Library.Table

/-!
The task list of a context and the rewind filter over it. The store lists
newest first and in pages; a rewind marker hides every older task of its
context down to and including its target.
-/

namespace Choirworks.History

structure Task where
  id : String
  contextId : String
  rewind : Option String
  artifacts : List Artifact
deriving DecidableEq

/-- `extract_rewind`: an empty marker value is no marker. -/
def extractRewind (task : Task) : Option String :=
  task.rewind.filter fun before => before ≠ ""

/-- One task of the stream: the pending rewinds behind it, and whether it is
yielded. -/
def filterTask (skips : Dict String (List String)) (task : Task) :
    Dict String (List String) × Bool :=
  match extractRewind task with
  | some before =>
      (skips.set task.contextId (skips.getD task.contextId [] ++ [before]), false)
  | none =>
      let stack := skips.getD task.contextId []
      match stack.getLast? with
      | none => (skips, true)
      | some wanted =>
          if task.id = wanted then (skips.set task.contextId stack.dropLast, false)
          else (skips, false)

def iterTasks (skips : Dict String (List String)) : List Task → List Task
  | [] => []
  | task :: rest =>
      let (behind, visible) := filterTask skips task
      if visible then task :: iterTasks behind rest else iterTasks behind rest

/-- The pending rewinds after a page, which the next page starts with. -/
def pageSkips (skips : Dict String (List String)) (page : List Task) : Dict String (List String) :=
  page.foldl (fun skips task => (filterTask skips task).1) skips

def iterPages (skips : Dict String (List String)) : List (List Task) → List Task
  | [] => []
  | page :: rest => iterTasks skips page ++ iterPages (pageSkips skips page) rest

def iterAllTasks (pages : List (List Task)) : List Task := iterPages .empty pages

/-- `list_all_tasks` with `reverse=True`: the visible tasks, oldest first. -/
def listAllTasks (pages : List (List Task)) : List Task := (iterAllTasks pages).reverse

theorem iter_tasks_append (left right : List Task) (skips : Dict String (List String)) :
    iterTasks skips (left ++ right) =
      iterTasks skips left ++ iterTasks (pageSkips skips left) right := by
  induction left generalizing skips with
  | nil => rfl
  | cons task rest ih =>
      simp only [List.cons_append, iterTasks, pageSkips, List.foldl_cons]
      cases (filterTask skips task).2 with
      | true => simp [ih, pageSkips]
      | false => simp [ih, pageSkips]

/-- Where the pages are cut makes no difference. -/
theorem iter_pages_flatten (pages : List (List Task)) (skips : Dict String (List String)) :
    iterPages skips pages = iterTasks skips pages.flatten := by
  induction pages generalizing skips with
  | nil => rfl
  | cons page rest ih => rw [iterPages, List.flatten_cons, iter_tasks_append, ih]

/-- Without rewind markers every task is visible. -/
theorem iter_tasks_plain {tasks : List Task} (plain : ∀ task ∈ tasks, extractRewind task = none) :
    iterTasks .empty tasks = tasks := by
  induction tasks with
  | nil => rfl
  | cons task rest ih =>
      have ordinary := plain task List.mem_cons_self
      have unmarked : filterTask .empty task = (.empty, true) := by
        simp only [filterTask, ordinary]
        rfl
      rw [iterTasks, unmarked]
      exact congrArg (task :: ·) (ih fun other later => plain other (List.mem_cons_of_mem _ later))

theorem iter_tasks_subset (tasks : List Task) (skips : Dict String (List String)) :
    iterTasks skips tasks ⊆ tasks := by
  induction tasks generalizing skips with
  | nil => exact List.Subset.refl _
  | cons task rest ih =>
      simp only [iterTasks]
      split
      · exact List.cons_subset_cons _ (ih _)
      · exact List.subset_cons_of_subset _ (ih _)

/-! ### One context -/

/-- The filter over tasks of one context, with that context's stack alone. -/
def iterStack : List String → List Task → List Task
  | _, [] => []
  | stack, task :: rest =>
      match extractRewind task, stack.getLast? with
      | some before, _ => iterStack (stack ++ [before]) rest
      | none, none => task :: iterStack stack rest
      | none, some wanted =>
          if task.id = wanted then iterStack stack.dropLast rest else iterStack stack rest

theorem iter_tasks_stack {contextId : String} {tasks : List Task}
    (same : ∀ task ∈ tasks, task.contextId = contextId) (skips : Dict String (List String)) :
    iterTasks skips tasks = iterStack (skips.getD contextId []) tasks := by
  induction tasks generalizing skips with
  | nil => rfl
  | cons task rest ih =>
      have own := same task List.mem_cons_self
      have later := ih fun other member => same other (List.mem_cons_of_mem _ member)
      simp only [iterTasks, filterTask, iterStack, own]
      cases marker : extractRewind task with
      | some before =>
          simp only [Bool.false_eq_true, ↓reduceIte, later]
          simp [Dict.getD]
      | none =>
          cases top : (skips.getD contextId []).getLast? with
          | none => simp [later]
          | some wanted =>
              by_cases hit : task.id = wanted
              · simp only [hit, ↓reduceIte, Bool.false_eq_true, later]
                simp [Dict.getD]
              · simp [hit, later]

/-- A rewind that is still pending hides what is visible up to its target. -/
theorem iter_stack_pending (before : String) (tasks : List Task) (stack : List String) :
    iterStack (before :: stack) tasks =
      ((iterStack stack tasks).dropWhile fun task => task.id ≠ before).drop 1 := by
  induction tasks generalizing stack with
  | nil => rfl
  | cons task rest ih =>
      cases marker : extractRewind task with
      | some other =>
          simp only [iterStack, marker]
          exact ih (stack ++ [other])
      | none =>
          rcases List.eq_nil_or_concat' stack with rfl | ⟨lower, top, rfl⟩
          · simp only [iterStack, marker, List.getLast?_singleton, List.getLast?_nil,
              List.dropLast_singleton]
            by_cases hit : task.id = before
            · simp [hit]
            · simp [hit, ih]
          · -- the pending rewind lies below the top of the stack
            have tops : ((before :: lower) ++ [top]).getLast? = some top := List.getLast?_concat
            have drops : ((before :: lower) ++ [top]).dropLast = before :: lower :=
              List.dropLast_concat
            rw [List.cons_append] at tops drops
            simp only [iterStack, marker, tops, drops, List.getLast?_concat, List.dropLast_concat]
            by_cases hit : task.id = top
            · simp only [hit, ↓reduceIte, ih]
            · simp only [hit, ↓reduceIte, ih]

end Choirworks.History
