import Choirworks.History.Rewinds

/-!
The requests that a restart sends: one for each conversation with unfinished
work, on its newest unfinished task that no rewind hides.
-/

namespace Choirworks.History

/-- What the stores say of tasks and contexts. -/
structure Stores where
  /-- The state of the task is one of `TERMINAL_STATES`. -/
  terminal : Task → Bool
  /-- `load_state` finds a snapshot on the task. -/
  loads : Task → Bool
  /-- The context has a record. -/
  recorded : String → Bool

variable (stores : Stores)

/-- A task that can be taken up again. -/
def Stores.unfinished (task : Task) : Bool :=
  !stores.terminal task && (stores.loads task || stores.recorded task.contextId)

/-- The loop over the stream; `seen` are the contexts with a request. -/
def recoverFrom : List String → List Task → List Task
  | _, [] => []
  | seen, task :: rest =>
      if stores.terminal task then recoverFrom seen rest
      else if task.contextId ∈ seen then recoverFrom seen rest
      else if !stores.loads task && !stores.recorded task.contextId then recoverFrom seen rest
      else task :: recoverFrom (task.contextId :: seen) rest

/-- `recover_tasks`: the tasks that are sent a request, in that order. -/
def recoverTasks (pages : List (List Task)) : List Task := recoverFrom stores [] (iterAllTasks pages)

/-- A task is sent a request if it is unfinished and the first one of its context. -/
theorem recover_cons (seen : List String) (task : Task) (rest : List Task) :
    recoverFrom stores seen (task :: rest) =
      if stores.unfinished task ∧ task.contextId ∉ seen then
        task :: recoverFrom stores (task.contextId :: seen) rest
      else recoverFrom stores seen rest := by
  rw [recoverFrom]
  unfold Stores.unfinished
  cases stores.terminal task <;> cases stores.loads task <;>
    cases stores.recorded task.contextId <;> by_cases known : task.contextId ∈ seen <;> simp [known]

theorem recover_find (contextId : String) (seen : List String) (tasks : List Task) :
    (recoverFrom stores seen tasks).find? (fun task => task.contextId = contextId) =
      if contextId ∈ seen then none
      else (tasks.filter fun task => task.contextId = contextId).find? stores.unfinished := by
  induction tasks generalizing seen with
  | nil => simp [recoverFrom]
  | cons task rest ih =>
      rw [recover_cons]
      by_cases own : task.contextId = contextId
      · subst own
        by_cases known : task.contextId ∈ seen
        · rw [if_neg (by simp [known]), ih]
          simp [known]
        · cases taken : stores.unfinished task with
          | true => simp [known, taken]
          | false => simp [known, taken, ih]
      · split
        · rw [List.find?_cons_of_neg (by simpa using own), ih]
          simp [own, Ne.symm own]
        · rw [ih]
          simp [own]

theorem recover_fresh (seen : List String) (tasks : List Task) :
    ∀ task ∈ recoverFrom stores seen tasks, task.contextId ∉ seen := by
  intro task member known
  have found : ((recoverFrom stores seen tasks).find?
      (fun other => other.contextId = task.contextId)).isSome := by
    rw [List.find?_isSome]
    exact ⟨task, member, by simp⟩
  rw [recover_find, if_pos known] at found
  cases found

theorem recover_nodup (seen : List String) (tasks : List Task) :
    ((recoverFrom stores seen tasks).map (·.contextId)).Nodup := by
  induction tasks generalizing seen with
  | nil => exact List.nodup_nil
  | cons task rest ih =>
      rw [recover_cons]
      split
      · rw [List.map_cons, List.nodup_cons]
        refine ⟨?_, ih _⟩
        intro again
        obtain ⟨other, member, same⟩ := List.mem_map.mp again
        exact recover_fresh stores _ rest other member (by simp [same])
      · exact ih seen

/-- However the listing is cut into pages and whatever was rewound, each conversation
is sent one request at most, and that on the newest of its own visible tasks that
can be taken up again. -/
theorem recovered_once (history : List Task) (pages : List (List Task))
    (unique : (history.map (·.id)).Nodup) (targets : TargetsVisible [] history)
    (listed : pages.flatten = history.reverse) :
    ((recoverTasks stores pages).map (·.contextId)).Nodup ∧
      ∀ contextId, (recoverTasks stores pages).find? (fun task => task.contextId = contextId) =
        (visibleTasks (history.filter fun task => task.contextId = contextId)).reverse.find?
          stores.unfinished := by
  have stream : iterAllTasks pages = (visibleTasks history).reverse := by
    rw [iterAllTasks, iter_pages_flatten, listed, iter_tasks_visible history unique targets]
  refine ⟨recover_nodup stores [] _, fun contextId => ?_⟩
  rw [recoverTasks, recover_find, if_neg List.not_mem_nil, stream, List.filter_reverse,
    visibleTasks_filter]

/-- The state `A` is known, `B` is not; the newest task of `A` is over. -/
def crashed : Stores where
  terminal := fun task => task.id = "a4"
  loads := fun _ => false
  recorded := fun contextId => contextId = "A"

def twoConversations : List Task :=
  [turn "A" "a1", turn "B" "b1", turn "A" "a2", turn "A" "a3", rewindTo "A" "m1" "a3", turn "A" "a4"]

theorem recovered_once_crashed :
    ((recoverTasks crashed [twoConversations.reverse]).map (·.id)) = ["a2"] ∧
      ∀ contextId, (recoverTasks crashed [twoConversations.reverse]).find?
          (fun task => task.contextId = contextId) =
        (visibleTasks (twoConversations.filter fun task => task.contextId = contextId)).reverse.find?
          crashed.unfinished :=
  ⟨by decide +kernel, (recovered_once crashed twoConversations [twoConversations.reverse]
    (by decide) (by decide) (by decide)).2⟩

end Choirworks.History
