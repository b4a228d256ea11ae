import Choirworks.History.Room
import Choirworks.Library.Runs

/-!
Live history and rebuilt history. Tasks are used one after another, each
recording appends to the live list and stores an artifact, compactions persist
their summary and count, and a restart forgets the cache and rebuilds the list
over all tasks. Every rebuild then gives back the live list.
-/

namespace Choirworks.History

namespace Replay

inductive Event where
  | startTask (taskId : String)
  | record (recording : Recording)
  | compact (answer : String)
  | restart (fresh : Nat → String) (pages : List (List Task))

/-- A task that starts is new, and everything is emitted under the newest task. -/
def startTask (room : Room) (taskId : String) : Option Room :=
  if taskId ∈ room.tasks.keys then none
  else
    let messages := match room.live with
      | none => []
      | some live => live.messages
    some { room.openTask taskId with live := some ⟨taskId, messages⟩ }

def restart (room : Room) (fresh : Nat → String) (pages : List (List Task)) : Option Room :=
  match room.live with
  | none => none
  | some live =>
      if room.Listed pages then
        let rebuilt := { room with cache := .empty }.rebuild fresh "" pages
        some { room with live := some { live with messages := rebuilt.1 }, cache := rebuilt.2 }
      else none

def step (builder : HistoryBuilder) (room : Room) : Event → Option Room
  | .startTask taskId => startTask room taskId
  | .record recording => room.record recording
  | .compact answer => room.compact builder answer
  | .restart fresh pages => restart room fresh pages

/-- Before the first task nothing is stored or cached. -/
def Inv (room : Room) : Prop :=
  match room.live with
  | none => room.tasks.rows = [] ∧ room.cached = none
  | some live => room.Sync live

theorem start_inv (contextId : NonEmpty) : Inv (.start contextId) := ⟨rfl, rfl⟩

theorem sync_start {room : Room} {messages : List ChatMessage} {taskId : String}
    (fresh : taskId ∉ room.tasks.keys) (mirrored : ∃ replayed, room.Replays replayed ∧
      Mirrors replayed messages room.cached) :
    ({ room.openTask taskId with live := some ⟨taskId, messages⟩ } : Room).Sync
      ⟨taskId, messages⟩ := by
  obtain ⟨replayed, replays, mirrors⟩ := mirrored
  obtain ⟨newest, parts⟩ := Room.open_new fresh
  refine ⟨⟨replayed, ?_, ?_⟩, newest⟩
  · intro ids
    exact (congrArg (replayParts ids .empty) parts).trans (replays ids)
  · have same := Room.open_cached room taskId
    exact same.symm ▸ mirrors

theorem start_task_inv {room next : Room} {taskId : String} (inv : Inv room)
    (started : startTask room taskId = some next) : Inv next := by
  unfold startTask at started
  split at started
  · cases started
  · rename_i fresh
    cases started
    unfold Inv at inv
    cases alive : room.live with
    | none =>
        rw [alive] at inv
        refine sync_start fresh ⟨.empty, ?_, ?_⟩
        · intro ids
          simp [Room.visibleParts, Room.visible, inv.1, iterTasks, replayParts]
        · exact ⟨rfl, inv.2, by simp [Replayed.empty]⟩
    | some live =>
        rw [alive] at inv
        exact sync_start fresh inv.mirrors

theorem restart_inv {room next : Room} {fresh : Nat → String} {pages : List (List Task)}
    (inv : Inv room) (restarted : restart room fresh pages = some next) : Inv next := by
  unfold restart at restarted
  split at restarted
  · cases restarted
  · rename_i live alive
    simp only [Inv, alive] at inv
    split at restarted
    · rename_i listed
      cases restarted
      obtain ⟨⟨replayed, replays, mirrors⟩, newest⟩ := inv
      let emptied : Room := { room with cache := .empty }
      have emptiedReplays : emptied.Replays replayed := replays
      have listedEmptied : emptied.Listed pages := listed
      have rebuilt := emptiedReplays.rebuild listedEmptied
        (Room.replay_nothing_excluded · emptied) (fun _ => rfl) fresh
      refine ⟨⟨replayed, replays, rebuilt.1, rebuilt.2, mirrors.bounded⟩, newest⟩
    · cases restarted

theorem step_inv (builder : HistoryBuilder) (room : Room) (event : Event) (next : Room)
    (inv : Inv room) (stepped : step builder room event = some next) : Inv next := by
  have ofSync : ∀ live, room.live = some live → room.Sync live := by
    intro live alive
    simpa only [Inv, alive] using inv
  cases event with
  | startTask taskId => exact start_task_inv inv stepped
  | record recording =>
      cases alive : room.live with
      | none => simp [step, Room.record, alive] at stepped
      | some live =>
          obtain ⟨after, afterLive, sync⟩ := (ofSync live alive).record alive stepped
          simpa only [Inv, afterLive] using sync
  | compact answer =>
      cases alive : room.live with
      | none => simp [step, Room.compact, alive] at stepped
      | some live =>
          obtain ⟨after, afterLive, sync⟩ := (ofSync live alive).compact alive stepped
          simpa only [Inv, afterLive] using sync
  | restart fresh pages => exact restart_inv inv stepped

end Replay

section Twice

/-! Two compactions and a restart between them. -/

def shortBuilder : HistoryBuilder := ⟨String.length, 10, 1⟩

def twiceCompacted : List Replay.Event := [
  .startTask "t1", .record (.message .user "first question"), .record (.decision "[planner] n1"),
  .compact "early summary", .record (.decision "[outcome:n1] deliver"),
  .startTask "t2", .restart (fun _ => "id") [[⟨"t2", "c1", none, []⟩], [⟨"t1", "c1", none, [
    [textPart .history (some .user) "first question"],
    [textPart .decision (some .assistant) "[planner] n1"],
    [compactionPart ⟨1, "early summary"⟩],
    [textPart .decision (some .assistant) "[outcome:n1] deliver"]]⟩]],
  .compact "later summary", .record (.message .user "second question")]

end Twice

end Choirworks.History
