import Choirworks.History.Recording

/-!
One conversation: the stored tasks of its context in the order in which they
started, the session in memory and the cached compaction state. `Sync` says
that the session mirrors the replay of the visible tasks and that it records
under the newest one; recording and compacting keep it.
-/

namespace Choirworks.History

structure Live where
  taskId : String
  messages : List ChatMessage
deriving DecidableEq

structure Room where
  contextId : NonEmpty
  tasks : Table Task.id
  live : Option Live
  cache : CompactionCache

namespace Room

def start (contextId : NonEmpty) : Room := ⟨contextId, .empty, none, .empty⟩

/-- A known task keeps its place, a new one is the newest. -/
def openTask (room : Room) (taskId : String) : Room :=
  if taskId ∈ room.tasks.keys then room
  else { room with tasks := room.tasks.insert ⟨taskId, room.contextId, none, []⟩ }

def addArtifact (part : Part) (task : Task) : Task :=
  { task with artifacts := task.artifacts ++ [[part]] }

def emit (room : Room) (taskId : String) (part : Part) : Room :=
  { room with tasks := room.tasks.modify taskId (addArtifact part) fun _ => rfl }

def record (room : Room) (recording : Recording) : Option Room :=
  match room.live with
  | none => none
  | some live =>
      some { room.emit live.taskId recording.part with
        live := some { live with messages := live.messages ++ recording.messages } }

/-- The compaction of `plan_and_launch`, with the result it persists. -/
def compact (builder : HistoryBuilder) (room : Room) (answer : String) : Option Room :=
  match room.live with
  | none => none
  | some live =>
      match builder.compact room.cache room.contextId answer live.messages with
      | (messages, none, cache) =>
          some { room with live := some { live with messages }, cache }
      | (messages, some state, cache) =>
          some { room.emit live.taskId (compactionPart state) with
            live := some { live with messages }, cache }

/-- The pages a task store may answer for the context: newest first, cut anywhere. -/
def Listed (room : Room) (pages : List (List Task)) : Prop :=
  pages.flatten = room.tasks.rows.reverse

instance (room : Room) (pages : List (List Task)) : Decidable (room.Listed pages) :=
  inferInstanceAs (Decidable (pages.flatten = room.tasks.rows.reverse))

def rebuild (room : Room) (fresh : Nat → String) (exclude : String) (pages : List (List Task)) :
    List ChatMessage × CompactionCache :=
  History.rebuild fresh room.cache room.contextId exclude (some pages)

def cached (room : Room) : Option CompactionState := room.cache.get? room.contextId.1

def visible (room : Room) : List Task := (iterTasks .empty room.tasks.rows.reverse).reverse

def visibleParts (room : Room) : List Part := room.visible.flatMap Task.parts

/-- The replay of the visible tasks, whatever ids it would draw. -/
def Replays (room : Room) (replayed : Replayed) : Prop :=
  ∀ fresh, replayParts fresh .empty room.visibleParts = replayed

/-- The newest task is an ordinary one with that id. -/
def Newest (room : Room) (taskId : String) : Prop :=
  ∃ older task, room.tasks.rows = older ++ [task] ∧ task.id = taskId ∧ extractRewind task = none

instance (room : Room) (taskId : String) : Decidable (room.Newest taskId) :=
  decidable_of_iff (∃ task ∈ room.tasks.rows.getLast?, task.id = taskId ∧ extractRewind task = none)
    (by
      simp only [Newest, Option.mem_def, List.getLast?_eq_some_iff]
      constructor
      · rintro ⟨task, ⟨older, rows⟩, ordinary⟩
        exact ⟨older, task, rows, ordinary⟩
      · rintro ⟨older, task, rows, ordinary⟩
        exact ⟨task, ⟨older, rows⟩, ordinary⟩)

structure Sync (room : Room) (live : Live) : Prop where
  mirrors : ∃ replayed, room.Replays replayed ∧ Mirrors replayed live.messages room.cached
  newest : room.Newest live.taskId

theorem filter_ordinary {task : Task} (ordinary : extractRewind task = none) :
    filterTask .empty task = (.empty, true) := by
  simp only [filterTask, ordinary]
  rfl

theorem visible_of_rows {room : Room} {older : List Task} {task : Task}
    (rows : room.tasks.rows = older ++ [task]) (ordinary : extractRewind task = none) :
    room.visible = (iterTasks .empty older.reverse).reverse ++ [task] := by
  rw [visible, rows, List.reverse_append, List.reverse_singleton, List.singleton_append, iterTasks,
    filter_ordinary ordinary]
  exact List.reverse_cons

theorem list_all_listed {room : Room} {pages : List (List Task)} (listed : room.Listed pages) :
    listAllTasks pages = room.visible := by
  rw [listAllTasks, iterAllTasks, iter_pages_flatten, listed, visible]

@[simp] theorem emit_live (room : Room) (taskId : String) (part : Part) :
    (room.emit taskId part).live = room.live := rfl

@[simp] theorem emit_cache (room : Room) (taskId : String) (part : Part) :
    (room.emit taskId part).cache = room.cache := rfl

theorem emit_rows {room : Room} {older : List Task} {task : Task}
    (rows : room.tasks.rows = older ++ [task]) (part : Part) :
    (room.emit task.id part).tasks.rows = older ++ [addArtifact part task] := by
  have unique := room.tasks.unique
  rw [rows, List.map_append, List.map_singleton] at unique
  have fresh : ∀ other ∈ older, ¬ other.id = task.id := by
    intro other member same
    have disjoint := (List.nodup_append.mp unique).2.2
    exact disjoint other.id (List.mem_map_of_mem member) task.id (List.mem_singleton_self _) same
  simp only [emit, Table.modify, rows, List.map_append, List.map_singleton, ↓reduceIte,
    List.append_cancel_right_eq]
  conv_rhs => rw [← List.map_id older]
  apply List.map_congr_left
  intro other member
  simp [fresh other member]

/-- An artifact of the newest task is the last one replayed. -/
theorem emit_newest {room : Room} {taskId : String} (newest : room.Newest taskId) (part : Part) :
    (room.emit taskId part).Newest taskId ∧
      (room.emit taskId part).visibleParts = room.visibleParts ++ [part] := by
  obtain ⟨older, task, rows, rfl, ordinary⟩ := newest
  have rows' := emit_rows rows part
  refine ⟨⟨older, addArtifact part task, rows', rfl, ordinary⟩, ?_⟩
  have kept : extractRewind (addArtifact part task) = none := ordinary
  simp [visibleParts, visible_of_rows rows ordinary, visible_of_rows rows' kept, Task.parts,
    addArtifact]

theorem Replays.emit {room : Room} {replayed after : Replayed} {taskId : String}
    (replays : room.Replays replayed) (newest : room.Newest taskId) (part : Part)
    (step : ∀ fresh, replayPart fresh replayed part = after) :
    (room.emit taskId part).Replays after := by
  intro fresh
  rw [(emit_newest newest part).2, replay_parts_append, replays fresh]
  exact step fresh

theorem Sync.record {room next : Room} {live : Live} (alive : room.live = some live)
    (sync : room.Sync live) {recording : Recording} (recorded : room.record recording = some next) :
    ∃ after, next.live = some after ∧ next.Sync after := by
  obtain ⟨⟨replayed, replays, mirrors⟩, newest⟩ := sync
  simp only [Room.record, alive, Option.some.injEq] at recorded
  subst recorded
  refine ⟨_, rfl, ⟨_, ?_, mirrors.record recording.messages⟩, (emit_newest newest _).1⟩
  exact replays.emit newest recording.part fun fresh => replay_recording fresh replayed recording

theorem Sync.compact {builder : HistoryBuilder} {room next : Room} {live : Live}
    (alive : room.live = some live) (sync : room.Sync live) {answer : String}
    (compacted : room.compact builder answer = some next) :
    ∃ after, next.live = some after ∧ next.Sync after := by
  obtain ⟨⟨replayed, replays, mirrors⟩, newest⟩ := sync
  simp only [Room.compact, alive, HistoryBuilder.compact] at compacted
  cases asked : builder.request? room.cache room.contextId live.messages with
  | none =>
      simp only [asked, Option.some.injEq] at compacted
      subst compacted
      exact ⟨live, rfl, ⟨replayed, replays, mirrors⟩, newest⟩
  | some request =>
      simp only [asked, Option.some.injEq] at compacted
      subst compacted
      obtain ⟨state, some_old, split⟩ := request_parts asked
      refine ⟨_, rfl, ⟨{ replayed with latest := some (request.result answer) }, ?_, ?_⟩,
        (emit_newest newest _).1⟩
      · exact replays.emit newest (compactionPart (request.result answer)) fun fresh =>
          replay_compaction fresh replayed (request.result answer)
      · have now := mirrors.compact state some_old split answer
        simpa [cached, emit] using now

/-! ### Tasks that open -/

theorem open_new {room : Room} {taskId : String} (fresh : taskId ∉ room.tasks.keys) :
    (room.openTask taskId).Newest taskId ∧
      (room.openTask taskId).visibleParts = room.visibleParts := by
  have rows : (room.openTask taskId).tasks.rows =
      room.tasks.rows ++ [⟨taskId, room.contextId, none, []⟩] := by
    simp [openTask, fresh, Table.insert]
  refine ⟨⟨_, _, rows, rfl, rfl⟩, ?_⟩
  rw [visibleParts, visible_of_rows rows rfl, visibleParts, visible]
  simp [Task.parts]

theorem open_known {room : Room} {taskId : String} (known : taskId ∈ room.tasks.keys) :
    room.openTask taskId = room := if_pos known

@[simp] theorem open_cached (room : Room) (taskId : String) :
    (room.openTask taskId).cached = room.cached := by
  unfold openTask
  split <;> rfl

@[simp] theorem open_live (room : Room) (taskId : String) :
    (room.openTask taskId).live = room.live := by
  unfold openTask
  split <;> rfl

/-! ### The latest visible compaction -/

def latestVisible (room : Room) : Option CompactionState :=
  (room.visibleParts.filterMap partCompaction).getLast?

theorem replay_latest (fresh : Nat → String) (parts : List Part) (replayed : Replayed) :
    (replayParts fresh replayed parts).latest =
      ((parts.filterMap partCompaction).getLast?).or replayed.latest := by
  induction parts generalizing replayed with
  | nil => rfl
  | cons part rest ih =>
      rw [show replayParts fresh replayed (part :: rest) =
        replayParts fresh (replayPart fresh replayed part) rest from rfl, ih]
      cases compaction : partCompaction part with
      | none => simp [replayPart, compaction]
      | some state => simp [replayPart, compaction, List.getLast?_cons]

theorem Replays.latest {room : Room} {replayed : Replayed} (replays : room.Replays replayed) :
    replayed.latest = room.latestVisible := by
  rw [← replays fun _ => "", replay_latest]
  exact Option.or_none

/-! ### Rebuilding -/

theorem rebuild_eq {room : Room} {pages : List (List Task)} (listed : room.Listed pages)
    (fresh : Nat → String) (exclude : String) :
    room.rebuild fresh exclude pages =
      ((replayTasks fresh exclude room.visible).messages,
        match (replayTasks fresh exclude room.visible).latest with
        | some state => room.cache.set room.contextId.1 state
        | none => room.cache) := by
  simp only [rebuild, History.rebuild, room.contextId.2, ↓reduceIte, list_all_listed listed]
  cases (replayTasks fresh exclude room.visible).latest <;> rfl

theorem replay_nothing_excluded (fresh : Nat → String) (room : Room) :
    replayTasks fresh "" room.visible = replayParts fresh .empty room.visibleParts := by
  simp [replayTasks, excluded, visibleParts]

/-- A rebuild over all visible tasks restores a session that mirrors them, if
what is cached is not older than what they hold. -/
theorem Replays.rebuild {room : Room} {replayed : Replayed} {pages : List (List Task)}
    (replays : room.Replays replayed) (listed : room.Listed pages) {exclude : String}
    (all : ∀ fresh, replayTasks fresh exclude room.visible =
      replayParts fresh .empty room.visibleParts)
    (tracked : replayed.latest = none → room.cached = none) (fresh : Nat → String) :
    (room.rebuild fresh exclude pages).1 = replayed.messages ∧
      Dict.get? (room.rebuild fresh exclude pages).2 room.contextId.1 = replayed.latest := by
  rw [rebuild_eq listed, all, replays fresh]
  refine ⟨rfl, ?_⟩
  cases latest : replayed.latest with
  | none => exact tracked latest
  | some state => simp

end Room

end Choirworks.History
