import Choirworks.History.Room
import Choirworks.Library.Runs

/-!
The sessions of one conversation over turns, compactions, evictions, rewinds
and restarts. `turn` is what the executor does with an inbound request before
its message flow: it opens the session and, if that holds no messages, rebuilds
them from the other tasks. A rewind stores a marker and evicts the session, a
crash loses sessions and cache, and recovery rebuilds like a turn.
-/

namespace Choirworks.History

namespace Room

def messages (room : Room) : List ChatMessage :=
  match room.live with
  | none => []
  | some live => live.messages

def turn (room : Room) (taskId : String) (fresh : Nat → String) (pages : List (List Task)) :
    Option Room :=
  let opened := room.openTask taskId
  if room.messages ≠ [] then some { opened with live := some ⟨taskId, room.messages⟩ }
  else if room.Listed pages then
    let rebuilt := room.rebuild fresh taskId pages
    some { opened with live := some ⟨taskId, rebuilt.1⟩, cache := rebuilt.2 }
  else none

/-- `recover_session`: the recovered task is a stored one. -/
def recoverSession (room : Room) (taskId : String) (fresh : Nat → String)
    (pages : List (List Task)) : Option Room :=
  if room.Listed pages then
    let rebuilt := room.rebuild fresh taskId pages
    some { room with live := some ⟨taskId, rebuilt.1⟩, cache := rebuilt.2 }
  else none

/-- The internal request of a restart: a turn on the task, then the recovery. -/
def recover (room : Room) (taskId : String) (fresh : Nat → String) (pages : List (List Task)) :
    Option Room :=
  if taskId ∈ room.tasks.keys then
    match room.turn taskId fresh pages with
    | none => none
    | some started => started.recoverSession taskId fresh pages
  else none

def rewind (room : Room) (before marker : String) : Option Room :=
  if marker ∉ room.tasks.keys ∧ before ≠ "" ∧ before ∈ room.visible.map (·.id) then
    some { room with
      tasks := room.tasks.insert ⟨marker, room.contextId, some before, []⟩
      live := none }
  else none

end Room

namespace Sessions

inductive Event where
  | turn (taskId : String) (fresh : Nat → String) (pages : List (List Task))
  | record (recording : Recording)
  | compact (answer : String)
  | evict
  | rewind (before marker : String)
  | crash
  | recover (taskId : String) (fresh : Nat → String) (pages : List (List Task))

def step (builder : HistoryBuilder) (room : Room) : Event → Option Room
  | .turn taskId fresh pages => room.turn taskId fresh pages
  | .record recording => room.record recording
  | .compact answer => room.compact builder answer
  | .evict => some { room with live := none }
  | .rewind before marker => room.rewind before marker
  | .crash => some { room with live := none, cache := .empty }
  | .recover taskId fresh pages => room.recover taskId fresh pages

end Sessions

/-! ### Tasks without replayed parts -/

/-- Nothing that a rebuild reads. -/
def Part.Silent (part : Part) : Prop :=
  partMessages (fun _ => "") 0 part = [] ∧ partCompaction part = none

instance (part : Part) : Decidable part.Silent := inferInstanceAs (Decidable (_ ∧ _))

theorem Part.Silent.replay {part : Part} (silent : part.Silent) (fresh : Nat → String)
    (replayed : Replayed) : replayPart fresh replayed part = replayed := by
  obtain ⟨noMessages, noCompaction⟩ := silent
  have none : partMessages fresh replayed.raw.length part = [] := by
    unfold partMessages at noMessages ⊢
    split at noMessages
    · cases noMessages
    · cases noMessages
    · rename_i payload _ _
      unfold toolExchangeFromData at noMessages ⊢
      split at noMessages
      · rename_i unnamed
        simp [unnamed]
      · cases noMessages
    · rfl
  simp [replayPart, none, noCompaction]

theorem replay_silent {parts : List Part} (silent : ∀ part ∈ parts, part.Silent)
    (fresh : Nat → String) (replayed : Replayed) : replayParts fresh replayed parts = replayed := by
  induction parts with
  | nil => rfl
  | cons part rest ih =>
      have first := (silent part List.mem_cons_self).replay fresh replayed
      simp only [replayParts, List.foldl_cons, first]
      exact ih fun other later => silent other (List.mem_cons_of_mem _ later)

/-- Leaving silent tasks out changes no replay. -/
theorem replay_excluded {tasks : List Task} {exclude : String}
    (silent : ∀ task ∈ tasks, excluded exclude task = true → ∀ part ∈ task.parts, part.Silent)
    (fresh : Nat → String) (replayed : Replayed) :
    replayParts fresh replayed ((tasks.filter fun task => !excluded exclude task).flatMap
      Task.parts) = replayParts fresh replayed (tasks.flatMap Task.parts) := by
  induction tasks generalizing replayed with
  | nil => rfl
  | cons task rest ih =>
      have later := ih fun other member => silent other (List.mem_cons_of_mem _ member)
      rw [List.flatMap_cons, replay_parts_append]
      cases left : excluded exclude task with
      | true =>
          rw [replay_silent (silent task List.mem_cons_self left), ← later]
          simp [left]
      | false =>
          rw [← later, List.filter_cons_of_pos (by simp [left]), List.flatMap_cons,
            replay_parts_append]

namespace Room

/-- The task has recorded nothing that a rebuild reads. -/
def SilentTask (room : Room) (taskId : String) : Prop :=
  ∀ task ∈ room.tasks.rows, task.id = taskId → ∀ part ∈ task.parts, part.Silent

instance (room : Room) (taskId : String) : Decidable (room.SilentTask taskId) :=
  inferInstanceAs (Decidable (∀ task ∈ room.tasks.rows, task.id = taskId →
    ∀ part ∈ task.parts, part.Silent))

theorem SilentTask.of_new {room : Room} {taskId : String} (fresh : taskId ∉ room.tasks.keys) :
    room.SilentTask taskId := by
  intro task member same
  exact absurd (same ▸ Table.key_mem_keys room.tasks member) fresh

theorem mem_visible {room : Room} {task : Task} (member : task ∈ room.visible) :
    task ∈ room.tasks.rows := by
  simpa using iter_tasks_subset _ _ (List.mem_reverse.mp member)

theorem SilentTask.replay {room : Room} {taskId : String} (silent : room.SilentTask taskId)
    (fresh : Nat → String) :
    replayTasks fresh taskId room.visible = replayParts fresh .empty room.visibleParts := by
  apply replay_excluded
  intro task member left
  simp only [excluded, Bool.and_eq_true, decide_eq_true_eq] at left
  exact silent task (mem_visible member) left.2

end Room

/-! ### The invariant -/

/-- Every prefix replays the same for all drawn ids, and no compaction counts
more messages than there are before it. -/
def Sound (parts : List Part) : Prop :=
  ∀ front, front <+: parts → ∃ replayed, (∀ fresh, replayParts fresh .empty front = replayed) ∧
    ∀ state ∈ replayed.latest, state.compactedCount ≤ replayed.raw.length

theorem Sound.snoc {parts : List Part} (sound : Sound parts) {part : Part} {replayed : Replayed}
    (replays : ∀ fresh, replayParts fresh .empty (parts ++ [part]) = replayed)
    (bounded : ∀ state ∈ replayed.latest, state.compactedCount ≤ replayed.raw.length) :
    Sound (parts ++ [part]) := by
  intro front isPrefix
  rcases List.prefix_concat_iff.mp isPrefix with same | shorter
  · exact ⟨replayed, fun fresh => same ▸ replays fresh, bounded⟩
  · exact sound front shorter

structure Inv (room : Room) : Prop where
  own : ∀ task ∈ room.tasks.rows, task.contextId = room.contextId
  sound : Sound room.visibleParts
  sync : ∀ live, room.live = some live → room.Sync live

theorem Inv.replayed {room : Room} (inv : Inv room) :
    ∃ replayed, room.Replays replayed ∧
      ∀ state ∈ replayed.latest, state.compactedCount ≤ replayed.raw.length :=
  inv.sound room.visibleParts (List.prefix_refl _)

theorem start_inv (contextId : NonEmpty) : Inv (.start contextId) where
  own := by simp [Room.start]
  sound := by
    intro front isPrefix
    have nothing : front = [] := List.prefix_nil.mp isPrefix
    subst nothing
    exact ⟨.empty, fun _ => rfl, by simp [Replayed.empty]⟩
  sync := by simp [Room.start]

/-! ### Steps that keep it -/

/-- A turn opens a new task or goes on with the newest; a task whose own part
the rebuild leaves out has none. -/
def Room.MayTurn (room : Room) (taskId : String) : Prop :=
  taskId ∉ room.tasks.keys ∨
    (room.Newest taskId ∧ (room.messages ≠ [] ∨ room.SilentTask taskId))

instance (room : Room) (taskId : String) : Decidable (room.MayTurn taskId) :=
  inferInstanceAs (Decidable (_ ∨ _))

theorem Room.MayTurn.opened {room : Room} {taskId : String} (order : room.MayTurn taskId) :
    (room.openTask taskId).Newest taskId ∧
      (room.openTask taskId).visibleParts = room.visibleParts := by
  rcases order with isNew | ⟨newest, _⟩
  · exact Room.open_new isNew
  · have known : taskId ∈ room.tasks.keys := by
      obtain ⟨older, task, rows, rfl, _⟩ := newest
      exact Table.key_mem_keys room.tasks (by simp [rows])
    rw [Room.open_known known]
    exact ⟨newest, rfl⟩

theorem Room.MayTurn.silent {room : Room} {taskId : String} (order : room.MayTurn taskId)
    (empty : room.messages = []) : room.SilentTask taskId := by
  rcases order with isNew | ⟨_, some_messages | silent⟩
  · exact .of_new isNew
  · exact absurd empty some_messages
  · exact silent

namespace Sessions

/-- Tasks are used one after another. -/
def InOrder (room : Room) : Event → Prop
  | .turn taskId _ _ => room.MayTurn taskId
  | .recover taskId _ _ => room.Newest taskId ∧ room.SilentTask taskId
  | _ => True

/-- A rebuild finds a visible compaction, or none is cached. -/
def CacheFits (room : Room) : Event → Prop
  | .turn _ _ _ => room.messages = [] → room.latestVisible ≠ none ∨ room.cached = none
  | .recover _ _ _ => room.latestVisible ≠ none ∨ room.cached = none
  | _ => True

instance (room : Room) : (event : Event) → Decidable (InOrder room event)
  | .turn taskId _ _ => inferInstanceAs (Decidable (room.MayTurn taskId))
  | .recover taskId _ _ =>
      inferInstanceAs (Decidable (room.Newest taskId ∧ room.SilentTask taskId))
  | .record _ | .compact _ | .evict | .rewind _ _ | .crash => .isTrue trivial

instance (room : Room) : (event : Event) → Decidable (CacheFits room event)
  | .turn _ _ _ => inferInstanceAs (Decidable (room.messages = [] →
      room.latestVisible ≠ none ∨ room.cached = none))
  | .recover _ _ _ => inferInstanceAs (Decidable (room.latestVisible ≠ none ∨ room.cached = none))
  | .record _ | .compact _ | .evict | .rewind _ _ | .crash => .isTrue trivial

end Sessions

section Keep

variable {room next : Room}

theorem Inv.open_task (inv : Inv room) (taskId : String) (live : Option Live)
    (sync : ∀ live', live = some live' → (room.openTask taskId).Sync live') :
    Inv { room.openTask taskId with live } := by
  by_cases known : taskId ∈ room.tasks.keys
  · rw [Room.open_known known] at sync ⊢
    exact ⟨inv.own, inv.sound, fun live' alive => ⟨(sync live' alive).1, (sync live' alive).2⟩⟩
  · obtain ⟨_, parts⟩ := Room.open_new known
    refine ⟨?_, ?_, fun live' alive => ⟨(sync live' alive).1, (sync live' alive).2⟩⟩
    · intro task member
      have rows : task ∈ room.tasks.rows ++ [⟨taskId, room.contextId, none, []⟩] := by
        simpa [Room.openTask, known, Table.insert] using member
      rw [show (room.openTask taskId).contextId = room.contextId by simp [Room.openTask, known]]
      rcases List.mem_append.mp rows with old | new
      · exact inv.own task old
      · rw [List.mem_singleton.mp new]
    · have sound := inv.sound
      rw [← parts] at sound
      exact sound

/-- A turn that continues or rebuilds the list leaves it in sync. -/
theorem Inv.turn (inv : Inv room) {taskId : String} {fresh : Nat → String}
    {pages : List (List Task)} (order : Sessions.InOrder room (.turn taskId fresh pages))
    (fits : room.messages = [] → room.latestVisible = none → room.cached = none)
    (turned : room.turn taskId fresh pages = some next) :
    Inv next ∧ next.tasks = (room.openTask taskId).tasks ∧
      ∃ live, next.live = some live ∧ live.taskId = taskId := by
  obtain ⟨replayed, replays, bounded⟩ := inv.replayed
  have opened := Room.MayTurn.opened order
  have openedReplays : (room.openTask taskId).Replays replayed := by
    intro ids
    rw [opened.2]
    exact replays ids
  unfold Room.turn at turned
  dsimp only at turned
  -- a list in memory goes on, otherwise it is rebuilt from the store
  by_cases filled : room.messages ≠ []
  · rw [if_pos filled] at turned
    cases turned
    obtain ⟨live, alive⟩ : ∃ live, room.live = some live := by
      cases alive : room.live with
      | none => simp [Room.messages, alive] at filled
      | some live => exact ⟨live, rfl⟩
    have same : room.messages = live.messages := by simp [Room.messages, alive]
    obtain ⟨⟨other, otherReplays, mirrors⟩, _⟩ := inv.sync live alive
    refine ⟨inv.open_task taskId _ ?_, rfl, _, rfl, rfl⟩
    intro live' sameLive
    cases sameLive
    refine ⟨⟨other, fun ids => opened.2 ▸ otherReplays ids, ?_⟩, opened.1⟩
    rw [Room.open_cached, same]
    exact mirrors
  · rw [if_neg filled] at turned
    have empty : room.messages = [] := by simpa using filled
    split at turned
    · rename_i listed
      cases turned
      have silent := Room.MayTurn.silent order empty
      have rebuilt := replays.rebuild listed silent.replay
        (fun none => fits empty (replays.latest ▸ none)) fresh
      have sound : Sound (room.openTask taskId).visibleParts := opened.2 ▸ inv.sound
      have own := (inv.open_task taskId none (by simp)).own
      refine ⟨⟨own, sound, ?_⟩, rfl, _, rfl, rfl⟩
      intro live' sameLive
      cases sameLive
      refine ⟨⟨replayed, openedReplays, rebuilt.1, ?_, bounded⟩, opened.1⟩
      have context : (room.openTask taskId).contextId = room.contextId := by
        unfold Room.openTask
        split <;> rfl
      simp only [Room.cached, context]
      exact rebuilt.2
    · cases turned

theorem Inv.recover_session (inv : Inv room) {live : Live} (alive : room.live = some live)
    (silent : room.SilentTask live.taskId) {fresh : Nat → String} {pages : List (List Task)}
    (recovered : room.recoverSession live.taskId fresh pages = some next) :
    Inv next ∧ next.messages = room.messages := by
  obtain ⟨⟨replayed, replays, mirrors⟩, newest⟩ := inv.sync live alive
  unfold Room.recoverSession at recovered
  split at recovered
  · rename_i listed
    cases recovered
    have rebuilt := replays.rebuild listed silent.replay
      (fun none => mirrors.cached.trans none) fresh
    refine ⟨⟨inv.own, inv.sound, ?_⟩, ?_⟩
    · intro live' sameLive
      cases sameLive
      exact ⟨⟨replayed, replays, rebuilt.1, rebuilt.2, mirrors.bounded⟩, newest⟩
    · simp only [Room.messages, alive]
      exact rebuilt.1.trans mirrors.messages.symm
  · cases recovered

/-- A rewind leaves a prefix of what was visible. -/
theorem rewind_visible (own : ∀ task ∈ room.tasks.rows, task.contextId = room.contextId)
    {before marker : String} (rewound : room.rewind before marker = some next) :
    next.visibleParts <+: room.visibleParts := by
  unfold Room.rewind at rewound
  split at rewound
  · rename_i allowed
    obtain ⟨fresh, target, _⟩ := allowed
    cases rewound
    have mark : extractRewind ⟨marker, room.contextId, some before, []⟩ = some before := by
      simp [extractRewind, target]
    -- what is visible as a stack, without the marker and with it on top
    have older := @iter_tasks_stack room.contextId room.tasks.rows.reverse
      (fun task member => own task (List.mem_reverse.mp member)) .empty
    have newer := @iter_tasks_stack room.contextId
      (⟨marker, room.contextId, some before, []⟩ :: room.tasks.rows.reverse)
      (by
        intro task member
        rcases List.mem_cons.mp member with same | old
        · rw [same]
        · exact own task (List.mem_reverse.mp old)) .empty
    -- the marker hides all that is newer than its target, and the target
    have shorter : ((iterStack [] room.tasks.rows.reverse).dropWhile
        fun task => task.id ≠ before).drop 1 <:+ iterStack [] room.tasks.rows.reverse :=
      (List.drop_suffix 1 _).trans (List.dropWhile_suffix _)
    have visible : ({ room with
        tasks := room.tasks.insert ⟨marker, room.contextId, some before, []⟩
        live := none } : Room).visible <+: room.visible := by
      have rows : (room.tasks.insert ⟨marker, room.contextId, some before, []⟩).rows =
          room.tasks.rows ++ [⟨marker, room.contextId, some before, []⟩] := by
        simp [Table.insert, fresh]
      simp only [Room.visible, rows, List.reverse_append, List.reverse_singleton,
        List.singleton_append, newer, older]
      simp only [iterStack, mark, show Dict.getD (.empty : Dict String (List String))
        room.contextId.1 [] = [] from rfl, List.nil_append]
      rw [iter_stack_pending before _ []]
      exact List.reverse_prefix.mpr shorter
    obtain ⟨hidden, split⟩ := visible
    refine ⟨hidden.flatMap Task.parts, ?_⟩
    rw [Room.visibleParts, Room.visibleParts, ← split, List.flatMap_append]
  · cases rewound

theorem Inv.rewind (inv : Inv room) {before marker : String}
    (rewound : room.rewind before marker = some next) : Inv next := by
  have visible := rewind_visible inv.own rewound
  refine ⟨?_, fun front isPrefix => inv.sound front (isPrefix.trans visible), ?_⟩
  · unfold Room.rewind at rewound
    split at rewound
    · cases rewound
      intro task member
      rcases (Table.mem_insert room.tasks _ task).mp member with same | ⟨old, _⟩
      · rw [same]
      · exact inv.own task old
    · cases rewound
  · unfold Room.rewind at rewound
    split at rewound
    · cases rewound
      simp
    · cases rewound

theorem emit_own (own : ∀ task ∈ room.tasks.rows, task.contextId = room.contextId)
    (taskId : String) (part : Part) :
    ∀ task ∈ (room.emit taskId part).tasks.rows, task.contextId = room.contextId := by
  intro task member
  rcases (Table.mem_modify room.tasks taskId (Room.addArtifact part) (fun _ => rfl) task).mp
    member with ⟨old, inside, _, rfl⟩ | ⟨old, _⟩
  · exact own old inside
  · exact own task old

/-- An artifact of a session in sync: the tasks stay sound if the session is
in sync again. -/
theorem Inv.emit (inv : Inv room) {live after : Live} (alive : room.live = some live) {part : Part}
    (tasks : next.tasks = (room.emit live.taskId part).tasks)
    (context : next.contextId = room.contextId) (afterLive : next.live = some after)
    (sync : next.Sync after) : Inv next := by
  have parts : next.visibleParts = room.visibleParts ++ [part] := by
    rw [← (Room.emit_newest (inv.sync live alive).newest part).2]
    simp only [Room.visibleParts, Room.visible, tasks]
  obtain ⟨replayed, replays, mirrors⟩ := sync.mirrors
  refine ⟨?_, ?_, ?_⟩
  · rw [tasks, context]
    exact emit_own inv.own live.taskId part
  · rw [parts]
    exact inv.sound.snoc (fun fresh => parts ▸ replays fresh) mirrors.bounded
  · intro live' alive'
    cases afterLive.symm.trans alive'
    exact sync

theorem Inv.record (inv : Inv room) {recording : Recording}
    (recorded : room.record recording = some next) : Inv next := by
  cases alive : room.live with
  | none => simp [Room.record, alive] at recorded
  | some live =>
      obtain ⟨after, afterLive, sync⟩ := (inv.sync live alive).record alive recorded
      simp only [Room.record, alive, Option.some.injEq] at recorded
      subst recorded
      exact inv.emit alive rfl rfl afterLive sync

theorem Inv.compact (inv : Inv room) {builder : HistoryBuilder} {answer : String}
    (compacted : room.compact builder answer = some next) : Inv next := by
  cases alive : room.live with
  | none => simp [Room.compact, alive] at compacted
  | some live =>
      obtain ⟨after, afterLive, sync⟩ := (inv.sync live alive).compact alive compacted
      simp only [Room.compact, alive, HistoryBuilder.compact] at compacted
      cases asked : builder.request? room.cache room.contextId live.messages with
      | none =>
          simp only [asked, Option.some.injEq] at compacted
          subst compacted
          refine ⟨inv.own, inv.sound, ?_⟩
          intro live' alive'
          cases afterLive.symm.trans alive'
          exact sync
      | some request =>
          simp only [asked, Option.some.injEq] at compacted
          subst compacted
          exact inv.emit alive rfl rfl afterLive sync

theorem Inv.recover (inv : Inv room) {taskId : String} {fresh : Nat → String}
    {pages : List (List Task)} (order : Sessions.InOrder room (.recover taskId fresh pages))
    (fits : room.latestVisible = none → room.cached = none)
    (recovered : room.recover taskId fresh pages = some next) : Inv next := by
  unfold Room.recover at recovered
  split at recovered
  · rename_i known
    split at recovered
    · cases recovered
    · rename_i started turned
      obtain ⟨startedInv, tasks, live, alive, same⟩ :=
        inv.turn (Or.inr ⟨order.1, Or.inr order.2⟩) (fun _ => fits) turned
      subst same
      rw [Room.open_known known] at tasks
      have silent : started.SilentTask live.taskId := by
        intro task member
        exact order.2 task (tasks ▸ member)
      exact (startedInv.recover_session alive silent recovered).1
  · cases recovered

theorem step_inv (builder : HistoryBuilder) (event : Sessions.Event) (inv : Inv room)
    (order : Sessions.InOrder room event) (fits : Sessions.CacheFits room event)
    (stepped : Sessions.step builder room event = some next) : Inv next := by
  cases event with
  | turn taskId fresh pages =>
      refine (inv.turn order ?_ stepped).1
      intro empty none
      exact (fits empty).resolve_left fun some_visible => some_visible none
  | record recording => exact inv.record stepped
  | compact answer => exact inv.compact stepped
  | evict =>
      cases stepped
      exact ⟨inv.own, inv.sound, by simp⟩
  | rewind before marker => exact inv.rewind stepped
  | crash =>
      cases stepped
      exact ⟨inv.own, inv.sound, by simp⟩
  | recover taskId fresh pages =>
      refine inv.recover order ?_ stepped
      intro none
      exact fits.resolve_left fun some_visible => some_visible none

end Keep

end Choirworks.History
