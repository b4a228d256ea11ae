import Choirworks.History.Recovery

/-!
The message list while it is being replaced. A compaction reads the list,
waits for the summariser and installs a new list; an inbound request that
finds the list empty waits for a rebuild and installs that. Meanwhile other
tasks of the session may append. `log` and `summarised` are ghosts: every
message appended so far, and those given to a summariser whose answer was
installed.
-/

namespace Choirworks.History

/-- An inbound request that waits for its rebuild, with what it has read. -/
structure Waiting where
  exclude : String
  read : Option (List ChatMessage)
deriving DecidableEq

structure Shared where
  room : Room
  compacting : Option HistoryBuilder.Request
  waiting : List Waiting
  log : List ChatMessage
  summarised : List ChatMessage

namespace Shared

inductive Event where
  | request (taskId : String)
  | read (index : Nat) (fresh : Nat → String) (pages : List (List Task))
  | install (index : Nat)
  | record (recording : Recording)
  | beginCompact
  | endCompact (answer : String)
  | crash

def start (contextId : NonEmpty) : Shared := ⟨.start contextId, none, [], [], []⟩

/-- `ensure_session`, and the check for an empty list. -/
def request (shared : Shared) (taskId : String) : Shared :=
  { shared with
    room := { shared.room.openTask taskId with live := some ⟨taskId, shared.room.messages⟩ }
    waiting :=
      if shared.room.messages = [] then shared.waiting ++ [⟨taskId, none⟩] else shared.waiting }

def read (shared : Shared) (index : Nat) (fresh : Nat → String) (pages : List (List Task)) :
    Option Shared :=
  match shared.waiting[index]? with
  | some ⟨exclude, none⟩ =>
      if shared.room.Listed pages then
        let rebuilt := shared.room.rebuild fresh exclude pages
        some { shared with
          room := { shared.room with cache := rebuilt.2 }
          waiting := shared.waiting.set index ⟨exclude, some rebuilt.1⟩ }
      else none
  | _ => none

def install (shared : Shared) (index : Nat) : Option Shared :=
  match shared.room.live, shared.waiting[index]? with
  | some live, some ⟨_, some messages⟩ =>
      some { shared with
        room := { shared.room with live := some { live with messages } }
        waiting := shared.waiting.eraseIdx index }
  | _, _ => none

def record (shared : Shared) (recording : Recording) : Option Shared :=
  match shared.room.record recording with
  | none => none
  | some room => some { shared with room, log := shared.log ++ recording.messages }

/-- `compact` up to its call of the summariser; a list below the threshold is
left as it is. -/
def beginCompact (builder : HistoryBuilder) (shared : Shared) : Option Shared :=
  match shared.room.live, shared.compacting with
  | some live, none =>
      some { shared with
        compacting := builder.request? shared.room.cache shared.room.contextId live.messages }
  | _, _ => none

def endCompact (shared : Shared) (answer : String) : Option Shared :=
  match shared.room.live, shared.compacting with
  | some live, some request =>
      some { shared with
        room := { shared.room.emit live.taskId (compactionPart (request.result answer)) with
          live := some { live with messages := request.messages answer }
          cache := shared.room.cache.set shared.room.contextId.1 (request.result answer) }
        compacting := none
        summarised := shared.summarised ++ request.newMessages }
  | _, _ => none

def step (builder : HistoryBuilder) (shared : Shared) : Event → Option Shared
  | .request taskId => some (shared.request taskId)
  | .read index fresh pages => shared.read index fresh pages
  | .install index => shared.install index
  | .record recording => shared.record recording
  | .beginCompact => shared.beginCompact builder
  | .endCompact answer => shared.endCompact answer
  | .crash => some { shared with
      room := { shared.room with live := none, cache := .empty }, compacting := none, waiting := [] }

/-- Every appended message was given to a summariser or is in the list behind
its leading summary. -/
def Conserved (shared : Shared) (messages : List ChatMessage) : Prop :=
  ∃ lead tail, shared.log = shared.summarised ++ tail ∧ messages = lead ++ tail ∧ lead.length ≤ 1

/-- Nothing is appended, and no compaction starts, while a new list is awaited. -/
def Quiet (shared : Shared) : Event → Prop
  | .request taskId => shared.room.MayTurn taskId
  | .record _ => shared.compacting = none ∧ shared.waiting = []
  | .beginCompact => shared.waiting = []
  | _ => True

instance (shared : Shared) : (event : Event) → Decidable (Quiet shared event)
  | .request taskId => inferInstanceAs (Decidable (shared.room.MayTurn taskId))
  | .record _ => inferInstanceAs (Decidable (shared.compacting = none ∧ shared.waiting = []))
  | .beginCompact => inferInstanceAs (Decidable (shared.waiting = []))
  | .read _ _ _ | .install _ | .endCompact _ | .crash => .isTrue trivial

/-- The replay that the stored tasks stand for. -/
def replayed (shared : Shared) : Replayed := ⟨shared.log, shared.room.latestVisible⟩

def count (state : Option CompactionState) : Nat :=
  match state with
  | none => 0
  | some state => state.compactedCount

structure Kept (shared : Shared) : Prop where
  replays : shared.room.Replays shared.replayed
  bounded : ∀ state ∈ shared.room.latestVisible, state.compactedCount ≤ shared.log.length
  current : CacheCurrent shared.room
  summarised : shared.summarised = shared.log.take (count shared.room.latestVisible)
  newest : ∀ live, shared.room.live = some live → shared.room.Newest live.taskId
  sync : ∀ live, shared.room.live = some live → shared.waiting = [] →
    Mirrors shared.replayed live.messages shared.room.cached
  waits : ∀ waiting ∈ shared.waiting, shared.room.SilentTask waiting.exclude ∧
    ∀ messages ∈ waiting.read, messages = shared.replayed.messages ∧
      shared.room.cached = shared.room.latestVisible
  compacts : ∀ request, shared.compacting = some request →
    shared.waiting = [] ∧ request.state = shared.room.cached ∧ request.old ≠ [] ∧
      ∃ live, shared.room.live = some live ∧ live.messages = request.old ++ request.recent

theorem Kept.conserved {shared : Shared} (kept : Kept shared) {live : Live}
    (alive : shared.room.live = some live) (installed : shared.waiting = []) :
    shared.Conserved live.messages := by
  have messages := (kept.sync live alive installed).messages
  have summarised := kept.summarised
  have messagesOf : live.messages = shared.replayed.messages := messages
  unfold Replayed.messages replayed at messagesOf
  dsimp only at messagesOf
  cases latest : shared.room.latestVisible with
  | none =>
      rw [latest] at messagesOf summarised
      exact ⟨[], shared.log, by simp [summarised, count], messagesOf, by simp⟩
  | some state =>
      rw [latest] at messagesOf summarised
      exact ⟨[.assistant state.summary], shared.log.drop state.compactedCount,
        by simp [summarised, count], messagesOf, by simp⟩

theorem start_kept (contextId : NonEmpty) : Kept (.start contextId) where
  replays := fun _ => rfl
  bounded := by simp [start, Room.start, Room.latestVisible, Room.visibleParts, Room.visible,
    iterTasks]
  current := Or.inl rfl
  summarised := rfl
  newest := by simp [start, Room.start]
  sync := by simp [start, Room.start]
  waits := by simp [start]
  compacts := by simp [start]

section Keep

variable {shared next : Shared}

theorem silent_open {room : Room} {exclude : String} (silent : room.SilentTask exclude)
    (taskId : String) : (room.openTask taskId).SilentTask exclude := by
  by_cases known : taskId ∈ room.tasks.keys
  · rwa [Room.open_known known]
  · intro task member same
    have rows : task ∈ room.tasks.rows ++ [⟨taskId, room.contextId, none, []⟩] := by
      simpa [Room.openTask, known, Table.insert] using member
    rcases List.mem_append.mp rows with old | new
    · exact silent task old same
    · rw [List.mem_singleton.mp new]
      simp [Task.parts]

theorem Kept.request (kept : Kept shared) {taskId : String}
    (order : shared.room.MayTurn taskId) : Kept (shared.request taskId) := by
  obtain ⟨newest, parts⟩ := order.opened
  have latest : (shared.request taskId).room.latestVisible = shared.room.latestVisible :=
    congrArg (fun parts => (parts.filterMap partCompaction).getLast?) parts
  have cached : (shared.request taskId).room.cached = shared.room.cached :=
    Room.open_cached shared.room taskId
  have same : (shared.request taskId).replayed = shared.replayed :=
    congrArg (Replayed.mk shared.log) latest
  constructor
  case replays =>
    intro fresh
    rw [same]
    exact (congrArg (replayParts fresh .empty) parts).trans (kept.replays fresh)
  case bounded =>
    rw [latest]
    exact kept.bounded
  case current =>
    unfold CacheCurrent
    rw [cached, latest]
    exact kept.current
  case summarised =>
    rw [latest]
    exact kept.summarised
  case newest =>
    intro live alive
    cases alive
    exact newest
  case sync =>
    intro live alive installed
    cases alive
    -- An empty memory waits for a replay; otherwise the old messages are taken over.
    by_cases empty : shared.room.messages = []
    · simp [Shared.request, empty] at installed
    · cases known : shared.room.live with
      | none => simp [Room.messages, known] at empty
      | some old =>
          have idle : shared.waiting = [] := by simpa [Shared.request, empty] using installed
          have mirrors := kept.sync old known idle
          rw [same, cached, show shared.room.messages = old.messages by
            simp [Room.messages, known]]
          exact mirrors
  case waits =>
    intro waiting member
    rw [same, cached, latest]
    by_cases empty : shared.room.messages = []
    · simp only [Shared.request, empty, ↓reduceIte, List.mem_append, List.mem_singleton] at member
      rcases member with old | new
      · obtain ⟨silent, read⟩ := kept.waits waiting old
        exact ⟨silent_open silent taskId, read⟩
      · subst new
        exact ⟨silent_open (order.silent empty) taskId, by simp⟩
    · simp only [Shared.request, empty, ↓reduceIte] at member
      obtain ⟨silent, read⟩ := kept.waits waiting member
      exact ⟨silent_open silent taskId, read⟩
  case compacts =>
    intro request asked
    obtain ⟨idle, state, some_old, live, alive, split⟩ := kept.compacts request asked
    -- A compaction that was asked for has messages to compact, so no replay is asked for.
    have filled : shared.room.messages ≠ [] := by
      simp [Room.messages, alive, split, some_old]
    refine ⟨by simp [Shared.request, filled, idle], state.trans cached.symm, some_old, _, rfl, ?_⟩
    simp [Room.messages, alive, split]

theorem Kept.read (kept : Kept shared) {index : Nat} {fresh : Nat → String}
    {pages : List (List Task)} (done : shared.read index fresh pages = some next) :
    Kept next := by
  unfold Shared.read at done
  split at done
  · rename_i exclude asked
    split at done
    · rename_i listed
      cases done
      have member := List.mem_of_getElem? asked
      obtain ⟨silent, _⟩ := kept.waits _ member
      -- Without a visible compaction the cache is empty, so the replay starts from nothing.
      have tracked : shared.replayed.latest = none → shared.room.cached = none := by
        intro none
        rcases kept.current with empty | same
        · exact empty
        · exact same.trans none
      have rebuilt := kept.replays.rebuild listed silent.replay tracked fresh
      refine { kept with current := Or.inr rebuilt.2, sync := ?_, waits := ?_, compacts := ?_ }
      · -- The request that was read still waits to be installed.
        intro live _ installed
        have lengths := congrArg List.length installed
        have nonempty := List.length_pos_of_mem member
        simp only [List.length_set, List.length_nil] at lengths
        omega
      · intro waiting inside
        rcases List.mem_or_eq_of_mem_set inside with old | new
        · obtain ⟨silentOld, read⟩ := kept.waits waiting old
          exact ⟨silentOld, fun messages isRead => ⟨(read messages isRead).1, rebuilt.2⟩⟩
        · subst new
          refine ⟨silent, fun messages isRead => ?_⟩
          cases isRead
          exact rebuilt
      · intro request asked'
        have idle := (kept.compacts request asked').1
        rw [idle] at member
        cases member
    · cases done
  · cases done

theorem Kept.install (kept : Kept shared) {index : Nat}
    (done : shared.install index = some next) : Kept next := by
  unfold Shared.install at done
  split at done
  · rename_i live exclude messages alive asked
    cases done
    have member := List.mem_of_getElem? asked
    obtain ⟨same, cached⟩ := (kept.waits _ member).2 messages rfl
    refine { kept with newest := ?_, sync := ?_, waits := ?_, compacts := ?_ }
    · intro live' alive'
      cases alive'
      exact kept.newest live alive
    · intro live' alive' _
      cases alive'
      exact ⟨same, cached, kept.bounded⟩
    · intro waiting inside
      exact kept.waits waiting (List.mem_of_mem_eraseIdx inside)
    · intro request asked'
      have idle := (kept.compacts request asked').1
      rw [idle] at member
      cases member
  · cases done

theorem Kept.record (kept : Kept shared) {recording : Recording} (noRequest : shared.compacting = none)
    (idle : shared.waiting = []) (done : shared.record recording = some next) : Kept next := by
  unfold Shared.record Room.record at done
  cases alive : shared.room.live with
  | none => simp [alive] at done
  | some live =>
      simp only [alive, Option.some.injEq] at done
      subst done
      have newest := kept.newest live alive
      have parts := (Room.emit_newest newest recording.part).2
      have mirrors := (kept.sync live alive idle).record recording.messages
      have latest : (shared.room.emit live.taskId recording.part).latestVisible =
          shared.room.latestVisible := by
        simp [Room.latestVisible, parts, recording_compaction]
      have replays := kept.replays.emit newest recording.part fun fresh =>
        replay_recording fresh shared.replayed recording
      have same : (⟨shared.log ++ recording.messages,
          (shared.room.emit live.taskId recording.part).latestVisible⟩ : Replayed) =
          { shared.replayed with raw := shared.replayed.raw ++ recording.messages } := by
        rw [latest]
        rfl
      constructor
      case replays =>
        intro fresh
        exact (replays fresh).trans same.symm
      case bounded =>
        intro state visible
        have inside := kept.bounded state (latest ▸ visible)
        simp only [List.length_append]
        omega
      case current =>
        exact kept.current.imp id fun cached => cached.trans latest.symm
      case summarised =>
        refine kept.summarised.trans ?_
        rw [show Room.latestVisible { shared.room.emit live.taskId recording.part with
          live := some { live with messages := live.messages ++ recording.messages } } =
          shared.room.latestVisible from latest]
        -- The new messages come behind the part that the last compaction covers.
        have inside : count shared.room.latestVisible ≤ shared.log.length := by
          cases visible : shared.room.latestVisible with
          | none => exact Nat.zero_le _
          | some state => exact kept.bounded state visible
        exact (List.take_append_of_le_length inside).symm
      case newest =>
        intro live' alive'
        cases alive'
        exact (Room.emit_newest newest recording.part).1
      case sync =>
        intro live' alive' _
        cases alive'
        have now : Mirrors ⟨shared.log ++ recording.messages,
            (shared.room.emit live.taskId recording.part).latestVisible⟩
            (live.messages ++ recording.messages) shared.room.cached := by
          rw [same]
          exact mirrors
        exact now
      case waits =>
        intro waiting member
        rw [idle] at member
        cases member
      case compacts =>
        intro request asked
        rw [noRequest] at asked
        cases asked

theorem Kept.begin_compact (kept : Kept shared) (builder : HistoryBuilder)
    (idle : shared.waiting = []) (done : shared.beginCompact builder = some next) : Kept next := by
  unfold Shared.beginCompact at done
  split at done
  · rename_i live alive _
    cases done
    refine { kept with compacts := ?_ }
    intro request asked
    obtain ⟨state, some_old, split⟩ := request_parts asked
    exact ⟨idle, state, some_old, live, alive, split⟩
  · cases done

/-- The messages given to the summariser follow those summarised before. -/
theorem summarised_take {replayed : Replayed} {messages : List ChatMessage}
    {cached : Option CompactionState} (mirrors : Mirrors replayed messages cached)
    {request : HistoryBuilder.Request} (state : request.state = cached)
    (some_old : request.old ≠ []) (split : messages = request.old ++ request.recent)
    (answer : String) :
    replayed.raw.take (count replayed.latest) ++ request.newMessages =
      replayed.raw.take (request.result answer).compactedCount := by
  obtain ⟨raw, latest⟩ := replayed
  obtain ⟨same, cachedSame, _⟩ := mirrors
  obtain ⟨requestState, old, recent⟩ := request
  dsimp only at same cachedSame state some_old split ⊢
  subst cachedSame state
  cases requestState with
  | none =>
      have whole : raw = old ++ recent := same.symm.trans split
      simp [HistoryBuilder.Request.result, HistoryBuilder.Request.newMessages, count, whole]
  | some previous =>
      obtain ⟨first, rest, rfl⟩ := List.exists_cons_of_ne_nil some_old
      have whole : raw.drop previous.compactedCount = rest ++ recent := by
        have lists := same.symm.trans split
        simp only [Replayed.messages, List.cons_append, List.cons.injEq] at lists
        exact lists.2
      simp [HistoryBuilder.Request.result, HistoryBuilder.Request.newMessages, count,
        List.take_add, whole]

theorem Kept.end_compact (kept : Kept shared) {answer : String}
    (done : shared.endCompact answer = some next) : Kept next := by
  unfold Shared.endCompact at done
  split at done
  · rename_i live request alive asked
    cases done
    obtain ⟨idle, state, some_old, other, same, split⟩ := kept.compacts request asked
    cases alive.symm.trans same
    have newest := kept.newest live alive
    have sync := kept.sync live alive idle
    have mirrors := sync.compact state some_old split answer
    have parts := (Room.emit_newest newest (compactionPart (request.result answer))).2
    have latest : (shared.room.emit live.taskId
        (compactionPart (request.result answer))).latestVisible = some (request.result answer) := by
      rw [Room.latestVisible, parts]
      simp [partCompaction, compactionPart]
    have replays := kept.replays.emit newest (compactionPart (request.result answer)) fun fresh =>
      replay_compaction fresh shared.replayed (request.result answer)
    have cached : Dict.get? (shared.room.cache.set shared.room.contextId.1 (request.result answer))
        shared.room.contextId.1 = some (request.result answer) := by
      simp
    have sameReplay : (⟨shared.log, (shared.room.emit live.taskId
        (compactionPart (request.result answer))).latestVisible⟩ : Replayed) =
          { shared.replayed with latest := some (request.result answer) } := by
      rw [latest]
      rfl
    constructor
    case replays =>
      intro fresh
      exact (replays fresh).trans sameReplay.symm
    case bounded =>
      intro state visible
      cases latest.symm.trans visible
      exact mirrors.bounded _ rfl
    -- The new state is both cached and the last visible one.
    case current => exact Or.inr (cached.trans latest.symm)
    case summarised =>
      rw [show Room.latestVisible { shared.room.emit live.taskId
          (compactionPart (request.result answer)) with
        live := some { live with messages := request.messages answer }
        cache := shared.room.cache.set shared.room.contextId.1 (request.result answer) } =
        some (request.result answer) from latest]
      rw [kept.summarised]
      exact summarised_take sync state some_old split answer
    case newest =>
      intro live' alive'
      cases alive'
      exact (Room.emit_newest newest _).1
    case sync =>
      intro live' alive' _
      cases alive'
      have now : Mirrors _ (request.messages answer) (some (request.result answer)) :=
        sameReplay ▸ mirrors
      exact ⟨now.messages, cached.trans now.cached, now.bounded⟩
    case waits =>
      intro waiting member
      rw [idle] at member
      cases member
    case compacts =>
      intro other none
      cases none
  · cases done

theorem step_kept (builder : HistoryBuilder) (shared : Shared) (event : Event) (next : Shared)
    (kept : Kept shared) (quiet : Quiet shared event)
    (stepped : shared.step builder event = some next) : Kept next := by
  cases event with
  | request taskId =>
      cases stepped
      exact kept.request quiet
  | read index fresh pages => exact kept.read stepped
  | install index => exact kept.install stepped
  | record recording => exact kept.record quiet.1 quiet.2 stepped
  | beginCompact => exact kept.begin_compact builder quiet stepped
  | endCompact answer => exact kept.end_compact stepped
  | crash =>
      cases stepped
      refine { kept with
        current := Or.inl rfl, newest := ?_, sync := ?_, waits := ?_, compacts := ?_ }
      all_goals simp

end Keep

end Shared

section Late

/-! A node records its output while the summariser works. -/

def smallBuilder : HistoryBuilder := ⟨String.length, 10, 1⟩

def installed : List Shared.Event := [
  .request "t1", .read 0 (fun _ => "id") [[⟨"t1", "c1", none, []⟩]], .install 0,
  .record (.message .user "question"), .record (.decision "[planner] n1")]

def lateRecord : List Shared.Event :=
  installed ++ [.beginCompact, .record (.decision "[writer] done"), .endCompact "summary"]

def earlyRecord : List Shared.Event :=
  installed ++ [.record (.decision "[writer] done"), .beginCompact, .endCompact "summary"]

end Late

end Choirworks.History
