import Choirworks.History.Sessions

/-!
The cached compaction state and the visible history. A rebuild replaces the
cached state only by a visible one; if a rewind has hidden every compaction,
the state of the hidden turns stays. Where every rebuild finds a visible
compaction or an empty cache, the cache is the latest visible compaction, and a
compaction covers whatever it drops.
-/

namespace Choirworks.History

namespace Sessions

def Tracked (room : Room) (event : Event) : Prop := InOrder room event ∧ CacheFits room event

instance (room : Room) (event : Event) : Decidable (Tracked room event) :=
  inferInstanceAs (Decidable (_ ∧ _))

end Sessions

/-- What a compaction takes out of the list: the summary of the latest visible
compaction, if there is one, and the messages it gives to the summariser. -/
def Covered (room : Room) (messages : List ChatMessage) (request : HistoryBuilder.Request) : Prop :=
  request.state = room.latestVisible ∧ messages = request.old ++ request.recent ∧
    request.old = (room.latestVisible.toList.map fun state => .assistant state.summary) ++
      request.newMessages

theorem Room.Sync.covered {room : Room} {live : Live} (sync : room.Sync live)
    {builder : HistoryBuilder} {request : HistoryBuilder.Request}
    (asked : builder.request? room.cache room.contextId live.messages = some request) :
    Covered room live.messages request := by
  obtain ⟨replayed, replays, mirrors⟩ := sync.mirrors
  obtain ⟨state, some_old, split⟩ := request_parts asked
  have latest : request.state = room.latestVisible :=
    state.trans (mirrors.cached.trans replays.latest)
  refine ⟨latest, split, ?_⟩
  rw [← latest]
  cases found : request.state with
  | none => simp [HistoryBuilder.Request.newMessages, found]
  | some compacted =>
      -- the list starts with the summary of the cached state
      have messages := mirrors.messages
      rw [Replayed.messages, replays.latest, ← latest, found, split] at messages
      obtain ⟨first, rest, same⟩ := List.exists_cons_of_ne_nil some_old
      rw [same, List.cons_append, List.cons.injEq] at messages
      simp [HistoryBuilder.Request.newMessages, found, same, messages.1]

/-- In every run whose rebuilds find a visible compaction or an empty cache,
the cache of a session is the latest visible compaction, and the next
compaction feeds that summary and every other message it drops. -/
theorem cache_tracks_visible (builder : HistoryBuilder) (contextId : NonEmpty)
    (events : List Sessions.Event) (room : Room) (live : Live)
    (guarded : Runs.Guarded (Sessions.step builder) Sessions.Tracked (.start contextId) events)
    (ran : Runs.run (Sessions.step builder) (.start contextId) events = some room)
    (alive : room.live = some live) :
    room.cached = room.latestVisible ∧
      ∀ request, builder.request? room.cache room.contextId live.messages = some request →
        Covered room live.messages request := by
  have inv : Inv room := Runs.run_invariant Inv
    (fun _ event _ inv guard stepped => step_inv builder event inv guard.1 guard.2 stepped)
    events _ room (start_inv contextId) guarded ran
  have sync := inv.sync live alive
  obtain ⟨replayed, replays, mirrors⟩ := sync.mirrors
  exact ⟨mirrors.cached.trans replays.latest, fun request asked => sync.covered asked⟩

section Rewound

/-! A turn is compacted and rewound, and the next turn starts. -/

def lastBuilder : HistoryBuilder := ⟨String.length, 10, 1⟩

def compactedTurn : List Sessions.Event := [
  .turn "t1" (fun _ => "id") [[]], .record (.message .user "question"),
  .record (.decision "[planner] n1"), .compact "summary"]

def rewoundTurn : List Sessions.Event := compactedTurn ++ [.rewind "t1" "m1"]

def compactedTask : Task :=
  ⟨"t1", "c1", none, [[textPart .history (some .user) "question"],
    [textPart .decision (some .assistant) "[planner] n1"], [compactionPart ⟨1, "summary"⟩]]⟩

def rewindMarker : Task := ⟨"m1", "c1", some "t1", []⟩

/-- The cached state outlives the turns it summarises. -/
theorem rewound_summary_stays :
    ¬ ∀ (builder : HistoryBuilder) (contextId : NonEmpty) (events : List Sessions.Event)
      (room next : Room),
      Runs.run (Sessions.step builder) (.start contextId) events = some room →
      room.messages = [] → ∀ (taskId : String) (fresh : Nat → String) (pages : List (List Task)),
      room.turn taskId fresh pages = some next → next.cached = next.latestVisible := by
  intro claim
  have stays : Runs.Ends (Sessions.step lastBuilder) (.start ⟨"c1", by decide⟩) rewoundTurn
      fun room => room.messages = [] ∧
        Runs.Ends (Sessions.step lastBuilder) room
          [.turn "t2" (fun _ => "id") [[rewindMarker, compactedTask]]]
          fun next => next.cached = some ⟨1, "summary"⟩ ∧ next.latestVisible = none := by
    decide +kernel
  obtain ⟨room, ran, empty, next, turned, stale, hidden⟩ := stays
  have turn : room.turn "t2" (fun _ => "id") [[rewindMarker, compactedTask]] = some next := by
    simp only [Runs.run, Sessions.step] at turned
    split at turned
    · cases turned
    · rename_i taken
      cases turned
      exact taken
  have same := claim lastBuilder ⟨"c1", by decide⟩ rewoundTurn room next ran empty "t2" _ _ turn
  rw [stale, hidden] at same
  cases same

/-- Behind a restart the next compaction extends the visible summary. -/
theorem restarted_summary_covers :
    Runs.Ends (Sessions.step lastBuilder) (.start ⟨"c1", by decide⟩)
      (compactedTurn ++ [.crash, .turn "t2" (fun _ => "id") [[compactedTask]],
        .record (.message .user "next question")]) fun room => ∃ live, room.live = some live ∧
          room.cached = room.latestVisible ∧
          ∀ request, lastBuilder.request? room.cache room.contextId live.messages = some request →
            Covered room live.messages request := by
  have ends : Runs.Ends (Sessions.step lastBuilder) (.start ⟨"c1", by decide⟩)
      (compactedTurn ++ [.crash, .turn "t2" (fun _ => "id") [[compactedTask]],
        .record (.message .user "next question")]) fun room => room.live.isSome = true := by
    decide +kernel
  obtain ⟨room, ran, found⟩ := ends
  obtain ⟨live, alive⟩ := Option.isSome_iff_exists.mp found
  exact ⟨room, ran, live, alive, cache_tracks_visible lastBuilder ⟨"c1", by decide⟩ _ room live
    (by decide +kernel) ran alive⟩

end Rewound

end Choirworks.History
