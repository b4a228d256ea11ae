import Choirworks.History.Sessions

/-!
Restart recovery of the message list. `recover_session` rebuilds without the
task it recovers, so it gives back the list of the crashed session if that task
has recorded nothing; what it has recorded is not in the recovered list.
-/

namespace Choirworks.History

namespace Sessions

/-- A run of turns, tasks and compactions, with its tasks used in order. -/
def Undisturbed (room : Room) (event : Event) : Prop :=
  InOrder room event ∧ match event with
    | .rewind _ _ => False
    | _ => True

instance (room : Room) : (event : Event) → Decidable (Undisturbed room event)
  | .rewind _ _ => .isFalse fun both => both.2
  | .turn _ _ _ | .record _ | .compact _ | .evict | .crash | .recover _ _ _ =>
      inferInstanceAs (Decidable (InOrder room _ ∧ True))

end Sessions

/-- Without rewinds the cache is empty or up to date. -/
def CacheCurrent (room : Room) : Prop := room.cached = none ∨ room.cached = room.latestVisible

theorem Inv.cache_current {room : Room} (inv : Inv room) {live : Live}
    (alive : room.live = some live) : room.cached = room.latestVisible := by
  obtain ⟨replayed, replays, mirrors⟩ := (inv.sync live alive).mirrors
  exact mirrors.cached.trans replays.latest

theorem current_step {builder : HistoryBuilder} {room next : Room} {event : Sessions.Event}
    (inv : Inv room) (current : CacheCurrent room) (guard : Sessions.Undisturbed room event)
    (stepped : Sessions.step builder room event = some next) : Inv next ∧ CacheCurrent next := by
  -- a current cache holds a summary only where a rebuild finds one
  have fits : Sessions.CacheFits room event := by
    have none : room.latestVisible ≠ none ∨ room.cached = none := by
      rcases current with empty | same
      · exact Or.inr empty
      · by_cases visible : room.latestVisible = none
        · exact Or.inr (same.trans visible)
        · exact Or.inl visible
    cases event with
    | turn => exact fun _ => none
    | recover => exact none
    | _ => trivial
  have nextInv := step_inv builder event inv guard.1 fits stepped
  refine ⟨nextInv, ?_⟩
  -- with a list in memory the invariant knows; without one the step tells
  cases alive : next.live with
  | some live => exact Or.inr (nextInv.cache_current alive)
  | none =>
      cases event with
      | turn taskId fresh pages =>
          have noFit : room.messages = [] → room.latestVisible = none → room.cached = none :=
            fun empty visible => (fits empty).resolve_left fun some_visible => some_visible visible
          obtain ⟨_, _, live, known, _⟩ := inv.turn guard.1 noFit stepped
          cases known.symm.trans alive
      | record recording =>
          simp only [Sessions.step, Room.record] at stepped
          split at stepped <;> cases stepped
          cases alive
      | compact answer =>
          simp only [Sessions.step, Room.compact] at stepped
          split at stepped
          · cases stepped
          · split at stepped <;> cases stepped <;> cases alive
      | evict =>
          cases stepped
          exact current
      | rewind before marker => exact guard.2.elim
      | crash =>
          cases stepped
          exact Or.inl rfl
      | recover taskId fresh pages =>
          simp only [Sessions.step, Room.recover, Room.recoverSession] at stepped
          split at stepped
          · split at stepped
            · cases stepped
            · split at stepped <;> cases stepped
              cases alive
          · cases stepped

theorem current_run (builder : HistoryBuilder) (contextId : NonEmpty) (events : List Sessions.Event)
    (room : Room)
    (guarded : Runs.Guarded (Sessions.step builder) Sessions.Undisturbed (.start contextId) events)
    (ran : Runs.run (Sessions.step builder) (.start contextId) events = some room) :
    Inv room ∧ CacheCurrent room :=
  Runs.run_invariant (fun room => Inv room ∧ CacheCurrent room)
    (fun _ _ _ both guard stepped => current_step both.1 both.2 guard stepped) events _ room
    ⟨start_inv contextId, Or.inl rfl⟩ guarded ran

section Turn

/-! The first turn of a conversation records its message and the process restarts. -/

def wordBuilder : HistoryBuilder := ⟨String.length, 10, 1⟩

def firstTurn : List Sessions.Event := [
  .turn "t1" (fun _ => "id") [[]], .record (.message .user "question")]

def firstTask : Task :=
  ⟨"t1", "c1", none, [[textPart .history (some .user) "question"]]⟩

end Turn

end Choirworks.History
