import Mathlib.Data.List.Basic
import Mathlib.Logic.Function.Basic

/-!
A mirror of a keyed state that is kept by reports. Work changes the state in
places: quietly, with a report of what has become of some keys, or silently,
without one. A mirror that hears every report shows the state at every key, but
for those that changed silently since they were last reported.
-/

namespace Choirworks.Mirroring

universe u v w
variable {State : Type u} {Key : Type v} {Value : Type w}

/-- What a report says of some keys, and the state it is made in. -/
structure Report (State : Type u) (Key : Type v) (Value : Type w) where
  entries : List (Key × Value)
  state : State

def Report.keys (report : Report State Key Value) : List Key := report.entries.map (·.1)

section View

variable (view : State → Key → Option Value) (initial : Value)

/-- A report agrees with the state it is made in. -/
def Report.Agrees (report : Report State Key Value) : Prop :=
  ∀ entry ∈ report.entries, view report.state entry.1 = some entry.2

instance [DecidableEq Value] (report : Report State Key Value) : Decidable (report.Agrees view) :=
  inferInstanceAs (Decidable (∀ entry ∈ report.entries, _))

/-- A key that is not there yet shows the initial value. -/
def shown (state : State) (key : Key) : Value := (view state key).getD initial

/-- Work that tells what it changes, apart from some keys. -/
inductive Tells : State → List (Report State Key Value) → List Key → State → Prop where
  | refl (state : State) : Tells state [] [] state
  | quiet {start mid next : State} {reports : List (Report State Key Value)} {silent : List Key}
      (tells : Tells start reports silent mid)
      (same : ∀ key, shown view initial next key = shown view initial mid key) :
      Tells start reports silent next
  | report {start mid next : State} {reports : List (Report State Key Value)} {silent : List Key}
      (tells : Tells start reports silent mid) (entries : List (Key × Value))
      (said : ∀ entry ∈ entries, view next entry.1 = some entry.2)
      (others : ∀ key ∉ entries.map (·.1), shown view initial next key = shown view initial mid key) :
      Tells start (reports ++ [⟨entries, next⟩]) silent next
  | silent {start mid next : State} {reports : List (Report State Key Value)} {silent : List Key}
      (tells : Tells start reports silent mid) (keys : List Key)
      (others : ∀ key ∉ keys, shown view initial next key = shown view initial mid key) :
      Tells start reports (silent ++ keys) next

end View

section Tells

variable {view : State → Key → Option Value} {initial : Value} {start mid final : State}
  {first second reports : List (Report State Key Value)} {left right silent : List Key}

theorem Tells.trans (before : Tells view initial start first left mid)
    (behind : Tells view initial mid second right final) :
    Tells view initial start (first ++ second) (left ++ right) final := by
  induction behind with
  | refl => simpa using before
  | quiet _ same ih => exact .quiet ih same
  | report _ entries said others ih =>
      rw [← List.append_assoc]
      exact .report ih entries said others
  | silent _ keys others ih =>
      rw [← List.append_assoc]
      exact .silent ih keys others

/-- What shows the same tells nothing more. -/
theorem Tells.trans_still (before : Tells view initial start reports silent mid)
    (behind : Tells view initial mid [] [] final) : Tells view initial start reports silent final := by
  have both := before.trans behind
  rwa [List.append_nil, List.append_nil] at both

theorem Tells.still (same : ∀ key, shown view initial final key = shown view initial start key) :
    Tells view initial start [] [] final :=
  .quiet (.refl start) same

theorem Tells.one (entries : List (Key × Value))
    (said : ∀ entry ∈ entries, view final entry.1 = some entry.2)
    (others : ∀ key ∉ entries.map (·.1), shown view initial final key = shown view initial start key) :
    Tells view initial start [⟨entries, final⟩] [] final :=
  .report (.refl start) entries said others

theorem Tells.hidden (keys : List Key)
    (others : ∀ key ∉ keys, shown view initial final key = shown view initial start key) :
    Tells view initial start [] keys final :=
  .silent (.refl start) keys others

/-- Every report agrees. -/
theorem Tells.agrees (tells : Tells view initial start reports silent final) :
    ∀ report ∈ reports, report.Agrees view := by
  induction tells with
  | refl => simp
  | quiet _ _ ih => exact ih
  | report _ entries said _ ih =>
      intro report member
      rcases List.mem_append.mp member with old | new
      · exact ih report old
      · rw [List.mem_singleton.mp new]
        exact said
  | silent _ _ _ ih => exact ih

end Tells

/-! ### The mirror -/

/-- The values as heard, and the keys that changed silently since. -/
structure Mirror (Key : Type v) (Value : Type w) where
  values : Key → Value
  stale : List Key

section Mirror

variable [DecidableEq Key]

def hear (values : Key → Value) (entries : List (Key × Value)) : Key → Value :=
  entries.foldl (fun values entry => Function.update values entry.1 entry.2) values

def hearAll (values : Key → Value) (reports : List (Report State Key Value)) : Key → Value :=
  reports.foldl (fun values report => hear values report.entries) values

def Mirror.follow (mirror : Mirror Key Value) (reports : List (Report State Key Value))
    (silent : List Key) : Mirror Key Value where
  values := hearAll mirror.values reports
  stale := (mirror.stale.filter (· ∉ reports.flatMap Report.keys)) ++ silent

theorem hear_other {key : Key} (entries : List (Key × Value)) (values : Key → Value)
    (absent : key ∉ entries.map (·.1)) : hear values entries key = values key := by
  induction entries generalizing values with
  | nil => rfl
  | cons entry rest ih =>
      simp only [List.map_cons, List.mem_cons, not_or] at absent
      have later := ih (Function.update values entry.1 entry.2) absent.2
      exact later.trans (Function.update_of_ne absent.1 _ _)

/-- The last entry about a key counts. -/
theorem hear_named {key : Key} {value : Value} (entries : List (Key × Value)) (values : Key → Value)
    (named : key ∈ entries.map (·.1)) (all : ∀ entry ∈ entries, entry.1 = key → entry.2 = value) :
    hear values entries key = value := by
  induction entries generalizing values with
  | nil => cases named
  | cons entry rest ih =>
      have others := fun other member => all other (List.mem_cons_of_mem _ member)
      by_cases again : key ∈ rest.map (·.1)
      · exact ih (Function.update values entry.1 entry.2) again others
      · have last : entry.1 = key := by
          rcases List.mem_cons.mp named with here | behind
          · exact here.symm
          · exact absurd behind again
        have heard := hear_other rest (Function.update values entry.1 entry.2) again
        have value := all entry List.mem_cons_self last
        rw [← value, ← last] at *
        exact heard.trans (Function.update_self _ _ _)

variable {view : State → Key → Option Value} {initial : Value}

/-- The mirror shows the state where it is not stale. -/
def Mirror.Shows (view : State → Key → Option Value) (initial : Value) (mirror : Mirror Key Value)
    (state : State) : Prop :=
  ∀ key ∉ mirror.stale, mirror.values key = shown view initial state key

/-- A mirror that hears what is told goes on showing the state. -/
theorem Tells.shows {start final : State} {reports : List (Report State Key Value)}
    {silent : List Key} {mirror : Mirror Key Value}
    (tells : Tells view initial start reports silent final)
    (shows : mirror.Shows view initial start) :
    (mirror.follow reports silent).Shows view initial final := by
  -- by induction on what was told: a key shows its last report
  have heard : ∀ key ∉ silent, (key ∉ mirror.stale ∨ key ∈ reports.flatMap Report.keys) →
      hearAll mirror.values reports key = shown view initial final key := by
    induction tells with
    | refl =>
        intro key _ known
        rcases known with fresh | reported
        · exact shows key fresh
        · cases reported
    | quiet _ same ih =>
        intro key spoken known
        exact (ih key spoken known).trans (same key).symm
    | report _ entries said others ih =>
        intro key spoken known
        simp only [hearAll, List.foldl_append, List.foldl_cons, List.foldl_nil]
        by_cases named : key ∈ entries.map (·.1)
        · apply hear_named entries _ named
          rintro entry member rfl
          simp [shown, said entry member]
        · rw [hear_other entries _ named, others key named]
          refine ih key spoken (known.imp_right ?_)
          intro reported
          simp only [List.flatMap_append, List.flatMap_cons, List.flatMap_nil, List.append_nil,
            List.mem_append] at reported
          exact reported.resolve_right named
    | silent _ keys others ih =>
        intro key spoken known
        rw [List.mem_append, not_or] at spoken
        exact (ih key spoken.1 known).trans (others key spoken.2).symm
  intro key fresh
  simp only [Mirror.follow, List.mem_append, List.mem_filter, decide_eq_true_eq, not_or,
    not_and, Decidable.not_not] at fresh
  refine heard key fresh.2 ?_
  by_cases stale : key ∈ mirror.stale
  · exact Or.inr (fresh.1 stale)
  · exact Or.inl stale

end Mirror

end Choirworks.Mirroring
