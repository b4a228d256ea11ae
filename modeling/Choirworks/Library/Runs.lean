/-!
Runs of a partial step function. A label carries every choice the environment
makes at a step, so a run is a list of labels and is computed by folding the
step function over it. A step that answers `none` is not enabled and ends
the run. `Guarded` says that every step of a run met a condition on the state
before it; invariants of guarded runs are the rule `run_invariant`.
-/

namespace Choirworks.Runs

universe u v w
variable {State : Type u} {Label : Type v}

def run (step : State → Label → Option State) : State → List Label → Option State
  | state, [] => some state
  | state, label :: rest =>
      match step state label with
      | none => none
      | some next => run step next rest

def Guarded (step : State → Label → Option State) (guard : State → Label → Prop) :
    State → List Label → Prop
  | _, [] => True
  | state, label :: rest =>
      guard state label ∧
        match step state label with
        | none => True
        | some next => Guarded step guard next rest

instance decidableGuarded (step : State → Label → Option State)
    (guard : State → Label → Prop) [∀ state label, Decidable (guard state label)] :
    (state : State) → (labels : List Label) → Decidable (Guarded step guard state labels)
  | _, [] => .isTrue trivial
  | state, label :: rest =>
      match taken : step state label with
      | none => decidable_of_iff (guard state label) (by simp [Guarded, taken])
      | some next =>
          have := decidableGuarded step guard next rest
          decidable_of_iff (guard state label ∧ Guarded step guard next rest)
            (by simp [Guarded, taken])

/-- What the steps of a run note down, each in the state before it. -/
def log {Entry : Type w} (step : State → Label → Option State)
    (notes : State → Label → List Entry) : State → List Label → List Entry
  | _, [] => []
  | state, label :: rest =>
      notes state label ++
        match step state label with
        | none => []
        | some next => log step notes next rest

/-- The run ends in a state with the property. -/
def Ends (step : State → Label → Option State) (start : State) (labels : List Label)
    (property : State → Prop) : Prop :=
  ∃ final, run step start labels = some final ∧ property final

instance (step : State → Label → Option State) (start : State) (labels : List Label)
    (property : State → Prop) [DecidablePred property] :
    Decidable (Ends step start labels property) :=
  match ended : run step start labels with
  | none => .isFalse (by simp [Ends, ended])
  | some final => decidable_of_iff (property final) (by simp [Ends, ended])

variable {step : State → Label → Option State} {guard : State → Label → Prop}

/-- A property that every guarded step keeps holds at the end of every
guarded run that starts in it. -/
theorem run_invariant (inv : State → Prop)
    (kept : ∀ state label next, inv state → guard state label →
      step state label = some next → inv next)
    (labels : List Label) (state final : State) (start : inv state)
    (guarded : Guarded step guard state labels)
    (ran : run step state labels = some final) : inv final := by
  induction labels generalizing state with
  | nil =>
      cases ran
      exact start
  | cons label rest ih =>
      cases taken : step state label with
      | none => simp [run, taken] at ran
      | some next =>
          simp only [run, taken] at ran
          simp only [Guarded, taken] at guarded
          exact ih next (kept state label next start guarded.1 taken) guarded.2 ran

/-- The unguarded rule: what every step keeps, every run keeps. -/
theorem run_invariant_of_step (inv : State → Prop)
    (kept : ∀ state label next, inv state → step state label = some next → inv next)
    (labels : List Label) (state final : State) (start : inv state)
    (ran : run step state labels = some final) : inv final := by
  induction labels generalizing state with
  | nil =>
      cases ran
      exact start
  | cons label rest ih =>
      cases taken : step state label with
      | none => simp [run, taken] at ran
      | some next =>
          simp only [run, taken] at ran
          exact ih next (kept state label next start taken) ran

/-- Where a guard is what a step needs to keep a property, and enough to keep an
invariant that implies it, a run is guarded exactly if the property holds in
every state it reaches. -/
theorem guarded_iff_always (inv property : State → Prop)
    (implied : ∀ state, inv state → property state)
    (kept : ∀ state label next, inv state → guard state label →
      step state label = some next → inv next)
    (needed : ∀ state label, inv state →
      (∀ next, step state label = some next → property next) → guard state label)
    (labels : List Label) (state : State) (start : inv state) :
    Guarded step guard state labels ↔
      ∀ front, front <+: labels → ∀ reached, run step state front = some reached →
        property reached := by
  induction labels generalizing state with
  | nil =>
      simp only [Guarded, List.prefix_nil, forall_eq, run, Option.some.injEq, true_iff]
      rintro reached rfl
      exact implied state start
  | cons label rest ih =>
      simp only [Guarded, List.prefix_cons_iff]
      cases taken : step state label with
      | none =>
          simp only [and_true]
          constructor
          · rintro guarded front (rfl | ⟨behind, rfl, _⟩) reached ran
            · cases ran
              exact implied state start
            · simp [run, taken] at ran
          · intro always
            exact needed state label start (by simp [taken])
      | some next =>
          constructor
          · rintro ⟨guarded, later⟩ front (rfl | ⟨behind, rfl, isPrefix⟩) reached ran
            · cases ran
              exact implied state start
            · simp only [run, taken] at ran
              exact (ih next (kept state label next start guarded taken)).mp later behind isPrefix
                reached ran
          · intro always
            have guarded : guard state label := by
              apply needed state label start
              intro other same
              exact always [label] (Or.inr ⟨[], rfl, List.nil_prefix⟩) other (by simp [run, same])
            refine ⟨guarded, (ih next (kept state label next start guarded taken)).mpr ?_⟩
            intro behind isPrefix reached ran
            exact always (label :: behind) (Or.inr ⟨behind, rfl, isPrefix⟩) reached
              (by simpa [run, taken] using ran)

/-- Wherever a guarded run takes a step, the invariant and the guard of that
step hold. -/
theorem guarded_at (inv : State → Prop)
    (kept : ∀ state label next, inv state → guard state label →
      step state label = some next → inv next)
    (labels : List Label) (state : State) (start : inv state)
    (guarded : Guarded step guard state labels) (front : List Label) (label : Label)
    (rest : List Label) (split : labels = front ++ label :: rest) (reached : State)
    (ran : run step state front = some reached) : inv reached ∧ guard reached label := by
  induction front generalizing labels state with
  | nil =>
      subst split
      cases ran
      exact ⟨start, guarded.1⟩
  | cons first front ih =>
      subst split
      obtain ⟨now, later⟩ := guarded
      cases taken : step state first with
      | none => simp [run, taken] at ran
      | some next =>
          simp only [taken] at later
          simp only [run, taken] at ran
          exact ih _ next (kept state first next start now taken) later rfl ran

/-- Where the guard of a step says, in the states of an invariant that guarded
steps keep, what a property of the step says, a run is guarded exactly if the
property holds of each of its steps. -/
theorem guarded_iff_each (inv : State → Prop) (property : State → Label → Prop)
    (agrees : ∀ state label, inv state → (guard state label ↔ property state label))
    (kept : ∀ state label next, inv state → guard state label →
      step state label = some next → inv next)
    (labels : List Label) (state : State) (start : inv state) :
    Guarded step guard state labels ↔
      ∀ front label rest, labels = front ++ label :: rest →
        ∀ reached, run step state front = some reached → property reached label := by
  constructor
  · intro guarded front label rest split reached ran
    obtain ⟨holds, now⟩ := guarded_at inv kept labels state start guarded front label rest split
      reached ran
    exact (agrees reached label holds).mp now
  · intro each
    induction labels generalizing state with
    | nil => trivial
    | cons first later ih =>
        have guarded : guard state first :=
          (agrees state first start).mpr (each [] first later rfl state rfl)
        refine ⟨guarded, ?_⟩
        cases taken : step state first with
        | none => trivial
        | some next =>
            apply ih next (kept state first next start guarded taken)
            intro front label rest split reached ran
            exact each (first :: front) label rest (by simp [split]) reached
              (by simpa [run, taken] using ran)

theorem run_append (left right : List Label) (state : State) :
    run step state (left ++ right) = (run step state left).bind (run step · right) := by
  induction left generalizing state with
  | nil => rfl
  | cons label rest ih =>
      cases taken : step state label with
      | none => simp [run, taken]
      | some next => simp [run, taken, ih]

/-- Where two step functions agree on what is projected, so do their runs. -/
theorem run_projected {Other : Type w} {other : Other → Label → Option Other}
    (project : State → Other)
    (agrees : ∀ state label, (step state label).map project = other (project state) label)
    (labels : List Label) (state : State) :
    (run step state labels).map project = run other (project state) labels := by
  induction labels generalizing state with
  | nil => rfl
  | cons label rest ih =>
      have here := agrees state label
      cases taken : step state label with
      | none =>
          rw [taken] at here
          simp [run, taken, ← here]
      | some next =>
          rw [taken] at here
          simpa [run, taken, ← here] using ih next

/-- Two step functions that keep states related, and stop together, do so over
whole runs. -/
theorem run_related {Other : Type w} {other : Other → Label → Option Other}
    {related : State → Other → Prop}
    (kept : ∀ {state opposite}, related state opposite → ∀ label,
      Option.Rel related (step state label) (other opposite label))
    (labels : List Label) {state : State} {opposite : Other} (start : related state opposite) :
    Option.Rel related (run step state labels) (run other opposite labels) := by
  induction labels generalizing state opposite with
  | nil => exact .some start
  | cons label rest ih =>
      have here := kept start label
      simp only [run]
      generalize step state label = left at here
      generalize other opposite label = right at here
      cases here with
      | none => exact .none
      | some next => exact ih next

theorem guarded_append (left right : List Label) (state : State) :
    Guarded step guard state (left ++ right) ↔ Guarded step guard state left ∧
      ∀ reached, run step state left = some reached → Guarded step guard reached right := by
  induction left generalizing state with
  | nil => simp [Guarded, run]
  | cons label rest ih =>
      cases taken : step state label with
      | none => simp [Guarded, run, taken]
      | some next => simp [Guarded, run, taken, ih next, and_assoc]

theorem guarded_of_always (always : ∀ state label, guard state label) (labels : List Label)
    (state : State) : Guarded step guard state labels := by
  induction labels generalizing state with
  | nil => trivial
  | cons label rest ih =>
      refine ⟨always state label, ?_⟩
      cases step state label with
      | none => trivial
      | some next => exact ih next

theorem Guarded.mono {strong : State → Label → Prop} {labels : List Label} {state : State}
    (guarded : Guarded step guard state labels)
    (implies : ∀ reached, ∀ label ∈ labels, guard reached label → strong reached label) :
    Guarded step strong state labels := by
  induction labels generalizing state with
  | nil => trivial
  | cons label rest ih =>
      refine ⟨implies state label List.mem_cons_self guarded.1, ?_⟩
      have later := guarded.2
      cases taken : step state label with
      | none => trivial
      | some next =>
          simp only [taken] at later
          exact ih later fun reached other member =>
            implies reached other (List.mem_cons_of_mem _ member)

theorem Guarded.both {other : State → Label → Prop} {labels : List Label} {state : State}
    (left : Guarded step guard state labels) (right : Guarded step other state labels) :
    Guarded step (fun reached label => guard reached label ∧ other reached label) state labels := by
  induction labels generalizing state with
  | nil => trivial
  | cons label rest ih =>
      refine ⟨⟨left.1, right.1⟩, ?_⟩
      have laterLeft := left.2
      have laterRight := right.2
      cases taken : step state label with
      | none => trivial
      | some next =>
          simp only [taken] at laterLeft laterRight
          exact ih laterLeft laterRight

/-- What the steps of a guarded run note down has a property that the invariant
and the guard of each step give to what it notes. -/
theorem log_all {Entry : Type w} {notes : State → Label → List Entry} (inv : State → Prop)
    (property : Entry → Prop)
    (each : ∀ state label next, inv state → guard state label → step state label = some next →
      inv next ∧ ∀ entry ∈ notes state label, property entry)
    (labels : List Label) (state final : State) (start : inv state)
    (guarded : Guarded step guard state labels) (ran : run step state labels = some final) :
    ∀ entry ∈ log step notes state labels, property entry := by
  induction labels generalizing state with
  | nil =>
      intro entry noted
      cases noted
  | cons label rest ih =>
      obtain ⟨now, later⟩ := guarded
      cases taken : step state label with
      | none => simp [run, taken] at ran
      | some next =>
          simp only [taken] at later
          simp only [run, taken] at ran
          obtain ⟨held, first⟩ := each state label next start now taken
          intro entry noted
          simp only [log, taken] at noted
          rcases List.mem_append.mp noted with here | behind
          · exact first entry here
          · exact ih next held later ran entry behind

/-- What every step keeps beside the notes taken so far, every run keeps. -/
theorem run_logged {Entry : Type w} {notes : State → Label → List Entry}
    (inv : State → List Entry → Prop)
    (kept : ∀ state label next past, inv state past → step state label = some next →
      inv next (past ++ notes state label))
    (labels : List Label) (state final : State) (past : List Entry) (start : inv state past)
    (ran : run step state labels = some final) :
    inv final (past ++ log step notes state labels) := by
  induction labels generalizing state past with
  | nil =>
      cases ran
      simpa [log] using start
  | cons label rest ih =>
      cases taken : step state label with
      | none => simp [run, taken] at ran
      | some next =>
          simp only [run, taken] at ran
          have behind := ih next (past ++ notes state label)
            (kept state label next past start taken) ran
          rw [List.append_assoc] at behind
          simpa only [log, taken] using behind

/-- A count that every step raises by one counts the steps of a run. -/
theorem run_counted (count : State → Nat)
    (raised : ∀ state label next, step state label = some next → count next = count state + 1)
    (labels : List Label) (state final : State) (ran : run step state labels = some final) :
    count final = count state + labels.length := by
  induction labels generalizing state with
  | nil =>
      cases ran
      rfl
  | cons label rest ih =>
      cases taken : step state label with
      | none => simp [run, taken] at ran
      | some next =>
          simp only [run, taken] at ran
          rw [ih next ran, raised state label next taken, List.length_cons]
          omega

end Choirworks.Runs
