import Choirworks.Library.Runs
import Choirworks.Workflow.Rehydration

/-!
The barrier that makes replayed node runs follow the recorded order, the
manager that keeps one barrier for each parent path, and concurrent replayed
runs: each waits for its key, emits its events and then advances the barrier.
-/

namespace Choirworks.Workflow

/-- `events` has for each key whether its event is set. -/
structure ReplaySequenceBarrier where
  sequence : List String
  currentIndex : Nat
  events : Dict String Bool

namespace ReplaySequenceBarrier

def unset (sequence : List String) : Dict String Bool :=
  sequence.foldl (fun events key => events.set key false) .empty

def init (sequence : List String) : ReplaySequenceBarrier where
  sequence
  currentIndex := 0
  events :=
    match sequence with
    | [] => unset []
    | first :: rest => (unset (first :: rest)).set first true

/-- Whether `wait` returns; a key that is not in the sequence does not wait. -/
def passes (barrier : ReplaySequenceBarrier) (key : String) : Bool :=
  match barrier.events.get? key with
  | none => true
  | some isSet => isSet

def checkAndAdvance (barrier : ReplaySequenceBarrier) (key : String) : ReplaySequenceBarrier :=
  match barrier.sequence[barrier.currentIndex]? with
  | none => barrier
  | some expectedKey =>
      if key ≠ expectedKey then barrier
      else
        { barrier with
          currentIndex := barrier.currentIndex + 1
          events :=
            match barrier.sequence[barrier.currentIndex + 1]? with
            | none => barrier.events
            | some nextKey => barrier.events.set nextKey true }

end ReplaySequenceBarrier

structure ReplayManager where
  parentSequenceBarriers : Dict String ReplaySequenceBarrier

namespace ReplayManager

def scanWorkflowEvents (manager : ReplayManager) (events : List A2AEvent) (basePath : String) :
    (Dict String ChildScanState × List String) × ReplayManager :=
  let (states, sequence) := Workflow.scanWorkflowEvents events basePath
  ((states, sequence),
    ⟨manager.parentSequenceBarriers.set basePath (.init sequence)⟩)

def prepareParentSequenceBarrier (manager : ReplayManager) (events : List A2AEvent)
    (parentPath : String) : ReplayManager :=
  match manager.parentSequenceBarriers.get? parentPath with
  | some _ => manager
  | none =>
      ⟨manager.parentSequenceBarriers.set parentPath (.init (scanSequence events parentPath true))⟩

def advanceSequence (manager : ReplayManager) (parentPath key : String) : ReplayManager :=
  match manager.parentSequenceBarriers.get? parentPath with
  | none => manager
  | some barrier => ⟨manager.parentSequenceBarriers.set parentPath (barrier.checkAndAdvance key)⟩

def waitSequence (manager : ReplayManager) (parentPath key : String) : Bool :=
  match manager.parentSequenceBarriers.get? parentPath with
  | none => true
  | some barrier => barrier.passes key

end ReplayManager

/-- Both scans install a fresh barrier over distinct keys. -/
theorem scan_installs (manager : ReplayManager) (events : List A2AEvent) (basePath : String) :
    ∃ sequence : List String, sequence.Nodup ∧
      (manager.scanWorkflowEvents events basePath).2.parentSequenceBarriers.get? basePath =
        some (.init sequence) := by
  refine ⟨_, ?_, by simp [ReplayManager.scanWorkflowEvents]; rfl⟩
  rw [Workflow.scanWorkflowEvents, scan_sequence_eq]
  exact Firsts.firsts_nodup _

theorem prepare_installs (manager : ReplayManager) (events : List A2AEvent) (parentPath : String)
    (fresh : manager.parentSequenceBarriers.get? parentPath = none) :
    ∃ sequence : List String, sequence.Nodup ∧
      (manager.prepareParentSequenceBarrier events parentPath).parentSequenceBarriers.get?
        parentPath = some (.init sequence) := by
  refine ⟨_, ?_, by simp [ReplayManager.prepareParentSequenceBarrier, fresh]; rfl⟩
  rw [scan_sequence_eq]
  exact Firsts.firsts_nodup _

/-! ### Replayed runs -/

structure ReplayedRun where
  parentPath : String
  nodeName : String
  runId : String
deriving DecidableEq

def ReplayedRun.key (run : ReplayedRun) : String := run.nodeName ++ "@" ++ run.runId

/-- Where a run is: in front of the barrier, behind it, or done. -/
inductive ReplayPhase where
  | waiting | passed | advanced
deriving DecidableEq

/-- `passes` lists the runs that have passed, in that order. -/
structure Replay where
  manager : ReplayManager
  phases : List ReplayPhase
  passes : List Nat

inductive ReplayLabel where
  | pass (index : Nat)
  | advance (index : Nat)

def ReplayLabel.index : ReplayLabel → Nat
  | .pass index => index
  | .advance index => index

namespace Replay

def start (manager : ReplayManager) (runs : List ReplayedRun) : Replay :=
  ⟨manager, runs.map fun _ => .waiting, []⟩

/-- `run_replayed` of one run from one await to the next. -/
def step (runs : List ReplayedRun) (replay : Replay) : ReplayLabel → Option Replay
  | .pass index =>
      match runs[index]?, replay.phases[index]? with
      | some run, some .waiting =>
          if replay.manager.waitSequence run.parentPath run.key then
            some { replay with
              phases := replay.phases.set index .passed
              passes := replay.passes ++ [index] }
          else none
      | _, _ => none
  | .advance index =>
      match runs[index]?, replay.phases[index]? with
      | some run, some .passed =>
          some { replay with
            manager := replay.manager.advanceSequence run.parentPath run.key
            phases := replay.phases.set index .advanced }
      | _, _ => none

end Replay

/-! ### The barrier -/

section Barrier

variable {sequence : List String} {barrier : ReplaySequenceBarrier} {key : String}

/-- The events up to the current index are set. -/
structure Opens (sequence : List String) (barrier : ReplaySequenceBarrier) : Prop where
  same : barrier.sequence = sequence
  bounded : barrier.currentIndex ≤ sequence.length
  isSet : ∀ key, barrier.events.get? key =
    if key ∈ sequence then some (decide (sequence.idxOf key ≤ barrier.currentIndex)) else none

theorem unset_get (sequence : List String) (key : String) :
    (ReplaySequenceBarrier.unset sequence).get? key =
      if key ∈ sequence then some false else none := by
  induction sequence using List.reverseRecOn with
  | nil => rfl
  | append_singleton sequence last ih =>
      rw [ReplaySequenceBarrier.unset] at ih ⊢
      rw [List.foldl_append, List.foldl_cons, List.foldl_nil, Dict.get?_set, ih]
      by_cases same : key = last <;> simp [same]

theorem init_opens (sequence : List String) : Opens sequence (.init sequence) where
  same := rfl
  bounded := Nat.zero_le _
  isSet := by
    intro key
    cases sequence with
    | nil => rfl
    | cons first rest =>
        simp only [ReplaySequenceBarrier.init, Dict.get?_set, unset_get]
        by_cases same : key = first
        · simp [same]
        · have other : first ≠ key := Ne.symm same
          by_cases listed : key ∈ rest <;> simp [same, listed, other]

theorem passes_iff (opens : Opens sequence barrier) :
    barrier.passes key = true ↔
      key ∉ sequence ∨ sequence.idxOf key ≤ barrier.currentIndex := by
  unfold ReplaySequenceBarrier.passes
  rw [opens.isSet]
  by_cases listed : key ∈ sequence <;> simp [listed]

theorem advance_other (opens : Opens sequence barrier)
    (other : key ∉ sequence ∨ sequence.idxOf key ≠ barrier.currentIndex) (once : sequence.Nodup) :
    barrier.checkAndAdvance key = barrier := by
  unfold ReplaySequenceBarrier.checkAndAdvance
  rw [opens.same]
  split
  · rfl
  · rename_i expected found
    obtain ⟨inside, rfl⟩ := List.getElem?_eq_some_iff.mp found
    rw [if_pos]
    rintro rfl
    rcases other with unlisted | elsewhere
    · exact unlisted (List.getElem_mem inside)
    · exact elsewhere (once.idxOf_getElem _ inside)

theorem advance_expected (opens : Opens sequence barrier) (listed : key ∈ sequence)
    (expected : sequence.idxOf key = barrier.currentIndex) (once : sequence.Nodup) :
    Opens sequence (barrier.checkAndAdvance key) ∧
      (barrier.checkAndAdvance key).currentIndex = barrier.currentIndex + 1 := by
  have inside : barrier.currentIndex < sequence.length := by
    rw [← expected]
    exact List.idxOf_lt_length_of_mem listed
  have current : sequence[barrier.currentIndex]? = some key := by
    rw [← expected, List.getElem?_eq_getElem (List.idxOf_lt_length_of_mem listed),
      List.getElem_idxOf]
  have opened := opens.isSet
  unfold ReplaySequenceBarrier.checkAndAdvance
  rw [opens.same, current]
  simp only [ne_eq, not_true_eq_false, ↓reduceIte, and_true]
  refine ⟨rfl, inside, ?_⟩
  intro other
  cases next : sequence[barrier.currentIndex + 1]? with
  | none =>
      -- nothing is left to open
      have last := List.getElem?_eq_none_iff.mp next
      dsimp only
      rw [opened]
      by_cases known : other ∈ sequence
      · have short := List.idxOf_lt_length_of_mem known
        have left : sequence.idxOf other ≤ barrier.currentIndex := by omega
        simp [known, left, Nat.le_succ_of_le left]
      · simp [known]
  | some nextKey =>
      obtain ⟨within, rfl⟩ := List.getElem?_eq_some_iff.mp next
      dsimp only
      rw [Dict.get?_set, opened]
      by_cases same : other = sequence[barrier.currentIndex + 1]
      · subst same
        simp [once.idxOf_getElem]
      · by_cases known : other ∈ sequence
        · have elsewhere : sequence.idxOf other ≠ barrier.currentIndex + 1 := by
            intro at_
            apply same
            simp [← at_]
          have iff : sequence.idxOf other ≤ barrier.currentIndex ↔
              sequence.idxOf other ≤ barrier.currentIndex + 1 := by
            omega
          simp [same, known, iff]
        · simp [same, known]

end Barrier

/-! ### Runs -/

section Runs

variable {runs : List ReplayedRun} {replay next : Replay} {parentPath : String}
  {sequence : List String} {index : Nat} {run : ReplayedRun}

namespace Replay

/-- The two steps that a run takes. -/
inductive Steps (runs : List ReplayedRun) (replay : Replay) : ReplayLabel → Replay → Prop where
  | pass {index : Nat} {run : ReplayedRun} (known : runs[index]? = some run)
      (waits : replay.phases[index]? = some .waiting)
      (opened : replay.manager.waitSequence run.parentPath run.key = true) :
      Steps runs replay (.pass index) { replay with
        phases := replay.phases.set index .passed
        passes := replay.passes ++ [index] }
  | advance {index : Nat} {run : ReplayedRun} (known : runs[index]? = some run)
      (behind : replay.phases[index]? = some .passed) :
      Steps runs replay (.advance index) { replay with
        manager := replay.manager.advanceSequence run.parentPath run.key
        phases := replay.phases.set index .advanced }

theorem step_iff {label : ReplayLabel} :
    step runs replay label = some next ↔ Steps runs replay label next := by
  constructor
  · intro stepped
    cases label with
    | pass index =>
        simp only [step] at stepped
        split at stepped
        · rename_i run known waits
          split at stepped
          · rename_i opened
            cases stepped
            exact .pass known waits opened
          · cases stepped
        · cases stepped
    | advance index =>
        simp only [step] at stepped
        split at stepped
        · rename_i run known behind
          cases stepped
          exact .advance known behind
        · cases stepped
  · intro taken
    cases taken with
    | pass known waits opened => simp [step, known, waits, opened]
    | advance known behind => simp [step, known, behind]

/-- The run replays a recorded key of that parent. -/
def Recorded (runs : List ReplayedRun) (parentPath : String) (sequence : List String)
    (index : Nat) (key : String) : Prop :=
  ∃ run, runs[index]? = some run ∧ run.parentPath = parentPath ∧ run.key = key ∧ key ∈ sequence

/-- Some run of the key has advanced the barrier. -/
def Advanced (runs : List ReplayedRun) (parentPath : String) (replay : Replay) (key : String) :
    Prop :=
  ∃ (index : Nat) (run : ReplayedRun), runs[index]? = some run ∧ run.parentPath = parentPath ∧
    run.key = key ∧ replay.phases[index]? = some .advanced

def recordedKey (runs : List ReplayedRun) (parentPath : String) (sequence : List String)
    (index : Nat) : Option String :=
  match runs[index]? with
  | none => none
  | some run => if run.parentPath = parentPath ∧ run.key ∈ sequence then some run.key else none

theorem recorded_key_iff {key : String} :
    recordedKey runs parentPath sequence index = some key ↔
      Recorded runs parentPath sequence index key := by
  unfold recordedKey Recorded
  cases runs[index]? with
  | none => simp
  | some run =>
      simp only [Option.some.injEq, exists_eq_left', Option.ite_none_right_eq_some]
      constructor
      · rintro ⟨⟨here, listed⟩, rfl⟩
        exact ⟨here, rfl, listed⟩
      · rintro ⟨here, rfl, listed⟩
        exact ⟨⟨here, listed⟩, rfl⟩

/-- The recorded keys in the order in which their runs passed. -/
def passedKeys (runs : List ReplayedRun) (parentPath : String) (sequence : List String)
    (replay : Replay) : List String :=
  replay.passes.filterMap (recordedKey runs parentPath sequence)

end Replay

open Replay

/-- What relates the index of the barrier to where the runs are. -/
structure InOrder (runs : List ReplayedRun) (parentPath : String) (sequence : List String)
    (replay : Replay) : Prop where
  aligned : replay.phases.length = runs.length
  once : replay.passes.Nodup
  logged : ∀ index phase, replay.phases[index]? = some phase →
    (index ∈ replay.passes ↔ phase ≠ .waiting)
  barrier : ∃ barrier, replay.manager.parentSequenceBarriers.get? parentPath = some barrier ∧
    Opens sequence barrier ∧
    (∀ index key, Recorded runs parentPath sequence index key →
      (replay.phases[index]? = some .passed → sequence.idxOf key ≤ barrier.currentIndex) ∧
      (replay.phases[index]? = some .advanced → sequence.idxOf key < barrier.currentIndex)) ∧
    (∀ key ∈ sequence, sequence.idxOf key < barrier.currentIndex →
      Advanced runs parentPath replay key) ∧
    ∃ count, barrier.currentIndex ≤ count ∧ count ≤ barrier.currentIndex + 1 ∧
      (passedKeys runs parentPath sequence replay).eraseDups = sequence.take count

theorem start_in_order (manager : ReplayManager)
    (installed : manager.parentSequenceBarriers.get? parentPath = some (.init sequence)) :
    InOrder runs parentPath sequence (Replay.start manager runs) := by
  constructor
  case aligned => simp [Replay.start]
  case once => simp [Replay.start]
  case logged =>
    intro index phase known
    simp only [Replay.start, List.getElem?_map, Option.map_eq_some_iff] at known
    obtain ⟨_, _, rfl⟩ := known
    simp [Replay.start]
  case barrier =>
    refine ⟨_, installed, init_opens sequence, ?_, ?_, 0, Nat.le_refl _, Nat.zero_le _, ?_⟩
    · intro index key _
      simp only [Replay.start, List.getElem?_map, Option.map_eq_some_iff]
      constructor <;> rintro ⟨_, _, impossible⟩ <;> cases impossible
    · intro key _ below
      exact absurd below (Nat.not_lt_zero _)
    · simp [passedKeys, Replay.start]

theorem mem_take_iff {key : String} {count : Nat} (once : sequence.Nodup) :
    key ∈ sequence.take count ↔ key ∈ sequence ∧ sequence.idxOf key < count := by
  constructor
  · intro taken
    obtain ⟨place, inside, rfl⟩ := List.mem_iff_getElem.mp taken
    rw [List.length_take] at inside
    rw [List.getElem_take, once.idxOf_getElem]
    exact ⟨List.getElem_mem _, by omega⟩
  · rintro ⟨listed, early⟩
    have inside := List.idxOf_lt_length_of_mem listed
    refine List.mem_iff_getElem.mpr ⟨sequence.idxOf key, by rw [List.length_take]; omega, ?_⟩
    rw [List.getElem_take, List.getElem_idxOf]

theorem passed_keys_snoc (manager : ReplayManager) (phases : List ReplayPhase)
    (passes : List Nat) (index : Nat) :
    passedKeys runs parentPath sequence ⟨manager, phases, passes ++ [index]⟩ =
      passedKeys runs parentPath sequence ⟨manager, phases, passes⟩ ++
        (recordedKey runs parentPath sequence index).toList := by
  unfold passedKeys
  rw [List.filterMap_append]
  cases found : recordedKey runs parentPath sequence index with
  | none => simp [found]
  | some key => simp [found]

theorem InOrder.pass (inOrder : InOrder runs parentPath sequence replay) (once : sequence.Nodup)
    (known : runs[index]? = some run) (waits : replay.phases[index]? = some .waiting)
    (opened : replay.manager.waitSequence run.parentPath run.key = true) :
    InOrder runs parentPath sequence { replay with
      phases := replay.phases.set index .passed
      passes := replay.passes ++ [index] } := by
  obtain ⟨aligned, passesOnce, logged, barrier, installed, opens, behind, done, count, least, most,
    order⟩ := inOrder
  have inside : index < replay.phases.length := (List.getElem?_eq_some_iff.mp waits).1
  have fresh : index ∉ replay.passes := by simp [logged index _ waits]
  have reached : ∀ key, Recorded runs parentPath sequence index key →
      sequence.idxOf key ≤ barrier.currentIndex := by
    rintro key ⟨other, found, here, rfl, listed⟩
    obtain rfl : run = other := Option.some.inj (known.symm.trans found)
    rw [ReplayManager.waitSequence, here, installed] at opened
    exact ((passes_iff opens).mp opened).resolve_left (by simp [listed])
  constructor
  case aligned => simpa using aligned
  case once => exact passesOnce.append (List.nodup_singleton _) (by simpa using fresh)
  case logged =>
    intro other phase found
    by_cases same : other = index
    · subst same
      simp only [List.getElem?_set_self inside, Option.some.injEq] at found
      subst found
      simp
    · rw [List.getElem?_set_ne (Ne.symm same)] at found
      simp [logged other phase found, same]
  case barrier =>
    refine ⟨barrier, installed, opens, ?_, ?_, ?_⟩
    · intro other key recorded
      dsimp only
      by_cases same : other = index
      · subst same
        simp [List.getElem?_set_self inside, reached key recorded]
      · rw [List.getElem?_set_ne (Ne.symm same)]
        exact behind other key recorded
    · intro key listed below
      obtain ⟨other, found, isRun, here, named, ended⟩ := done key listed below
      refine ⟨other, found, isRun, here, named, ?_⟩
      dsimp only
      rw [List.getElem?_set_ne, ended]
      rintro rfl
      simp [waits] at ended
    · rw [passed_keys_snoc]
      change ∃ _, _ ∧ _ ∧ ((passedKeys runs parentPath sequence replay) ++ _).eraseDups = _
      cases recorded : recordedKey runs parentPath sequence index with
      | none => exact ⟨count, least, most, by simpa using order⟩
      | some key =>
          have early := reached key (recorded_key_iff.mp recorded)
          obtain ⟨_, _, _, _, listed⟩ := recorded_key_iff.mp recorded
          have seenIff : key ∈ passedKeys runs parentPath sequence replay ↔
              sequence.idxOf key < count := by
            rw [← List.mem_eraseDups, order, mem_take_iff once]
            exact and_iff_right listed
          rw [Option.toList_some, Firsts.firsts_snoc]
          by_cases seen : sequence.idxOf key < count
          · rw [if_pos (seenIff.mpr seen)]
            exact ⟨count, least, most, order⟩
          · -- the first run of the key that the barrier has just opened
            have place : sequence.idxOf key = count := by omega
            have within := List.idxOf_lt_length_of_mem listed
            rw [if_neg (mt seenIff.mp seen)]
            refine ⟨count + 1, by omega, by omega, ?_⟩
            rw [order, List.take_add_one, ← place, List.getElem?_eq_getElem within,
              List.getElem_idxOf]
            rfl

theorem advance_elsewhere {manager : ReplayManager} (other : run.parentPath ≠ parentPath) :
    (manager.advanceSequence run.parentPath run.key).parentSequenceBarriers.get? parentPath =
      manager.parentSequenceBarriers.get? parentPath := by
  unfold ReplayManager.advanceSequence
  split
  · rfl
  · rw [Dict.get?_set, if_neg (Ne.symm other)]

theorem advance_here {manager : ReplayManager} {barrier : ReplaySequenceBarrier}
    (here : run.parentPath = parentPath)
    (installed : manager.parentSequenceBarriers.get? parentPath = some barrier) :
    (manager.advanceSequence run.parentPath run.key).parentSequenceBarriers.get? parentPath =
      some (barrier.checkAndAdvance run.key) := by
  simp [ReplayManager.advanceSequence, here, installed, Dict.get?_set]

/-- A run of a key that is not recorded leaves the barrier of the parent alone. -/
theorem advance_unlisted {manager : ReplayManager} {barrier : ReplaySequenceBarrier}
    (installed : manager.parentSequenceBarriers.get? parentPath = some barrier)
    (opens : Opens sequence barrier) (once : sequence.Nodup)
    (unlisted : run.parentPath = parentPath → run.key ∉ sequence) :
    (manager.advanceSequence run.parentPath run.key).parentSequenceBarriers.get? parentPath =
      manager.parentSequenceBarriers.get? parentPath := by
  by_cases here : run.parentPath = parentPath
  · rw [advance_here here installed, advance_other opens (Or.inl (unlisted here)) once, installed]
  · exact advance_elsewhere here

/-- What the advance of one run does to the barrier of a parent. -/
theorem advance_fate {barrier : ReplaySequenceBarrier} (known : runs[index]? = some run)
    (installed : replay.manager.parentSequenceBarriers.get? parentPath = some barrier)
    (opens : Opens sequence barrier) (once : sequence.Nodup) :
    ∃ moved : ReplaySequenceBarrier,
      (replay.manager.advanceSequence run.parentPath run.key).parentSequenceBarriers.get?
        parentPath = some moved ∧ Opens sequence moved ∧
      ((moved.currentIndex = barrier.currentIndex ∧
          ∀ key, Recorded runs parentPath sequence index key →
            sequence.idxOf key ≠ barrier.currentIndex) ∨
        (moved.currentIndex = barrier.currentIndex + 1 ∧ run.parentPath = parentPath ∧
          run.key ∈ sequence ∧ sequence.idxOf run.key = barrier.currentIndex)) := by
  have ofRun : ∀ key, Recorded runs parentPath sequence index key →
      run.parentPath = parentPath ∧ run.key = key ∧ key ∈ sequence := by
    rintro key ⟨other, found, here, named, listed⟩
    obtain rfl : run = other := Option.some.inj (known.symm.trans found)
    exact ⟨here, named, listed⟩
  by_cases here : run.parentPath = parentPath
  · have set := advance_here here installed
    by_cases expected : run.key ∈ sequence ∧ sequence.idxOf run.key = barrier.currentIndex
    · obtain ⟨opensNow, moves⟩ := advance_expected opens expected.1 expected.2 once
      exact ⟨_, set, opensNow, Or.inr ⟨moves, here, expected⟩⟩
    · have other : run.key ∉ sequence ∨ sequence.idxOf run.key ≠ barrier.currentIndex := by
        by_contra both
        apply expected
        push Not at both
        exact both
      rw [advance_other opens other once] at set
      refine ⟨_, set, opens, Or.inl ⟨rfl, ?_⟩⟩
      intro key recorded
      obtain ⟨_, named, listed⟩ := ofRun key recorded
      subst named
      exact other.resolve_left (by simpa using listed)
  · refine ⟨barrier, (advance_elsewhere here).trans installed, opens, Or.inl ⟨rfl, ?_⟩⟩
    intro key recorded
    exact absurd (ofRun key recorded).1 here

theorem InOrder.advance (inOrder : InOrder runs parentPath sequence replay) (once : sequence.Nodup)
    (known : runs[index]? = some run) (passed : replay.phases[index]? = some .passed) :
    InOrder runs parentPath sequence { replay with
      manager := replay.manager.advanceSequence run.parentPath run.key
      phases := replay.phases.set index .advanced } := by
  obtain ⟨aligned, passesOnce, logged, barrier, installed, opens, behind, done, count, least, most,
    order⟩ := inOrder
  have inside : index < replay.phases.length := (List.getElem?_eq_some_iff.mp passed).1
  have inLog : index ∈ replay.passes := (logged index _ passed).mpr (by simp)
  have phaseOf : ∀ other phase, other ≠ index →
      ((replay.phases.set index .advanced)[other]? = some phase ↔
        replay.phases[other]? = some phase) := by
    intro other phase different
    rw [List.getElem?_set_ne (Ne.symm different)]
  have kept : ∀ key, Advanced runs parentPath replay key →
      Advanced runs parentPath { replay with
        manager := replay.manager.advanceSequence run.parentPath run.key
        phases := replay.phases.set index .advanced } key := by
    rintro key ⟨other, found, isRun, here, named, ended⟩
    refine ⟨other, found, isRun, here, named, ?_⟩
    exact (phaseOf other _ (by rintro rfl; simp [passed] at ended)).mpr ended
  constructor
  case aligned => simpa using aligned
  case once => exact passesOnce
  case logged =>
    intro other phase found
    by_cases same : other = index
    · subst same
      simp only [List.getElem?_set_self inside, Option.some.injEq] at found
      subst found
      simpa using inLog
    · exact logged other phase ((phaseOf other phase same).mp found)
  case barrier =>
    -- the barrier moves only if the run has the key that it expects
    obtain ⟨moved, now, opensNow, fate⟩ := advance_fate known installed opens once
    have runReached : ∀ key, Recorded runs parentPath sequence index key →
        sequence.idxOf key ≤ barrier.currentIndex := fun key recorded =>
      (behind index key recorded).1 passed
    have least' : barrier.currentIndex ≤ moved.currentIndex := by
      rcases fate with ⟨stays, _⟩ | ⟨moves, _⟩ <;> omega
    refine ⟨moved, now, opensNow, ?_, ?_, count, ?_, by omega, order⟩
    · intro other key recorded
      by_cases same : other = index
      · subst same
        have reached := runReached key recorded
        simp only [List.getElem?_set_self inside]
        rcases fate with ⟨stays, elsewhere⟩ | ⟨moves, _⟩
        · have different := elsewhere key recorded
          constructor
          · simp
          · omega
        · constructor
          · simp
          · omega
      · obtain ⟨early, late⟩ := behind other key recorded
        constructor
        · intro found
          exact Nat.le_trans (early ((phaseOf other _ same).mp found)) least'
        · intro found
          exact Nat.lt_of_lt_of_le (late ((phaseOf other _ same).mp found)) least'
    · intro key listed below
      rcases fate with ⟨stays, _⟩ | ⟨moves, here, named, expected⟩
      · exact kept key (done key listed (by omega))
      · by_cases earlier : sequence.idxOf key < barrier.currentIndex
        · exact kept key (done key listed earlier)
        · -- the key that the run itself has just advanced
          have same : sequence.idxOf key = sequence.idxOf run.key := by omega
          have equal : run.key = key := ((List.idxOf_inj listed).mp same).symm
          exact ⟨index, run, known, here, equal, List.getElem?_set_self inside⟩
    · rcases fate with ⟨stays, _⟩ | ⟨moves, here, named, expected⟩
      · omega
      · have recorded : Recorded runs parentPath sequence index run.key :=
          ⟨run, known, here, rfl, named⟩
        have inOrder : run.key ∈ passedKeys runs parentPath sequence replay :=
          List.mem_filterMap.mpr ⟨index, inLog, recorded_key_iff.mpr recorded⟩
        rw [← List.mem_eraseDups, order, mem_take_iff once] at inOrder
        omega

theorem step_in_order {label : ReplayLabel} (once : sequence.Nodup)
    (inOrder : InOrder runs parentPath sequence replay)
    (stepped : Replay.step runs replay label = some next) :
    InOrder runs parentPath sequence next := by
  cases step_iff.mp stepped with
  | pass known waits opened => exact inOrder.pass once known waits opened
  | advance known passed => exact inOrder.advance once known passed

/-- A waiting run of the parent is let through if its key is not recorded or
the position has reached it. -/
theorem pass_enabled (installed : ∃ barrier,
      replay.manager.parentSequenceBarriers.get? parentPath = some barrier ∧
        Opens sequence barrier ∧
        (run.key ∉ sequence ∨ sequence.idxOf run.key ≤ barrier.currentIndex))
    (known : runs[index]? = some run) (here : run.parentPath = parentPath)
    (waits : replay.phases[index]? = some .waiting) :
    Replay.step runs replay (.pass index) ≠ none := by
  obtain ⟨barrier, found, opens, reached⟩ := installed
  have opened : replay.manager.waitSequence run.parentPath run.key = true := by
    rw [ReplayManager.waitSequence, here, found]
    exact (passes_iff opens).mpr reached
  rw [step_iff.mpr (.pass known waits opened)]
  exact Option.some_ne_none _

/-! ### Replay follows the record -/

/-- No run of the parent can take a step. -/
def Stuck (runs : List ReplayedRun) (parentPath : String) (replay : Replay) : Prop :=
  ∀ index run, runs[index]? = some run → run.parentPath = parentPath →
    Replay.step runs replay (.pass index) = none ∧ Replay.step runs replay (.advance index) = none

/-- What holds of the recorded keys of a parent while they are replayed. A key
that several runs share counts where the first of them passes. -/
structure FollowsRecord (runs : List ReplayedRun) (parentPath : String) (sequence : List String)
    (replay : Replay) : Prop where
  order : (passedKeys runs parentPath sequence replay).eraseDups <+: sequence
  orderOnce : (∀ left right key, Recorded runs parentPath sequence left key →
      Recorded runs parentPath sequence right key → left = right) →
    passedKeys runs parentPath sequence replay <+: sequence
  afterEarlier : ∀ index key next, Recorded runs parentPath sequence index key →
    Replay.step runs replay (.pass index) = some next →
    ∀ earlier ∈ sequence, sequence.idxOf earlier < sequence.idxOf key →
      Advanced runs parentPath replay earlier
  othersPass : ∀ (index : Nat) (run : ReplayedRun), runs[index]? = some run →
    run.parentPath = parentPath → run.key ∉ sequence →
    replay.phases[index]? = some .waiting → Replay.step runs replay (.pass index) ≠ none
  othersKeep : ∀ (label : ReplayLabel) (run : ReplayedRun) next, runs[label.index]? = some run →
    (run.parentPath = parentPath → run.key ∉ sequence) → Replay.step runs replay label = some next →
    next.manager.parentSequenceBarriers.get? parentPath =
      replay.manager.parentSequenceBarriers.get? parentPath
  through : (∀ key ∈ sequence, ∃ index, Recorded runs parentPath sequence index key) →
    Stuck runs parentPath replay →
    ∀ (index : Nat) (run : ReplayedRun), runs[index]? = some run → run.parentPath = parentPath →
      replay.phases[index]? = some .advanced

theorem InOrder.through (inOrder : InOrder runs parentPath sequence replay)
    (once : sequence.Nodup)
    (all : ∀ key ∈ sequence, ∃ index, Recorded runs parentPath sequence index key)
    (stuck : Stuck runs parentPath replay) (known : runs[index]? = some run)
    (here : run.parentPath = parentPath) : replay.phases[index]? = some .advanced := by
  obtain ⟨barrier, installed, opens, behind, _, _⟩ := inOrder.barrier
  have phaseOf : ∀ (index : Nat) (run : ReplayedRun), runs[index]? = some run →
      run.parentPath = parentPath →
      (run.key ∉ sequence ∨ sequence.idxOf run.key ≤ barrier.currentIndex) →
      replay.phases[index]? = some .advanced := by
    intro index run known here reached
    obtain ⟨noPass, noAdvance⟩ := stuck index run known here
    have inside : index < replay.phases.length := by
      rw [inOrder.aligned]
      exact (List.getElem?_eq_some_iff.mp known).1
    cases found : replay.phases[index]? with
    | none => exact absurd (List.getElem?_eq_none_iff.mp found) (by omega)
    | some phase =>
        cases phase with
        | waiting =>
            exact absurd noPass (pass_enabled ⟨barrier, installed, opens, reached⟩ known here found)
        | passed =>
            rw [step_iff.mpr (.advance known found)] at noAdvance
            cases noAdvance
        | advanced => rfl
  -- otherwise the run of the key at the position could still take a step
  have ended : barrier.currentIndex = sequence.length := by
    by_contra short
    have inside : barrier.currentIndex < sequence.length :=
      Nat.lt_of_le_of_ne opens.bounded short
    obtain ⟨at_, recorded⟩ := all _ (List.getElem_mem inside)
    have beyond := (behind at_ _ recorded).2
    obtain ⟨first, found, atParent, named, _⟩ := recorded
    have place : sequence.idxOf sequence[barrier.currentIndex] = barrier.currentIndex :=
      once.idxOf_getElem _ inside
    have advanced := phaseOf at_ first found atParent (Or.inr (by rw [named]; omega))
    have := beyond advanced
    omega
  apply phaseOf index run known here
  by_cases listed : run.key ∈ sequence
  · right
    have := List.idxOf_lt_length_of_mem listed
    omega
  · exact Or.inl listed

theorem InOrder.follows (inOrder : InOrder runs parentPath sequence replay)
    (once : sequence.Nodup) : FollowsRecord runs parentPath sequence replay := by
  obtain ⟨barrier, installed, opens, behind, done, count, least, most, order⟩ := inOrder.barrier
  constructor
  case order =>
    rw [order]
    exact List.take_prefix count sequence
  case orderOnce =>
    intro distinct
    have nodup : (passedKeys runs parentPath sequence replay).Nodup := by
      apply List.Nodup.filterMap _ inOrder.once
      intro left right key isLeft isRight
      exact distinct left right key (recorded_key_iff.mp isLeft) (recorded_key_iff.mp isRight)
    rw [← Firsts.firsts_of_nodup nodup, order]
    exact List.take_prefix count sequence
  case afterEarlier =>
    intro index key next recorded stepped earlier listed before
    obtain ⟨run, known, here, rfl, inside⟩ := recorded
    cases step_iff.mp stepped with
    | pass found _ opened =>
        obtain rfl := Option.some.inj (known.symm.trans found)
        rw [ReplayManager.waitSequence, here, installed] at opened
        have reached := ((passes_iff opens).mp opened).resolve_left (by simp [inside])
        exact done earlier listed (by omega)
  case othersPass =>
    intro index run known here unlisted waits
    exact pass_enabled ⟨barrier, installed, opens, Or.inl unlisted⟩ known here waits
  case othersKeep =>
    intro label run next known unlisted stepped
    cases step_iff.mp stepped with
    | pass _ _ _ => rfl
    | advance found passed =>
        obtain rfl := Option.some.inj (known.symm.trans found)
        exact advance_unlisted installed opens once unlisted
  case through =>
    intro all stuck index run known here
    exact inOrder.through once all stuck known here

/-- The steps taken: one of each run that has left the barrier behind, and one
more of each that has advanced it. -/
def stepsTaken (replay : Replay) : Nat :=
  replay.phases.countP (· ≠ .waiting) + replay.phases.count .advanced

theorem step_counted (replay : Replay) (label : ReplayLabel) (next : Replay)
    (stepped : Replay.step runs replay label = some next) :
    stepsTaken next = stepsTaken replay + 1 := by
  unfold stepsTaken
  cases step_iff.mp stepped with
  | pass known waits opened =>
      obtain ⟨inside, isWaiting⟩ := List.getElem?_eq_some_iff.mp waits
      simp [List.countP_set inside, List.count_set inside, isWaiting]
      omega
  | advance known behind =>
      obtain ⟨inside, isPassed⟩ := List.getElem?_eq_some_iff.mp behind
      have counted : 0 < replay.phases.countP (· ≠ .waiting) :=
        List.countP_pos_iff.mpr ⟨_, List.getElem_mem inside, by simp [isPassed]⟩
      simp only [ne_eq, decide_not] at counted
      simp [List.countP_set inside, List.count_set inside, isPassed]
      omega

/-- Each run takes at most two steps. -/
theorem steps_bounded {labels : List ReplayLabel} {manager : ReplayManager}
    (inOrder : InOrder runs parentPath sequence replay)
    (ran : Runs.run (Replay.step runs) (Replay.start manager runs) labels = some replay) :
    labels.length ≤ 2 * runs.length := by
  have counted := Runs.run_counted stepsTaken step_counted labels _ _ ran
  have begun : stepsTaken (Replay.start manager runs) = 0 := by
    simp [stepsTaken, Replay.start, List.count_eq_zero]
  have passed : replay.phases.countP (· ≠ .waiting) ≤ runs.length := by
    rw [← inOrder.aligned]
    exact List.countP_le_length
  have advanced : replay.phases.count .advanced ≤ runs.length := by
    rw [← inOrder.aligned]
    exact List.count_le_length
  rw [begun] at counted
  unfold stepsTaken at counted
  omega

/-- For every sequence of distinct keys and every interleaving of replayed runs,
the recorded keys are replayed in their order and nothing gets stuck. -/
theorem replay_follows_record (manager : ReplayManager) (runs : List ReplayedRun)
    (parentPath : String) (sequence : List String) (once : sequence.Nodup)
    (installed : manager.parentSequenceBarriers.get? parentPath = some (.init sequence))
    (labels : List ReplayLabel) (replay : Replay)
    (ran : Runs.run (Replay.step runs) (Replay.start manager runs) labels = some replay) :
    FollowsRecord runs parentPath sequence replay ∧ labels.length ≤ 2 * runs.length := by
  have inOrder : InOrder runs parentPath sequence replay :=
    Runs.run_invariant_of_step (InOrder runs parentPath sequence)
      (fun _ _ _ inOrder stepped => step_in_order once inOrder stepped) labels _ replay
      (start_in_order manager installed) ran
  exact ⟨inOrder.follows once, steps_bounded inOrder ran⟩

/-- Two runs of a parent with two recorded keys, the later one started first. -/
theorem two_runs_follow :
    ∃ replay, Runs.run (Replay.step [⟨"wf@1", "b", "1"⟩, ⟨"wf@1", "a", "1"⟩])
        (.start ⟨Dict.set .empty "wf@1" (.init ["a@1", "b@1"])⟩
          [⟨"wf@1", "b", "1"⟩, ⟨"wf@1", "a", "1"⟩])
        [.pass 1, .advance 1, .pass 0] = some replay ∧
      FollowsRecord [⟨"wf@1", "b", "1"⟩, ⟨"wf@1", "a", "1"⟩] "wf@1" ["a@1", "b@1"] replay ∧
      3 ≤ 2 * 2 := by
  refine ⟨_, rfl, ?_⟩
  exact replay_follows_record ⟨Dict.set .empty "wf@1" (.init ["a@1", "b@1"])⟩
    [⟨"wf@1", "b", "1"⟩, ⟨"wf@1", "a", "1"⟩] "wf@1" ["a@1", "b@1"] (by decide) rfl
    [.pass 1, .advance 1, .pass 0] _ rfl

end Runs

end Choirworks.Workflow
