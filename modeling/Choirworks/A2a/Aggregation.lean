import Mathlib.Data.List.Induction
import Choirworks.A2a.Remote

/-!
The artifact updates of a stream, with all their fields. Each update is passed
on; the parts of an artifact are collected under its id, and an appended last
chunk is followed by the artifact as a whole. What has been collected is read
off the updates themselves, newest first: everything back to the last replace,
or to the last chunk that closed the artifact.
-/

namespace Choirworks.A2a

universe u v

structure Artifact (Part : Type u) (Metadata : Type v) where
  artifactId : String
  name : String
  description : String
  parts : List Part
  metadata : Metadata
  extensions : List String
deriving DecidableEq

/-- `TaskArtifactUpdateEvent`. -/
structure ArtifactUpdate (Part : Type u) (Metadata : Type v) where
  taskId : String
  contextId : String
  artifact : Artifact Part Metadata
  append : Bool
  lastChunk : Bool
  metadata : Metadata
deriving DecidableEq

variable {Part : Type u} {Metadata : Type v}

namespace ArtifactUpdate

def artifactId (event : ArtifactUpdate Part Metadata) : String := event.artifact.artifactId

/-- `is_final_artifact`. -/
def isFinalArtifact (event : ArtifactUpdate Part Metadata) : Bool :=
  !event.append && event.lastChunk

/-- The update with other parts, as a final artifact. -/
def final (event : ArtifactUpdate Part Metadata) (parts : List Part) :
    ArtifactUpdate Part Metadata :=
  { event with artifact := { event.artifact with parts }, append := false, lastChunk := true }

/-- `_aggregate_artifact_update`. -/
def aggregate (buffers : Dict String (List Part)) (event : ArtifactUpdate Part Metadata) :
    Dict String (List Part) × List (ArtifactUpdate Part Metadata) :=
  let buffer :=
    if event.append then buffers.getD event.artifactId [] ++ event.artifact.parts
    else event.artifact.parts
  if event.lastChunk then
    (buffers.erase event.artifactId, event :: if event.append then [event.final buffer] else [])
  else (buffers.set event.artifactId buffer, [event])

/-- The updates of a stream one after the other. -/
def aggregateAll : Dict String (List Part) → List (ArtifactUpdate Part Metadata) →
    Dict String (List Part) × List (ArtifactUpdate Part Metadata)
  | buffers, [] => (buffers, [])
  | buffers, event :: rest =>
      let (behind, events) := event.aggregate buffers
      let (last, others) := aggregateAll behind rest
      (last, events ++ others)

/-- What has been collected for an artifact that is not closed. The updates are
listed newest first. -/
def gathered (artifactId : String) : List (ArtifactUpdate Part Metadata) → Option (List Part)
  | [] => none
  | event :: earlier =>
      if event.artifactId ≠ artifactId then gathered artifactId earlier
      else if event.lastChunk then none
      else if event.append then some ((gathered artifactId earlier).getD [] ++ event.artifact.parts)
      else some event.artifact.parts

/-- The parts of the artifact up to this update: those collected before it, unless
it replaces them, and its own. -/
def collected (before : List (ArtifactUpdate Part Metadata)) (event : ArtifactUpdate Part Metadata) :
    List Part :=
  if event.append then (gathered event.artifactId before.reverse).getD [] ++ event.artifact.parts
  else event.artifact.parts

/-- The update among the events of the caller. -/
def event (update : ArtifactUpdate Workflow.Part Metadata) : Event where
  taskId := update.taskId
  contextId := update.contextId
  body := .artifact update.artifactId update.artifact.parts update.append update.lastChunk

/-- The responses of an agent are aggregated in the same way. -/
theorem aggregate_event (buffers : Dict String (List Workflow.Part))
    (update : ArtifactUpdate Workflow.Part Metadata) :
    aggregateArtifactUpdate buffers update.taskId update.contextId update.artifactId
        update.artifact.parts update.append update.lastChunk =
      ((update.aggregate buffers).1, (update.aggregate buffers).2.map event) := by
  cases append : update.append <;> cases last : update.lastChunk <;>
    simp [aggregateArtifactUpdate, aggregate, event, final, artifactId, append, last]

/-! ### The buffers -/

section Buffers

variable {buffers : Dict String (List Part)} {update : ArtifactUpdate Part Metadata}
  {before after : List (ArtifactUpdate Part Metadata)} {wanted : String}

/-- One update changes the buffer of its own artifact only. -/
theorem aggregate_buffer : (update.aggregate buffers).1.get? wanted =
    if wanted ≠ update.artifactId then buffers.get? wanted
    else if update.lastChunk then none
    else if update.append then
      some ((buffers.get? wanted).getD [] ++ update.artifact.parts)
    else some update.artifact.parts := by
  unfold aggregate
  by_cases same : wanted = update.artifactId
  · subst same
    cases update.lastChunk <;> cases update.append <;> simp [Dict.getD]
  · cases update.lastChunk <;> simp [same]

theorem aggregate_all_append :
    aggregateAll buffers (before ++ after) =
      ((aggregateAll (aggregateAll buffers before).1 after).1,
        (aggregateAll buffers before).2 ++ (aggregateAll (aggregateAll buffers before).1 after).2) := by
  induction before generalizing buffers with
  | nil => rfl
  | cons first rest ih => simp only [List.cons_append, aggregateAll, ih, List.append_assoc]

/-- The buffers hold what the updates so far say. -/
theorem buffer_gathered (updates : List (ArtifactUpdate Part Metadata)) (wanted : String) :
    (aggregateAll .empty updates).1.get? wanted = gathered wanted updates.reverse := by
  induction updates using List.reverseRecOn with
  | nil => rfl
  | append_singleton before last ih =>
      rw [aggregate_all_append, List.reverse_append, List.reverse_singleton, List.singleton_append,
        gathered, ← ih]
      refine aggregate_buffer.trans ?_
      by_cases same : wanted = last.artifactId
      · subst same
        rfl
      · rw [if_pos same, if_pos (Ne.symm same)]

/-- The events an update becomes: itself, and the whole artifact behind an appended
last chunk. -/
theorem aggregate_events (known : buffers.getD update.artifactId [] =
      (gathered update.artifactId before.reverse).getD []) :
    (update.aggregate buffers).2 =
      update :: if update.lastChunk && update.append then [update.final (collected before update)]
        else [] := by
  unfold aggregate collected
  cases update.lastChunk with
  | false => rfl
  | true =>
      cases update.append with
      | false => rfl
      | true => simp [known]

end Buffers

/-- Whatever the updates of a stream, each is passed on; with a last chunk goes exactly
one final artifact, made of the parts collected since the last replace or last
chunk of that artifact, and its buffer is gone; no other artifact's buffer is
touched. -/
theorem artifacts_aggregated (before after : List (ArtifactUpdate Part Metadata))
    (update : ArtifactUpdate Part Metadata) :
    ∃ closing : List (ArtifactUpdate Part Metadata),
      (aggregateAll .empty (before ++ update :: after)).2 =
          (aggregateAll .empty before).2 ++ update :: closing ++
            (aggregateAll (aggregateAll .empty (before ++ [update])).1 after).2 ∧
      (update :: closing).filter isFinalArtifact =
          (if update.lastChunk then [update.final (collected before update)] else []) ∧
      (update.lastChunk = true →
        (aggregateAll .empty (before ++ [update])).1.get? update.artifactId = none) ∧
      ∀ artifactId, (artifactId ≠ update.artifactId →
          (aggregateAll .empty (before ++ [update])).1.get? artifactId =
            (aggregateAll .empty before).1.get? artifactId) ∧
        (aggregateAll .empty (before ++ [update])).1.get? artifactId =
          gathered artifactId (before ++ [update]).reverse := by
  have known : (aggregateAll .empty before).1.getD update.artifactId [] =
      (gathered update.artifactId before.reverse).getD [] := by
    rw [Dict.getD, buffer_gathered]
  have behind : (aggregateAll .empty (before ++ [update])).1 =
      (update.aggregate (aggregateAll .empty before).1).1 := by
    rw [aggregate_all_append]
    rfl
  refine ⟨if update.lastChunk && update.append then [update.final (collected before update)]
    else [], ?_, ?_, ?_, fun artifactId => ⟨?_, buffer_gathered _ _⟩⟩
  · rw [behind, aggregate_all_append, ← aggregate_events known, List.append_assoc]
    rfl
  · cases last : update.lastChunk with
    | false => simp [isFinalArtifact, last]
    | true =>
        cases append : update.append with
        | true => simp [isFinalArtifact, final, last, append]
        | false =>
            -- A replacing last chunk is the final artifact itself.
            have itself : update.final (collected before update) = update := by
              obtain ⟨_, _, ⟨_, _, _, _, _, _⟩, _, _, _⟩ := update
              cases last
              cases append
              rfl
            rw [itself]
            simp [isFinalArtifact, last, append]
  · intro last
    rw [behind, aggregate_buffer]
    simp [last]
  · intro different
    rw [behind, aggregate_buffer, if_pos different]

end ArtifactUpdate

end Choirworks.A2a
