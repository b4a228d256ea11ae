import Choirworks.Library.Seams
import Choirworks.Orchestration.Runner

/-!
The remote call of a node: `consume_chunks` over one stream, `ensure_terminal`
around the later ones, and the remote task whose updates they carry. The stream
sets an appended piece directly behind what its artifact has; a snapshot joins
the parts of an artifact with line breaks. The node has the output of the final
snapshot exactly if it was read from that snapshot, or if no break stands
between two characters of it that show.
-/

namespace Choirworks.Orchestration.Streaming

/-! ### Messages of the remote agent -/

inductive TaskState where
  | unspecified | submitted | working | completed | failed | canceled | inputRequired | rejected
  | authRequired
  | unknown (number : Nat)
deriving DecidableEq

/-- `_REMOTE_STATE_MAP`. -/
def remoteStateMap : TaskState → Option NodeStatus
  | .submitted => some .submitted
  | .working => some .working
  | .inputRequired => some .inputRequired
  | .authRequired => some .inputRequired
  | .completed => some .completed
  | .failed => some .failed
  | .canceled => some .canceled
  | .rejected => some .failed
  | .unspecified => some .working
  | .unknown _ => none

/-- A part has a text, or carries something else. -/
structure Part where
  text : Option String
deriving DecidableEq

def joinText (parts : List Part) : String := Text.join "\n" (parts.filterMap (·.text))

structure Artifact where
  artifactId : String
  name : String
  parts : List Part
deriving DecidableEq

structure TaskStatus where
  state : TaskState
  message : Option (List Part) := none
deriving DecidableEq

structure RemoteTask where
  id : String
  status : TaskStatus
  artifacts : List Artifact := []
deriving DecidableEq

structure ArtifactUpdate where
  artifact : Artifact
  append : Bool
  lastChunk : Bool := false
deriving DecidableEq

inductive Chunk where
  | task (task : RemoteTask)
  | statusUpdate (status : TaskStatus)
  | artifactUpdate (update : ArtifactUpdate)
  | message (parts : List Part)
deriving DecidableEq

/-! ### Reading one stream -/

/-- A row of the local list `artifacts`. -/
structure Entry where
  id : String
  name : String
  text : String
deriving DecidableEq

/-- What is passed on to the client; an artifact without an id gets a drawn one. -/
inductive Emitted where
  | delta (nodeId : String) (status : NodeStatus) (a2aTaskId : Option String)
  | artifact (artifactId : Option String) (name text : String) (append lastChunk : Bool)
deriving DecidableEq

/-- `consume_chunks` between two chunks. -/
structure Consumption where
  node : NodeState
  entries : List Entry := []
  current : NodeStatus := .working
  emitted : List Emitted := []
  raised : Option String := none
deriving DecidableEq

/-- Merge into the first row with the id, or put a new row behind the others. -/
def upsert {β : Type} (key : β → String) (id : String) (merge : Option β → β) : List β → List β
  | [] => [merge none]
  | first :: rest =>
      if key first = id then merge (some first) :: rest else first :: upsert key id merge rest

def Entry.ofArtifact (artifact : Artifact) : Entry :=
  ⟨artifact.artifactId, artifact.name, joinText artifact.parts⟩

def Entry.merge (update : ArtifactUpdate) : Option Entry → Entry
  | some entry =>
      if update.append then { entry with text := entry.text ++ joinText update.artifact.parts }
      else .ofArtifact update.artifact
  | none => .ofArtifact update.artifact

namespace Consumption

def takeTask (state : Consumption) (task : RemoteTask) : Consumption :=
  let node := chunkFields (some task.id) state.node
  let current := (remoteStateMap task.status.state).getD state.current
  let entries := if task.artifacts = [] then state.entries else task.artifacts.map .ofArtifact
  let read := { state with node, current, entries }
  let delta := .delta node.id .submitted node.a2aTaskId
  if current = .submitted then
    match node.applyTransition .submitted with
    | .ok node => { read with node, emitted := read.emitted ++ [delta] }
    | .error error => { read with raised := some error }
  else { read with emitted := read.emitted ++ [delta] }

def takeStatus (state : Consumption) (status : TaskStatus) : Consumption :=
  match remoteStateMap status.state with
  | none => state
  | some mapped =>
      if mapped = state.current then state
      else match mapped, status.message with
        | .inputRequired, some parts =>
            let question := joinText parts
            { state with
              current := mapped
              node := { state.node with question := some question }
              emitted := state.emitted ++
                if question = "" then [] else [.artifact none state.node.name question false true] }
        | _, _ => { state with current := mapped }

def takeUpdate (state : Consumption) (update : ArtifactUpdate) : Consumption :=
  let name := if update.artifact.name = "" then state.node.name else update.artifact.name
  { state with
    entries := upsert (·.id) update.artifact.artifactId (Entry.merge update) state.entries
    emitted := state.emitted ++ [.artifact (some update.artifact.artifactId) name
      (joinText update.artifact.parts) update.append update.lastChunk] }

def takeMessage (state : Consumption) (parts : List Part) : Consumption :=
  { state with
    entries := state.entries ++ [⟨"message", "message", joinText parts⟩]
    emitted := state.emitted ++ [.artifact none state.node.name (joinText parts) false true] }

def take (state : Consumption) : Chunk → Consumption
  | .task task => state.takeTask task
  | .statusUpdate status => state.takeStatus status
  | .artifactUpdate update => state.takeUpdate update
  | .message parts => state.takeMessage parts

def takeAll (state : Consumption) : List Chunk → Consumption
  | [] => state
  | chunk :: rest =>
      let next := state.take chunk
      if next.raised.isSome then next else next.takeAll rest

end Consumption

/-- The texts that are not empty, with blanks between them. -/
def outputText (texts : List String) : String :=
  Text.stripString (Text.join " " (texts.filter (· ≠ "")))

def given? (text : String) : Option String := if text = "" then none else some text

theorem given_injective {first second : String} (same : given? first = given? second) :
    first = second := by
  unfold given? at same
  split at same <;> split at same <;> simp_all

/-- A stream delivers its chunks, and ends or breaks off with an error. -/
structure Stream where
  chunks : List Chunk
  error : Option String := none
deriving DecidableEq

def consumeChunks (node : NodeState) (stream : Stream) : Consumption :=
  let read := Consumption.takeAll { node } stream.chunks
  match read.raised, stream.error with
  | some _, _ => read
  | none, some error => { read with raised := some error }
  | none, none =>
      { read with node := { read.node with output := given? (outputText (read.entries.map (·.text))) } }

/-! ### Following a remote task -/

def settled : List NodeStatus := [.completed, .failed, .canceled, .inputRequired]

/-- The output that `ensure_terminal` reads from a snapshot. -/
def snapshotText (artifacts : List Artifact) : String :=
  outputText (artifacts.map fun artifact => joinText artifact.parts)

def takePolled (node : NodeState) (current : NodeStatus) (task : RemoteTask) :
    NodeState × NodeStatus :=
  let mapped := (remoteStateMap task.status.state).getD current
  let text := snapshotText task.artifacts
  let node :=
    if task.artifacts ≠ [] ∧ mapped = .completed ∧ text ≠ "" then { node with output := some text }
    else node
  let node :=
    match mapped, task.status.message with
    | .inputRequired, some parts => { node with question := some (joinText parts) }
    | _, _ => node
  (node, mapped)

/-- What the awaits of the remote call are answered with. -/
inductive Reply where
  | task (answer : Except String (Option RemoteTask))
  | stream (stream : Stream)
deriving DecidableEq

/-- Where the remote call is when `rest` of the replies is left. -/
inductive Followed where
  | returned (node : NodeState) (current : NodeStatus) (rest : List Reply)
  | raised (node : NodeState) (error : String)
  | waiting (node : NodeState)
deriving DecidableEq

/-- The loop of `ensure_terminal` is over. -/
def ended (node : NodeState) (current : NodeStatus) : Bool :=
  current ∈ settled ∨ !given node.a2aTaskId

def ensureTerminal (node : NodeState) (current : NodeStatus) : List Reply → Followed
  | .task answer :: .stream stream :: rest =>
      if ended node current then .returned node current (.task answer :: .stream stream :: rest)
      else match answer with
        | .error error => .raised node error
        | .ok answer =>
            let polled := answer.elim (node, current) (takePolled node current)
            if polled.2 ∈ settled then .returned polled.1 polled.2 (.stream stream :: rest)
            else
              let read := consumeChunks polled.1 stream
              ensureTerminal read.node (if read.raised.isSome then polled.2 else read.current) rest
  | .task answer :: rest =>
      if ended node current then .returned node current (.task answer :: rest)
      else match answer with
        | .error error => .raised node error
        | .ok answer =>
            let polled := answer.elim (node, current) (takePolled node current)
            if polled.2 ∈ settled then .returned polled.1 polled.2 rest else .waiting polled.1
  | replies => if ended node current then .returned node current replies else .waiting node

/-- `stream_remote` behind the sent text. -/
def streamRemote (node : NodeState) : List Reply → Followed
  | .stream stream :: rest =>
      let read := consumeChunks node stream
      match read.raised with
      | some error => .raised read.node error
      | none => ensureTerminal read.node read.current rest
  | _ => .waiting node

def recoverRemote (node : NodeState) (replies : List Reply) : Followed :=
  if !given node.a2aTaskId then .returned node .failed replies
  else match replies with
    | .stream stream :: rest =>
        let read := consumeChunks node stream
        ensureTerminal read.node (if read.raised.isSome then .working else read.current) rest
    | _ => .waiting node

/-- The remote call of `execute_node`. -/
def callRemote (mode : Mode) (node : NodeState) (replies : List Reply) : Followed :=
  match mode with
  | .recover => recoverRemote node replies
  | _ => streamRemote node replies

/-! ### The remote task -/

/-- Of the A2A SDK: an update that appends extends the parts of the artifact,
any other replaces it; an artifact that the task does not have has no parts. -/
def Artifact.merge (update : ArtifactUpdate) : Option Artifact → Artifact
  | some artifact =>
      if update.append then { artifact with parts := artifact.parts ++ update.artifact.parts }
      else update.artifact
  | none => update.artifact

def accumulate (artifacts : List Artifact) (update : ArtifactUpdate) : List Artifact :=
  upsert (·.artifactId) update.artifact.artifactId (Artifact.merge update) artifacts

/-- What a remote agent reports in a stream. -/
inductive Item where
  | artifact (update : ArtifactUpdate)
  | report (status : TaskStatus)
deriving DecidableEq

def Item.chunk : Item → Chunk
  | .artifact update => .artifactUpdate update
  | .report status => .statusUpdate status

def Item.update? : Item → Option ArtifactUpdate
  | .artifact update => some update
  | .report _ => none

/-- One stream of a remote task: the status of the snapshot it starts with, and
the items until it ends or breaks off. -/
structure Stretch where
  opening : TaskStatus
  items : List Item
  error : Option String := none
deriving DecidableEq

namespace Stretch

def updates (stretch : Stretch) : List ArtifactUpdate := stretch.items.filterMap Item.update?

/-- The artifacts of the task behind the stream. -/
def behind (stretch : Stretch) (artifacts : List Artifact) : List Artifact :=
  stretch.updates.foldl accumulate artifacts

def stream (stretch : Stretch) (taskId : String) (artifacts : List Artifact) : Stream :=
  ⟨.task ⟨taskId, stretch.opening, artifacts⟩ :: stretch.items.map Item.chunk, stretch.error⟩

end Stretch

/-- A sequence of updates, cut into streams: what the task had before the first
one, the streams, each later one behind a poll, and the poll at the end, if the
call ends with one. -/
structure RemoteRun where
  taskId : String
  earlier : List ArtifactUpdate
  first : Stretch
  later : List (Option TaskStatus × Stretch)
  last : Option TaskStatus
deriving DecidableEq

namespace RemoteRun

variable (run : RemoteRun)

def snapshot (status : TaskStatus) (artifacts : List Artifact) : RemoteTask :=
  ⟨run.taskId, status, artifacts⟩

def laterReplies (artifacts : List Artifact) :
    List (Option TaskStatus × Stretch) → List Reply
  | [] =>
      match run.last with
      | none => []
      | some status => [.task (.ok (some (run.snapshot status artifacts)))]
  | (polled, stretch) :: rest =>
      .task (.ok (polled.map (run.snapshot · artifacts))) ::
        .stream (stretch.stream run.taskId artifacts) ::
          laterReplies (stretch.behind artifacts) rest

def begun : List Artifact := run.earlier.foldl accumulate []

def replies : List Reply :=
  .stream (run.first.stream run.taskId run.begun) ::
    run.laterReplies (run.first.behind run.begun) run.later

/-- The last stream, and the artifacts in front of it. -/
def lastOf (artifacts : List Artifact) (stretch : Stretch) :
    List (Option TaskStatus × Stretch) → List Artifact × Stretch
  | [] => (artifacts, stretch)
  | (_, next) :: rest => lastOf (stretch.behind artifacts) next rest

def lastStretch : List Artifact × Stretch := lastOf run.begun run.first run.later

/-- The artifacts of the final snapshot. -/
def final : List Artifact := run.lastStretch.2.behind run.lastStretch.1

/-- The output computed from the final snapshot. -/
def finalOutput : Option String := given? (snapshotText run.final)

/-- The poll at the end finds the task completed. -/
def PolledCompleted : Prop := ∃ status, run.last = some status ∧ status.state = .completed

instance : Decidable run.PolledCompleted :=
  decidable_of_iff (run.last.any fun status => status.state = .completed) (by
    simp [PolledCompleted, Option.any_eq_true])

/-- The end of the sequence is received: the last stream ends, or a completed
task with an output is polled behind it. -/
def Received : Prop :=
  run.lastStretch.2.error = none ∨ (run.PolledCompleted ∧ run.finalOutput ≠ none)

instance : Decidable run.Received := inferInstanceAs (Decidable (_ ∨ _))

end RemoteRun

/-! ### Pieces -/

/-- An artifact as the pieces that its updates have brought. -/
structure Tile where
  id : String
  pieces : List String
deriving DecidableEq

/-- An update without a text brings no piece. -/
def pieceOf (parts : List Part) : List String :=
  if parts.filterMap (·.text) = [] then [] else [joinText parts]

def Tile.ofArtifact (artifact : Artifact) : Tile := ⟨artifact.artifactId, pieceOf artifact.parts⟩

def Tile.merge (update : ArtifactUpdate) : Option Tile → Tile
  | some tile =>
      if update.append then { tile with pieces := tile.pieces ++ pieceOf update.artifact.parts }
      else .ofArtifact update.artifact
  | none => .ofArtifact update.artifact

/-- The pieces of a task that had the artifacts and got the updates. -/
def layout (artifacts : List Artifact) (updates : List ArtifactUpdate) : List Tile :=
  updates.foldl (fun tiles update => upsert (·.id) update.artifact.artifactId (Tile.merge update) tiles)
    (artifacts.map .ofArtifact)

/-- A break between two pieces of an artifact stands between characters that show. -/
def LosesBreak (tiles : List Tile) : Prop :=
  Seams.Visible Text.isSpace False False (tiles.map fun tile => tile.pieces.map String.toList)

theorem upsert_forall₂ {β γ : Type} {relation : β → γ → Prop} {keyLeft : β → String}
    {keyRight : γ → String} {left : Option β → β} {right : Option γ → γ} (id : String)
    (keys : ∀ first second, relation first second → keyLeft first = keyRight second)
    (new : relation (left none) (right none))
    (merged : ∀ first second, relation first second →
      relation (left (some first)) (right (some second)))
    {firsts : List β} {seconds : List γ} (related : List.Forall₂ relation firsts seconds) :
    List.Forall₂ relation (upsert keyLeft id left firsts) (upsert keyRight id right seconds) := by
  induction related with
  | nil => exact .cons new .nil
  | @cons first second firsts seconds here rest ih =>
      rw [upsert, upsert, keys first second here]
      split
      · exact .cons (merged first second here) rest
      · exact .cons here ih

/-- The entry of the stream has the pieces one behind the other. -/
structure Tile.Streams (tile : Tile) (entry : Entry) : Prop where
  same_id : tile.id = entry.id
  text : entry.text.toList = (tile.pieces.map String.toList).flatten

/-- The artifact joins the pieces with line breaks. -/
structure Tile.Writes (tile : Tile) (artifact : Artifact) : Prop where
  same_id : tile.id = artifact.artifactId
  empty : artifact.parts.filterMap (·.text) = [] ↔ tile.pieces = []
  text : (joinText artifact.parts).toList = ['\n'].intercalate (tile.pieces.map String.toList)

theorem join_text_toList (parts : List Part) :
    (joinText parts).toList = ['\n'].intercalate ((parts.filterMap (·.text)).map String.toList) := by
  rw [joinText, Text.join, String.toList_intercalate]
  rfl

theorem piece_flatten (parts : List Part) :
    ((pieceOf parts).map String.toList).flatten = (joinText parts).toList := by
  rw [pieceOf]
  split
  · rename_i empty
    simp [join_text_toList, empty]
  · simp

theorem streams_ofArtifact (artifact : Artifact) :
    (Tile.ofArtifact artifact).Streams (.ofArtifact artifact) :=
  ⟨rfl, (piece_flatten artifact.parts).symm⟩

theorem streams_merge (update : ArtifactUpdate) (tile : Tile) (entry : Entry)
    (streams : tile.Streams entry) :
    (Tile.merge update (some tile)).Streams (Entry.merge update (some entry)) := by
  rw [Tile.merge, Entry.merge]
  split
  · refine ⟨streams.same_id, ?_⟩
    simp [streams.text, piece_flatten]
  · exact streams_ofArtifact update.artifact

theorem intercalate_append {β : Type} (line : List β) {front back : List (List β)}
    (some_front : front ≠ []) (some_back : back ≠ []) :
    line.intercalate (front ++ back) = line.intercalate front ++ line ++ line.intercalate back := by
  induction front with
  | nil => exact absurd rfl some_front
  | cons piece front ih =>
      cases front with
      | nil => simp [List.intercalate_cons_of_ne_nil some_back]
      | cons next front =>
          rw [List.cons_append, List.cons_append, List.intercalate_cons_cons,
            List.intercalate_cons_cons, ← List.cons_append, ih (by simp)]
          simp

@[simp] theorem pieces_ofArtifact (artifact : Artifact) :
    (Tile.ofArtifact artifact).pieces = pieceOf artifact.parts := rfl

theorem writes_ofArtifact (artifact : Artifact) : (Tile.ofArtifact artifact).Writes artifact := by
  refine ⟨rfl, ?_, ?_⟩
  · simp only [Tile.ofArtifact, pieceOf]
    split <;> simp_all
  · simp only [Tile.ofArtifact, pieceOf]
    split
    · rename_i empty
      simp [join_text_toList, empty]
    · simp

theorem writes_merge (update : ArtifactUpdate) (tile : Tile) (artifact : Artifact)
    (writes : tile.Writes artifact) :
    (Tile.merge update (some tile)).Writes (Artifact.merge update (some artifact)) := by
  rw [Tile.merge, Artifact.merge]
  split
  · obtain ⟨_, piece_empty, piece_text⟩ := writes_ofArtifact update.artifact
    rw [pieces_ofArtifact] at piece_empty piece_text
    refine ⟨writes.same_id, ?_, ?_⟩
    · rw [List.filterMap_append, List.append_eq_nil_iff, List.append_eq_nil_iff]
      exact and_congr writes.empty piece_empty
    · have front := writes.text
      rw [join_text_toList] at front piece_text ⊢
      rw [List.filterMap_append, List.map_append, List.map_append]
      by_cases none_front : tile.pieces = []
      · simpa [writes.empty.mpr none_front, none_front] using piece_text
      · by_cases none_back : pieceOf update.artifact.parts = []
        · simpa [piece_empty.mpr none_back, none_back] using front
        · have texts_front := mt writes.empty.mp none_front
          have texts_back := mt piece_empty.mp none_back
          rw [intercalate_append _ (by simpa using texts_front) (by simpa using texts_back),
            intercalate_append _ (by simpa using none_front) (by simpa using none_back), front,
            piece_text]
  · exact writes_ofArtifact update.artifact

/-! ### The two outputs -/

theorem output_text_toList (texts : List String) :
    (outputText texts).toList =
      Seams.strip Text.isSpace ((texts.map String.toList).foldr (Seams.glue ' ') []) := by
  rw [outputText, Text.stripString, String.toList_ofList, Text.join, String.toList_intercalate,
    ← Seams.intercalate_filter]
  have kept : (texts.filter (· ≠ "")).map String.toList =
      (texts.map String.toList).filter (· ≠ []) := by
    rw [List.filter_map]
    congr 2
    funext text
    simp
  rw [kept]
  rfl

theorem map_of_forall₂ {β γ δ : Type} {relation : β → γ → Prop} {left : β → δ} {right : γ → δ}
    {firsts : List β} {seconds : List γ} (related : List.Forall₂ relation firsts seconds)
    (same : ∀ first second, relation first second → left first = right second) :
    firsts.map left = seconds.map right := by
  induction related with
  | nil => rfl
  | cons here _ ih => rw [List.map_cons, List.map_cons, same _ _ here, ih]

/-- The stream leaves the output of the snapshot exactly if it loses no break. -/
theorem outputs_agree_iff {tiles : List Tile} {entries : List Entry} {artifacts : List Artifact}
    (streams : List.Forall₂ Tile.Streams tiles entries)
    (writes : List.Forall₂ Tile.Writes tiles artifacts) :
    outputText (entries.map (·.text)) = snapshotText artifacts ↔ ¬ LosesBreak tiles := by
  have streamed := map_of_forall₂ streams fun _ _ related => related.text.symm
  have written := map_of_forall₂ writes fun _ _ related => related.text.symm
  have agree := Seams.writings_agree_iff Text.isSpace '\n' ' ' (by decide) (by decide)
    (tiles.map fun tile => tile.pieces.map String.toList)
  rw [← String.toList_inj, snapshotText, output_text_toList, output_text_toList, LosesBreak, ← agree]
  simp only [List.map_map, Function.comp_def] at *
  rw [← streamed, ← written]

/-! ### A whole stream -/

section Reading

variable {state : Consumption}

/-- A node in execution can always be reported as submitted. -/
def Running (node : NodeState) : Prop := node.canTransition .submitted = true

instance (node : NodeState) : Decidable (Running node) := inferInstanceAs (Decidable (_ = true))

theorem running_of_status {node other : NodeState} (running : Running node)
    (same : other.status = node.status) : Running other := by
  rw [Running, NodeState.canTransition, same]
  exact running

theorem running_submitted {node : NodeState} (submitted : node.status = .submitted) :
    Running node := by
  simp [Running, NodeState.canTransition, submitted]

/-- A snapshot is taken without an exception: the entries are its artifacts. -/
theorem take_task (running : Running state.node) (fresh : state.entries = []) (task : RemoteTask) :
    (state.takeTask task).raised = state.raised ∧
      (state.takeTask task).entries = task.artifacts.map .ofArtifact ∧
      Running (state.takeTask task).node := by
  have moves : (chunkFields (some task.id) state.node).applyTransition .submitted =
      .ok { chunkFields (some task.id) state.node with status := .submitted } :=
    if_pos (running_of_status running rfl)
  have entries : (if task.artifacts = [] then state.entries else task.artifacts.map Entry.ofArtifact) =
      task.artifacts.map .ofArtifact := by
    split
    · simp [*]
    · rfl
  unfold Consumption.takeTask
  simp only [moves, entries]
  split
  · exact ⟨rfl, rfl, running_submitted rfl⟩
  · exact ⟨rfl, rfl, running_of_status running rfl⟩

theorem take_status (status : TaskStatus) :
    (state.takeStatus status).raised = state.raised ∧
      (state.takeStatus status).entries = state.entries ∧
      (state.takeStatus status).node.status = state.node.status := by
  unfold Consumption.takeStatus
  split
  · exact ⟨rfl, rfl, rfl⟩
  · split
    · exact ⟨rfl, rfl, rfl⟩
    · split <;> exact ⟨rfl, rfl, rfl⟩

/-- The entries after the updates of a stream. -/
def entriesAfter (entries : List Entry) (updates : List ArtifactUpdate) : List Entry :=
  updates.foldl (fun entries update =>
    upsert (·.id) update.artifact.artifactId (Entry.merge update) entries) entries

theorem take_all_cons {chunk : Chunk} (calm : (state.take chunk).raised = none) (rest : List Chunk) :
    state.takeAll (chunk :: rest) = (state.take chunk).takeAll rest := by
  rw [Consumption.takeAll, calm]
  rfl

theorem take_items (calm : state.raised = none) (items : List Item) :
    (state.takeAll (items.map Item.chunk)).raised = none ∧
      (state.takeAll (items.map Item.chunk)).entries =
        entriesAfter state.entries (items.filterMap Item.update?) ∧
      (state.takeAll (items.map Item.chunk)).node.status = state.node.status := by
  induction items generalizing state with
  | nil => exact ⟨calm, rfl, rfl⟩
  | cons item items ih =>
      cases item with
      | artifact update =>
          have next : (state.take (.artifactUpdate update)).raised = none := calm
          rw [List.map_cons, Item.chunk, take_all_cons next]
          exact @ih (state.takeUpdate update) calm
      | report status =>
          obtain ⟨raised, entries, same⟩ := @take_status state status
          have rest := @ih (state.takeStatus status) (raised.trans calm)
          rw [entries, same] at rest
          have next : (state.take (.statusUpdate status)).raised = none := raised.trans calm
          rw [List.map_cons, Item.chunk, take_all_cons next]
          exact rest

/-- A stream that ends leaves the texts of its entries as the output. -/
theorem consume_stretch {node : NodeState} (running : Running node) (stretch : Stretch)
    (taskId : String) (artifacts : List Artifact) :
    let read := consumeChunks node (stretch.stream taskId artifacts)
    let entries := entriesAfter (artifacts.map .ofArtifact) stretch.updates
    Running read.node ∧ read.raised = stretch.error ∧
      (stretch.error = none → read.node.output = given? (outputText (entries.map (·.text)))) := by
  obtain ⟨calm, opened, running⟩ := @take_task { node } running rfl ⟨taskId, stretch.opening, artifacts⟩
  obtain ⟨raised, entries, same⟩ := take_items calm stretch.items
  rw [opened] at entries
  have chunks : Consumption.takeAll { node } (stretch.stream taskId artifacts).chunks =
      ((Consumption.takeTask { node } ⟨taskId, stretch.opening, artifacts⟩).takeAll
        (stretch.items.map Item.chunk)) :=
    @take_all_cons { node } (.task ⟨taskId, stretch.opening, artifacts⟩) calm _
  simp only [consumeChunks, chunks, raised]
  cases broken : (stretch.stream taskId artifacts).error with
  | none =>
      dsimp only
      refine ⟨running_of_status running same, broken.symm, fun _ => ?_⟩
      rw [entries]
      rfl
  | some error =>
      refine ⟨running_of_status running same, broken.symm, fun ended => ?_⟩
      cases broken.symm.trans ended

end Reading

theorem streams_artifacts (artifacts : List Artifact) :
    List.Forall₂ Tile.Streams (artifacts.map .ofArtifact) (artifacts.map .ofArtifact) := by
  rw [List.forall₂_map_left_iff, List.forall₂_map_right_iff, List.forall₂_same]
  exact fun artifact _ => streams_ofArtifact artifact

theorem writes_artifacts (artifacts : List Artifact) :
    List.Forall₂ Tile.Writes (artifacts.map .ofArtifact) artifacts := by
  rw [List.forall₂_map_left_iff, List.forall₂_same]
  exact fun artifact _ => writes_ofArtifact artifact

theorem streams_after {tiles : List Tile} {entries : List Entry}
    (streams : List.Forall₂ Tile.Streams tiles entries) (updates : List ArtifactUpdate) :
    List.Forall₂ Tile.Streams
      (updates.foldl (fun tiles update =>
        upsert (·.id) update.artifact.artifactId (Tile.merge update) tiles) tiles)
      (entriesAfter entries updates) := by
  induction updates generalizing tiles entries with
  | nil => exact streams
  | cons update updates ih =>
      exact ih (upsert_forall₂ _ (fun _ _ related => related.same_id)
        (streams_ofArtifact update.artifact) (streams_merge update) streams)

theorem writes_after {tiles : List Tile} {artifacts : List Artifact}
    (writes : List.Forall₂ Tile.Writes tiles artifacts) (updates : List ArtifactUpdate) :
    List.Forall₂ Tile.Writes
      (updates.foldl (fun tiles update =>
        upsert (·.id) update.artifact.artifactId (Tile.merge update) tiles) tiles)
      (updates.foldl accumulate artifacts) := by
  induction updates generalizing tiles artifacts with
  | nil => exact writes
  | cons update updates ih =>
      exact ih (upsert_forall₂ _ (fun _ _ related => related.same_id)
        (writes_ofArtifact update.artifact) (writes_merge update) writes)

/-- One stream over a snapshot: its output is that of the task behind it
exactly if no break is lost. -/
theorem stretch_agrees_iff (artifacts : List Artifact) (stretch : Stretch) :
    given? (outputText ((entriesAfter (artifacts.map .ofArtifact) stretch.updates).map (·.text))) =
        given? (snapshotText (stretch.behind artifacts)) ↔
      ¬ LosesBreak (layout artifacts stretch.updates) := by
  have agree := outputs_agree_iff (streams_after (streams_artifacts artifacts) stretch.updates)
    (writes_after (writes_artifacts artifacts) stretch.updates)
  rw [layout, ← agree]
  constructor
  · exact given_injective
  · exact congrArg given?

/-- Without an output there is no break to lose. -/
theorem loses_nothing_blank {artifacts : List Artifact} {stretch : Stretch}
    (blank : given? (snapshotText (stretch.behind artifacts)) = none) :
    ¬ LosesBreak (layout artifacts stretch.updates) := by
  intro loses
  have empty : snapshotText (stretch.behind artifacts) = "" := by
    unfold given? at blank
    split at blank
    · assumption
    · cases blank
  have written := map_of_forall₂ (writes_after (writes_artifacts artifacts) stretch.updates)
    fun _ _ related => related.text.symm
  have shown := Seams.writing_of_visible Text.isSpace '\n' ' ' (by decide) (by decide) loses
  rw [snapshotText, ← String.toList_inj, output_text_toList, List.map_map] at empty
  rw [List.map_map] at shown
  exact shown ((congrArg (fun texts => Seams.strip Text.isSpace (texts.foldr (Seams.glue ' ') []))
    written).trans empty)

/-! ### A whole call -/

section Calls

variable {node next : NodeState} {current status : NodeStatus}

theorem polled_status (task : RemoteTask) : (takePolled node current task).1.status = node.status := by
  unfold takePolled
  dsimp only
  split <;> split <;> rfl

/-- Only the snapshot of a completed task is read for its output. -/
theorem polled_output (busy : current ∉ settled) (task : RemoteTask) :
    (takePolled node current task).1.output =
      if task.status.state = .completed ∧ snapshotText task.artifacts ≠ "" then
        some (snapshotText task.artifacts)
      else node.output := by
  have completes : (remoteStateMap task.status.state).getD current = .completed ↔
      task.status.state = .completed := by
    cases state : task.status.state with
    | unknown number =>
        have different : current ≠ .completed := by
          rintro rfl
          exact busy (by decide)
        simp [remoteStateMap, different]
    | _ => simp [remoteStateMap]
  have some_artifact : snapshotText task.artifacts ≠ "" → task.artifacts ≠ [] := by
    intro text none
    rw [none] at text
    exact text (by decide)
  unfold takePolled
  simp only [completes]
  split <;> split <;> split <;> simp_all

/-- The replies of a run are used up by the call: it ends with the last stream,
or with the poll behind it. -/
theorem ensure_terminal_agrees_iff (run : RemoteRun) (later : List (Option TaskStatus × Stretch))
    {artifacts : List Artifact} {stretch : Stretch} (running : Running node)
    (read : stretch.error = none → node.output =
      given? (outputText ((entriesAfter (artifacts.map .ofArtifact) stretch.updates).map (·.text))))
    (returns : ensureTerminal node current (run.laterReplies (stretch.behind artifacts) later) =
      .returned next status [])
    (received : (RemoteRun.lastOf artifacts stretch later).2.error = none ∨ (run.PolledCompleted ∧
      given? (snapshotText ((RemoteRun.lastOf artifacts stretch later).2.behind
        (RemoteRun.lastOf artifacts stretch later).1)) ≠ none)) :
    let last := RemoteRun.lastOf artifacts stretch later
    next.output = given? (snapshotText (last.2.behind last.1)) ↔
      run.PolledCompleted ∨ ¬ LosesBreak (layout last.1 last.2.updates) := by
  induction later generalizing artifacts stretch node current with
  | nil =>
      rw [RemoteRun.lastOf] at received ⊢
      dsimp only at received ⊢
      rw [RemoteRun.laterReplies] at returns
      -- Behind a stream that ended, the node has its output.
      have streamed : stretch.error = none → (node.output =
          given? (snapshotText (stretch.behind artifacts)) ↔
            ¬ LosesBreak (layout artifacts stretch.updates)) := by
        intro ended
        rw [read ended]
        exact stretch_agrees_iff artifacts stretch
      cases last : run.last with
      | none =>
          have unpolled : ¬ run.PolledCompleted := by simp [RemoteRun.PolledCompleted, last]
          have ended := received.resolve_right fun completed => unpolled completed.1
          rw [last, ensureTerminal] at returns
          · split at returns
            · cases returns
              simp [streamed ended, unpolled]
            · cases returns
          · simp
          · simp
      | some found =>
          rw [last, ensureTerminal] at returns
          · split at returns
            · cases returns
            · rename_i going
              have busy : current ∉ settled := by
                intro over_now
                simp [ended, over_now] at going
              dsimp only [Option.elim] at returns
              split at returns
              · cases returns
                rw [polled_output busy]
                by_cases completed : found.state = .completed
                · have polled : run.PolledCompleted := ⟨found, last, completed⟩
                  refine iff_of_true ?_ (.inl polled)
                  by_cases text : snapshotText (stretch.behind artifacts) = ""
                  · have none : given? (snapshotText (stretch.behind artifacts)) = none := if_pos text
                    have ended := received.resolve_right fun completed => completed.2 none
                    rw [if_neg fun read => read.2 text]
                    exact (streamed ended).mpr (loses_nothing_blank none)
                  · rw [if_pos ⟨completed, text⟩, given?, if_neg text]
                    rfl
                · have unpolled : ¬ run.PolledCompleted := by
                    rintro ⟨other, same, completes⟩
                    obtain rfl : found = other := Option.some.inj (last.symm.trans same)
                    exact completed completes
                  have ended := received.resolve_right fun completed => unpolled completed.1
                  rw [if_neg fun read => completed read.1]
                  simp [streamed ended, unpolled]
              · cases returns
          · simp
  | cons head rest ih =>
      obtain ⟨polled, following⟩ := head
      rw [RemoteRun.laterReplies, ensureTerminal] at returns
      split at returns
      · cases returns
      · dsimp only at returns
        split at returns
        · cases returns
        · have still : Running (Option.elim (polled.map (run.snapshot · (stretch.behind artifacts)))
              (node, current) (takePolled node current)).1 := by
            cases polled with
            | none => exact running
            | some found => exact running_of_status running (polled_status _)
          obtain ⟨running, raised, output⟩ := consume_stretch still following run.taskId
            (stretch.behind artifacts)
          exact ih running output returns received

end Calls

/-! ### A call that reconnects, and one that does not -/

def sampleNode : NodeState :=
  { id := "draft", name := "draft", agentName := "writer", status := .submitted }

def sampleUpdate (text : String) (append : Bool) : Item :=
  .artifact ⟨⟨"report", "report", [⟨some text⟩]⟩, append, false⟩

/-- The second piece comes in a stream that ends with the task unfinished; the
task is then polled. -/
def polledRun : RemoteRun :=
  { taskId := "task"
    earlier := []
    first := ⟨⟨.working, none⟩, [sampleUpdate "intro" false], none⟩
    later := [(some ⟨.working, none⟩, ⟨⟨.working, none⟩, [sampleUpdate "body" true], none⟩)]
    last := some ⟨.completed, none⟩ }

/-- Both pieces and the end of the task come in one stream. -/
def streamedRun : RemoteRun :=
  { taskId := "task"
    earlier := []
    first := ⟨⟨.working, none⟩, [sampleUpdate "intro" false, sampleUpdate "body" true,
      .report ⟨.completed, none⟩], none⟩
    later := []
    last := none }

def sampleNext (output : String) : NodeState :=
  { sampleNode with a2aTaskId := some "task", output := some output }

theorem polled_run_returns :
    callRemote .dispatch sampleNode polledRun.replies =
      .returned (sampleNext "intro\nbody") .completed [] := by
  decide +kernel

theorem streamed_run_returns :
    callRemote .dispatch sampleNode streamedRun.replies =
      .returned (sampleNext "introbody") .completed [] := by
  decide +kernel

end Choirworks.Orchestration.Streaming
