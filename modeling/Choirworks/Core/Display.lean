import Choirworks.Core.Planner
import Choirworks.Frontend.Reconnects

/-!
What the frontend shows of a talk. The chunks of an attempt reach the cards of its
two artifacts; the author of a chunk stands where the frontend does not read it, so
texts show as replies of the assistant. A card has what its attempt has streamed,
and its stream is open only if the attempt has broken off.
-/

namespace Choirworks.Core

open Frontend (Card ConversationView Kind Shows Sources StreamEvent applyStreamEvent)
open History (ChatMessage)
open LlmFlows (Delta)
open Text (join_append join_cons join_nil)

/-! ### Events -/

def ChunkKind.cwType : ChunkKind → String
  | .thought => "thought"
  | .text => "text"

/-- The metadata of `chunk_event`: all of it is the part's. -/
def sourcesOf (author : String) (kind : ChunkKind) : Sources where
  partMetadata := fun _ => [("cw_type", .string kind.cwType), ("author", .string author)]
  metadata := fun _ => []
  shown := fun _ => by
    cases kind <;> simp [Frontend.Struct.text?, Json.get?, ChunkKind.cwType]

/-- `ids` gives the ids that the attempts have drawn. -/
def Chunk.event (author : String) (ids : Nat → ChunkKind → String) (chunk : Chunk) : StreamEvent :=
  (sourcesOf author chunk.kind).chunk (ids chunk.attempt chunk.kind) chunk.text chunk.append
    chunk.lastChunk

def Emission.chunk? : Emission → Option Chunk
  | .chunk emitted => some emitted
  | .functionError _ _ => none

/-- The view behind the chunks, which come with increasing numbers. -/
def display (author : String) (ids : Nat → ChunkKind → String) :
    ConversationView → Nat → List Chunk → ConversationView
  | view, _, [] => view
  | view, seq, chunk :: rest =>
      display author ids (applyStreamEvent view (chunk.event author ids) seq) (seq + 1) rest

/-- The card of what an attempt has streamed of a kind. -/
def cardOf (text : String) (unsealed : Bool) : Card :=
  if text = "" then {} else { message := some text, active := unsealed }

/-! ### The chunks of one artifact -/

section Own

variable {attempt : Nat} {kind : ChunkKind}

/-- Chunks that stream the texts, the first of them with this append flag. -/
def streamed (attempt : Nat) (kind : ChunkKind) : Bool → List String → List Chunk
  | _, [] => []
  | append, text :: rest => ⟨attempt, kind, text, append, false⟩ :: streamed attempt kind true rest

def own (attempt : Nat) (kind : ChunkKind) (chunks : List Chunk) : List Chunk :=
  chunks.filter fun chunk => chunk.attempt = attempt ∧ chunk.kind = kind

theorem own_append (front back : List Chunk) :
    own attempt kind (front ++ back) = own attempt kind front ++ own attempt kind back :=
  List.filter_append ..

theorem own_self {chunks : List Chunk}
    (all : ∀ chunk ∈ chunks, chunk.attempt = attempt ∧ chunk.kind = kind) :
    own attempt kind chunks = chunks :=
  List.filter_eq_self.mpr fun chunk member => by simpa using all chunk member

theorem own_none {chunks : List Chunk}
    (other : ∀ chunk ∈ chunks, chunk.attempt = attempt → chunk.kind ≠ kind) :
    own attempt kind chunks = [] :=
  List.filter_eq_nil_iff.mpr fun chunk member => by simpa using other chunk member

theorem streamed_append (append : Bool) (front back : List String) :
    streamed attempt kind append (front ++ back) =
      streamed attempt kind append front ++ streamed attempt kind (append || front ≠ []) back := by
  induction front generalizing append with
  | nil => simp [streamed]
  | cons text rest ih =>
      rw [List.cons_append, streamed, streamed, ih]
      simp

theorem streamed_worded (append : Bool) (text : Option String) :
    streamed attempt kind append (worded text) =
      (worded text).map fun text => ⟨attempt, kind, text, append, false⟩ := by
  unfold worded
  split <;> rfl

/-- The parts of the kind that have come so far. -/
def partsOf (kind : ChunkKind) (reasoningParts contentParts : List String) : List String :=
  match kind with
  | .thought => reasoningParts
  | .text => contentParts

theorem parts_thought (reasoningParts contentParts : List String) :
    decide (partsOf .thought reasoningParts contentParts ≠ []) = decide (reasoningParts ≠ []) :=
  rfl

theorem parts_text (reasoningParts contentParts : List String) :
    decide (partsOf .text reasoningParts contentParts ≠ []) = decide (contentParts ≠ []) :=
  rfl

theorem own_chunks (reasoningParts contentParts : List String) (deltas : List Delta) :
    own attempt kind (chunks attempt reasoningParts contentParts deltas) =
      streamed attempt kind (partsOf kind reasoningParts contentParts ≠ []) (pieces kind deltas) := by
  induction deltas generalizing reasoningParts contentParts with
  | nil => rfl
  | cons delta rest ih =>
      rw [chunks, own_append, own_append, ih]
      simp only [pieces, List.flatMap_cons, streamed_append]
      cases kind with
      | thought =>
          rw [own_self (by simp), own_none (by simp), List.append_nil, piecesOf, streamed_worded]
          simp only [parts_thought]
          simp
      | text =>
          rw [own_none (by simp), own_self (by simp), List.nil_append, piecesOf, streamed_worded]
          simp only [parts_text]
          simp

theorem own_seal (deltas : List Delta) :
    own attempt kind (sealAttempt attempt deltas) = sealChunk attempt kind deltas := by
  have each : ∀ other, ∀ chunk ∈ sealChunk attempt other deltas,
      chunk.attempt = attempt ∧ chunk.kind = other := by
    intro other chunk member
    unfold sealChunk at member
    dsimp only at member
    split at member
    · cases member
    · rw [List.mem_singleton.mp member]
      exact ⟨rfl, rfl⟩
  rw [sealAttempt, own_append]
  cases kind with
  | thought =>
      rw [own_self (each .thought), own_none fun chunk member _ => by simp [(each .text chunk member).2],
        List.append_nil]
  | text =>
      rw [own_none fun chunk member _ => by simp [(each .thought chunk member).2],
        own_self (each .text), List.nil_append]

theorem chunks_attempt {chunk : Chunk} (reasoningParts contentParts : List String)
    (deltas : List Delta) (member : chunk ∈ chunks attempt reasoningParts contentParts deltas) :
    chunk.attempt = attempt := by
  induction deltas generalizing reasoningParts contentParts with
  | nil => cases member
  | cons delta rest ih =>
      rw [chunks, List.mem_append, List.mem_append, List.mem_map, List.mem_map] at member
      rcases member with (⟨_, _, rfl⟩ | ⟨_, _, rfl⟩) | later
      · rfl
      · rfl
      · exact ih _ _ later

/-! ### The card of one artifact -/

/-- One chunk on the card, which is that of a message. -/
def fill (card : Card) (chunk : Chunk) : Card :=
  card.chunk .reply false chunk.text chunk.append chunk.lastChunk

theorem fill_appended (base : String) (texts : List String) :
    (streamed attempt kind true texts).foldl fill { message := some base, active := true } =
      { message := some (base ++ Text.join "" texts), active := true } := by
  induction texts generalizing base with
  | nil => simp [streamed]
  | cons text rest ih =>
      rw [streamed, List.foldl_cons, join_cons, ← String.append_assoc, ← ih]
      congr 1
      by_cases blank : text = ""
      · simp [fill, Card.chunk, blank]
      · simp [fill, Card.chunk, blank, Card.track]

theorem pieces_texted (kind : ChunkKind) (deltas : List Delta) :
    ∀ text ∈ pieces kind deltas, text ≠ "" := by
  intro text member
  obtain ⟨delta, _, inside⟩ := List.mem_flatMap.mp member
  have each : ∀ part : Option String, text ∈ worded part → text ≠ "" := by
    intro part listed
    unfold worded at listed
    split at listed
    · rename_i spoken
      rw [List.mem_singleton.mp listed]
      simpa [LlmFlows.texted] using spoken
    · cases listed
  cases kind with
  | thought => exact each _ inside
  | text => exact each _ inside

/-- A card that takes what is streamed. -/
theorem fill_streamed (deltas : List Delta) :
    (streamed attempt kind false (pieces kind deltas)).foldl fill {} =
      cardOf (Text.join "" (pieces kind deltas)) true := by
  have texted := pieces_texted kind deltas
  cases listed : pieces kind deltas with
  | nil => simp [streamed, cardOf]
  | cons text rest =>
      have some_ : text ≠ "" := texted text (by simp [listed])
      have opened : fill {} ⟨attempt, kind, text, false, false⟩ =
          { message := some text, active := true } := by
        simp [fill, Card.chunk, some_, Card.track]
      have whole : text ++ Text.join "" rest ≠ "" := fun none_ =>
        some_ (String.append_eq_empty_iff.mp none_).1
      rw [streamed, List.foldl_cons, opened, fill_appended, join_cons, cardOf, if_neg whole]

/-- The seal keeps the text and closes the stream, as often as it comes. -/
theorem fill_sealed (deltas : List Delta) (unsealed : Bool) :
    (sealChunk attempt kind deltas).foldl fill (cardOf (Text.join "" (pieces kind deltas)) unsealed) =
      cardOf (Text.join "" (pieces kind deltas)) false := by
  unfold sealChunk
  dsimp only
  split
  · rename_i blank
    simp [cardOf, blank]
  · rename_i some_
    simp [fill, cardOf, some_, Card.chunk, Card.track]

end Own

/-! ### The emissions of a talk -/

section Talks

variable {Args Answer : Type} {caller : Caller Args Answer} {opening : List ChatMessage}
  {completions : List Completion} {talk : Talk Answer} {attempt : Nat} {kind : ChunkKind}

def chunksOf (emissions : List Emission) : List Chunk := emissions.filterMap Emission.chunk?

theorem chunks_of_chunks (emitted : List Chunk) : chunksOf (emitted.map .chunk) = emitted := by
  rw [chunksOf, List.filterMap_map]
  exact List.filterMap_some

theorem chunks_of_append (front back : List Emission) :
    chunksOf (front ++ back) = chunksOf front ++ chunksOf back :=
  List.filterMap_append

/-- What the closing of an attempt seals: nothing if it has broken off. -/
theorem closing_chunks (completion : Completion) :
    chunksOf (caller.closing attempt completion) =
      match caller.judge completion with
      | .broken _ => []
      | .answered _ => sealAttempt attempt completion.deltas
      | .faulty _ =>
          if attempt + 1 < caller.attempts ∨ caller.reseals = false then
            sealAttempt attempt completion.deltas
          else sealAttempt attempt completion.deltas ++ sealAttempt attempt completion.deltas := by
  unfold Caller.closing
  cases caller.judge completion with
  | broken error => rfl
  | answered answer => exact chunks_of_chunks _
  | faulty fault =>
      dsimp only
      by_cases more : attempt + 1 < caller.attempts
      · rw [if_pos more, if_pos (Or.inl more), chunks_of_append, chunks_of_chunks]
        cases caller.reports <;> simp [chunksOf, Emission.chunk?]
      · rw [if_neg more]
        cases again : caller.reseals with
        | true => rw [if_pos rfl, if_neg (by simp [more]), chunks_of_append, chunks_of_chunks]
        | false => simp [more, chunks_of_chunks]

/-- Whether an attempt has broken off. -/
def Completion.breaks (completion : Completion) : Bool :=
  match completion.stop with
  | .raised _ => true
  | .complete | .valueError _ => false

theorem breaks_iff (completion : Completion) :
    completion.breaks = true ↔ ∃ error, caller.judge completion = .broken error := by
  constructor
  · intro breaks
    unfold Completion.breaks at breaks
    split at breaks
    · rename_i error stop
      refine ⟨error, ?_⟩
      rw [Caller.judge, stream_broken.mpr stop]
    · cases breaks
    · cases breaks
  · rintro ⟨error, judged⟩
    rw [Completion.breaks, stop_of_broken judged]

/-- The card of an artifact behind its own attempt. -/
theorem emissions_card (completion : Completion) :
    (own attempt kind (chunksOf (caller.emissions attempt completion))).foldl fill {} =
      cardOf (Text.join "" (pieces kind completion.deltas)) completion.breaks := by
  rw [Caller.emissions, chunks_of_append, chunks_of_chunks, own_append, List.foldl_append, own_chunks,
    closing_chunks]
  have started : decide (partsOf kind ([] : List String) [] ≠ []) = false := by cases kind <;> rfl
  rw [started, fill_streamed]
  have breaks := @breaks_iff _ _ caller completion
  cases judged : caller.judge completion with
  | broken error =>
      rw [breaks.mpr ⟨error, judged⟩]
      rfl
  | answered answer =>
      have whole : completion.breaks = false := by simpa [judged] using breaks
      dsimp only
      rw [own_seal, fill_sealed, whole]
  | faulty fault =>
      have whole : completion.breaks = false := by simpa [judged] using breaks
      dsimp only
      split
      · rw [own_seal, fill_sealed, whole]
      · rw [own_append, List.foldl_append, own_seal, fill_sealed, fill_sealed, whole]

/-- The chunks of an attempt are its own. -/
theorem emissions_own {chunk : Chunk} (completion : Completion)
    (member : chunk ∈ chunksOf (caller.emissions attempt completion)) : chunk.attempt = attempt := by
  have sealing : ∀ chunk ∈ sealAttempt attempt completion.deltas, chunk.attempt = attempt := by
    intro chunk listed
    simp only [sealAttempt, sealChunk, List.mem_append] at listed
    rcases listed with listed | listed <;> split at listed <;> simp_all
  rw [Caller.emissions, chunks_of_append, chunks_of_chunks, closing_chunks, List.mem_append] at member
  rcases member with streaming | closing
  · exact chunks_attempt _ _ _ streaming
  · split at closing
    · cases closing
    · exact sealing chunk closing
    · split at closing
      · exact sealing chunk closing
      · exact (List.mem_append.mp closing).elim (sealing chunk) (sealing chunk)

/-- The chunks of one artifact are those of its attempt. -/
theorem own_all (caller : Caller Args Answer) (completions : List Completion) :
    own attempt kind (chunksOf (caller.allEmissions completions)) =
      match completions[attempt]? with
      | none => []
      | some completion => own attempt kind (chunksOf (caller.emissions attempt completion)) := by
  induction completions using List.reverseRecOn with
  | nil => rfl
  | append_singleton completions completion ih =>
      have last : caller.allEmissions (completions ++ [completion]) =
          caller.allEmissions completions ++ caller.emissions completions.length completion := by
        simp [Caller.allEmissions, List.zipIdx_append]
      rw [last, chunks_of_append, own_append, ih]
      by_cases here : attempt = completions.length
      · subst here
        simp
      · have elsewhere : own attempt kind
            (chunksOf (caller.emissions completions.length completion)) = [] :=
          own_none fun chunk member same =>
            absurd (same.symm.trans (emissions_own completion member)) here
        rw [elsewhere, List.append_nil]
        rcases Nat.lt_or_gt_of_ne here with inside | beyond
        · rw [List.getElem?_append_left inside]
        · rw [List.getElem?_eq_none (by omega), List.getElem?_eq_none (by simp; omega)]

/-! ### The view -/

variable {author : String} {ids : Nat → ChunkKind → String} {view : ConversationView} {seq : Nat}

theorem event_shows {card : Card} (chunk : Chunk)
    (shows_ : Shows view (ids chunk.attempt chunk.kind) card) :
    Shows (applyStreamEvent view (chunk.event author ids) seq) (ids chunk.attempt chunk.kind)
      (fill card chunk) := by
  have shown := @Frontend.chunk_shows (sourcesOf author chunk.kind) (ids chunk.attempt chunk.kind)
    chunk.text chunk.lastChunk view seq chunk.append card shows_
  have going : (sourcesOf author chunk.kind).terminal view (ids chunk.attempt chunk.kind) = false := by
    have nobody : view.nodes.find? (fun node => some node.id = none) = none :=
      List.find?_eq_none.mpr fun node _ => by simp
    show (view.nodes.find? fun node => some node.id = none).any _ = false
    rw [nobody]
    rfl
  have message : ∀ terminal, card.chunk ((sourcesOf author chunk.kind).kind
      (ids chunk.attempt chunk.kind)) terminal chunk.text chunk.append chunk.lastChunk =
        card.chunk .reply terminal chunk.text chunk.append chunk.lastChunk := by
    intro terminal
    cases kind : chunk.kind with
    | thought => rfl
    | text => rfl
  rw [going, message] at shown
  exact shown

/-- On the view each card takes the chunks of its artifact. -/
theorem display_shows (apart : ∀ {attempt kind other otherKind},
    ids attempt kind = ids other otherKind → attempt = other ∧ kind = otherKind)
    (chunks : List Chunk) {card : Card} (shows_ : Shows view (ids attempt kind) card) :
    Shows (display author ids view seq chunks) (ids attempt kind)
      ((own attempt kind chunks).foldl fill card) := by
  induction chunks generalizing view seq card with
  | nil => exact shows_
  | cons chunk rest ih =>
      by_cases same : chunk.attempt = attempt ∧ chunk.kind = kind
      · have mine : own attempt kind (chunk :: rest) = chunk :: own attempt kind rest := by
          simp [own, same.1, same.2]
        rw [display, mine, List.foldl_cons]
        obtain ⟨rfl, rfl⟩ := same
        exact ih (event_shows chunk shows_)
      · have other : own attempt kind (chunk :: rest) = own attempt kind rest :=
          List.filter_cons_of_neg (by simpa using same)
        rw [display, other]
        apply ih
        exact Frontend.chunk_shows_other view seq chunk.append shows_ fun hit => same (apart hit)

end Talks

/-- In every run of the planner or of an agent that decides by a tool, the frontend
shows of each attempt just what it has streamed, apart from all others, and no
stream stays open but that of an attempt that has broken off. -/
theorem attempts_shown {Args Answer : Type} (caller : Caller Args Answer)
    (opening : List ChatMessage) (completions : List Completion) (talk : Talk Answer)
    (ran : Runs.run (Talk.step caller) (.begin caller opening) completions = some talk)
    (author : String) (ids : Nat → ChunkKind → String)
    (apart : ∀ {attempt kind other otherKind}, ids attempt kind = ids other otherKind →
      attempt = other ∧ kind = otherKind)
    (view : ConversationView) (fresh : ∀ attempt kind, Shows view (ids attempt kind) {})
    (seq attempt : Nat) (kind : ChunkKind) :
    Shows (display author ids view seq (chunksOf talk.emitted)) (ids attempt kind)
      (match completions[attempt]? with
        | none => {}
        | some completion =>
            cardOf (Text.join "" (pieces kind completion.deltas)) completion.breaks) := by
  have shown := @display_shows attempt kind author ids view seq apart (chunksOf talk.emitted) {}
    (fresh attempt kind)
  rw [(told_run ran).emitted, own_all] at shown
  rw [(told_run ran).emitted]
  cases made : completions[attempt]? with
  | none =>
      rw [made] at shown
      exact shown
  | some completion =>
      rw [made] at shown
      rwa [emissions_card] at shown

section Sample

def thinking : Completion where
  deltas := [{ content := some "Let me" }, { reasoning := some "hm" }, { content := some " see" }]

def markedIds (attempt : Nat) (kind : ChunkKind) : String :=
  String.ofList ((if kind = .thought then 't' else 'x') :: List.replicate attempt '.')

theorem marked_apart {attempt other : Nat} {kind otherKind : ChunkKind}
    (same : markedIds attempt kind = markedIds other otherKind) :
    attempt = other ∧ kind = otherKind := by
  have letters := String.ofList_injective same
  rw [List.cons.injEq] at letters
  refine ⟨by simpa using congrArg List.length letters.2, ?_⟩
  cases kind <;> cases otherKind <;> simp_all

def decider : Caller Unit (ToolCallResult Unit) := llmAgent "decide" [] 1

/-- An agent that never calls its tool: both attempts are sealed, the last one twice. -/
theorem thinking_shown : ∃ talk, Runs.run (Talk.step decider) (.begin decider [])
      [thinking, thinking] = some talk ∧
    Shows (display "judge" markedIds Frontend.emptyConversation 0 (chunksOf talk.emitted))
      (markedIds 1 .text) { message := some "Let me see" } := by
  obtain ⟨talk, ran⟩ : ∃ talk, Runs.run (Talk.step decider) (.begin decider [])
      [thinking, thinking] = some talk := ⟨_, rfl⟩
  refine ⟨talk, ran, ?_⟩
  have shown := attempts_shown decider [] [thinking, thinking] talk ran "judge" markedIds marked_apart
    Frontend.emptyConversation (fun attempt kind => ⟨rfl, rfl, by simp [Frontend.emptyConversation]⟩)
    0 1 .text
  have text : Text.join "" (pieces .text thinking.deltas) = "Let me see" := by decide
  simp only [List.getElem?_cons_succ, List.getElem?_cons_zero, text] at shown
  exact shown

end Sample

end Choirworks.Core
