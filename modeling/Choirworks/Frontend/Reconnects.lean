import Choirworks.Frontend.Chunks
import Mathlib.Data.List.Induction

/-!
A client that loses the stream and comes back, on the whole view: each step of the
feed moves the card of an artifact as the arrivals of its chunks say.
-/

namespace Choirworks.Frontend

/-! ### The events of the stream on the view -/

section Events

variable {sources : Sources} {view : ConversationView} {id : String} {seq : Nat}

theorem text_of_parts (texts : List String) :
    textOfParts (texts.map (sources.part id)) = "\n".intercalate texts := by
  rw [textOfParts, List.map_map]
  exact congrArg _ (List.map_id'' (fun _ => rfl) texts)

/-- Artifacts with texts go the way of texts. -/
theorem artifact_text (texts : List String) (some_ : texts ≠ []) (append lastChunk : Bool) :
    applyArtifactUpdate view
        ⟨⟨some id, texts.map (sources.part id), sources.metadata id⟩, append, lastChunk⟩ seq =
      applyText view (sources.update id ("\n".intercalate texts) append lastChunk) seq := by
  obtain ⟨first, others, rfl⟩ := List.exists_cons_of_ne_nil some_
  have shown := sources.shown id
  have same : textUpdateOf
      ⟨⟨some id, (first :: others).map (sources.part id), sources.metadata id⟩, append, lastChunk⟩
      seq = sources.update id ("\n".intercalate (first :: others)) append lastChunk := by
    simp only [textUpdateOf, text_of_parts]
    rfl
  simp only [applyArtifactUpdate, same]
  simp only [List.map_cons, partMetadata, List.head?_cons, Option.map_some, Option.getD_some,
    Sources.part]
  split
  · rename_i internal
    simp [internal] at shown
  · rename_i internal
    simp [internal] at shown
  · rename_i internal
    simp [internal] at shown
  · rfl

theorem kind_thought : sources.kind id = .thought ↔
    (sources.partMetadata id).text? "cw_type" = some "thought" := by
  have read : (sources.update id "" false false).isThought = true ↔
      (sources.partMetadata id).text? "cw_type" = some "thought" := beq_iff_eq
  rw [← read, Sources.kind, TextUpdate.kind]
  generalize sources.update id "" false false = update
  split
  · rename_i thought
    simp [thought]
  · rename_i other
    rw [iff_false_right other]
    split <;> simp

theorem artifact_seed (texts : List String) (some_ : texts ≠ []) :
    applyArtifactUpdate view (synthesizeArtifactUpdate (sources.collected (id, texts))) seq =
      applyText view (sources.update id (sources.seed id texts) false true) seq := by
  obtain ⟨first, others, rfl⟩ := List.exists_cons_of_ne_nil some_
  have noCall : functionCallData (sources.collected (id, first :: others)).parts = none := rfl
  have metadata : partMetadata (sources.collected (id, first :: others)).parts =
      sources.partMetadata id := rfl
  simp only [synthesizeArtifactUpdate, noCall, metadata, Sources.seed, kind_thought,
    Option.isSome_none, Bool.false_eq_true, false_or]
  split
  · exact artifact_text _ some_ false true
  · have merged : "".intercalate ((sources.collected (id, first :: others)).parts.map Part.text) =
        "".intercalate (first :: others) := by
      rw [Sources.collected, List.map_map]
      exact congrArg _ (List.map_id'' (fun _ => rfl) _)
    rw [merged]
    have one := @artifact_text sources view id seq ["".intercalate (first :: others)] (by simp)
      false true
    rw [String.intercalate_singleton] at one
    exact one

section Known

variable {card : Card} {text : String} {append lastChunk : Bool}

theorem shown_self (shows_ : Shows view id card) :
    Shows (applyText view (sources.update id text append lastChunk) seq) id
      (card.chunk (sources.kind id) (sources.terminal view id) text append lastChunk) :=
  @text_self view (sources.update id text append lastChunk) card seq shows_

theorem shown_other {other : String} (shows_ : Shows view id card) (different : other ≠ id) :
    Shows (applyText view (sources.update other text append lastChunk) seq) id card :=
  @text_other view (sources.update other text append lastChunk) id card seq shows_ different

end Known

/-! ### Snapshots -/

theorem seed_step (seeded : ConversationView × List String) {other : String} {texts : List String}
    (some_ : texts ≠ []) (named : other ≠ "") (new : other ∉ seeded.2) :
    seedArtifact seq seeded (sources.collected (other, texts)) =
      (applyText seeded.1 (sources.update other (sources.seed other texts) false true) seq,
        seeded.2.insert other) := by
  have name : (sources.collected (other, texts)).artifactId.getD "" = other := rfl
  simp only [seedArtifact, name, named, new, or_self, if_false, artifact_seed texts some_]

theorem seed_skip (seeded : ConversationView × List String) {other : String}
    {texts : List String} (skipped : other = "" ∨ other ∈ seeded.2) :
    seedArtifact seq seeded (sources.collected (other, texts)) = seeded := by
  have name : (sources.collected (other, texts)).artifactId.getD "" = other := rfl
  simp only [seedArtifact, name, skipped, if_true]

/-- An artifact that is not in the snapshot, or has been seen, is left as it is. -/
theorem seeded_elsewhere {card : Card} (rows : List (String × List String))
    (some_ : ∀ row ∈ rows, row.2 ≠ []) (seeded : ConversationView × List String)
    (shows_ : Shows seeded.1 id card) (left : id ∈ seeded.2 ∨ id ∉ rows.map Prod.fst) :
    Shows ((rows.map sources.collected).foldl (seedArtifact seq) seeded).1 id card := by
  induction rows generalizing seeded with
  | nil => exact shows_
  | cons row rest ih =>
      obtain ⟨other, texts⟩ := row
      have here : texts ≠ [] := some_ (other, texts) List.mem_cons_self
      have later : ∀ row ∈ rest, row.2 ≠ [] := fun row member =>
        some_ row (List.mem_cons_of_mem _ member)
      rw [List.map_cons, List.foldl_cons]
      by_cases skipped : other = "" ∨ other ∈ seeded.2
      · rw [seed_skip _ skipped]
        apply ih later seeded shows_
        exact left.imp_right fun absent listed => absent (List.mem_cons_of_mem _ listed)
      · push Not at skipped
        have different : other ≠ id := by
          rintro rfl
          rcases left with seen | absent
          · exact skipped.2 seen
          · exact absent (by simp)
        rw [seed_step _ here skipped.1 skipped.2]
        apply ih later _ (shown_other shows_ different)
        rcases left with seen | absent
        · exact Or.inl (List.mem_insert_of_mem seen)
        · exact Or.inr fun listed => absent (List.mem_cons_of_mem _ listed)

theorem seeded_terminal (rows : List (String × List String)) (some_ : ∀ row ∈ rows, row.2 ≠ [])
    (seeded : ConversationView × List String) :
    sources.terminal ((rows.map sources.collected).foldl (seedArtifact seq) seeded).1 id =
      sources.terminal seeded.1 id := by
  induction rows generalizing seeded with
  | nil => rfl
  | cons row rest ih =>
      obtain ⟨other, texts⟩ := row
      rw [List.map_cons, List.foldl_cons, ih fun row member => some_ row (List.mem_cons_of_mem _ member)]
      by_cases skipped : other = "" ∨ other ∈ seeded.2
      · rw [seed_skip _ skipped]
      · push Not at skipped
        rw [seed_step _ (some_ (other, texts) List.mem_cons_self) skipped.1 skipped.2]
        exact terminal_kept _ _ _ _

theorem seeded_seen (named : id ≠ "") (rows : List (String × List String))
    (some_ : ∀ row ∈ rows, row.2 ≠ []) (seeded : ConversationView × List String) :
    id ∈ ((rows.map sources.collected).foldl (seedArtifact seq) seeded).2 ↔
      id ∈ seeded.2 ∨ id ∈ rows.map Prod.fst := by
  induction rows generalizing seeded with
  | nil => simp
  | cons row rest ih =>
      obtain ⟨other, texts⟩ := row
      rw [List.map_cons, List.foldl_cons, ih fun row member => some_ row (List.mem_cons_of_mem _ member),
        List.map_cons, List.mem_cons]
      by_cases skipped : other = "" ∨ other ∈ seeded.2
      · rw [seed_skip _ skipped]
        constructor
        · rintro (seen | later)
          · exact Or.inl seen
          · exact Or.inr (Or.inr later)
        · rintro (seen | rfl | later)
          · exact Or.inl seen
          · exact Or.inl (skipped.resolve_left named)
          · exact Or.inr later
      · push Not at skipped
        rw [seed_step _ (some_ (other, texts) List.mem_cons_self) skipped.1 skipped.2]
        simp only [List.mem_insert_iff]
        exact ⟨fun known => by tauto, fun known => by tauto⟩

/-- An artifact that has not been seen is shown as the snapshot has it. -/
theorem seeded_here {card : Card} {texts : List String} (named : id ≠ "")
    (rows : List (String × List String)) (some_ : ∀ row ∈ rows, row.2 ≠ [])
    (once : (rows.map Prod.fst).Nodup) (listed : (id, texts) ∈ rows)
    (seeded : ConversationView × List String) (shows_ : Shows seeded.1 id card)
    (new : id ∉ seeded.2) :
    Shows ((rows.map sources.collected).foldl (seedArtifact seq) seeded).1 id
      (card.chunk (sources.kind id) (sources.terminal seeded.1 id) (sources.seed id texts) false
        true) := by
  induction rows generalizing seeded with
  | nil => cases listed
  | cons row rest ih =>
      obtain ⟨other, otherTexts⟩ := row
      obtain ⟨fresh, once⟩ := List.nodup_cons.mp once
      have later : ∀ row ∈ rest, row.2 ≠ [] := fun row member =>
        some_ row (List.mem_cons_of_mem _ member)
      have here : otherTexts ≠ [] := some_ (other, otherTexts) List.mem_cons_self
      rw [List.map_cons, List.foldl_cons]
      -- the row itself shows it, and no row behind has the same id
      rcases List.mem_cons.mp listed with same | behind
      · cases same
        rw [seed_step _ here named new]
        exact seeded_elsewhere rest later _ (shown_self shows_) (Or.inr fresh)
      · have different : other ≠ id := by
          intro same
          exact fresh (List.mem_map.mpr ⟨_, behind, same.symm⟩)
        by_cases skipped : other = "" ∨ other ∈ seeded.2
        · rw [seed_skip _ skipped]
          exact ih later once behind seeded shows_ new
        · push Not at skipped
          rw [seed_step _ here skipped.1 skipped.2]
          have same : sources.terminal (applyText seeded.1
              (sources.update other (sources.seed other otherTexts) false true) seq) id =
              sources.terminal seeded.1 id := terminal_kept _ _ _ _
          rw [← same]
          apply ih later once behind _ (shown_other shows_ different)
          simp only [List.mem_insert_iff, not_or]
          exact ⟨Ne.symm different, new⟩

theorem scanned_messages (history : List Message) (scan : HistoryScan)
    (apart : ∀ message ∈ history, message.messageId.getD "" ≠ id)
    (before : ∀ message ∈ scan.newMessages, message.id ≠ id) :
    ∀ message ∈ (history.foldl (scanMessage seq) scan).newMessages, message.id ≠ id := by
  induction history generalizing scan with
  | nil => exact before
  | cons first rest ih =>
      rw [List.foldl_cons]
      apply ih _ fun message member => apart message (List.mem_cons_of_mem _ member)
      simp only [scanMessage]
      split
      · exact before
      · split
        · exact before
        · split
          · exact before
          · intro message member
            rcases List.mem_append.mp member with old | new
            · exact before message old
            · rw [List.mem_singleton.mp new]
              exact apart first List.mem_cons_self

/-- The history of a snapshot has messages of its own. -/
theorem history_shows {card : Card} {task : Task} (shows_ : Shows view id card)
    (apart : ∀ message ∈ task.history, message.messageId.getD "" ≠ id) :
    Shows (mergeHistory view task seq) id card := by
  have others := @scanned_messages id seq task.history ⟨view.messages.map (·.id), [], []⟩ apart
    (by simp)
  refine ⟨?_, shows_.bubble, shows_.active⟩
  have none_ : messageTexts (task.history.foldl (scanMessage seq)
      ⟨view.messages.map (·.id), [], []⟩).newMessages id = [] := by
    rw [messageTexts, textsOf, List.map_eq_nil_iff, List.filter_eq_nil_iff]
    intro message member
    simpa using others message member
  rw [← shows_.message]
  simp only [mergeHistory, messageTexts] at none_ ⊢
  rw [texts_of_append, none_, List.append_nil]

end Events

/-! ### One step -/

/-- What the feed and the arrivals of one artifact have to do with each other. -/
structure Tracks (sources : Sources) (id : String) (terminal : Bool) (feed : Feed)
    (delivery : Delivery) : Prop where
  connected : feed.connected = delivery.connected
  sent : (feed.sent.get? id).getD [] = delivery.sent
  rows : ∀ row ∈ feed.sent.rows, row.2 ≠ []
  seen : id ∈ feed.view.seenArtifactIds ↔ delivery.opening ≠ .unseen
  caught : delivery.connected = true → delivery.opening = .unseen → delivery.sent = []
  shows_ : Shows feed.view id (delivery.card (sources.kind id) terminal)
  terminal_ : sources.terminal feed.view id = terminal

/-- What the arrivals have to do with the chunks that have been sent. -/
structure Delivery.Sound (delivery : Delivery) (chunks : List (String × Bool)) : Prop where
  sent : delivery.sent = chunks.map Prod.fst
  bare : delivery.opening = .unseen → delivery.rest = []
  sums : delivery.opening ≠ .unseen →
    delivery.sent = delivery.opening.texts ++ delivery.rest.map (·.text)
  some_ : delivery.opening ≠ .unseen → delivery.opening.texts ≠ []
  live : ∀ text lastChunk, delivery.opening = .live text lastChunk →
    chunks = (text, lastChunk) :: delivery.rest.map fun chunk => (chunk.text, chunk.lastChunk)
  flags : ∀ chunk ∈ delivery.rest, (chunk.text, chunk.lastChunk) ∈ chunks
  ordered : "".intercalate ((delivery.rest.filter (·.received)).map (·.text)) =
    delivery.more ++ delivery.lastText

def FeedEvent.chunkOf (id : String) : FeedEvent → Option (String × Bool)
  | .chunk other text lastChunk => if other = id then some (text, lastChunk) else none
  | _ => none

/-- The chunks of one artifact. -/
def chunksOf (id : String) (events : List FeedEvent) : List (String × Bool) :=
  events.filterMap (FeedEvent.chunkOf id)

theorem Delivery.Sound.going {delivery : Delivery} {chunks : List (String × Bool)}
    (sound : delivery.Sound chunks) (none_ : ∀ chunk ∈ chunks, chunk.2 = false) :
    delivery.lastText = "" := by
  have nothing : delivery.rest.filter (fun chunk => chunk.received && chunk.lastChunk) = [] := by
    rw [List.filter_eq_nil_iff]
    intro chunk member
    have flag := none_ _ (sound.flags chunk member)
    simp only at flag
    simp [flag]
  rw [Delivery.lastText, nothing]
  rfl

section Steps

variable {sources : Sources} {id text : String} {terminal lastChunk : Bool} {feed : Feed}
  {delivery : Delivery} {chunks : List (String × Bool)}

theorem step_elsewhere {other : String} (different : other ≠ id) :
    delivery.step id (.chunk other text lastChunk) = delivery := by
  simp [Delivery.step, different]

theorem step_first (unseen : delivery.opening = .unseen) :
    delivery.step id (.chunk id text lastChunk) =
      if delivery.connected then
        { delivery with sent := delivery.sent ++ [text], opening := .live text lastChunk }
      else { delivery with sent := delivery.sent ++ [text] } := by
  simp [Delivery.step, unseen]

theorem step_opened (opened : delivery.opening ≠ .unseen) :
    delivery.step id (.chunk id text lastChunk) =
      { delivery.add ⟨text, lastChunk, delivery.connected⟩ with
        sent := delivery.sent ++ [text] } := by
  simp only [Delivery.step, Delivery.add, ne_eq, not_true_eq_false, if_false]

theorem reconnect_unseen (task : Task) (unseen : delivery.opening = .unseen) :
    delivery.step id (.reconnect task) =
      { delivery with
        connected := true
        opening := if delivery.sent = [] then .unseen else .snapshot delivery.sent } := by
  simp [Delivery.step, unseen]

theorem reconnect_opened (task : Task) (opened : delivery.opening ≠ .unseen) :
    delivery.step id (.reconnect task) = { delivery with connected := true } := by
  simp only [Delivery.step]

theorem sound_first (sound : delivery.Sound chunks) (unseen : delivery.opening = .unseen)
    (caught : delivery.connected = true → delivery.sent = []) :
    (delivery.step id (.chunk id text lastChunk)).Sound (chunks ++ [(text, lastChunk)]) := by
  have bare := sound.bare unseen
  have more : delivery.more = "" := by rw [Delivery.more, bare]; rfl
  have last : delivery.lastText = "" := by rw [Delivery.lastText, bare]; rfl
  have listed : delivery.sent ++ [text] = (chunks ++ [(text, lastChunk)]).map Prod.fst := by
    rw [List.map_append, sound.sent]
    rfl
  rw [step_first unseen]
  split
  · rename_i connected
    -- who is up to date and has seen nothing was sent nothing
    have none_ : chunks = [] := by
      have nothing := caught connected
      rw [sound.sent] at nothing
      exact List.map_eq_nil_iff.mp nothing
    constructor
    case sent => exact listed
    case bare => exact fun _ => bare
    case sums =>
      intro _
      simp [caught connected, Opening.texts, bare]
    case some_ => exact fun _ => List.cons_ne_nil _ _
    case live =>
      intro first flag same
      cases same
      simp [none_, bare]
    case flags => exact fun chunk member => absurd member (by simp [bare])
    case ordered => exact sound.ordered
  · constructor
    case sent => exact listed
    case bare => exact fun _ => bare
    case sums => exact fun opened => absurd unseen opened
    case some_ => exact fun opened => absurd unseen opened
    case live =>
      intro first flag same
      rw [unseen] at same
      cases same
    case flags => exact fun chunk member => absurd member (by simp [bare])
    case ordered => exact sound.ordered

theorem sound_more (sound : delivery.Sound chunks) (opened : delivery.opening ≠ .unseen)
    (none_ : ∀ chunk ∈ chunks, chunk.2 = false) :
    (delivery.step id (.chunk id text lastChunk)).Sound (chunks ++ [(text, lastChunk)]) := by
  have going := sound.going none_
  rw [step_opened opened]
  constructor
  case sent =>
    rw [List.map_append, ← sound.sent]
    rfl
  case bare => exact fun unseen => absurd unseen opened
  case sums =>
    intro _
    simp [sound.sums opened, Delivery.add]
  case some_ => exact fun _ => sound.some_ opened
  case live =>
    intro first flag same
    rw [sound.live first flag same]
    simp [Delivery.add]
  case flags =>
    intro chunk member
    rcases List.mem_append.mp member with old | new
    · exact List.mem_append_left _ (sound.flags chunk old)
    · rw [List.mem_singleton.mp new]
      simp
  -- the chunk comes behind what has come, or is missed
  case ordered =>
    have added := sound.ordered
    rw [going, String.append_empty] at added
    show "".intercalate (((delivery.add _).rest.filter (·.received)).map (·.text)) =
      (delivery.add _).more ++ (delivery.add _).lastText
    rw [add_more, add_last, going]
    cases connected : delivery.connected <;> cases lastChunk <;>
      simp [Delivery.add, List.filter_append, joined_append, added]

theorem sound_reconnect (task : Task) (sound : delivery.Sound chunks) :
    (delivery.step id (.reconnect task)).Sound chunks := by
  by_cases unseen : delivery.opening = .unseen
  · have bare := sound.bare unseen
    rw [reconnect_unseen task unseen]
    by_cases nothing : delivery.sent = []
    · rw [if_pos nothing, ← unseen]
      exact ⟨sound.sent, sound.bare, sound.sums, sound.some_, sound.live, sound.flags,
        sound.ordered⟩
    · rw [if_neg nothing]
      constructor
      case sent => exact sound.sent
      case bare => exact fun same => by cases same
      case sums =>
        intro _
        simp [Opening.texts, bare]
      case some_ => exact fun _ => nothing
      case live => exact fun first flag same => by cases same
      case flags => exact sound.flags
      case ordered => exact sound.ordered
  · rw [reconnect_opened task unseen]
    exact ⟨sound.sent, sound.bare, sound.sums, sound.some_, sound.live, sound.flags,
      sound.ordered⟩

/-- Nothing comes behind the last chunk of the artifact. -/
def Fits (id : String) (event : FeedEvent) (chunks : List (String × Bool)) : Prop :=
  event.chunkOf id ≠ none → ∀ chunk ∈ chunks, chunk.2 = false

theorem sound_step (event : FeedEvent) (sound : delivery.Sound chunks)
    (caught : delivery.connected = true → delivery.opening = .unseen → delivery.sent = [])
    (fits : Fits id event chunks) :
    (delivery.step id event).Sound (chunks ++ (event.chunkOf id).toList) := by
  cases event with
  | chunk other text lastChunk =>
      by_cases same : other = id
      · subst same
        have none_ : ∀ chunk ∈ chunks, chunk.2 = false := fits (by simp [FeedEvent.chunkOf])
        have one : (FeedEvent.chunkOf other (.chunk other text lastChunk)).toList =
            [(text, lastChunk)] := by simp [FeedEvent.chunkOf]
        rw [one]
        by_cases unseen : delivery.opening = .unseen
        · exact sound_first sound unseen fun connected => caught connected unseen
        · exact sound_more sound unseen none_
      · have none_ : (FeedEvent.chunkOf id (.chunk other text lastChunk)).toList = [] := by
          simp [FeedEvent.chunkOf, same]
        rw [none_, List.append_nil, step_elsewhere same]
        exact sound
  | lose =>
      have none_ : (FeedEvent.chunkOf id .lose).toList = [] := rfl
      rw [none_, List.append_nil]
      exact ⟨sound.sent, sound.bare, sound.sums, sound.some_, sound.live, sound.flags,
        sound.ordered⟩
  | reconnect task =>
      have none_ : (FeedEvent.chunkOf id (.reconnect task)).toList = [] := rfl
      rw [none_, List.append_nil]
      exact sound_reconnect task sound

/-! ### The view along the arrivals -/

theorem chunk_applied (view : ConversationView) (seq : Nat) (other : String) (append : Bool) :
    applyStreamEvent view (sources.chunk other text append lastChunk) seq =
      let next := applyText view (sources.update other text append lastChunk) seq
      if other = "" then next
      else { next with seenArtifactIds := next.seenArtifactIds.insert other } := by
  have texts := @artifact_text sources view other seq [text] (by simp) append lastChunk
  rw [String.intercalate_singleton] at texts
  have inner : applyStreamEventInner view (sources.chunk other text append lastChunk) seq =
      applyText view (sources.update other text append lastChunk) seq := texts
  simp only [applyStreamEvent, inner]
  rfl

theorem chunk_seen (view : ConversationView) (seq : Nat) (named : id ≠ "") (other : String)
    (append : Bool) :
    id ∈ (applyStreamEvent view (sources.chunk other text append lastChunk) seq).seenArtifactIds ↔
      id = other ∨ id ∈ view.seenArtifactIds := by
  rw [chunk_applied]
  by_cases blank : other = ""
  · have different : id ≠ other := fun same => named (same.trans blank)
    simp only [blank, if_true]
    rw [text_seen]
    exact (or_iff_right (blank ▸ different)).symm
  · simp only [blank, if_false, List.mem_insert_iff, text_seen]

theorem chunk_terminal (view : ConversationView) (seq : Nat) (other : String) (append : Bool) :
    sources.terminal (applyStreamEvent view (sources.chunk other text append lastChunk) seq) id =
      sources.terminal view id := by
  rw [chunk_applied]
  by_cases blank : other = ""
  · simp only [blank, if_true]
    exact terminal_kept _ _ _ _
  · simp only [blank, if_false]
    exact terminal_kept _ _ _ _

theorem chunk_shows (view : ConversationView) (seq : Nat) (append : Bool) {card : Card}
    (shows_ : Shows view id card) :
    Shows (applyStreamEvent view (sources.chunk id text append lastChunk) seq) id
      (card.chunk (sources.kind id) (sources.terminal view id) text append lastChunk) := by
  have next := @shown_self sources view id seq card text append lastChunk shows_
  rw [chunk_applied]
  by_cases blank : id = ""
  · simp only [blank, if_true] at next ⊢
    exact next
  · simp only [blank, if_false]
    exact ⟨next.message, next.bubble, next.active⟩

theorem chunk_shows_other (view : ConversationView) (seq : Nat) (append : Bool) {card : Card}
    {other : String} (shows_ : Shows view id card) (different : other ≠ id) :
    Shows (applyStreamEvent view (sources.chunk other text append lastChunk) seq) id card := by
  have next := @shown_other sources view id seq card text append lastChunk other shows_ different
  rw [chunk_applied]
  by_cases blank : other = ""
  · simp only [blank, if_true] at next ⊢
    exact next
  · simp only [blank, if_false]
    exact ⟨next.message, next.bubble, next.active⟩

/-- Every artifact on record has a chunk. -/
theorem rows_after (other : String) (some_ : ∀ row ∈ feed.sent.rows, row.2 ≠ []) :
    ∀ row ∈ (feed.sent.set other ((feed.sent.get? other).getD [] ++ [text])).rows, row.2 ≠ [] := by
  rintro ⟨name, texts⟩ member
  rw [← Dict.get?_eq_some_iff, Dict.get?_set] at member
  split at member
  · cases member
    simp
  · exact some_ (name, texts) ((Dict.get?_eq_some_iff _ _ _).mp member)

theorem sent_after (other : String) :
    ((feed.sent.set other ((feed.sent.get? other).getD [] ++ [text])).get? id).getD [] =
      if id = other then (feed.sent.get? id).getD [] ++ [text]
      else (feed.sent.get? id).getD [] := by
  rw [Dict.get?_set]
  split
  · rename_i same
    rw [same]
    rfl
  · rfl

theorem tracks_elsewhere {other : String} (named : id ≠ "")
    (tracks : Tracks sources id terminal feed delivery)
    (different : other ≠ id) : Tracks sources id terminal
      (feed.step sources (.chunk other text lastChunk)) delivery := by
  have rows := @rows_after text feed other tracks.rows
  have sent : ((feed.sent.set other ((feed.sent.get? other).getD [] ++ [text])).get? id).getD [] =
      delivery.sent := by
    rw [sent_after, if_neg (Ne.symm different)]
    exact tracks.sent
  simp only [Feed.step]
  split
  · constructor
    case connected => exact tracks.connected
    case sent => exact sent
    case rows => exact rows
    case seen =>
      refine (chunk_seen feed.view feed.seq named other _).trans ?_
      rw [or_iff_right (Ne.symm different)]
      exact tracks.seen
    case caught => exact tracks.caught
    case shows_ => exact chunk_shows_other feed.view feed.seq _ tracks.shows_ different
    case terminal_ => exact (chunk_terminal feed.view feed.seq other _).trans tracks.terminal_
  · exact ⟨tracks.connected, sent, rows, tracks.seen, tracks.caught, tracks.shows_,
      tracks.terminal_⟩

theorem card_unseen (kind : Kind) (unseen : delivery.opening = .unseen) (bare : delivery.rest = []) :
    delivery.card kind terminal = {} := by
  cases kind <;> cases terminal <;>
    simp [Delivery.card, unseen, bare, Opening.text, Opening.streams, Delivery.more,
      Delivery.lastText, optionalText, orText]

theorem Tracks.begun (tracks : Tracks sources id terminal feed delivery) :
    (feed.sent.get? id).isSome = true ↔ delivery.sent ≠ [] := by
  have sent := tracks.sent
  cases known : feed.sent.get? id with
  | none =>
      rw [known, Option.getD_none] at sent
      simp [← sent]
  | some texts =>
      rw [known, Option.getD_some] at sent
      have some_ := tracks.rows (id, texts) ((Dict.get?_eq_some_iff _ _ _).mp known)
      simp only [Option.isSome_some, true_iff]
      exact sent ▸ some_

/-- A chunk that the client receives. -/
theorem tracks_received (named : id ≠ "") (tracks : Tracks sources id terminal feed delivery)
    {next : Delivery} (connected : next.connected = true)
    (sent : next.sent = delivery.sent ++ [text]) (opened : next.opening ≠ .unseen)
    (card : next.card (sources.kind id) terminal = (delivery.card (sources.kind id) terminal).chunk
      (sources.kind id) terminal text (feed.sent.get? id).isSome lastChunk)
    (online : feed.connected = true) :
    Tracks sources id terminal (feed.step sources (.chunk id text lastChunk)) next := by
  simp only [Feed.step, online, if_true]
  constructor
  case connected => exact online.trans connected.symm
  case sent =>
    refine (sent_after id).trans ?_
    rw [if_pos rfl, tracks.sent, sent]
  case rows => exact rows_after id tracks.rows
  case seen => exact (chunk_seen feed.view feed.seq named id _).trans (by simp [opened])
  case caught => exact fun _ unseen => absurd unseen opened
  case shows_ =>
    rw [card]
    have shows_ := @chunk_shows sources id text lastChunk feed.view feed.seq
      (feed.sent.get? id).isSome _ tracks.shows_
    rwa [tracks.terminal_] at shows_
  case terminal_ => exact (chunk_terminal feed.view feed.seq id _).trans tracks.terminal_

/-- A chunk that the client misses. -/
theorem tracks_missed (tracks : Tracks sources id terminal feed delivery)
    {next : Delivery} (connected : next.connected = false)
    (sent : next.sent = delivery.sent ++ [text])
    (opened : next.opening = .unseen ↔ delivery.opening = .unseen)
    (card : next.card (sources.kind id) terminal = delivery.card (sources.kind id) terminal)
    (offline : feed.connected = false) :
    Tracks sources id terminal (feed.step sources (.chunk id text lastChunk)) next := by
  simp only [Feed.step, offline, Bool.false_eq_true, if_false]
  constructor
  case connected => exact connected.symm
  case sent =>
    refine (sent_after id).trans ?_
    rw [if_pos rfl, tracks.sent, sent]
  case rows => exact rows_after id tracks.rows
  case seen => exact tracks.seen.trans (not_congr opened.symm)
  case caught => exact fun online => absurd (connected.symm.trans online) (by simp)
  case shows_ => exact card ▸ tracks.shows_
  case terminal_ => exact tracks.terminal_

theorem tracks_chunk (named : id ≠ "") (tracks : Tracks sources id terminal feed delivery)
    (sound : delivery.Sound chunks) (none_ : ∀ chunk ∈ chunks, chunk.2 = false) :
    Tracks sources id terminal (feed.step sources (.chunk id text lastChunk))
      (delivery.step id (.chunk id text lastChunk)) := by
  have status := tracks.connected
  have begun := tracks.begun
  -- the first chunk opens the card, a later one appends to it
  by_cases unseen : delivery.opening = .unseen
  · rw [step_first unseen]
    cases online : delivery.connected with
    | true =>
        have first : (feed.sent.get? id).isSome = false := by
          rw [Bool.eq_false_iff]
          exact fun some_ => begun.mp some_ (tracks.caught online unseen)
        rw [if_pos rfl]
        refine tracks_received named tracks rfl rfl (fun same => by cases same) ?_
          (status.trans online)
        rw [card_unseen _ unseen (sound.bare unseen), first, ← @card_opened _ _ [] _ true]
        exact card_same rfl (sound.bare unseen)
    | false =>
        rw [if_neg (by simp)]
        exact tracks_missed tracks rfl rfl Iff.rfl (card_same rfl rfl) (status.trans online)
  · rw [step_opened unseen]
    cases online : delivery.connected with
    | true =>
        have append : (feed.sent.get? id).isSome = true := by
          apply begun.mpr
          rw [sound.sums unseen]
          exact List.append_ne_nil_of_left_ne_nil (sound.some_ unseen) _
        refine tracks_received named tracks online rfl unseen ?_ (status.trans online)
        rw [append, ← card_received lastChunk (sound.going none_)]
        exact card_same rfl rfl
    | false =>
        refine tracks_missed tracks online rfl Iff.rfl ?_ (status.trans online)
        rw [← @card_missed _ _ delivery text lastChunk]
        exact card_same rfl rfl

theorem listed_iff : id ∈ feed.sent.rows.map Prod.fst ↔ (feed.sent.get? id).isSome = true := by
  rw [Option.isSome_iff_exists, ← Dict.mem_keys_iff_get?]
  rfl

theorem tracks_reconnect (named : id ≠ "") (tracks : Tracks sources id terminal feed delivery)
    (sound : delivery.Sound chunks) {task : Task}
    (apart : ∀ message ∈ task.history, message.messageId.getD "" ≠ id) :
    Tracks sources id terminal (feed.step sources (.reconnect task))
      (delivery.step id (.reconnect task)) := by
  have begun := tracks.begun
  have history : Shows (mergeHistory feed.view task feed.seq) id _ :=
    history_shows tracks.shows_ apart
  have terminal_ : sources.terminal (mergeHistory feed.view task feed.seq) id = terminal :=
    tracks.terminal_
  have seen := @seeded_seen sources id feed.seq named feed.sent.rows tracks.rows
    (mergeHistory feed.view task feed.seq, feed.view.seenArtifactIds)
  have ends := @seeded_terminal sources id feed.seq feed.sent.rows tracks.rows
    (mergeHistory feed.view task feed.seq, feed.view.seenArtifactIds)
  -- the card of the seeded view is all that is left to show
  have finish : ∀ next : Delivery, next.connected = true → next.sent = delivery.sent →
      (next.opening ≠ .unseen ↔ delivery.opening ≠ .unseen ∨ delivery.sent ≠ []) →
      Shows ((feed.sent.rows.map sources.collected).foldl (seedArtifact feed.seq)
        (mergeHistory feed.view task feed.seq, feed.view.seenArtifactIds)).1 id
        (next.card (sources.kind id) terminal) →
      Tracks sources id terminal (feed.step sources (.reconnect task)) next := by
    intro next connected sent opened shows_
    constructor
    case connected => exact connected.symm
    case sent => exact tracks.sent.trans sent.symm
    case rows => exact tracks.rows
    case seen =>
      refine seen.trans ?_
      rw [opened, listed_iff, begun, ← tracks.seen]
    case caught =>
      intro _ unseen
      by_contra some_
      exact opened.mpr (Or.inr (sent ▸ some_)) unseen
    case shows_ => exact ⟨shows_.message, shows_.bubble, shows_.active⟩
    case terminal_ => exact ends.trans terminal_
  by_cases unseen : delivery.opening = .unseen
  · rw [reconnect_unseen task unseen]
    have new : id ∉ feed.view.seenArtifactIds := fun known => tracks.seen.mp known unseen
    by_cases nothing : delivery.sent = []
    · rw [if_pos nothing]
      refine finish _ (by rfl) (by rfl) (by simp [unseen, nothing]) ?_
      have absent : id ∉ feed.sent.rows.map Prod.fst := by
        rw [listed_iff, begun]
        exact fun some_ => some_ nothing
      have same : Delivery.card (sources.kind id) terminal
          ⟨true, delivery.sent, .unseen, delivery.rest⟩ =
          delivery.card (sources.kind id) terminal := card_same unseen.symm rfl
      rw [same]
      exact seeded_elsewhere feed.sent.rows tracks.rows _ history (Or.inr absent)
    · rw [if_neg nothing]
      refine finish _ (by rfl) (by rfl) (by simp [nothing]) ?_
      have listed : (id, delivery.sent) ∈ feed.sent.rows := by
        obtain ⟨texts, known⟩ := Option.isSome_iff_exists.mp (begun.mpr nothing)
        have same := tracks.sent
        rw [known, Option.getD_some] at same
        rw [← Dict.get?_eq_some_iff, known, same]
      have shows_ := @seeded_here sources id feed.seq _ _ named feed.sent.rows tracks.rows
        feed.sent.unique listed (mergeHistory feed.view task feed.seq, feed.view.seenArtifactIds)
        history new
      rw [terminal_, card_unseen _ unseen (sound.bare unseen)] at shows_
      rw [sound.bare unseen, card_seeded]
      exact shows_
  · rw [reconnect_opened task unseen]
    refine finish _ (by rfl) (by rfl) (by simp [unseen]) ?_
    have same : Delivery.card (sources.kind id) terminal { delivery with connected := true } =
        delivery.card (sources.kind id) terminal := card_same rfl rfl
    rw [same]
    exact seeded_elsewhere feed.sent.rows tracks.rows _ history (Or.inl (tracks.seen.mpr unseen))

/-- A step keeps the feed and the arrivals together. -/
theorem tracks_step (named : id ≠ "") (event : FeedEvent)
    (tracks : Tracks sources id terminal feed delivery) (sound : delivery.Sound chunks)
    (fits : Fits id event chunks)
    (apart : ∀ task, event = .reconnect task →
      ∀ message ∈ task.history, message.messageId.getD "" ≠ id) :
    Tracks sources id terminal (feed.step sources event) (delivery.step id event) := by
  cases event with
  | chunk other text lastChunk =>
      by_cases same : other = id
      · subst same
        exact tracks_chunk named tracks sound (fits (by simp [FeedEvent.chunkOf]))
      · rw [step_elsewhere same]
        exact tracks_elsewhere named tracks same
  | lose =>
      constructor
      case connected => rfl
      case sent => exact tracks.sent
      case rows => exact tracks.rows
      case seen => exact tracks.seen
      case caught => exact fun online => by cases online
      case shows_ =>
        have same : (delivery.step id .lose).card (sources.kind id) terminal =
            delivery.card (sources.kind id) terminal := card_same rfl rfl
        rw [same]
        exact tracks.shows_
      case terminal_ => exact tracks.terminal_
  | reconnect task => exact tracks_reconnect named tracks sound (apart task rfl)

end Steps

/-! ### Runs -/

/-- The view knows nothing of the artifact. -/
structure Fresh (view : ConversationView) (id : String) : Prop where
  message : ∀ message ∈ view.messages, message.id ≠ id
  bubble : ∀ bubble ∈ view.workingBubbles, bubble.artifactId ≠ id
  active : id ∉ view.activeArtifactIds
  seen : id ∉ view.seenArtifactIds

/-- All chunks of the artifact are sent, the last one flagged. -/
def Whole (id : String) (events : List FeedEvent) : Prop :=
  ∃ front final, chunksOf id events = front ++ [(final, true)] ∧
    ∀ chunk ∈ front, chunk.2 = false

/-- The messages of a snapshot's history have ids of their own. -/
def HistoriesApart (id : String) (events : List FeedEvent) : Prop :=
  ∀ task, .reconnect task ∈ events → ∀ message ∈ task.history, message.messageId.getD "" ≠ id

def fullText (id : String) (events : List FeedEvent) : String :=
  "".intercalate ((chunksOf id events).map Prod.fst)

/-- The artifact is shown as one message with the text, and nothing else. -/
def ShownAs (view : ConversationView) (id text : String) : Prop :=
  messageTexts view.messages id = [text] ∧ bubbleTexts view.workingBubbles id = []

section Runs

variable {sources : Sources} {view : ConversationView} {seq : Nat} {connected : Bool} {id : String}

theorem fresh_shows (fresh : Fresh view id) : Shows view id {} := by
  constructor
  case message =>
    apply List.map_eq_nil_iff.mpr
    rw [List.filter_eq_nil_iff]
    intro message member
    simpa using fresh.message message member
  case bubble =>
    apply List.map_eq_nil_iff.mpr
    rw [List.filter_eq_nil_iff]
    intro bubble member
    simpa using fresh.bubble bubble member
  case active => simpa using fresh.active

theorem tracks_start (fresh : Fresh view id) :
    Tracks sources id (sources.terminal view id) (Feed.start view seq connected)
      ⟨connected, [], .unseen, []⟩ := by
  constructor
  case connected => rfl
  case sent => rfl
  case rows => exact fun row member => by cases member
  case seen => exact ⟨fun known => absurd known fresh.seen, fun opened => absurd rfl opened⟩
  case caught => exact fun _ _ => rfl
  case shows_ =>
    rw [card_unseen _ rfl rfl]
    exact fresh_shows fresh
  case terminal_ => rfl

theorem sound_start : (Delivery.mk connected [] .unseen []).Sound [] := by
  constructor
  case sent => rfl
  case bare => exact fun _ => rfl
  case sums => exact fun opened => absurd rfl opened
  case some_ => exact fun opened => absurd rfl opened
  case live => exact fun _ _ same => by cases same
  case flags => exact fun _ member => by cases member
  case ordered => rfl

theorem fits_of_whole {before after : List FeedEvent} {event : FeedEvent}
    (whole : Whole id (before ++ event :: after)) : Fits id event (chunksOf id before) := by
  obtain ⟨front, final, listed, flags⟩ := whole
  intro sent chunk member
  obtain ⟨found, some_⟩ := Option.ne_none_iff_exists'.mp sent
  rw [chunksOf, List.filterMap_append, List.filterMap_cons, some_] at listed
  rcases List.append_eq_append_iff.mp listed with ⟨rest, split, _⟩ | ⟨rest, split, tail⟩
  · exact flags chunk (split ▸ List.mem_append_left _ member)
  · -- the last chunk alone cannot be both behind and in front of the event
    cases rest with
    | nil => exact flags chunk (by rw [List.append_nil] at split; exact split ▸ member)
    | cons first others =>
        have long := congrArg List.length tail
        simp at long

/-- Along every run the card is that of the arrivals. -/
theorem run_tracks (named : id ≠ "") (fresh : Fresh view id) (events : List FeedEvent)
    (apart : HistoriesApart id events)
    (fits : ∀ before event after, events = before ++ event :: after →
      Fits id event (chunksOf id before)) :
    Tracks sources id (sources.terminal view id)
        (Feed.run sources (.start view seq connected) events)
        (Delivery.run id ⟨connected, [], .unseen, []⟩ events) ∧
      (Delivery.run id ⟨connected, [], .unseen, []⟩ events).Sound (chunksOf id events) := by
  induction events using List.reverseRecOn with
  | nil => exact ⟨tracks_start fresh, sound_start⟩
  | append_singleton rest event ih =>
      have earlier : ∀ before event' after, rest = before ++ event' :: after →
          Fits id event' (chunksOf id before) := by
        intro before event' after split
        apply fits before event' (after ++ [event])
        rw [split, List.append_assoc, List.cons_append]
      obtain ⟨tracks, sound⟩ := ih
        (fun task member => apart task (List.mem_append_left _ member)) earlier
      have here : Fits id event (chunksOf id rest) := fits rest event [] rfl
      have chunks : chunksOf id (rest ++ [event]) =
          chunksOf id rest ++ (event.chunkOf id).toList := by
        simp only [chunksOf, List.filterMap_append, List.filterMap_cons, List.filterMap_nil]
        cases event.chunkOf id <;> rfl
      rw [Feed.run, Delivery.run, List.foldl_concat, List.foldl_concat, chunks]
      constructor
      · apply tracks_step named event tracks sound here
        rintro task rfl
        exact apart task (by simp)
      · exact sound_step event sound tracks.caught here

/-- At the end of a whole artifact the client has it in some way. -/
theorem ended_of_whole {delivery : Delivery} {events : List FeedEvent} (whole : Whole id events)
    (sound : delivery.Sound (chunksOf id events))
    (caught : delivery.opening = .unseen → delivery.sent = []) : delivery.Ended := by
  obtain ⟨front, final, listed, flags⟩ := whole
  rw [listed] at sound
  have opened : delivery.opening ≠ .unseen := by
    intro unseen
    have nothing := caught unseen
    rw [sound.sent] at nothing
    simp at nothing
  constructor
  case opened => exact opened
  case sums => exact sound.sums opened
  case some_ => exact sound.some_ opened
  case ordered => exact sound.ordered
  case single =>
    intro text lastChunk live
    have chunks := sound.live text lastChunk live
    -- only where it is the single chunk, the first is the last
    cases front with
    | nil =>
        simp only [List.nil_append, List.cons.injEq, Prod.mk.injEq, List.nil_eq,
          List.map_eq_nil_iff] at chunks
        exact ⟨fun _ => chunks.2, fun _ => chunks.1.2.symm⟩
    | cons first others =>
        simp only [List.cons_append, List.cons.injEq] at chunks
        have flag : lastChunk = false := by
          have unflagged := flags first List.mem_cons_self
          rwa [chunks.1] at unflagged
        constructor
        · intro last
          rw [flag] at last
          cases last
        · intro none_
          have long := congrArg List.length chunks.2
          simp [none_] at long

theorem to_list_one {value : Option String} {text : String} :
    value.toList = [text] ↔ value = some text := by
  cases value <;> simp

theorem to_list_none {value : Option String} : value.toList = [] ↔ value = none := by
  cases value <;> simp

end Runs

/-- What the view shows of an artifact in the end does not depend on the way the
chunks came exactly if nothing was missed and the parts made up one message. -/
theorem text_shown_iff (sources : Sources) (view : ConversationView) (seq : Nat) (connected : Bool)
    (id : String) (named : id ≠ "") (fresh : Fresh view id) (events : List FeedEvent)
    (apart : HistoriesApart id events) (whole : Whole id events)
    (online : (Feed.run sources (.start view seq connected) events).connected = true) :
    ShownAs (Feed.run sources (.start view seq connected) events).view id (fullText id events) ↔
      (Delivery.run id ⟨connected, [], .unseen, []⟩ events).Complete (sources.kind id)
        (sources.terminal view id) := by
  obtain ⟨tracks, sound⟩ := @run_tracks sources view seq connected id named fresh events apart
    fun before event after split => fits_of_whole (split ▸ whole)
  have caught := tracks.caught (tracks.connected.symm.trans online)
  have ended := ended_of_whole whole sound caught
  have total : fullText id events =
      (Delivery.run id ⟨connected, [], .unseen, []⟩ events).total := by
    rw [fullText, Delivery.total, sound.sent]
  rw [ShownAs, total, tracks.shows_.message, tracks.shows_.bubble, to_list_one, to_list_none]
  exact ended.shown_iff (sources.kind id) (sources.terminal view id)

/-! A reply of two chunks, between which the client reconnects, and one of three, of
which it misses the second. -/

def replies : Sources where
  partMetadata _ := []
  metadata _ := [("author", .string "assistant")]
  shown _ := by simp [Struct.text?, Json.get?]

def snapshotHead : Task := ⟨some "t1", some "c1", none, [], []⟩

def betweenChunks : List FeedEvent :=
  [.chunk "r" "Hel" false, .lose, .reconnect snapshotHead, .chunk "r" "lo" true]

def missingChunk : List FeedEvent :=
  [.chunk "r" "Hel" false, .lose, .chunk "r" "lo, " false, .reconnect snapshotHead,
    .chunk "r" "world" true]

theorem fresh_empty (id : String) : Fresh emptyConversation id :=
  ⟨by simp [emptyConversation], by simp [emptyConversation], by simp [emptyConversation],
    by simp [emptyConversation]⟩

theorem histories_apart_head (id : String) {events : List FeedEvent}
    (heads : ∀ task, .reconnect task ∈ events → task.history = []) : HistoriesApart id events := by
  intro task member message inside
  rw [heads task member] at inside
  cases inside

theorem reconnected_reply :
    ShownAs (Feed.run replies (.start emptyConversation 0 true) betweenChunks).view "r" "Hello" := by
  have whole : Whole "r" betweenChunks := ⟨[("Hel", false)], "lo", rfl, by simp⟩
  have text : fullText "r" betweenChunks = "Hello" := by decide +kernel
  have kind : replies.kind "r" = .reply := by decide +kernel
  have missed : (Delivery.run "r" ⟨true, [], .unseen, []⟩ betweenChunks).missed = "" := by
    decide +kernel
  have total : (Delivery.run "r" ⟨true, [], .unseen, []⟩ betweenChunks).total ≠ "" := by
    decide +kernel
  rw [← text]
  apply (text_shown_iff replies emptyConversation 0 true "r" (by simp) (fresh_empty "r")
    betweenChunks (histories_apart_head "r" (by simp [betweenChunks, snapshotHead])) whole rfl).mpr
  rw [kind]
  exact ⟨total, missed⟩

/-- What comes while the client is away stays away, although the snapshot has it. -/
theorem missed_chunk_lost : ¬ ∀ (sources : Sources) (view : ConversationView) (seq : Nat)
    (connected : Bool) (id : String) (events : List FeedEvent), id ≠ "" → Fresh view id →
    HistoriesApart id events → Whole id events →
    (Feed.run sources (.start view seq connected) events).connected = true →
    ShownAs (Feed.run sources (.start view seq connected) events).view id (fullText id events) := by
  intro claim
  have whole : Whole "r" missingChunk := ⟨[("Hel", false), ("lo, ", false)], "world", rfl, by simp⟩
  have shown := claim replies emptyConversation 0 true "r" missingChunk (by simp) (fresh_empty "r")
    (histories_apart_head "r" (by simp [missingChunk, snapshotHead])) whole rfl
  exact absurd shown.1 (by decide +kernel)

end Choirworks.Frontend
