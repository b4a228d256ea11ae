import Choirworks.Frontend.Cards

/-!
A client that follows the chunks of text artifacts, may lose the stream and come
back with a snapshot of what has been sent so far. What it shows of an artifact in
the end is a matter of how the chunks of this artifact reached it.
-/

namespace Choirworks.Frontend

/-- What the updates of each artifact carry beside their text. -/
structure Sources where
  partMetadata : String → Struct
  metadata : String → Struct
  shown : ∀ id, (partMetadata id).text? "cw_type" ∉ [some "history", some "compaction",
    some "decision"]

namespace Sources

variable (sources : Sources)

def part (id text : String) : Part := ⟨.text text, sources.partMetadata id⟩

def chunk (id text : String) (append lastChunk : Bool) : StreamEvent :=
  .artifactUpdate ⟨⟨some id, [sources.part id text], sources.metadata id⟩, append, lastChunk⟩

/-- The artifact with a part for each chunk sent so far. -/
def collected : String × List String → Artifact
  | (id, texts) => ⟨some id, texts.map (sources.part id), sources.metadata id⟩

def update (id text : String) (append lastChunk : Bool) : TextUpdate where
  artifactId := id
  nodeId := (sources.metadata id).text? "node_id"
  author := ((sources.metadata id).text? "author").getD "assistant"
  text
  isThought := (sources.partMetadata id).text? "cw_type" == some "thought"
  append
  lastChunk

def kind (id : String) : Kind := (sources.update id "" false false).kind

def terminal (view : ConversationView) (id : String) : Bool :=
  isTerminal view.nodes ((sources.metadata id).text? "node_id")

/-- The text that a snapshot brings: that of a thought has its parts on lines of their own. -/
def seed (id : String) (texts : List String) : String :=
  if sources.kind id = .thought then "\n".intercalate texts else "".intercalate texts

end Sources

/-! ### The stream -/

/-- `sent` is what the server has sent of each artifact, received or not. -/
structure Feed where
  view : ConversationView
  seq : Nat
  connected : Bool
  sent : Dict String (List String)

inductive FeedEvent where
  | chunk (id text : String) (lastChunk : Bool)
  | lose
  | reconnect (task : Task)

namespace Feed

variable (sources : Sources)

def receive (feed : Feed) (event : StreamEvent) : Feed :=
  { feed with view := applyStreamEvent feed.view event feed.seq, seq := feed.seq + 1 }

/-- The first chunk of an artifact begins it, the others append. -/
def step (feed : Feed) : FeedEvent → Feed
  | .chunk id text lastChunk =>
      let before := feed.sent.get? id
      let sent := feed.sent.set id (before.getD [] ++ [text])
      if feed.connected then
        { feed.receive (sources.chunk id text before.isSome lastChunk) with sent }
      else { feed with sent }
  | .lose => { feed with connected := false }
  | .reconnect task =>
      let artifacts := feed.sent.rows.map sources.collected
      { feed.receive (.task { task with artifacts }) with connected := true }

def run (feed : Feed) (events : List FeedEvent) : Feed := events.foldl (step sources) feed

def start (view : ConversationView) (seq : Nat) (connected : Bool) : Feed :=
  ⟨view, seq, connected, .empty⟩

end Feed

/-! ### How the chunks of one artifact arrive -/

/-- How the client has come to know an artifact. -/
inductive Opening where
  | unseen
  | live (text : String) (lastChunk : Bool)
  | snapshot (texts : List String)

structure Chunk where
  text : String
  lastChunk : Bool
  received : Bool

/-- `rest` are the chunks behind the opening. -/
structure Delivery where
  connected : Bool
  sent : List String := []
  opening : Opening := .unseen
  rest : List Chunk := []

namespace Delivery

/-- What happens to the artifact with the id. -/
def step (id : String) (delivery : Delivery) : FeedEvent → Delivery
  | .chunk other text lastChunk =>
      if other ≠ id then delivery
      else
        let sent := delivery.sent ++ [text]
        match delivery.opening with
        | .unseen =>
            if delivery.connected then { delivery with sent, opening := .live text lastChunk }
            else { delivery with sent }
        | _ =>
            { delivery with
              sent
              rest := delivery.rest ++ [⟨text, lastChunk, delivery.connected⟩] }
  | .lose => { delivery with connected := false }
  | .reconnect _ =>
      let opening :=
        match delivery.opening with
        | .unseen => if delivery.sent = [] then .unseen else .snapshot delivery.sent
        | known => known
      { delivery with connected := true, opening }

def run (id : String) (delivery : Delivery) (events : List FeedEvent) : Delivery :=
  events.foldl (step id) delivery

variable (delivery : Delivery)

def total : String := "".intercalate delivery.sent

/-- The text behind the opening that has been missed, that has come before the last
chunk, and that of the last chunk. -/
def missed : String := "".intercalate ((delivery.rest.filter (!·.received)).map (·.text))

def more : String :=
  "".intercalate ((delivery.rest.filter fun chunk => chunk.received && !chunk.lastChunk).map
    (·.text))

def lastText : String :=
  "".intercalate ((delivery.rest.filter fun chunk => chunk.received && chunk.lastChunk).map
    (·.text))

/-- A stream that is not open: `base` is a complete message, and the last chunk does not
add to a message. -/
def Closed (terminal : Bool) (base : String) : Prop :=
  if terminal then delivery.lastText = "" ∨ (base = "" ∧ delivery.more = "")
  else delivery.more = "" ∧ (base = "" ∨ delivery.lastText = "")

/-- Nothing is missed behind the opening, and the parts that have come make up one message. -/
def Complete (kind : Kind) (terminal : Bool) : Prop :=
  delivery.total ≠ "" ∧
    match kind, delivery.opening with
    | _, .unseen => False
    | .thought, .snapshot texts =>
        (texts.length = 1 ∧ delivery.missed = "") ∨
          -- what is missed later may happen to be the line breaks between the parts
          (1 < texts.length ∧
            "\n".intercalate texts ++ delivery.more ++ delivery.lastText = delivery.total)
    | .thought, .live _ _ => delivery.missed = ""
    | .reply, _ => delivery.missed = ""
    | .output, .live first _ =>
        delivery.missed = "" ∧
          if first = "" then delivery.Closed terminal ""
          else delivery.rest = [] ∨ terminal = true ∨ delivery.lastText ≠ ""
    | .output, .snapshot texts =>
        delivery.missed = "" ∧ delivery.Closed terminal ("".intercalate texts)

end Delivery

/-! ### The card of a delivery -/

/-- The text of an opening, as the view takes it up. -/
def Opening.text (kind : Kind) : Opening → String
  | .unseen => ""
  | .live text _ => text
  | .snapshot texts =>
      if kind = .thought then "\n".intercalate texts else "".intercalate texts

/-- Only a first chunk that comes by itself, with a text and with more to come, opens a
stream. -/
def Opening.streams : Opening → Bool
  | .live text false => text ≠ ""
  | _ => false

/-- The card that comes of a delivery. -/
def Delivery.card (kind : Kind) (terminal : Bool) (delivery : Delivery) : Card :=
  let base := delivery.opening.text kind
  let shown := base ++ delivery.more
  let active := delivery.opening.streams && delivery.lastText = ""
  match kind with
  | .thought | .reply => ⟨optionalText (shown ++ delivery.lastText), none, active⟩
  | .output =>
      if delivery.opening.streams then
        if delivery.lastText ≠ "" then ⟨some (shown ++ delivery.lastText), none, active⟩
        else if terminal then ⟨some shown, none, active⟩
        else ⟨none, some shown, active⟩
      else if terminal then ⟨optionalText (orText shown delivery.lastText), none, active⟩
      else
        ⟨optionalText (orText base delivery.lastText),
          if delivery.more = "" then none else some shown, active⟩

theorem joined_append (front back : List String) :
    "".intercalate (front ++ back) = "".intercalate front ++ "".intercalate back := by
  by_cases front_none : front = []
  · rw [front_none, List.nil_append, String.intercalate_nil, String.empty_append]
  · by_cases back_none : back = []
    · rw [back_none, List.append_nil, String.intercalate_nil, String.append_empty]
    · rw [String.intercalate_append_of_ne_nil front_none back_none, String.append_empty]

section Arrival

variable {kind : Kind} {terminal : Bool} {delivery : Delivery} {sent : List String}
  {text : String}

/-- The delivery with one more chunk behind the opening. -/
def Delivery.add (delivery : Delivery) (chunk : Chunk) : Delivery :=
  { delivery with rest := delivery.rest ++ [chunk] }

@[simp] theorem add_missed (chunk : Chunk) : (delivery.add chunk).missed =
    delivery.missed ++ if chunk.received then "" else chunk.text := by
  cases received : chunk.received <;>
    simp [Delivery.missed, Delivery.add, joined_append, List.filter_append, received]

@[simp] theorem add_more (chunk : Chunk) : (delivery.add chunk).more =
    delivery.more ++ if chunk.received && !chunk.lastChunk then chunk.text else "" := by
  cases added : chunk.received && !chunk.lastChunk <;>
    simp [Delivery.more, Delivery.add, joined_append, List.filter_append, added]

@[simp] theorem add_last (chunk : Chunk) : (delivery.add chunk).lastText =
    delivery.lastText ++ if chunk.received && chunk.lastChunk then chunk.text else "" := by
  cases added : chunk.received && chunk.lastChunk <;>
    simp [Delivery.lastText, Delivery.add, joined_append, List.filter_append, added]

@[simp] theorem add_opening (chunk : Chunk) : (delivery.add chunk).opening = delivery.opening :=
  rfl

/-- The card is that of the opening and of what has come behind it. -/
theorem card_same {other : Delivery} (opening : delivery.opening = other.opening)
    (rest : delivery.rest = other.rest) :
    delivery.card kind terminal = other.card kind terminal := by
  cases delivery
  cases other
  cases opening
  cases rest
  rfl

/-- A chunk that is missed shows nothing. -/
theorem card_missed (lastChunk : Bool) :
    (delivery.add ⟨text, lastChunk, false⟩).card kind terminal = delivery.card kind terminal := by
  simp [Delivery.card]

theorem optional_text_eq (blank : text ≠ "") : optionalText text = some text := if_neg blank

theorem optional_text_back (text : String) : (optionalText text).getD "" = text := by
  by_cases blank : text = ""
  · simp [optionalText, blank]
  · rw [optional_text_eq blank]
    rfl

/-- An open stream takes up every chunk, and the last one closes it. -/
theorem card_streamed (lastChunk : Bool) (going : delivery.lastText = "") (some_ : text ≠ "")
    (streams : delivery.opening.streams = true) :
    (delivery.add ⟨text, lastChunk, true⟩).card .output terminal =
      (delivery.card .output terminal).chunk .output terminal text true lastChunk := by
  cases lastChunk with
  | true =>
      cases terminal <;>
        simp [Delivery.card, Card.chunk, Card.track, some_, going, streams]
  | false =>
      cases terminal <;>
        simp [Delivery.card, Card.chunk, Card.track, some_, going, streams, String.append_assoc]

/-- Where no stream is open, the last chunk is taken for the whole message. -/
theorem card_closed (lastChunk : Bool) (going : delivery.lastText = "") (some_ : text ≠ "")
    (closed : delivery.opening.streams = false) :
    (delivery.add ⟨text, lastChunk, true⟩).card .output terminal =
      (delivery.card .output terminal).chunk .output terminal text true lastChunk := by
  have longer : ∀ base : String, base ++ text ≠ "" := by
    intro base none_
    exact some_ (String.append_eq_empty_iff.mp none_).2
  have or_empty : ∀ first : String, orText first "" = first := by
    intro first
    by_cases none_ : first = "" <;> simp [orText, none_]
  have or_some : ∀ first second : String, (optionalText first).getD second = orText first second := by
    intro first second
    by_cases none_ : first = "" <;> simp [optionalText, orText, none_]
  have or_text : ∀ first : String, orText first text ≠ "" := by
    intro first
    by_cases none_ : first = "" <;> simp [orText, none_, some_]
  cases lastChunk with
  | true =>
      cases terminal <;>
        simp [Delivery.card, Card.chunk, some_, going, closed, or_empty, or_some,
          optional_text_eq (or_text _)]
  | false =>
      cases terminal with
      | true =>
          simp [Delivery.card, Card.chunk, Card.track, some_, going, closed, or_empty,
            optional_text_back, ← String.append_assoc, optional_text_eq (longer _)]
      | false =>
          by_cases more : delivery.more = ""
          · simp [Delivery.card, Card.chunk, Card.track, some_, going, closed, or_empty,
              optional_text_back, more]
          · simp [Delivery.card, Card.chunk, Card.track, some_, going, closed, more,
              String.append_assoc]

theorem card_received (lastChunk : Bool) (going : delivery.lastText = "") :
    (delivery.add ⟨text, lastChunk, true⟩).card kind terminal =
      (delivery.card kind terminal).chunk kind terminal text true lastChunk := by
  by_cases blank : text = ""
  · cases lastChunk <;> simp [Delivery.card, Card.chunk, blank, going]
  · have shown : ∀ value : String, optionalText (value ++ text) = some (value ++ text) :=
      fun value => optional_text_eq fun none_ => blank (String.append_eq_empty_iff.mp none_).2
    cases kind with
    | thought =>
        cases lastChunk <;>
          simp [Delivery.card, Card.chunk, Card.track, blank, going, optional_text_back, shown,
            ← String.append_assoc]
    | reply =>
        cases lastChunk <;>
          simp [Delivery.card, Card.chunk, Card.track, blank, going, optional_text_back, shown,
            ← String.append_assoc]
    | output =>
        cases streams : delivery.opening.streams with
        | true => exact card_streamed lastChunk going blank streams
        | false => exact card_closed lastChunk going blank streams

theorem card_opened (connected : Bool) (lastChunk : Bool) :
    Delivery.card kind terminal ⟨connected, sent, .live text lastChunk, []⟩ =
      Card.chunk kind terminal text false lastChunk {} := by
  by_cases blank : text = ""
  · cases kind <;> cases lastChunk <;> cases terminal <;>
      simp [Delivery.card, Card.chunk, blank, Opening.text, Opening.streams, Delivery.more,
        Delivery.lastText, optionalText, orText]
  · cases kind <;> cases lastChunk <;> cases terminal <;>
      simp [Delivery.card, Card.chunk, Card.track, blank, Opening.text, Opening.streams,
        Delivery.more, Delivery.lastText, optionalText, orText]

theorem card_seeded (connected : Bool) (texts : List String) :
    Delivery.card kind terminal ⟨connected, sent, .snapshot texts, []⟩ =
      Card.chunk kind terminal (Opening.text kind (.snapshot texts)) false true {} := by
  generalize seed : Opening.text kind (.snapshot texts) = text
  by_cases blank : text = ""
  · cases kind <;> cases terminal <;>
      simp [Delivery.card, Card.chunk, seed, blank, Opening.streams, Delivery.more,
        Delivery.lastText, optionalText, orText]
  · cases kind <;> cases terminal <;>
      simp [Delivery.card, Card.chunk, Card.track, seed, blank, Opening.streams, Delivery.more,
        Delivery.lastText, optionalText, orText]

end Arrival

/-! ### When the card is complete -/

def Opening.texts : Opening → List String
  | .unseen => []
  | .live text _ => [text]
  | .snapshot texts => texts

/-- The artifact has been opened and its last chunk sent. -/
structure Delivery.Ended (delivery : Delivery) : Prop where
  opened : delivery.opening ≠ .unseen
  sums : delivery.sent = delivery.opening.texts ++ delivery.rest.map (·.text)
  some_ : delivery.opening.texts ≠ []
  single : ∀ text lastChunk, delivery.opening = .live text lastChunk →
    (lastChunk = true ↔ delivery.rest = [])
  ordered : "".intercalate ((delivery.rest.filter (·.received)).map (·.text)) =
    delivery.more ++ delivery.lastText

theorem joined_cons (text : String) (texts : List String) :
    "".intercalate (text :: texts) = text ++ "".intercalate texts := by
  rw [← List.singleton_append, joined_append, String.intercalate_singleton]

theorem joined_length (chunks : List Chunk) :
    ("".intercalate (chunks.map (·.text))).length =
      ("".intercalate ((chunks.filter (·.received)).map (·.text))).length +
        ("".intercalate ((chunks.filter (!·.received)).map (·.text))).length := by
  induction chunks with
  | nil => rfl
  | cons chunk rest ih =>
      cases received : chunk.received with
      | true => simp [joined_cons, received, ih, Nat.add_assoc]
      | false => simp [joined_cons, received, ih, Nat.add_left_comm]

/-- What has come is all exactly if what has been missed is nothing. -/
theorem received_all (chunks : List Chunk) :
    "".intercalate ((chunks.filter (·.received)).map (·.text)) =
        "".intercalate (chunks.map (·.text)) ↔
      "".intercalate ((chunks.filter (!·.received)).map (·.text)) = "" := by
  constructor
  · intro same
    have lengths := joined_length chunks
    rw [same] at lengths
    exact String.length_eq_zero_iff.mp (by omega)
  · induction chunks with
    | nil => simp
    | cons chunk rest ih =>
        intro nothing
        cases received : chunk.received with
        | true =>
            simp only [List.filter_cons, received, Bool.not_true, Bool.false_eq_true, if_false]
              at nothing
            simp [joined_cons, received, ih nothing]
        | false =>
            simp only [List.filter_cons, received, Bool.not_false, if_true, List.map_cons,
              joined_cons, String.append_eq_empty_iff] at nothing
            simp [joined_cons, received, ih nothing.2, nothing.1]

theorem optional_text_some {text wanted : String} :
    optionalText text = some wanted ↔ text = wanted ∧ wanted ≠ "" := by
  by_cases blank : text = ""
  · simp only [optionalText, blank, if_true, reduceCtorEq, false_iff]
    rintro ⟨same, some_⟩
    exact some_ same.symm
  · rw [optional_text_eq blank, Option.some.injEq]
    constructor
    · rintro rfl
      exact ⟨rfl, blank⟩
    · exact And.left

namespace Delivery.Ended

variable {delivery : Delivery} (ended : delivery.Ended)

include ended in
theorem total_eq : delivery.total =
    "".intercalate delivery.opening.texts ++ "".intercalate (delivery.rest.map (·.text)) := by
  rw [Delivery.total, ended.sums, joined_append]

include ended in
/-- The opening and what has come behind it is the whole text if nothing is missed. -/
theorem whole_iff : "".intercalate delivery.opening.texts ++ (delivery.more ++ delivery.lastText) =
    delivery.total ↔ delivery.missed = "" := by
  rw [ended.total_eq, String.append_right_inj, ← ended.ordered, received_all]
  rfl

include ended in
theorem lengths : delivery.total.length = ("".intercalate delivery.opening.texts).length +
    (delivery.more.length + delivery.lastText.length + delivery.missed.length) := by
  have parts := joined_length delivery.rest
  rw [ended.ordered, String.length_append] at parts
  rw [ended.total_eq, String.length_append, parts]
  rfl

include ended in
theorem message_iff {base : String}
    (opens : base = "".intercalate delivery.opening.texts) :
    base ++ delivery.more ++ delivery.lastText = delivery.total ↔ delivery.missed = "" := by
  rw [opens, String.append_assoc]
  exact ended.whole_iff

section Output

variable {base : String} (opens : base = "".intercalate delivery.opening.texts)
  (some_ : delivery.total ≠ "") (same : delivery.opening.text .output = base)

include ended opens some_ same

/-- Where no stream is open, the base is taken for a whole message, and so is the last
chunk. -/
theorem closed_iff (terminal : Bool) (closed : delivery.opening.streams = false) :
    ((delivery.card .output terminal).message = some delivery.total ∧
        (delivery.card .output terminal).bubble = none) ↔
      delivery.missed = "" ∧ delivery.Closed terminal base := by
  have whole := ended.message_iff opens
  have lengths := ended.lengths
  rw [← opens] at lengths
  have nothing : ∀ text : String, text.length = 0 → text = "" := fun _ none_ =>
    String.length_eq_zero_iff.mp none_
  cases terminal with
  | true =>
      simp only [Delivery.card, closed, same, Delivery.Closed, if_true, Bool.false_eq_true,
        if_false, and_true, optional_text_some, some_, ne_eq, not_false_eq_true, orText]
      -- a terminal card has the message shown so far, or else the last text
      by_cases empty : base ++ delivery.more = ""
      · rw [empty, String.empty_append] at whole
        rw [if_pos empty, whole]
        exact (and_iff_left (Or.inr (String.append_eq_empty_iff.mp empty))).symm
      · rw [if_neg empty]
        constructor
        · intro all
          rw [← all, String.length_append] at lengths
          exact ⟨nothing _ (by omega), Or.inl (nothing _ (by omega))⟩
        · rintro ⟨missed, last | both⟩
          · rw [← whole.mpr missed, last, String.append_empty]
          · exact absurd (String.append_eq_empty_iff.mpr both) empty
  | false =>
      simp only [Delivery.card, closed, same, Delivery.Closed, Bool.false_eq_true, if_false,
        optional_text_some, some_, ne_eq, not_false_eq_true, and_true, orText]
      -- chunks between the first and the last stay in the bubble
      by_cases more : delivery.more = ""
      · rw [more, String.append_empty] at whole
        rw [if_pos more, and_iff_left rfl, and_iff_right more]
        by_cases empty : base = ""
        · rw [empty, String.empty_append] at whole
          rw [if_pos empty, whole]
          exact (and_iff_left (Or.inl empty)).symm
        · rw [if_neg empty]
          constructor
          · intro all
            rw [← all] at lengths
            exact ⟨nothing _ (by omega), Or.inr (nothing _ (by omega))⟩
          · rintro ⟨missed, none_ | last⟩
            · exact absurd none_ empty
            · rw [← whole.mpr missed, last, String.append_empty]
      · rw [if_neg more]
        constructor
        · rintro ⟨_, bubble⟩
          cases bubble
        · rintro ⟨_, none_, _⟩
          exact absurd none_ more

omit some_ in
/-- An open stream gives the whole text if the last chunk has some, or its node is at an
end. -/
theorem streamed_iff (terminal : Bool) (streams : delivery.opening.streams = true) :
    ((delivery.card .output terminal).message = some delivery.total ∧
        (delivery.card .output terminal).bubble = none) ↔
      delivery.missed = "" ∧ (terminal = true ∨ delivery.lastText ≠ "") := by
  have whole := ended.message_iff opens
  by_cases last : delivery.lastText = ""
  · rw [last, String.append_empty] at whole
    cases terminal with
    | true => simp [Delivery.card, streams, same, last, whole]
    | false => simp [Delivery.card, streams, last]
  · simp [Delivery.card, streams, same, last, whole]

end Output

theorem card_message_some (kind : Kind) (terminal : Bool) :
    (delivery.card kind terminal).message ≠ some "" := by
  intro blank
  cases kind with
  | thought => exact (optional_text_some.mp blank).2 rfl
  | reply => exact (optional_text_some.mp blank).2 rfl
  | output =>
      simp only [Delivery.card] at blank
      split at blank
      · rename_i streams
        have base : delivery.opening.text .output ≠ "" := by
          cases opening : delivery.opening with
          | unseen => simp [opening, Opening.streams] at streams
          | snapshot texts => simp [opening, Opening.streams] at streams
          | live text lastChunk =>
              cases lastChunk with
              | true => simp [opening, Opening.streams] at streams
              | false => simpa [opening, Opening.streams, Opening.text] using streams
        split at blank
        · simp [base] at blank
        · split at blank
          · simp [base] at blank
          · cases blank
      · split at blank
        · exact (optional_text_some.mp blank).2 rfl
        · exact (optional_text_some.mp blank).2 rfl

/-- A thought or a reply is one message of all that has come. -/
theorem appended_iff {kind : Kind} (terminal : Bool) (appends : kind ≠ .output)
    (some_ : delivery.total ≠ "") :
    ((delivery.card kind terminal).message = some delivery.total ∧
        (delivery.card kind terminal).bubble = none) ↔
      delivery.opening.text kind ++ delivery.more ++ delivery.lastText = delivery.total := by
  cases kind with
  | output => exact absurd rfl appends
  | thought => simp [Delivery.card, optional_text_some, some_]
  | reply => simp [Delivery.card, optional_text_some, some_]

include ended in
/-- The card has the whole text in its message and no bubble. -/
theorem shown_iff (kind : Kind) (terminal : Bool) :
    ((delivery.card kind terminal).message = some delivery.total ∧
        (delivery.card kind terminal).bubble = none) ↔ delivery.Complete kind terminal := by
  by_cases some_ : delivery.total = ""
  · simp only [Delivery.Complete, some_, ne_eq, not_true_eq_false, false_and, iff_false, not_and]
    intro blank
    exact absurd blank (card_message_some kind terminal)
  · unfold Delivery.Complete
    rw [and_iff_right some_]
    cases opening : delivery.opening with
    | unseen => exact absurd opening ended.opened
    | live first lastChunk =>
        have opens : first = "".intercalate delivery.opening.texts := by
          rw [opening, Opening.texts, String.intercalate_singleton]
        have whole := ended.message_iff opens
        cases kind with
        | thought => rw [appended_iff terminal (by simp) some_, opening]; exact whole
        | reply => rw [appended_iff terminal (by simp) some_, opening]; exact whole
        | output =>
            have same : delivery.opening.text .output = first := by rw [opening, Opening.text]
            -- a blank first chunk opens no stream
            by_cases blank : first = ""
            · have closed : delivery.opening.streams = false := by
                rw [opening, blank]
                cases lastChunk <;> rfl
              rw [ended.closed_iff opens some_ same terminal closed]
              simp only [blank, if_true]
            · simp only [if_neg blank]
              cases lastChunk with
              | false =>
                  have streams : delivery.opening.streams = true := by
                    simp [opening, Opening.streams, blank]
                  have more : delivery.rest ≠ [] := fun none_ =>
                    absurd ((ended.single _ _ opening).mpr none_) (by simp)
                  rw [ended.streamed_iff opens same terminal streams]
                  simp only [more, false_or]
              | true =>
                  have closed : delivery.opening.streams = false := by rw [opening]; rfl
                  have none_ := (ended.single _ _ opening).mp rfl
                  rw [ended.closed_iff opens some_ same terminal closed]
                  simp [none_, Delivery.Closed, Delivery.more, Delivery.lastText]
    | snapshot texts =>
        have texts_eq : delivery.opening.texts = texts := by rw [opening, Opening.texts]
        have whole := ended.message_iff (congrArg ("".intercalate ·) texts_eq.symm)
        cases kind with
        | thought =>
            rw [appended_iff terminal (by simp) some_, opening]
            simp only [Opening.text, if_true]
            cases texts with
            | nil => exact absurd texts_eq ended.some_
            | cons first others =>
                -- several parts of a thought are joined by line breaks of their own
                cases others with
                | nil => simpa using whole
                | cons second others => simp
        | reply =>
            rw [appended_iff terminal (by simp) some_, opening]
            exact whole
        | output =>
            have same : delivery.opening.text .output = "".intercalate texts := by
              rw [opening]
              rfl
            have closed : delivery.opening.streams = false := by rw [opening]; rfl
            exact ended.closed_iff (congrArg ("".intercalate ·) texts_eq.symm) some_ same terminal
              closed

end Delivery.Ended

end Choirworks.Frontend
