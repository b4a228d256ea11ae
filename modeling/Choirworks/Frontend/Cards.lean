import Choirworks.Frontend.Reducer

/-!
What the view shows of one artifact: the text of its message, the text of its
working bubble, and whether its stream is open. An update of the artifact moves
these three, an update of another artifact keeps them.
-/

namespace Choirworks.Frontend

universe u

/-! ### Texts under a key -/

section Keyed

variable {Row : Type u} (key text : Row → String)

/-- The texts of the rows with the key. -/
def textsOf (rows : List Row) (id : String) : List String :=
  (rows.filter fun row => key row = id).map text

variable {rows : List Row} {id other : String} {row : Row}

theorem texts_of_append (added : List Row) : textsOf key text (rows ++ added) id =
    textsOf key text rows id ++ textsOf key text added id := by
  simp [textsOf]

theorem texts_of_self (same : key row = id) : textsOf key text [row] id = [text row] := by
  simp [textsOf, same]

theorem texts_of_other (different : key row ≠ id) : textsOf key text [row] id = [] := by
  simp [textsOf, different]

theorem found_text : (rows.find? fun row => key row = id).map text =
    (textsOf key text rows id).head? := by
  rw [textsOf, List.head?_map, List.head?_filter]

theorem any_text : (rows.any fun row => key row = id) = true ↔ textsOf key text rows id ≠ [] := by
  simp [textsOf]

/-- Rows with the key that are given one text. -/
theorem texts_of_written (change : Row → Row) (written : String)
    (keeps : ∀ row, key row = id → key (change row) = id)
    (writes : ∀ row, text (change row) = written) :
    textsOf key text (rows.map fun row => if key row = id then change row else row) id =
      (textsOf key text rows id).map fun _ => written := by
  induction rows with
  | nil => rfl
  | cons row rest ih =>
      simp only [textsOf, List.map_cons, List.filter_cons] at ih ⊢
      by_cases same : key row = id
      · simp [same, keeps row same, writes, ih]
      · simp [same, ih]

theorem texts_of_elsewhere (change : Row → Row)
    (keeps : ∀ row, key row = other → key (change row) = other) (different : other ≠ id) :
    textsOf key text (rows.map fun row => if key row = other then change row else row) id =
      textsOf key text rows id := by
  induction rows with
  | nil => rfl
  | cons row rest ih =>
      simp only [textsOf, List.map_cons, List.filter_cons] at ih ⊢
      by_cases same : key row = other
      · simp [same, keeps row same, ih, different]
      · by_cases here : key row = id
        · have elsewhere : id ≠ other := here ▸ same
          simp [here, elsewhere, ih]
        · simp [same, here, ih]

theorem texts_of_removed : textsOf key text (rows.filter fun row => key row ≠ id) id = [] := by
  simp [textsOf, List.filter_filter]

theorem texts_of_kept (different : other ≠ id) :
    textsOf key text (rows.filter fun row => key row ≠ other) id = textsOf key text rows id := by
  simp only [textsOf, List.filter_filter]
  congr 1
  apply List.filter_congr
  intro row _
  by_cases same : key row = id
  · simp [same, Ne.symm different]
  · simp [same]

end Keyed

def messageTexts (messages : List ChatMessage) (id : String) : List String :=
  textsOf ChatMessage.id ChatMessage.text messages id

def bubbleTexts (bubbles : List WorkingBubble) (id : String) : List String :=
  textsOf WorkingBubble.artifactId WorkingBubble.text bubbles id

section Messages

variable {messages : List ChatMessage} {message : ChatMessage} {id other : String}

theorem message_added (same : message.id = id) :
    messageTexts (messages ++ [message]) id = messageTexts messages id ++ [message.text] := by
  rw [messageTexts, texts_of_append, texts_of_self ChatMessage.id ChatMessage.text same]
  rfl

theorem message_added_elsewhere (different : message.id ≠ id) :
    messageTexts (messages ++ [message]) id = messageTexts messages id := by
  rw [messageTexts, texts_of_append, texts_of_other ChatMessage.id ChatMessage.text different,
    List.append_nil]
  rfl

theorem message_written (written : String) :
    messageTexts (messages.map fun message =>
        if message.id = id then { message with text := written } else message) id =
      (messageTexts messages id).map fun _ => written :=
  texts_of_written ChatMessage.id ChatMessage.text
    (fun message : ChatMessage => { message with text := written }) written
    (fun _ same => same) fun _ => rfl

theorem message_written_elsewhere (written : String) (different : other ≠ id) :
    messageTexts (messages.map fun message =>
        if message.id = other then { message with text := written } else message) id =
      messageTexts messages id :=
  texts_of_elsewhere ChatMessage.id ChatMessage.text
    (fun message : ChatMessage => { message with text := written }) (fun _ same => same) different

theorem message_found : (messages.find? (·.id = id)).map (·.text) =
    (messageTexts messages id).head? :=
  found_text ChatMessage.id ChatMessage.text

theorem message_any : messages.any (·.id = id) = true ↔ messageTexts messages id ≠ [] :=
  any_text ChatMessage.id ChatMessage.text

end Messages

section Bubbles

variable {bubbles : List WorkingBubble} {bubble : WorkingBubble} {id : String}

theorem bubble_added (same : bubble.artifactId = id) :
    bubbleTexts (bubbles ++ [bubble]) id = bubbleTexts bubbles id ++ [bubble.text] := by
  rw [bubbleTexts, texts_of_append, texts_of_self WorkingBubble.artifactId WorkingBubble.text same]
  rfl

theorem bubble_added_elsewhere (different : bubble.artifactId ≠ id) :
    bubbleTexts (bubbles ++ [bubble]) id = bubbleTexts bubbles id := by
  rw [bubbleTexts, texts_of_append,
    texts_of_other WorkingBubble.artifactId WorkingBubble.text different, List.append_nil]
  rfl

theorem bubble_replaced : bubbleTexts (bubbles.map fun other =>
      if other.artifactId = bubble.artifactId then bubble else other) bubble.artifactId =
    (bubbleTexts bubbles bubble.artifactId).map fun _ => bubble.text :=
  texts_of_written WorkingBubble.artifactId WorkingBubble.text (fun _ => bubble) bubble.text
    (fun _ _ => rfl) fun _ => rfl

theorem bubble_replaced_elsewhere (different : bubble.artifactId ≠ id) :
    bubbleTexts (bubbles.map fun other =>
        if other.artifactId = bubble.artifactId then bubble else other) id =
      bubbleTexts bubbles id :=
  texts_of_elsewhere WorkingBubble.artifactId WorkingBubble.text (fun _ => bubble)
    (fun _ _ => rfl) different

theorem bubble_found : (bubbles.find? (·.artifactId = id)).map (·.text) =
    (bubbleTexts bubbles id).head? :=
  found_text WorkingBubble.artifactId WorkingBubble.text

theorem bubble_any : bubbles.any (·.artifactId = id) = true ↔ bubbleTexts bubbles id ≠ [] :=
  any_text WorkingBubble.artifactId WorkingBubble.text

end Bubbles

/-! ### Cards -/

structure Card where
  message : Option String := none
  bubble : Option String := none
  active : Bool := false

inductive Kind where
  | thought
  | reply
  | output
deriving DecidableEq

namespace Card

/-- Of a stream with no more chunks to come, nothing is open. -/
def track (active append lastChunk : Bool) : Bool :=
  if lastChunk then false else if append then active else true

/-- `terminal` says whether the artifact's node is at an end. -/
def chunk (kind : Kind) (terminal : Bool) (text : String) (append lastChunk : Bool) (card : Card) :
    Card :=
  if text = "" then card
  else
    let written := fun base : String => if append then base ++ text else text
    let active := track card.active append lastChunk
    match kind with
    | .thought | .reply => { card with message := some (written (card.message.getD "")), active }
    | .output =>
        if lastChunk && !card.active then
          { card with message := some (card.message.getD text) }
        else
          let output := written ((card.bubble <|> card.message).getD "")
          if lastChunk || terminal then ⟨some output, none, active⟩
          else ⟨card.message, some output, active⟩

end Card

/-- The view has at most one message and one bubble of the artifact, those of the card. -/
structure Shows (view : ConversationView) (id : String) (card : Card) : Prop where
  message : messageTexts view.messages id = card.message.toList
  bubble : bubbleTexts view.workingBubbles id =
    card.bubble.toList
  active : id ∈ view.activeArtifactIds ↔ card.active = true

def TextUpdate.kind (update : TextUpdate) : Kind :=
  if update.isThought then .thought
  else if update.author = "assistant" ∧ update.nodeId.getD "" = "" then .reply
  else .output

section Text

variable {view : ConversationView} {update : TextUpdate} {id : String} {card : Card} {seq : Nat}

theorem shows_bump (shows_ : Shows view id card) : Shows (bump view seq) id card :=
  ⟨shows_.message, shows_.bubble, shows_.active⟩

theorem track_self (active : List String) (update : TextUpdate) :
    update.artifactId ∈ trackStream active update ↔
      Card.track (active.contains update.artifactId) update.append update.lastChunk = true := by
  cases last : update.lastChunk with
  | true => simp [trackStream, Card.track, last]
  | false => cases append : update.append <;> simp [trackStream, Card.track, last, append]

theorem track_other (active : List String) (different : update.artifactId ≠ id) :
    id ∈ trackStream active update ↔ id ∈ active := by
  cases last : update.lastChunk with
  | true => simp [trackStream, last, Ne.symm different]
  | false =>
      cases append : update.append <;> simp [trackStream, last, append, Ne.symm different]

theorem materialize_message (bubble : WorkingBubble)
    (few : (messageTexts view.messages bubble.artifactId).length ≤ 1) :
    messageTexts (materializeBubble view bubble seq).messages
      bubble.artifactId = [bubble.text] := by
  simp only [materializeBubble]
  have found := @message_found view.messages bubble.artifactId
  cases known : view.messages.find? (·.id = bubble.artifactId) with
  | none =>
      rw [known] at found
      have none_ := List.head?_eq_none_iff.mp found.symm
      dsimp only
      rw [message_added rfl, none_]
      rfl
  | some existing =>
      rw [known] at found
      obtain ⟨rest, listed⟩ := List.head?_eq_some_iff.mp found.symm
      obtain rfl : rest = [] := by
        rw [listed, List.length_cons] at few
        exact List.length_eq_zero_iff.mp (by omega)
      dsimp only
      split
      · rename_i same
        rw [listed]
        exact congrArg (fun text => [text]) same
      · dsimp only
        rw [message_written, listed]
        rfl

theorem materialize_other (bubble : WorkingBubble) (different : bubble.artifactId ≠ id) :
    messageTexts (materializeBubble view bubble seq).messages id =
      messageTexts view.messages id := by
  simp only [materializeBubble]
  split
  · split
    · rfl
    · exact message_written_elsewhere _ different
  · exact message_added_elsewhere different

@[simp] theorem materialize_bubbles (bubble : WorkingBubble) :
    (materializeBubble view bubble seq).workingBubbles = view.workingBubbles := by
  simp only [materializeBubble]
  split
  · split <;> rfl
  · rfl

@[simp] theorem materialize_active (bubble : WorkingBubble) :
    (materializeBubble view bubble seq).activeArtifactIds = view.activeArtifactIds := by
  simp only [materializeBubble]
  split
  · split <;> rfl
  · rfl

@[simp] theorem materialize_nodes (bubble : WorkingBubble) :
    (materializeBubble view bubble seq).nodes = view.nodes := by
  simp only [materializeBubble]
  split
  · split <;> rfl
  · rfl

@[simp] theorem materialize_seen (bubble : WorkingBubble) :
    (materializeBubble view bubble seq).seenArtifactIds = view.seenArtifactIds := by
  simp only [materializeBubble]
  split
  · split <;> rfl
  · rfl

/-- Appended or written anew. -/
def TextUpdate.written (update : TextUpdate) (base : String) : String :=
  if update.append then base ++ update.text else update.text

theorem head_to_list (value : Option String) : value.toList.head? = value := by
  cases value <;> rfl

theorem Shows.found (shows_ : Shows view id card) :
    (view.messages.find? (·.id = id)).map (·.text) = card.message := by
  rw [message_found, shows_.message, head_to_list]

theorem Shows.found_bubble (shows_ : Shows view id card) :
    (view.workingBubbles.find? (·.artifactId = id)).map (·.text) = card.bubble := by
  rw [bubble_found, shows_.bubble, head_to_list]

theorem Shows.tracked (shows_ : Shows view update.artifactId card) :
    update.artifactId ∈ trackStream view.activeArtifactIds update ↔
      Card.track card.active update.append update.lastChunk = true := by
  have same : view.activeArtifactIds.contains update.artifactId = card.active := by
    rw [Bool.eq_iff_iff, List.contains_iff_mem]
    exact shows_.active
  rw [track_self, same]

theorem stream_message_self (shows_ : Shows view update.artifactId card) :
    Shows (streamMessage view update seq) update.artifactId
      { card with
        message := some (update.written (card.message.getD ""))
        active := Card.track card.active update.append update.lastChunk } := by
  have found := shows_.found
  constructor
  case message =>
    simp only [streamMessage, bump]
    cases known : view.messages.find? (·.id = update.artifactId) with
    | none =>
        rw [known, Option.map_none] at found
        dsimp only
        rw [message_added rfl, shows_.message, ← found]
        cases append : update.append <;> simp [TextUpdate.written, append]
    | some existing =>
        rw [known, Option.map_some] at found
        dsimp only
        rw [message_written, shows_.message, ← found]
        rfl
  case bubble => exact shows_.bubble
  case active => exact shows_.tracked

theorem stream_message_other (shows_ : Shows view id card) (different : update.artifactId ≠ id) :
    Shows (streamMessage view update seq) id card := by
  constructor
  case message =>
    simp only [streamMessage, bump]
    split
    · rw [message_written_elsewhere _ different]
      exact shows_.message
    · rw [message_added_elsewhere different]
      exact shows_.message
  case bubble => exact shows_.bubble
  case active => exact (track_other _ different).trans shows_.active

theorem one_shot_self (shows_ : Shows view update.artifactId card) :
    Shows (oneShotMessage view update seq) update.artifactId
      { card with message := some (card.message.getD update.text) } := by
  simp only [oneShotMessage]
  have known := @message_any view.messages update.artifactId
  rw [shows_.message] at known
  cases message : card.message with
  | some old =>
      rw [message] at known
      rw [if_pos (known.mpr (by simp))]
      exact ⟨by rw [shows_.message, message]; rfl, shows_.bubble, shows_.active⟩
  | none =>
      rw [message] at known
      rw [if_neg (fun any => known.mp any rfl)]
      refine ⟨?_, shows_.bubble, shows_.active⟩
      simp only [bump]
      rw [message_added rfl, shows_.message, message]
      rfl

theorem one_shot_other (shows_ : Shows view id card) (different : update.artifactId ≠ id) :
    Shows (oneShotMessage view update seq) id card := by
  simp only [oneShotMessage]
  split
  · exact shows_
  · refine ⟨?_, shows_.bubble, shows_.active⟩
    simp only [bump]
    rw [message_added_elsewhere different]
    exact shows_.message

theorem Shows.next_bubble (shows_ : Shows view update.artifactId card) :
    (nextBubble view update).text =
      update.written ((card.bubble <|> card.message).getD "") := by
  simp only [nextBubble, TextUpdate.written]
  rw [shows_.found, shows_.found_bubble]

/-- The view with the bubble written, before it may become a message. -/
def withBubble (view : ConversationView) (update : TextUpdate) (seq : Nat) : ConversationView :=
  let terminal := isTerminal view.nodes update.nodeId
  let bubble := nextBubble view update
  bump { view with
    activeArtifactIds := trackStream view.activeArtifactIds update
    workingBubbles :=
      if view.workingBubbles.any (·.artifactId = update.artifactId) then
        view.workingBubbles.map fun other =>
          if other.artifactId = update.artifactId then bubble else other
      else if terminal then view.workingBubbles
      else view.workingBubbles ++ [bubble]
    nodes := view.nodes.map fun node =>
      if some node.id = update.nodeId then
        { node with
          status := if terminal then node.status else "working"
          output := some bubble.text }
      else node } seq

theorem stream_bubble_eq : streamBubble view update seq =
    if update.lastChunk || isTerminal view.nodes update.nodeId then
      { materializeBubble (withBubble view update seq) (nextBubble view update) seq with
        workingBubbles := (withBubble view update seq).workingBubbles.filter
          (·.artifactId ≠ update.artifactId) }
    else withBubble view update seq := by
  simp only [streamBubble, materialize_bubbles]
  rfl

theorem stream_bubble_self (shows_ : Shows view update.artifactId card) :
    Shows (streamBubble view update seq) update.artifactId
      (let output := update.written ((card.bubble <|> card.message).getD "")
       let active := Card.track card.active update.append update.lastChunk
       if update.lastChunk || isTerminal view.nodes update.nodeId then ⟨some output, none, active⟩
       else ⟨card.message, some output, active⟩) := by
  rw [stream_bubble_eq]
  have text := shows_.next_bubble
  -- a last chunk, or the end of the node, makes the bubble a message
  split
  · constructor
    case message =>
      have few : (textsOf ChatMessage.id ChatMessage.text (withBubble view update seq).messages
          (nextBubble view update).artifactId).length ≤ 1 := by
        show (messageTexts view.messages update.artifactId).length ≤ 1
        rw [shows_.message]
        cases card.message <;> simp
      exact (materialize_message (nextBubble view update) few).trans (by rw [text]; rfl)
    case bubble => exact texts_of_removed WorkingBubble.artifactId WorkingBubble.text
    case active =>
      dsimp only
      rw [materialize_active]
      exact shows_.tracked
  · rename_i going
    constructor
    case message => exact shows_.message
    case bubble =>
      simp only [withBubble, bump]
      have known := @bubble_any view.workingBubbles update.artifactId
      rw [shows_.bubble] at known
      -- a bubble that is there is replaced in place
      cases bubble : card.bubble with
      | some old =>
          rw [bubble] at known
          have replaced := @bubble_replaced view.workingBubbles (nextBubble view update)
          rw [if_pos (known.mpr (by simp))]
          refine replaced.trans ?_
          rw [text, bubble]
          show (bubbleTexts view.workingBubbles update.artifactId).map _ = _
          rw [shows_.bubble, bubble]
          rfl
      | none =>
          rw [bubble] at known
          have added := @bubble_added view.workingBubbles (nextBubble view update)
            update.artifactId rfl
          rw [if_neg (fun any => known.mp any rfl),
            if_neg (fun terminal => going (by simp [terminal])), added, shows_.bubble, bubble, text,
            bubble]
          rfl
    case active => exact shows_.tracked

theorem with_bubble_other (shows_ : Shows view id card) (different : update.artifactId ≠ id) :
    Shows (withBubble view update seq) id card := by
  constructor
  case message => exact shows_.message
  case bubble =>
    have bubbleOther : (nextBubble view update).artifactId ≠ id := different
    simp only [withBubble, bump]
    split
    · exact (bubble_replaced_elsewhere bubbleOther).trans shows_.bubble
    · split
      · exact shows_.bubble
      · exact (bubble_added_elsewhere bubbleOther).trans shows_.bubble
  case active => exact (track_other _ different).trans shows_.active

theorem stream_bubble_other (shows_ : Shows view id card) (different : update.artifactId ≠ id) :
    Shows (streamBubble view update seq) id card := by
  have going := @with_bubble_other view update id card seq shows_ different
  rw [stream_bubble_eq]
  split
  · constructor
    case message => exact (materialize_other (nextBubble view update) different).trans going.message
    case bubble =>
      exact (texts_of_kept WorkingBubble.artifactId WorkingBubble.text different).trans going.bubble
    case active =>
      dsimp only
      rw [materialize_active]
      exact going.active
  · exact going

theorem text_self (shows_ : Shows view update.artifactId card) :
    Shows (applyText view update seq) update.artifactId
      (card.chunk update.kind (isTerminal view.nodes update.nodeId) update.text update.append
        update.lastChunk) := by
  simp only [applyText, Card.chunk]
  by_cases blank : update.text = ""
  · rw [if_pos blank, if_pos blank]
    exact shows_bump shows_
  · rw [if_neg blank, if_neg blank]
    simp only [TextUpdate.kind]
    by_cases thought : update.isThought = true
    · rw [if_pos (by simp [thought]), if_pos thought]
      exact stream_message_self shows_
    · by_cases reply : update.author = "assistant" ∧ update.nodeId.getD "" = ""
      · rw [if_pos (by simp [reply]), if_neg thought, if_pos reply]
        exact stream_message_self shows_
      · have output : ¬ (update.isThought ||
            (update.author == "assistant" && update.nodeId.getD "" == "")) = true := by
          simpa [thought] using reply
        rw [if_neg output, if_neg thought, if_neg reply]
        have closed : (update.lastChunk && update.artifactId ∉ view.activeArtifactIds) =
            (update.lastChunk && !card.active) := by
          congr 1
          rw [Bool.eq_iff_iff, decide_eq_true_iff, Bool.not_eq_true', shows_.active]
          simp
        rw [closed]
        dsimp only
        split
        · exact one_shot_self shows_
        · exact stream_bubble_self shows_

theorem text_other (shows_ : Shows view id card) (different : update.artifactId ≠ id) :
    Shows (applyText view update seq) id card := by
  simp only [applyText]
  split
  · exact shows_bump shows_
  · split
    · exact stream_message_other shows_ different
    · split
      · exact one_shot_other shows_ different
      · exact stream_bubble_other shows_ different

end Text

/-! ### Terminal nodes -/

/-- A node at work stays at work, and one at its end stays there. -/
theorem terminal_working (nodes : List TaskNodeInfo) (at_ nodeId : Option String)
    (output : Option String) :
    isTerminal (nodes.map fun node =>
        if some node.id = at_ then
          { node with
            status := if isTerminal nodes at_ then node.status else "working"
            output }
        else node) nodeId = isTerminal nodes nodeId := by
  generalize before : isTerminal nodes at_ = terminal
  have found : ∀ change : TaskNodeInfo → TaskNodeInfo, (∀ node, (change node).id = node.id) →
      (nodes.map change).find? (fun node => some node.id = nodeId) =
        (nodes.find? fun node => some node.id = nodeId).map change := by
    intro change keeps
    simp only [List.find?_map, Function.comp_def, keeps]
  rw [isTerminal, found _ (fun node => by split <;> rfl)]
  cases known : nodes.find? (fun node => some node.id = nodeId) with
  | none => simp [isTerminal, known]
  | some node =>
      have named : some node.id = nodeId := by simpa using List.find?_some known
      by_cases here : some node.id = at_
      · have same : at_ = nodeId := here.symm.trans named
        subst same
        simp only [isTerminal, known, Option.any_some] at before
        simp only [isTerminal, known, Option.map_some, Option.any_some, here, if_true]
        cases terminal with
        | true => rfl
        | false =>
            rw [before]
            simp [terminalNodeStatuses]
      · simp [isTerminal, known, here]

theorem terminal_with_bubble (view : ConversationView) (update : TextUpdate) (seq : Nat)
    (nodeId : Option String) :
    isTerminal (withBubble view update seq).nodes nodeId = isTerminal view.nodes nodeId :=
  terminal_working view.nodes update.nodeId nodeId _

/-- Texts do not move a node to its end or from it. -/
theorem terminal_kept (view : ConversationView) (update : TextUpdate) (seq : Nat)
    (nodeId : Option String) :
    isTerminal (applyText view update seq).nodes nodeId = isTerminal view.nodes nodeId := by
  simp only [applyText]
  split
  · rfl
  · split
    · rfl
    · split
      · simp only [oneShotMessage]
        split <;> rfl
      · rw [stream_bubble_eq]
        split
        · dsimp only
          rw [materialize_nodes]
          exact terminal_with_bubble view update seq nodeId
        · exact terminal_with_bubble view update seq nodeId

theorem text_seen (view : ConversationView) (update : TextUpdate) (seq : Nat) :
    (applyText view update seq).seenArtifactIds = view.seenArtifactIds := by
  simp only [applyText]
  split
  · rfl
  · split
    · rfl
    · split
      · simp only [oneShotMessage]
        split <;> rfl
      · rw [stream_bubble_eq]
        split
        · exact materialize_seen _
        · rfl

end Choirworks.Frontend
