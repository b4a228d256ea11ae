import Choirworks.Frontend.View

/-!
How one stream event changes the view of a conversation. A clock reading in a
message or a member is left out; a member without a time has joined now.
-/

namespace Choirworks.Frontend

def bump (view : ConversationView) (seq : Nat) : ConversationView :=
  { view with lastSeq := max view.lastSeq seq }

def terminalNodeStatuses : List String := ["completed", "failed", "canceled", "invalidated"]

/-- `first || second`. -/
def orText (first second : String) : String := if first = "" then second else first

def optionalText (value : String) : Option String := if value = "" then none else some value

/-! ### Notices of decisions -/

/-- The text between `opening` and the next `]`, and what follows `closing`. -/
def bracketed (opening closing : String) (text : List Char) : Option (List Char × List Char) :=
  match Text.afterPrefix opening.toList text with
  | none => none
  | some rest =>
      let inside := rest.takeWhile (· ≠ ']')
      if inside = [] then none
      else (Text.afterPrefix closing.toList (rest.dropWhile (· ≠ ']'))).map (inside, ·)

/-- What `.` does not match. -/
def endsLine (char : Char) : Bool :=
  char == '\n' || char == '\r' || char == '\u2028' || char == '\u2029'

def isWord (char : Char) : Bool := char.isAlphanum || char == '_'

def decisionNotice (text : String) : Option (String × String) :=
  let assist := (bracketed "[assistance:" "] target=" text.toList).filter fun found =>
    found.2 ≠ [] && found.2.all (!endsLine ·)
  let outcome := (bracketed "[outcome:" "] " text.toList).filter fun found =>
    found.2 ≠ [] && found.2.all isWord
  match assist, outcome with
  | some (nodeId, target), _ =>
      let target := String.ofList target
      let action := if target = "human" then "升级人工确认" else "转交 @" ++ target ++ " 协助"
      some ("orchestration.assist", action ++ "（" ++ String.ofList nodeId ++ "）")
  | none, some (nodeId, intent) =>
      if String.ofList intent = "need_info" then
        some ("orchestration.outcome", "需要补充信息（" ++ String.ofList nodeId ++ "）")
      else if String.ofList intent = "revise" then
        some ("orchestration.outcome", "根据反馈修订计划（" ++ String.ofList nodeId ++ "）")
      else none
  | none, none =>
      if (Text.afterPrefix "[repair]".toList text.toList).isSome then
        some ("orchestration.repair", "计划已自动修复")
      else none

/-! ### State deltas -/

def materializeBubble (view : ConversationView) (bubble : WorkingBubble) (seq : Nat) :
    ConversationView :=
  match view.messages.find? (·.id = bubble.artifactId) with
  | some existing =>
      if existing.text = bubble.text then view
      else
        { view with
          messages := view.messages.map fun message =>
            if message.id = bubble.artifactId then { message with text := bubble.text }
            else message }
  | none =>
      { view with
        messages := view.messages ++ [{
          id := bubble.artifactId
          role := .agent
          sender := optionalText bubble.author
          text := bubble.text
          mentions := []
          quoteId := none
          nodeId := optionalText bubble.nodeId
          taskId := some view.taskId
          seq
          thinking := false }] }

def patchNode (changes : Struct) (node : TaskNodeInfo) : TaskNodeInfo :=
  { node with
    status := (changes.text? "status").getD node.status
    output := changes.text? "output" <|> node.output
    error := changes.text? "error" <|> node.error
    inputText := changes.text? "input_text" <|> node.inputText }

def applyNodeChange (nodes : List TaskNodeInfo) : String × Struct → List TaskNodeInfo
  | (id, changes) =>
      if nodes.any (·.id = id) then
        nodes.map fun node => if node.id = id then patchNode changes node else node
      else
        nodes ++ [{
          id
          name := changes.coerced "name" (changes.coerced "agent_name" "")
          agentName := changes.coerced "agent_name" ""
          status := (changes.text? "status").getD "pending"
          output := changes.text? "output"
          error := changes.text? "error"
          inputText := changes.text? "input_text" }]

def terminalIds (nodes : List TaskNodeInfo) : List String :=
  (nodes.filter (·.status ∈ terminalNodeStatuses)).map (·.id)

/-- The bubbles of terminal nodes become messages. -/
def materializeBubbles (view : ConversationView) (ids : List String) (seq : Nat) :
    ConversationView :=
  view.workingBubbles.foldl
    (fun view bubble => if bubble.nodeId ∈ ids then materializeBubble view bubble seq else view)
    view

def applyMembers (contextId : String) (members : List RoomMember) (delta : List Struct) :
    List RoomMember :=
  members ++ delta.filterMap fun member =>
    let agentName := member.coerced "agent_name" ""
    if agentName = "" ∨ members.any (·.agentName = agentName) then none
    else some {
      conversationId := contextId
      agentName
      reason := member.text? "reason"
      joinedAt := (member.text? "joined_at").bind optionalText }

def interventionOf (prev : Option InterventionInfo) (id : String) (changes : Struct) :
    InterventionInfo where
  id
  status := orText ((changes.text? "status").getD "")
    (orText ((prev.map (·.status)).getD "") "pending")
  nodeId := orText ((changes.text? "node_id").getD "") ((prev.map (·.nodeId)).getD "")
  kind := orText ((changes.text? "kind").getD "") (orText ((prev.map (·.kind)).getD "") "question")
  question := (changes.text? "question").bind optionalText <|> prev.bind (·.question)

def questionOf (prev : Option QuestionInfo) (id : String) (changes : Struct) (seq : Nat) :
    QuestionInfo where
  id
  nodeId := orText ((changes.text? "node_id").getD "") ((prev.map (·.nodeId)).getD "")
  requester := requesterName (changes.text? "requester" <|> prev.map (·.requester))
  kind := orText ((changes.text? "kind").getD "") (orText ((prev.map (·.kind)).getD "") "question")
  question := orText ((changes.text? "question").getD "") ((prev.map (·.question)).getD "")
  questionType :=
    match changes.text? "question_type" with
    | some rawType => questionTypeOf rawType
    | none => (prev.map (·.questionType)).getD .input
  options :=
    match changes.items? "options" with
    | some items => items.map toText
    | none => (prev.map (·.options)).getD []
  multi :=
    match Json.get? changes "multi" with
    | some (.bool value) => value
    | _ => (prev.map (·.multi)).getD false
  status := orText ((changes.text? "status").getD "")
    (orText ((prev.map (·.status)).getD "") "pending")
  answer := (Json.get? changes "answer").getD ((prev.map (·.answer)).getD .null)
  seq := (prev.map (·.seq)).getD seq

/-- The notice of a transition, derived from the status the delta brings. -/
def interventionNotice (prev : Option InterventionInfo) (id : String) (changes : Struct)
    (seq : Nat) : Option SystemNotification :=
  let status := (changes.text? "status").getD ""
  let nodeId := (changes.text? "node_id").getD ""
  let waiting := prev.all (·.status = "pending")
  let knownNode := optionalText (orText nodeId ((prev.map (·.nodeId)).getD ""))
  if prev.isNone ∧ status = "pending" ∧ (changes.text? "kind").getD "" = "confirm_cancel" then
    some {
      id := "sys-intervention-" ++ id
      kind := "intervention.requested"
      text := "待确认：" ++ (changes.text? "question").getD ""
      nodeId := optionalText nodeId
      seq }
  else if status = "resolved" ∧ waiting then
    some {
      id := "sys-intervention-" ++ id ++ "-resolved"
      kind := "intervention.resolved"
      text := "人工答复已回填，任务继续"
      nodeId := knownNode
      seq }
  else if status = "expired" ∧ waiting then
    some {
      id := "sys-intervention-" ++ id ++ "-expired"
      kind := "intervention.expired"
      text := "该确认已无需处理"
      nodeId := knownNode
      seq }
  else none

def applyQuestionChange (seq : Nat) (questions : Dict String QuestionInfo) :
    String × Struct → Dict String QuestionInfo
  | (id, changes) => questions.set id (questionOf (questions.get? id) id changes seq)

def applyStateDelta (view : ConversationView) (delta : StateDelta) (state : String) (seq : Nat) :
    ConversationView :=
  let nodes := delta.nodes.rows.foldl applyNodeChange view.nodes
  let ids := terminalIds nodes
  let materialized := materializeBubbles view ids seq
  { materialized with
    state
    nodes
    members := applyMembers view.contextId view.members delta.members
    interventions := delta.interventions.rows.foldl
      (fun interventions (id, changes) =>
        interventions.set id (interventionOf (view.interventions.get? id) id changes))
      view.interventions
    questions := delta.interventions.rows.foldl (applyQuestionChange seq) view.questions
    workingBubbles := view.workingBubbles.filter (·.nodeId ∉ ids)
    notifications := materialized.notifications ++
      delta.interventions.rows.filterMap fun (id, changes) =>
        interventionNotice (view.interventions.get? id) id changes seq
    lastSeq := max view.lastSeq seq }

/-! ### Function calls -/

def notify (view : ConversationView) (notice : SystemNotification) (seq : Nat) :
    ConversationView :=
  bump { view with notifications := view.notifications ++ [notice] } seq

def createPlan (view : ConversationView) (args result : Struct) (seq : Nat) : ConversationView :=
  if result.isBool "success" false then
    notify view {
      id := "sys-plan-fail-" ++ toString seq
      kind := "plan.failed"
      text := "计划失败：" ++ (result.text? "error").getD "计划失败"
      seq } seq
  else
    let nodes : List TaskNodeInfo := (args.structs "nodes").map fun node => {
      id := node.coerced "id" ""
      name := node.coerced "name" ""
      agentName := node.coerced "agent_name" ""
      status := "pending"
      inputText := (node.inner "input").text? "text" }
    notify { view with nodes } {
      id := "sys-plan-" ++ toString seq
      kind := "plan.created"
      text := "执行计划：" ++ toString nodes.length ++ " 个节点"
      seq } seq

def revisePlan (view : ConversationView) (args result : Struct) (seq : Nat) : ConversationView :=
  let reason := (args.text? "reason").getD ""
  let data := result.inner "data"
  let invalidated := ((data.items? "invalidated").getD []).map toText
  let added : List TaskNodeInfo := (data.structs "added_nodes").map fun node => {
    id := node.coerced "id" ""
    name := node.coerced "name" ""
    agentName := node.coerced "agent_name" ""
    status := "pending"
    inputText := node.text? "input_text" }
  let nodes := (view.nodes.map fun node =>
      if node.id ∈ invalidated then { node with status := "invalidated" } else node) ++
    added.filter fun node => !view.nodes.any (·.id = node.id)
  let changes :=
    (if invalidated.length > 0 then ["作废 " ++ toString invalidated.length ++ " 个节点"] else []) ++
    (if added.length > 0 then ["新增 " ++ toString added.length ++ " 个节点"] else [])
  notify { view with nodes } {
    id := "sys-revised-" ++ toString seq
    kind := "plan.revised"
    text := "计划已修订：" ++ orText ("，".intercalate changes) "无变化" ++
      (if reason = "" then "" else "（" ++ reason ++ "）")
    seq } seq

/-- Dispatches next to each other share one message. -/
def postDispatch (view : ConversationView) (artifactId line : String) (seq : Nat) :
    ConversationView :=
  match view.messages.getLast?.filter (·.dispatch) with
  | some last =>
      if line.toList ∈ Text.split '\n' last.text.toList then bump view seq
      else
        bump { view with
          messages := view.messages.map fun message =>
            if message.id = last.id then { message with text := message.text ++ "\n" ++ line }
            else message } seq
  | none =>
      bump { view with
        messages := view.messages ++ [{
          id := "dispatch-" ++ artifactId
          role := .assistant
          sender := none
          text := line
          mentions := []
          quoteId := none
          nodeId := none
          taskId := some view.taskId
          seq
          thinking := false
          dispatch := true }] } seq

def dispatchLine (agent instruction : String) : String :=
  "- @" ++ agent ++ (if instruction = "" then "" else " " ++ instruction)

def callSubagent (view : ConversationView) (artifactId : String) (args result : Struct)
    (seq : Nat) : ConversationView :=
  let target := (args.text? "target_agent").getD ""
  let instruction := (args.text? "instruction").getD ""
  if (args.text? "requested_by").getD "" = "assistant" then
    postDispatch view artifactId (dispatchLine target instruction) seq
  else if view.messages.any (·.id = artifactId) then view
  else
    let helperNodeId := (result.inner "data").coerced "helper_node_id"
      (result.coerced "helper_node_id" "")
    let nodes :=
      if view.nodes.any (·.id = helperNodeId) then view.nodes
      else view.nodes ++ [{
        id := helperNodeId
        name := target
        agentName := target
        status := "pending"
        inputText := optionalText instruction }]
    { postDispatch view artifactId (dispatchLine target instruction) seq with nodes }

def joinMembers (view : ConversationView) (args result : Struct) (seq : Nat) : ConversationView :=
  let joined := (((result.inner "data").items? "joined" <|> args.items? "names").getD []).map toText
  let notified := (view.notifications.filter (·.kind = "room.participant_joined")).map (·.agentName)
  bump { view with
    notifications := view.notifications ++
      (joined.filter fun name => name ≠ "" ∧ some name ∉ notified).map fun name => {
        id := "sys-join-" ++ name ++ "-" ++ toString seq
        kind := "room.participant_joined"
        text := name ++ " 加入了群聊"
        agentName := some name
        seq } } seq

/-- Calls of other functions are shown as what text they have. -/
def functionCall (view : ConversationView) (artifactId : String) (data : Struct) (seq : Nat) :
    Option ConversationView :=
  let args := data.inner "function_args"
  let result := data.inner "function_result"
  match (data.text? "function_name").getD "" with
  | "create_plan" => some (createPlan view args result seq)
  | "revise_plan" => some (revisePlan view args result seq)
  | "call_subagent" => some (callSubagent view artifactId args result seq)
  | "join_members" => some (joinMembers view args result seq)
  | _ => none

/-! ### Artifacts -/

/-- What the text paths read from an artifact update. -/
structure TextUpdate where
  artifactId : String
  nodeId : Option String
  author : String
  text : String
  isThought : Bool
  append : Bool
  lastChunk : Bool

/-- A first chunk with more to come opens the stream of its artifact, the last closes it. -/
def trackStream (active : List String) (update : TextUpdate) : List String :=
  let opened :=
    if !update.append && !update.lastChunk then active.insert update.artifactId else active
  if update.lastChunk then opened.filter (· ≠ update.artifactId) else opened

/-- A planner thought or a direct reply. -/
def streamMessage (view : ConversationView) (update : TextUpdate) (seq : Nat) :
    ConversationView :=
  bump { view with
    activeArtifactIds := trackStream view.activeArtifactIds update
    messages :=
      match view.messages.find? (·.id = update.artifactId) with
      | some existing =>
          let newText := if update.append then existing.text ++ update.text else update.text
          view.messages.map fun message =>
            if message.id = update.artifactId then { message with text := newText } else message
      | none => view.messages ++ [{
          id := update.artifactId
          role := .assistant
          sender := if update.isThought then some update.author else none
          text := update.text
          mentions := []
          quoteId := none
          nodeId := update.nodeId
          taskId := some view.taskId
          seq
          thinking := update.isThought }] } seq

/-- A complete message, as replayed. -/
def oneShotMessage (view : ConversationView) (update : TextUpdate) (seq : Nat) :
    ConversationView :=
  if view.messages.any (·.id = update.artifactId) then view
  else
    bump { view with
      messages := view.messages ++ [{
        id := update.artifactId
        role := if update.author = "assistant" then .assistant else .agent
        sender := if update.author = "assistant" then none else some update.author
        text := update.text
        mentions := []
        quoteId := none
        nodeId := update.nodeId
        taskId := some view.taskId
        seq
        thinking := false }] } seq

def isTerminal (nodes : List TaskNodeInfo) (nodeId : Option String) : Bool :=
  (nodes.find? fun node => some node.id = nodeId).any (·.status ∈ terminalNodeStatuses)

/-- The output of a node so far. -/
def nextBubble (view : ConversationView) (update : TextUpdate) : WorkingBubble :=
  let existing := view.workingBubbles.find? (·.artifactId = update.artifactId)
  let existingMessage := view.messages.find? (·.id = update.artifactId)
  let base := (existing.map (·.text) <|> existingMessage.map (·.text)).getD ""
  { artifactId := update.artifactId
    nodeId := update.nodeId.getD ""
    author := update.author
    text := if update.append then base ++ update.text else update.text }

/-- A chunk of a node's output. The last one, and each of a terminal node, makes
the bubble a message. -/
def streamBubble (view : ConversationView) (update : TextUpdate) (seq : Nat) : ConversationView :=
  let terminal := isTerminal view.nodes update.nodeId
  let bubble := nextBubble view update
  let next := bump { view with
    activeArtifactIds := trackStream view.activeArtifactIds update
    workingBubbles :=
      if view.workingBubbles.any (·.artifactId = update.artifactId) then
        view.workingBubbles.map fun other =>
          if other.artifactId = update.artifactId then bubble else other
      else if terminal then view.workingBubbles
      else view.workingBubbles ++ [bubble]
    nodes := view.nodes.map fun node =>
      if some node.id = update.nodeId then
        { node with
          status := if terminal then node.status else "working"
          output := some bubble.text }
      else node } seq
  if update.lastChunk || terminal then
    let sealed := materializeBubble next bubble seq
    { sealed with
      workingBubbles := sealed.workingBubbles.filter (·.artifactId ≠ update.artifactId) }
  else next

def applyText (view : ConversationView) (update : TextUpdate) (seq : Nat) : ConversationView :=
  if update.text = "" then bump view seq
  else if update.isThought || (update.author == "assistant" && update.nodeId.getD "" == "") then
    streamMessage view update seq
  else if update.lastChunk && update.artifactId ∉ view.activeArtifactIds then
    oneShotMessage view update seq
  else streamBubble view update seq

def partMetadata (parts : List Part) : Struct := (parts.head?.map (·.metadata)).getD []

def textUpdateOf (update : ArtifactUpdate) (seq : Nat) : TextUpdate where
  artifactId := update.artifact.artifactId.getD ("art-" ++ toString seq)
  nodeId := update.artifact.metadata.text? "node_id"
  author := (update.artifact.metadata.text? "author").getD "assistant"
  text := textOfParts update.artifact.parts
  isThought := (partMetadata update.artifact.parts).text? "cw_type" == some "thought"
  append := update.append
  lastChunk := update.lastChunk

/-- The data of an artifact that records a function call. -/
def functionCallData (parts : List Part) : Option Struct :=
  match parts with
  | ⟨.data data, metadata⟩ :: _ =>
      if metadata.text? "cw_type" = some "function_call" then some data else none
  | _ => none

def applyArtifactUpdate (view : ConversationView) (update : ArtifactUpdate) (seq : Nat) :
    ConversationView :=
  let parts := update.artifact.parts
  let text := textUpdateOf update seq
  match (partMetadata parts).text? "cw_type" with
  | some "history" => bump view seq
  | some "compaction" => bump view seq
  | some "decision" =>
      match decisionNotice text.text with
      | none => bump view seq
      | some (kind, notice) =>
          notify view { id := "sys-decision-" ++ toString seq, kind, text := notice, seq } seq
  | _ =>
      ((functionCallData parts).bind fun data => functionCall view text.artifactId data seq).getD
        (applyText view text seq)

/-- What a snapshot has of an artifact, as one complete update: a function call or
a thought as it is, other text in one part. -/
def synthesizeArtifactUpdate (artifact : Artifact) : ArtifactUpdate :=
  let isThought := (partMetadata artifact.parts).text? "cw_type" = some "thought"
  if (functionCallData artifact.parts).isSome ∨ isThought then ⟨artifact, false, true⟩
  else
    let mergedText := "".intercalate (artifact.parts.map Part.text)
    ⟨{ artifact with parts := [⟨.text mergedText, partMetadata artifact.parts⟩] }, false, true⟩

/-! ### Events -/

def messageOf (message : Message) (role : ChatRole) (seq : Nat) : ChatMessage :=
  let room := roomMetaOf message.metadata
  { id := message.messageId.getD ""
    role
    sender := room.text? "sender"
    text := textOfParts message.parts
    mentions := ((room.items? "mentions").getD []).map toText
    quoteId := room.text? "quote_id"
    nodeId := room.text? "node_id"
    taskId := message.taskId
    seq
    thinking := false }

/-- What the loop over the history has found so far. -/
structure HistoryScan where
  seenIds : List String
  newMessages : List ChatMessage
  questions : List QuestionInfo

def scanMessage (seq : Nat) (scan : HistoryScan) (message : Message) : HistoryScan :=
  let id := message.messageId.getD ""
  let infos := questionPartsOf message.parts
  if infos ≠ [] then
    { scan with questions := scan.questions ++ infos, seenIds := scan.seenIds.insert id }
  else if isQuestionResponse message.parts then { scan with seenIds := scan.seenIds.insert id }
  else if id ∈ scan.seenIds then scan
  else
    let sender := (roomMetaOf message.metadata).text? "sender"
    let role : ChatRole :=
      if message.role = .user then .user
      else if sender = some "assistant" then .assistant
      else .agent
    { scan with
      seenIds := scan.seenIds.insert id
      newMessages := scan.newMessages ++ [messageOf message role seq] }

/-- One artifact of a snapshot, unless it has been seen. -/
def seedArtifact (seq : Nat) (seeded : ConversationView × List String) (artifact : Artifact) :
    ConversationView × List String :=
  let artifactId := artifact.artifactId.getD ""
  if artifactId = "" ∨ artifactId ∈ seeded.2 then seeded
  else
    (applyArtifactUpdate seeded.1 (synthesizeArtifactUpdate artifact) seq,
      seeded.2.insert artifactId)

/-- The view with the history of a snapshot. -/
def mergeHistory (view : ConversationView) (task : Task) (seq : Nat) : ConversationView :=
  let scan := task.history.foldl (scanMessage seq) ⟨view.messages.map (·.id), [], []⟩
  { view with
    taskId := task.id.getD ""
    state := stateName (task.status.bind (·.state))
    messages := view.messages ++ scan.newMessages
    questions := upsertQuestions view.questions scan.questions seq
    contextId := task.contextId.getD view.contextId
    lastSeq := max view.lastSeq seq }

def applyTask (view : ConversationView) (task : Task) (seq : Nat) : ConversationView :=
  let next := mergeHistory view task seq
  let (seeded, seenArtifactIds) :=
    task.artifacts.foldl (seedArtifact seq) (next, next.seenArtifactIds)
  { seeded with seenArtifactIds }

/-- The message of a status: questions, or else a thought. -/
def applyStatusMessage (view : ConversationView) (message : Message) (state : String)
    (seq : Nat) : ConversationView :=
  let moved := bump { view with state } seq
  let infos := questionPartsOf message.parts
  let text := textOfParts message.parts
  if infos ≠ [] then { moved with questions := upsertQuestions view.questions infos seq }
  else if text = "" then moved
  else
    let room := roomMetaOf message.metadata
    let id := message.messageId.getD ("thought-" ++ toString seq)
    if view.messages.any (·.id = id) then view
    else
      { moved with
        messages := view.messages ++ [{
          id
          role := .assistant
          sender := some ((room.text? "sender").getD "assistant")
          text
          mentions := []
          quoteId := none
          nodeId := room.text? "node_id"
          taskId := some view.taskId
          seq
          thinking := true }] }

def rejectQuestion (view : ConversationView) (interventionId reason : String) :
    Dict String QuestionInfo :=
  match view.questions.get? interventionId with
  | none => view.questions
  | some question =>
      if interventionId = "" then view.questions
      else
        view.questions.set interventionId
          { question with status := "rejected", error := some reason }

def applyStatusUpdate (view : ConversationView) (update : StatusUpdate) (seq : Nat) :
    ConversationView :=
  let state := stateName ((update.status.bind (·.state)) <|> some view.state)
  match update.cwDelta with
  | some delta => applyStateDelta view delta state seq
  | none =>
      match update.metadata.text? "intervention_id" with
      | some interventionId =>
          bump { view with
            state
            questions :=
              rejectQuestion view interventionId ((update.metadata.text? "reason").getD "") } seq
      | none =>
          match update.status.bind (·.message) with
          | some message => applyStatusMessage view message state seq
          | none => bump { view with state } seq

def applyMessage (view : ConversationView) (message : Message) (seq : Nat) : ConversationView :=
  let role : ChatRole := if message.role = .user then .user else .agent
  let chatMessage := messageOf message role seq
  if view.messages.any (·.id = chatMessage.id) then view
  else bump { view with messages := view.messages ++ [chatMessage] } seq

def applyStreamEventInner (view : ConversationView) (event : StreamEvent) (seq : Nat) :
    ConversationView :=
  match event with
  | .task task => applyTask view task seq
  | .statusUpdate update => applyStatusUpdate view update seq
  | .artifactUpdate update => applyArtifactUpdate view update seq
  | .message message => applyMessage view message seq
  | .other => view

/-- Artifacts that come by themselves are noted as seen. -/
def applyStreamEvent (view : ConversationView) (event : StreamEvent) (seq : Nat) :
    ConversationView :=
  let result := applyStreamEventInner view event seq
  match event with
  | .artifactUpdate update =>
      let artifactId := update.artifact.artifactId.getD ""
      if artifactId = "" then result
      else { result with seenArtifactIds := result.seenArtifactIds.insert artifactId }
  | _ => result

end Choirworks.Frontend
