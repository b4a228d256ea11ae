import Choirworks.Library.Runs
import Choirworks.LlmFlows.Contents
import Choirworks.LlmFlows.LiteLlm

/-!
The loop of an LLM agent that runs as a node: each round asks the model with the
conversation so far, hands on what it answers, and runs the tools it calls. A
round is a label of a run: it has what the model and the tools answer.
-/

namespace Choirworks.LlmFlows

/-- The agent; `outputSchema` is `validate_schema` on its schema, if it has one. -/
structure LLMAgent where
  name : String
  instruction : String := ""
  tools : List String := []
  maxRetries : Int := 3
  outputSchema : Option (String → Except String Json) := none

/-- What the node runner writes on the events of the node. -/
structure NodeContext where
  path : String := ""
  branch : Option String := none
  isolationScope : Option String := none

structure LLMRequest where
  messages : List ChatMessage
  tools : List String
  systemInstruction : Option String
deriving DecidableEq

/-- The messages that the client sends for a request. -/
def LLMRequest.sent (request : LLMRequest) : List ChatMessage :=
  (filled request.systemInstruction).toList.map ChatMessage.system ++ request.messages

/-- One round: what the model answers, in one or many responses, or how asking
it failed behind them, and what the tools return for the calls. -/
structure Round where
  artifactIds : Nat → String
  responses : List LLMResponse
  failure : Option String := none
  results : Nat → Except String Json

/-- What the responses add up to. -/
structure Answer where
  thoughts : List String := []
  texts : List String := []
  calls : List FunctionCall := []
  errorMessage : String := ""

namespace Answer

def addPart (answer : Answer) (part : LLMResponsePart) : Answer :=
  { answer with
    thoughts := answer.thoughts ++ (if part.thought then part.text.toList else [])
    texts := answer.texts ++ (if part.thought then [] else part.text.toList)
    calls := answer.calls ++ part.functionCall.toList }

/-- A response without contents is passed over, with its error. -/
def add (answer : Answer) (response : LLMResponse) : Answer :=
  match response.content with
  | none => answer
  | some parts =>
      let added := parts.foldl addPart answer
      if texted response.errorCode then
        { added with errorMessage := response.errorMessage.getD "" }
      else added

def text (answer : Answer) : String := Text.join "" answer.texts

/-- `close`: the parts of the final response. -/
def finalParts (answer : Answer) : List LLMResponsePart :=
  (if answer.thoughts ≠ [] then
    [{ text := some (Text.join "" answer.thoughts), thought := true }]
  else []) ++
  (if answer.texts ≠ [] then [{ text := some answer.text, thought := false }] else []) ++
  answer.calls.map fun call => { functionCall := some call }

end Answer

def answerOf (responses : List LLMResponse) : Answer := responses.foldl Answer.add {}

inductive Phase where
  | running | finished
  | raised (text : String)
deriving DecidableEq

/-- A run of the agent: the events it reads its conversation from, those it has
yielded, the requests it has made, and the output of its node. -/
structure AgentRun where
  events : List Event
  yielded : List Event := []
  requests : List LLMRequest := []
  retryCount : Nat := 0
  output : Option Json := none
  phase : Phase := .running

section Loop

variable (host : Host) (agent : LLMAgent) (ctx : NodeContext)

/-- The author of an event of the agent, and `_enrich_event`. -/
def enrich (event : Event) : Event :=
  let found := event.metadata
  event.withMeta
    { author := if found.author = "" then agent.name else found.author
      path := if found.path = "" then ctx.path else found.path
      branch := found.branch <|> ctx.branch
      isolationScope := found.isolationScope <|> ctx.isolationScope }

/-- `process_llm_agent_output`: the text of a final artifact without calls is
the output of the node. -/
def processOutput (output : Option Json) (event : Event) : Except String (Option Json) :=
  if event.isFinalArtifact ∧ !event.hasFunctionCalls then
    let text := event.extractText
    match agent.outputSchema with
    | none => .ok (some (.string text))
    | some validate => if Text.strip text.toList = [] then .ok none else (validate text).map some
  else .ok output

namespace AgentRun

def stop (run : AgentRun) (phase : Phase) : AgentRun :=
  if run.phase = .running then { run with phase } else run

/-- An event on its way out: complete ones join the conversation. -/
def emit (run : AgentRun) (event : Event) : AgentRun :=
  if run.phase ≠ .running then run
  else
    let event := enrich agent ctx event
    let events := if event.isPartial then run.events else run.events ++ [event]
    match processOutput agent run.output event with
    | .ok output => { run with events, yielded := run.yielded ++ [event], output }
    | .error text => { run with events, phase := .raised text }

/-- The responses as they come in, as appends to one artifact. -/
def stream (artifactId : String) : AgentRun → Answer → List LLMResponse → AgentRun
  | run, _, [] => run
  | run, answer, response :: rest =>
      match response.content with
      | none => stream artifactId run answer rest
      | some _ =>
          let append : Bool := answer.thoughts ≠ [] ∨ answer.texts ≠ []
          let event := toA2aArtifact host.stored response artifactId append false
          stream artifactId (run.emit agent ctx event) (answer.add response) rest

end AgentRun

/-- What validating a final text gives; only a reply without calls is validated. -/
def structured (answer : Answer) : Except String (Option Json) :=
  match agent.outputSchema with
  | some validate => if answer.calls = [] then (validate answer.text).map some else .ok none
  | none => .ok none

def errorResponse (text : String) : Json := .object [("error", .string text)]

/-- A tool result that is not a mapping is put into one. -/
def normalized : Json → Json
  | .object fields => .object fields
  | other => .object [("result", other)]

/-- The event that answers a call. -/
def responseEvent (artifactId : String) (call : FunctionCall) (response : Json) : Event :=
  toA2aArtifact host.stored (.fromFunctionResponse call response) artifactId false true

namespace AgentRun

/-- Every call of a malformed answer is answered with the error. -/
def rejectCalls (artifactIds : Nat → String) (error : String) : Nat → AgentRun → List FunctionCall → AgentRun
  | _, run, [] => run
  | index, run, call :: rest =>
      let event := responseEvent host (artifactIds (index + 1)) call (errorResponse error)
      rejectCalls artifactIds error (index + 1) (run.emit agent ctx event) rest

/-- A malformed answer is counted; the last retry ends the loop. -/
def retry (run : AgentRun) : AgentRun :=
  let counted := { run with retryCount := run.retryCount + 1 }
  if agent.maxRetries ≤ counted.retryCount then counted.stop .finished else counted

/-- `_execute_tools`: an unknown tool or a failing one ends the run. -/
def executeTools (artifactIds : Nat → String) (results : Nat → Except String Json) :
    Nat → AgentRun → List FunctionCall → AgentRun
  | _, run, [] => run
  | index, run, call :: rest =>
      if call.name ∉ agent.tools then run.stop (.raised call.name)
      else
        match results index with
        | .error text => run.stop (.raised text)
        | .ok result =>
            let event :=
              responseEvent host (artifactIds (index + 1)) call (normalized result)
            executeTools artifactIds results (index + 1) (run.emit agent ctx event) rest

/-- The final response of a round, where there is one. -/
def close (run : AgentRun) (round : Round) (answer : Answer) : AgentRun :=
  match answer.finalParts with
  | [] => run
  | parts =>
      run.emit agent ctx
        (toA2aArtifact host.stored { content := some parts } (round.artifactIds 0) false true)

/-- What follows the answer of the model. -/
def answered (run : AgentRun) (round : Round) (answer : Answer) : AgentRun :=
  match structured agent answer with
  | .error text => run.stop (.raised text)
  | .ok _ =>
      let closed := run.close host agent ctx round answer
      if answer.calls = [] then closed.stop .finished
      else if answer.errorMessage ≠ "" then
        (closed.rejectCalls host agent ctx round.artifactIds answer.errorMessage 0 answer.calls).retry agent
      else closed.executeTools host agent ctx round.artifactIds round.results 0 answer.calls

def request (run : AgentRun) (messages : List ChatMessage) : AgentRun :=
  { run with
    requests := run.requests ++
      [{ messages, tools := agent.tools, systemInstruction := filled agent.instruction }] }

/-- One round of the loop. -/
def round (run : AgentRun) (round : Round) : AgentRun :=
  match getContents host agent.name {} run.events with
  | .error text => run.stop (.raised text)
  | .ok messages =>
      let streamed := (run.request agent messages).stream host agent ctx (round.artifactIds 0) {}
        round.responses
      match round.failure with
      | some text => streamed.stop (.raised text)
      | none => streamed.answered host agent ctx round (answerOf round.responses)

/-- A round can only follow where the loop has not ended. -/
def step (run : AgentRun) (round : Round) : Option AgentRun :=
  if run.phase = .running then some (run.round host agent ctx round) else none

/-- The agent starts with a copy of the conversation, if it reads it at all, and
the input of its node as the user's message. -/
def begin (includeContents : Bool) (events : List Event) (nodeInput : Option Json) : AgentRun :=
  let asked :=
    nodeInput.map fun
      | .string text => text
      | other => other.dumps
  { events :=
      (if includeContents then events else []) ++
        asked.toList.map fun text => .message .user [.text text false] { author := "user" } }

end AgentRun

end Loop

end Choirworks.LlmFlows
