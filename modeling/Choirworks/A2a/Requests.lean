import Choirworks.Library.Runs
import Choirworks.LlmFlows.Contents

/-!
`RemoteA2aAgent` in a session that others write to as well: which parts of the
session a call sends to the remote agent, and in which of its contexts. A label
names one step: an event of someone else comes to the session, a call begins,
its stream yields an event, breaks off or ends.
-/

namespace Choirworks.A2a

/-- An event of the session with the ids it had at a remote agent. -/
structure SessionEvent where
  event : LlmFlows.Event
  remoteTaskId : Option String := none
  remoteContextId : Option String := none

/-- The message of a `SendMessageRequest`. -/
structure Request where
  parts : List LlmFlows.Part
  contextId : Option String

/-- An event of a response as the remote agent has sent it. `noted` is the context
id that its metadata names already. -/
structure Incoming where
  event : LlmFlows.Event
  taskId : String
  contextId : String
  noted : Option String := none

/-- A call of the agent. It is answered once an event of its responses is in the
session. -/
structure Call where
  request : Request
  answered : Bool := false

structure Session where
  events : List SessionEvent := []
  /-- The calls that are over, the oldest first. -/
  calls : List Call := []
  current : Option Call := none

inductive SessionAct where
  | other (found : SessionEvent)
  /-- `failure` is why the agent card or the client is not to be had. -/
  | call (failure : Option String)
  | respond (incoming : Incoming)
  | lose (text : String)
  | finish

namespace Session

/-- All calls, with the one under way. -/
def asked (session : Session) : List Call := session.calls ++ session.current.toList

/-- The runner keeps what is not partial. -/
def record (session : Session) (found : SessionEvent) : Session :=
  if found.event.isPartial then session
  else { session with events := session.events ++ [found] }

end Session

section Agent

variable (host : LlmFlows.Host) (name : String)

/-- `_is_remote_response`: the agent itself has relayed the event. -/
def SessionEvent.isRemoteResponse (found : SessionEvent) : Bool :=
  found.event.metadata.author = name ∧ found.remoteTaskId.isSome

/-- What a request tells of an event. -/
def SessionEvent.toldParts (found : SessionEvent) : List LlmFlows.Part :=
  if LlmFlows.isOtherAgentReply name found.event then
    match LlmFlows.presentOtherAgentMessage host found.event with
    | some message => message.contentParts
    | none => []
  else
    match found.event with
    | .message .user parts _ => parts
    | .message .agent _ _ | .status .. | .artifact .. => []

/-- The loop over the events, the newest first, up to the last response. -/
def collectParts : List SessionEvent → List LlmFlows.Part → Request
  | [], parts => ⟨parts, none⟩
  | found :: older, parts =>
      if found.isRemoteResponse name then ⟨parts, found.remoteContextId⟩
      else collectParts older (found.toldParts host name ++ parts)

/-- `_construct_message_parts_from_session`. -/
def constructMessageParts (events : List SessionEvent) : Request :=
  collectParts host name events.reverse []

/-- `_handle_a2a_response`, but for the ids of the calling task. -/
def Incoming.relayed (incoming : Incoming) : SessionEvent where
  event := incoming.event.withMeta { incoming.event.metadata with author := name }
  remoteTaskId := some incoming.taskId
  remoteContextId := if incoming.contextId ≠ "" then some incoming.contextId else incoming.noted

/-- A status event of the agent's own. -/
def failure (text : String) : SessionEvent where
  event := .status .failed [.text text false] { author := name }

namespace Session

def step (session : Session) : SessionAct → Option Session
  | .other found =>
      if found.isRemoteResponse name then none else some (session.record found)
  | .call failed =>
      match session.current, failed with
      | some _, _ => none
      | none, some text =>
          some (session.record (failure name
            ("Failed to initialize remote A2A agent " ++ name ++ " - " ++ text)))
      | none, none =>
          let request := constructMessageParts host name session.events
          if request.parts.isEmpty then
            some (session.record (failure name ("No parts to send to remote A2A agent " ++ name)))
          else some { session with current := some { request } }
  | .respond incoming =>
      session.current.map fun call =>
        { session.record (incoming.relayed name) with
          current := some { call with answered := call.answered || !incoming.event.isPartial } }
  | .lose text =>
      session.current.map fun call =>
        { session.record (failure name
            ("Failed to send message to remote A2A agent " ++ name ++ " - " ++ text)) with
          calls := session.calls ++ [call]
          current := none }
  | .finish =>
      session.current.map fun call =>
        { session with calls := session.calls ++ [call], current := none }

/-! ### What is sent and what is not -/

/-- All that others have said in the session. -/
def told (events : List SessionEvent) : List LlmFlows.Part :=
  events.flatMap fun found =>
    if found.isRemoteResponse name then [] else found.toldParts host name

/-- What the next request would send. -/
def waiting (session : Session) : List LlmFlows.Part :=
  (constructMessageParts host name session.events).parts

/-- What the answered calls have sent. -/
def delivered (session : Session) : List LlmFlows.Part :=
  (session.asked.filter Call.answered).flatMap fun call => call.request.parts

/-- What others have said since the request or the last response of the call under
way, when its next response comes to the session. -/
def overtaken (session : Session) : SessionAct → List LlmFlows.Part
  | .respond incoming =>
      match session.current with
      | some call =>
          if incoming.event.isPartial then []
          else if call.answered then session.waiting host name
          else (session.waiting host name).drop call.request.parts.length
      | none => []
  | .other _ | .call _ | .lose _ | .finish => []

/-- A request names the context as soon as a call before it is answered, and none
until then. `known` tells of the calls before the list. -/
def Continued (context : String) : Bool → List Call → Prop
  | _, [] => True
  | known, call :: rest =>
      call.request.contextId = (if known then some context else none) ∧
        Continued context (known || call.answered) rest

/-- The remote agent answers in the context that the request names, and otherwise in
one that it goes on with. -/
def KeepsContext (session : Session) : SessionAct → Prop
  | .respond incoming =>
      incoming.contextId ≠ "" ∧ ∀ call, session.current = some call →
        (∀ context, call.request.contextId = some context → incoming.contextId = context) ∧
          (call.answered = true →
            (constructMessageParts host name session.events).contextId = some incoming.contextId)
  | .other _ | .call _ | .lose _ | .finish => True

/-- The parts told up to the last response are those delivered, but for `lost` ones. -/
structure Kept (session : Session) (lost : Nat) : Prop where
  split : ∃ before, told host name session.events = before ++ session.waiting host name ∧
    session.delivered.Sublist before ∧ before.length = session.delivered.length + lost
  sent : ∀ call, session.current = some call → call.answered = false →
    call.request.parts <+: session.waiting host name

end Session

end Agent

section Agent

variable {host : LlmFlows.Host} {name : String}

/-! ### One event more -/

theorem collect_parts_eq (older : List SessionEvent) (parts : List LlmFlows.Part) :
    collectParts host name older parts =
      ⟨(collectParts host name older []).parts ++ parts,
        (collectParts host name older []).contextId⟩ := by
  induction older generalizing parts with
  | nil => rfl
  | cons found rest ih =>
      simp only [collectParts]
      split
      · rfl
      · rw [ih (found.toldParts host name ++ parts), ih (found.toldParts host name ++ [])]
        simp

theorem construct_response {found : SessionEvent} (relayed : found.isRemoteResponse name = true)
    (events : List SessionEvent) :
    constructMessageParts host name (events ++ [found]) = ⟨[], found.remoteContextId⟩ := by
  simp [constructMessageParts, collectParts, relayed]

theorem construct_other {found : SessionEvent} (other : found.isRemoteResponse name = false)
    (events : List SessionEvent) :
    constructMessageParts host name (events ++ [found]) =
      ⟨(constructMessageParts host name events).parts ++ found.toldParts host name,
        (constructMessageParts host name events).contextId⟩ := by
  simp only [constructMessageParts, List.reverse_append, List.reverse_cons, List.reverse_nil,
    List.nil_append, List.singleton_append, collectParts, other]
  rw [collect_parts_eq]
  simp

theorem relayed_response (incoming : Incoming) :
    (incoming.relayed name).isRemoteResponse name = true := by
  obtain ⟨event, taskId, contextId, noted⟩ := incoming
  cases event <;>
    simp [Incoming.relayed, SessionEvent.isRemoteResponse, LlmFlows.Event.withMeta,
      LlmFlows.Event.metadata]

@[simp] theorem relayed_partial (incoming : Incoming) :
    (incoming.relayed name).event.isPartial = incoming.event.isPartial := by
  obtain ⟨event, taskId, contextId, noted⟩ := incoming
  cases event <;> rfl

theorem failure_other (text : String) : (failure name text).isRemoteResponse name = false := by
  simp [failure, SessionEvent.isRemoteResponse]

theorem failure_untold (text : String) : (failure name text).toldParts host name = [] := by
  simp [failure, SessionEvent.toldParts, LlmFlows.isOtherAgentReply, LlmFlows.Event.metadata]

namespace Session

@[simp] theorem record_calls (session : Session) (found : SessionEvent) :
    (session.record found).calls = session.calls := by
  unfold record
  split <;> rfl

@[simp] theorem record_current (session : Session) (found : SessionEvent) :
    (session.record found).current = session.current := by
  unfold record
  split <;> rfl

/-! ### One step more -/

variable {session : Session} {lost : Nat}

theorem kept_start : Kept host name {} 0 where
  split := ⟨[], rfl, List.Sublist.refl _, rfl⟩
  sent := by
    intro call current
    cases current

theorem Kept.other (kept : Kept host name session lost) {found : SessionEvent}
    (other : found.isRemoteResponse name = false) : Kept host name (session.record found) lost := by
  unfold record
  split
  · exact kept
  · obtain ⟨before, all, sub, count⟩ := kept.split
    have waits : waiting host name { session with events := session.events ++ [found] } =
        session.waiting host name ++ found.toldParts host name := by
      simp [waiting, construct_other other]
    refine ⟨⟨before, ?_, sub, count⟩, ?_⟩
    · rw [waits, ← List.append_assoc, ← all]
      simp [told, other]
    · intro call current unanswered
      rw [waits]
      exact (kept.sent call current unanswered).trans (List.prefix_append _ _)

theorem Kept.request (kept : Kept host name session lost) (idle : session.current = none) :
    Kept host name
      { session with current := some { request := constructMessageParts host name session.events } }
      lost := by
  obtain ⟨before, all, sub, count⟩ := kept.split
  have same : delivered { session with
      current := some { request := constructMessageParts host name session.events } } =
      session.delivered := by
    simp [delivered, asked, idle]
  refine ⟨⟨before, all, ?_, ?_⟩, ?_⟩
  · rw [same]
    exact sub
  · rw [same]
    exact count
  · rintro call ⟨⟩ _
    exact List.prefix_rfl

theorem Kept.ended (kept : Kept host name session lost) {call : Call}
    (current : session.current = some call) :
    Kept host name { session with calls := session.calls ++ [call], current := none } lost := by
  have same : delivered { session with calls := session.calls ++ [call], current := none } =
      session.delivered := by
    simp [delivered, asked, current]
  refine ⟨?_, ?_⟩
  · rw [same]
    exact kept.split
  · intro other none
    cases none

theorem delivered_under_way {call : Call} (current : session.current = some call) :
    session.delivered =
      ((session.calls.filter Call.answered).flatMap fun past => past.request.parts) ++
        if call.answered then call.request.parts else [] := by
  unfold delivered asked
  rw [current, List.filter_append, List.flatMap_append]
  cases answered : call.answered <;> simp [answered]

/-- A response makes the parts of its request delivered, and what has come since lost. -/
theorem Kept.respond (kept : Kept host name session lost) {call : Call}
    (current : session.current = some call) (incoming : Incoming) :
    Kept host name
      { session.record (incoming.relayed name) with
        current := some { call with answered := call.answered || !incoming.event.isPartial } }
      (lost + (session.overtaken host name (.respond incoming)).length) := by
  obtain ⟨before, all, sub, count⟩ := kept.split
  cases incomplete : incoming.event.isPartial with
  | true =>
      have same : session.record (incoming.relayed name) = session := by
        simp [record, incomplete]
      have unchanged : ({ session with current := some call } : Session) = session := by
        rw [← current]
      simpa [same, overtaken, current, incomplete, unchanged] using kept
  | false =>
      have relayed : session.record (incoming.relayed name) =
          { session with events := session.events ++ [incoming.relayed name] } := by
        simp [record, incomplete]
      have response := @relayed_response name incoming
      have nothing : waiting host name
          { session with
            events := session.events ++ [incoming.relayed name]
            current := some { call with answered := true } } = [] := by
        simp [waiting, construct_response response]
      have same : told host name (session.events ++ [incoming.relayed name]) =
          before ++ session.waiting host name := by
        simp [told, response, ← all]
      have now : delivered
          { session with
            events := session.events ++ [incoming.relayed name]
            current := some { call with answered := true } } =
          ((session.calls.filter Call.answered).flatMap fun past => past.request.parts) ++
            call.request.parts := by
        rw [delivered_under_way rfl]
        rfl
      rw [delivered_under_way current] at sub count
      simp only [relayed, Bool.not_false, Bool.or_true, overtaken, current, incomplete]
      refine ⟨⟨before ++ session.waiting host name, ?_, ?_, ?_⟩, ?_⟩
      · rw [nothing, List.append_nil]
        exact same
      · rw [now]
        cases answered : call.answered with
        | true =>
            rw [answered, if_pos rfl] at sub
            exact sub.trans (List.sublist_append_left _ _)
        | false =>
            rw [answered, if_neg Bool.false_ne_true, List.append_nil] at sub
            exact sub.append (kept.sent call current answered).sublist
      · rw [now]
        cases answered : call.answered with
        | true =>
            simp only [answered, List.length_append] at count ⊢
            simp at count ⊢
            omega
        | false =>
            have most := (kept.sent call current answered).length_le
            simp only [answered, List.length_append] at count ⊢
            simp at count ⊢
            omega
      · rintro other ⟨⟩ unanswered
        cases unanswered

theorem step_kept {act : SessionAct} {next : Session} (kept : Kept host name session lost)
    (stepped : session.step host name act = some next) :
    Kept host name next (lost + (session.overtaken host name act).length) := by
  cases act with
  | other found =>
      simp only [step] at stepped
      split at stepped
      · cases stepped
      · rename_i other
        cases stepped
        exact kept.other (Bool.eq_false_iff.mpr other)
  | call failed =>
      simp only [step] at stepped
      split at stepped
      · cases stepped
      · cases stepped
        exact kept.other (failure_other _)
      · rename_i idle
        split at stepped
        · cases stepped
          exact kept.other (failure_other _)
        · cases stepped
          exact kept.request idle
  | respond incoming =>
      obtain ⟨call, current, rfl⟩ := Option.map_eq_some_iff.mp stepped
      exact kept.respond current incoming
  | lose text =>
      obtain ⟨call, current, rfl⟩ := Option.map_eq_some_iff.mp stepped
      have failed := kept.other (@failure_other name
        ("Failed to send message to remote A2A agent " ++ name ++ " - " ++ text))
      have ended := failed.ended ((record_current session _).trans current)
      rw [record_calls] at ended
      exact ended
  | finish =>
      obtain ⟨call, current, rfl⟩ := Option.map_eq_some_iff.mp stepped
      exact kept.ended current

/-- What was delivered and what waits are parts that others have told, each once and
in order, and they are all of them just if no response has overtaken any. -/
theorem relayed_once (host : LlmFlows.Host) (name : String) (acts : List SessionAct)
    (final : Session) (ran : Runs.run (step host name) {} acts = some final) :
    (final.delivered ++ final.waiting host name).Sublist (told host name final.events) ∧
      (final.delivered ++ final.waiting host name = told host name final.events ↔
        Runs.log (step host name) (overtaken host name) {} acts = []) := by
  have kept : Kept host name final
      ([] ++ Runs.log (step host name) (overtaken host name) {} acts).length := by
    refine Runs.run_logged (fun session lost => Kept host name session lost.length) ?_ acts {}
      final [] kept_start ran
    intro session act next past before stepped
    rw [List.length_append]
    exact step_kept before stepped
  obtain ⟨before, all, sub, count⟩ := kept.split
  rw [List.nil_append] at count
  rw [all]
  refine ⟨sub.append_right _, ?_⟩
  constructor
  · intro same
    have same := congrArg List.length (List.append_cancel_right same)
    exact List.eq_nil_of_length_eq_zero (by omega)
  · intro nothing
    rw [nothing, List.length_nil, Nat.add_zero] at count
    rw [sub.eq_of_length count.symm]

def guideHost : LlmFlows.Host := ⟨Json.dumps, Json.dumps, id⟩

def userSays (text : String) : SessionEvent where
  event := .message .user [.text text false] { author := "user" }

def guideSays (text : String) : Incoming where
  event := .status .completed [.text text false] {}
  taskId := "remote-1"
  contextId := "remote-room"

/-- The second call breaks off, the third one sends its parts once more. -/
def guided : List SessionAct :=
  [.other (userSays "Plan a trip"), .call none, .respond (guideSays "Where to?"), .finish,
    .other (userSays "To Rome"), .call none, .lose "reset", .call none,
    .respond (guideSays "Done"), .finish]

theorem relayed_once_guided : ∃ final, Runs.run (step guideHost "guide") {} guided = some final ∧
    final.delivered ++ final.waiting guideHost "guide" = told guideHost "guide" final.events := by
  obtain ⟨final, ran⟩ : ∃ final, Runs.run (step guideHost "guide") {} guided = some final :=
    ⟨_, rfl⟩
  exact ⟨final, ran, (relayed_once guideHost "guide" guided final ran).2.mpr rfl⟩

/-! ### One context -/

theorem continued_append (context : String) (known : Bool) (front back : List Call) :
    Continued context known (front ++ back) ↔
      Continued context known front ∧
        Continued context (known || front.any Call.answered) back := by
  induction front generalizing known with
  | nil => simp [Continued]
  | cons call rest ih => simp [Continued, ih, and_assoc, Bool.or_assoc]

theorem Continued.unanswered {context : String} {calls : List Call}
    (continued : Continued context false calls) (unanswered : calls.any Call.answered = false)
    (other : String) : Continued other false calls := by
  induction calls with
  | nil => trivial
  | cons call rest ih =>
      simp only [List.any_cons, Bool.or_eq_false_iff] at unanswered
      simp only [Continued, unanswered.1, Bool.or_false] at continued ⊢
      exact ⟨continued.1, ih continued.2 unanswered.2⟩

/-- The session knows the context from the last response. -/
structure Talks (host : LlmFlows.Host) (name : String) (session : Session) (context : String) :
    Prop where
  continued : Continued context false session.asked
  known : (constructMessageParts host name session.events).contextId =
    if session.asked.any Call.answered then some context else none

variable {context : String}

theorem Talks.other (talks : Talks host name session context) {found : SessionEvent}
    (other : found.isRemoteResponse name = false) :
    Talks host name (session.record found) context := by
  have asked : (session.record found).asked = session.asked := by
    simp [Session.asked]
  refine ⟨asked ▸ talks.continued, ?_⟩
  rw [asked, ← talks.known]
  unfold record
  split
  · rfl
  · simp [construct_other other]

theorem Talks.request (talks : Talks host name session context) (idle : session.current = none) :
    Talks host name
      { session with current := some { request := constructMessageParts host name session.events } }
      context := by
  have calls : session.asked = session.calls := by
    simp [asked, idle]
  obtain ⟨continued, known⟩ := talks
  rw [calls] at continued known
  constructor
  · simp [asked, continued_append, Continued, continued, known]
  · simp [asked, known]

theorem Talks.ended (talks : Talks host name session context) {call : Call}
    (current : session.current = some call) :
    Talks host name { session with calls := session.calls ++ [call], current := none } context := by
  have same : asked { session with calls := session.calls ++ [call], current := none } =
      session.asked := by
    simp [asked, current]
  exact ⟨same ▸ talks.continued, same ▸ talks.known⟩

theorem Talks.respond (talks : Talks host name session context) {call : Call}
    (current : session.current = some call) {incoming : Incoming}
    (keeps : KeepsContext host name session (.respond incoming)) :
    ∃ context, Talks host name
      { session.record (incoming.relayed name) with
        current := some { call with answered := call.answered || !incoming.event.isPartial } }
      context := by
  obtain ⟨named, follows⟩ := keeps
  obtain ⟨told, begun⟩ := follows call current
  obtain ⟨continued, known⟩ := talks
  have asks : session.asked = session.calls ++ [call] := by
    simp [asked, current]
  cases incomplete : incoming.event.isPartial with
  | true =>
      have same : session.record (incoming.relayed name) = session := by
        simp [record, incomplete]
      have unchanged : ({ session with current := some call } : Session) = session := by
        rw [← current]
      refine ⟨context, ?_⟩
      simpa [same, unchanged] using Talks.mk continued known
  | false =>
      have relayed : session.record (incoming.relayed name) =
          { session with events := session.events ++ [incoming.relayed name] } := by
        simp [record, incomplete]
      have newest : (constructMessageParts host name
          (session.events ++ [incoming.relayed name])).contextId = some incoming.contextId := by
        rw [construct_response (relayed_response incoming)]
        simp [Incoming.relayed, named]
      rw [asks] at continued known
      rw [continued_append] at continued
      obtain ⟨before, last, _⟩ := continued
      simp only [relayed, Bool.not_false, Bool.or_true]
      cases answered : (session.calls ++ [call]).any Call.answered with
      | true =>
          have same : incoming.contextId = context := by
            rw [answered, if_pos rfl] at known
            cases first : call.answered with
            | true => exact Option.some.inj ((begun first).symm.trans known)
            | false =>
                have earlier : session.calls.any Call.answered = true := by
                  simpa [first] using answered
                exact told context (by simp [last, earlier])
          refine ⟨context, ?_, ?_⟩
          · simp [asked, continued_append, Continued, before, last]
          · simp [asked, newest, same]
      | false =>
          have earlier : session.calls.any Call.answered = false := by
            simp only [List.any_append, Bool.or_eq_false_iff] at answered
            exact answered.1
          refine ⟨incoming.contextId, ?_, ?_⟩
          · simp [asked, continued_append, Continued, before.unanswered earlier, last, earlier]
          · simp [asked, newest]

theorem step_talks {act : SessionAct} {next : Session}
    (talks : ∃ context, Talks host name session context)
    (keeps : KeepsContext host name session act)
    (stepped : session.step host name act = some next) :
    ∃ context, Talks host name next context := by
  obtain ⟨context, talks⟩ := talks
  cases act with
  | other found =>
      simp only [step] at stepped
      split at stepped
      · cases stepped
      · rename_i other
        cases stepped
        exact ⟨context, talks.other (Bool.eq_false_iff.mpr other)⟩
  | call failed =>
      simp only [step] at stepped
      split at stepped
      · cases stepped
      · cases stepped
        exact ⟨context, talks.other (failure_other _)⟩
      · rename_i idle
        split at stepped
        · cases stepped
          exact ⟨context, talks.other (failure_other _)⟩
        · cases stepped
          exact ⟨context, talks.request idle⟩
  | respond incoming =>
      obtain ⟨call, current, rfl⟩ := Option.map_eq_some_iff.mp stepped
      exact talks.respond current keeps
  | lose text =>
      obtain ⟨call, current, rfl⟩ := Option.map_eq_some_iff.mp stepped
      have failed := talks.other (@failure_other name
        ("Failed to send message to remote A2A agent " ++ name ++ " - " ++ text))
      have ended := failed.ended ((record_current session _).trans current)
      rw [record_calls] at ended
      exact ⟨context, ended⟩
  | finish =>
      obtain ⟨call, current, rfl⟩ := Option.map_eq_some_iff.mp stepped
      exact ⟨context, talks.ended current⟩

/-- A remote agent that keeps to a context is told one and the same in every request
behind the first call that it has answered, whatever else comes to the session. -/
theorem one_conversation (host : LlmFlows.Host) (name : String) (acts : List SessionAct)
    (final : Session) (ran : Runs.run (step host name) {} acts = some final)
    (keeps : Runs.Guarded (step host name) (KeepsContext host name) {} acts) :
    ∃ context, Continued context false final.asked := by
  have talks : ∃ context, Talks host name final context :=
    Runs.run_invariant (fun session => ∃ context, Talks host name session context)
      (fun session act next held guarded stepped => step_talks held guarded stepped)
      acts {} final ⟨"", trivial, rfl⟩ keeps ran
  exact talks.imp fun context held => held.continued

theorem one_conversation_guided : ∃ final,
    Runs.run (step guideHost "guide") {} guided = some final ∧
      ∃ context, Continued context false final.asked := by
  obtain ⟨final, ran⟩ : ∃ final, Runs.run (step guideHost "guide") {} guided = some final :=
    ⟨_, rfl⟩
  refine ⟨final, ran, one_conversation guideHost "guide" guided final ran ?_⟩
  have keeps : ∀ (session : Session) (text : String),
      (∀ call, session.current = some call → call.answered = false ∧
        ∀ context, call.request.contextId = some context → context = "remote-room") →
      KeepsContext guideHost "guide" session (.respond (guideSays text)) := by
    intro session text fresh
    refine ⟨by simp [guideSays], fun call current => ?_⟩
    obtain ⟨unanswered, named⟩ := fresh call current
    exact ⟨fun context same => (named context same).symm, fun answered => by simp_all⟩
  refine ⟨trivial, trivial, keeps _ _ ?_, trivial, trivial, trivial, trivial, trivial,
    keeps _ _ ?_, trivial, trivial⟩
  · rintro call ⟨⟩
    refine ⟨rfl, ?_⟩
    rintro context ⟨⟩
  · rintro call ⟨⟩
    refine ⟨rfl, ?_⟩
    rintro context ⟨⟩
    rfl

end Session

end Agent

end Choirworks.A2a
