import Choirworks.Dag.Sound

/-!
Help requests. The helper tells a repeated request from a new one by the assist
nodes of the current plan. As long as the planner keeps the assist of a request
in the plan, at most one assist is ever added for a parent and an agent; a plan
that drops it lets the same request through again.
-/

namespace Choirworks.Dag

open DagRuntime

/-! ### The requests of an output -/

section Candidates

/-- The requests in the output of a node. -/
def DagRuntime.requests (runtime : DagRuntime) (nodeId : String) : List (String × String) :=
  Helper.parseMentions (runtime.nodeOutputs.getD nodeId "") runtime.agents.keys

variable {runtime : DagRuntime} {parent : PlanNode} {nodeId : String}

theorem candidates_agents (mentions : List (String × String)) (seen : List String)
    (agentName : String) :
    agentName ∈ (Helper.candidates runtime parent nodeId seen mentions).map Prod.fst ↔
      agentName ∉ seen ∧ agentName ≠ parent.agentName ∧
        runtime.hasAssistFor nodeId agentName = false ∧ agentName ∈ mentions.map Prod.fst := by
  induction mentions generalizing seen with
  | nil => simp [Helper.candidates]
  | cons mention rest ih =>
      obtain ⟨first, instruction⟩ := mention
      rw [Helper.candidates]
      by_cases left : first = parent.agentName ∨ first ∈ seen
      · rw [if_pos left, ih]
        have other : agentName ∉ seen → agentName ≠ parent.agentName → agentName ≠ first := by
          rintro unseen foreign rfl
          exact left.elim foreign unseen
        simp only [List.map_cons, List.mem_cons]
        grind
      · rw [if_neg left]
        obtain ⟨foreign, unseen⟩ := not_or.mp left
        cases assisted : runtime.hasAssistFor nodeId first with
        | true =>
            simp only [if_true, ih, List.map_cons, List.mem_cons, List.mem_append]
            grind
        | false =>
            simp only [Bool.false_eq_true, if_false, List.map_cons, List.mem_cons, ih,
              List.mem_append]
            grind

theorem candidates_nodup (mentions : List (String × String)) (seen : List String) :
    ((Helper.candidates runtime parent nodeId seen mentions).map Prod.fst).Nodup := by
  induction mentions generalizing seen with
  | nil => exact List.nodup_nil
  | cons mention rest ih =>
      obtain ⟨first, instruction⟩ := mention
      rw [Helper.candidates]
      split
      · exact ih seen
      · split
        · exact ih _
        · refine List.nodup_cons.mpr ⟨fun again => ?_, ih _⟩
          have unseen := ((candidates_agents rest _ first).mp again).1
          exact unseen (by simp)

end Candidates

/-! ### The assists of a run -/

section Pairs

def assistOf : Act → Option (String × String)
  | .addAssist parentId agentName _ => some (parentId, agentName)
  | _ => none

/-- Parent and agent of the assists, in the order in which they are added. -/
def assistPairs (acts : List Act) : List (String × String) := acts.filterMap assistOf

theorem assist_pairs_unassisted {acts : List Act}
    (unassisted : ∀ parentId agentName instruction,
      .addAssist parentId agentName instruction ∉ acts) : assistPairs acts = [] := by
  apply List.filterMap_eq_nil_iff.mpr
  intro act member
  cases act with
  | addAssist parentId agentName instruction => exact absurd member (unassisted _ _ _)
  | _ => rfl

theorem assist_pairs_judge (runtime : DagRuntime) (nodeId : String) :
    assistPairs (.judge nodeId :: runtime.assistActs nodeId) =
      (Helper.assists runtime nodeId).map fun mention => (nodeId, mention.1) := by
  unfold assistActs
  induction Helper.assists runtime nodeId with
  | nil => rfl
  | cons mention rest ih => exact congrArg (List.cons (nodeId, mention.1)) ih

/-- At most one assist for each parent and agent, so no parent gets more of
them than there are agents. -/
def Bounded (agents : Dict String AgentInfo) (pairs : List (String × String)) : Prop :=
  pairs.Nodup ∧ ∀ parentId, (pairs.filter (·.1 = parentId)).length ≤ agents.keys.length

theorem bounded_of_nodup {agents : Dict String AgentInfo} {pairs : List (String × String)}
    (once : pairs.Nodup) (known : ∀ pair ∈ pairs, pair.2 ∈ agents.keys) : Bounded agents pairs := by
  refine ⟨once, fun parentId => ?_⟩
  have distinct : ((pairs.filter (·.1 = parentId)).map Prod.snd).Nodup := by
    apply List.Nodup.map_on _ (once.filter _)
    intro left hl right hr same
    have first : left.1 = right.1 := by
      rw [of_decide_eq_true (List.mem_filter.mp hl).2, of_decide_eq_true (List.mem_filter.mp hr).2]
    exact Prod.ext first same
  have inside : (pairs.filter (·.1 = parentId)).map Prod.snd ⊆ agents.keys := by
    intro agentName member
    obtain ⟨pair, listed, rfl⟩ := List.mem_map.mp member
    exact known pair (List.mem_of_mem_filter listed)
  simpa using (List.subperm_of_subset distinct inside).length_le

end Pairs

/-! ### Invocations add no assist and keep the catalog -/

section Invocations

variable {runtime next : DagRuntime}

/-- No act adds an assist. -/
def Unassisted (acts : List Act) : Prop := assistPairs acts = []

theorem Unassisted.append {left right : List Act} (first : Unassisted left)
    (second : Unassisted right) : Unassisted (left ++ right) := by
  rw [Unassisted, assistPairs, List.filterMap_append]
  exact List.append_eq_nil_iff.mpr ⟨first, second⟩

theorem Unassisted.of_quiet {acts : List Act} (quiet : Quiet acts) : Unassisted acts :=
  assist_pairs_unassisted quiet.unassisted

theorem pop_acts_unassisted (judged : String → Bool) (queue : List CompletionRecord) :
    Unassisted (popActs judged queue) := by
  have routes := pop_acts_routes judged queue
  split at routes
  · exact .of_quiet routes
  · exact assist_pairs_unassisted routes.unassisted

theorem dispatch_and_wait_unassisted (runtime : DagRuntime) (waves : List Wave) :
    Unassisted (runtime.dispatchAndWaitActs waves) := by
  refine Unassisted.append (.of_quiet (dispatch_acts_quiet _ runtime)) ?_
  cases runtime.dispatchReady with
  | error raised => exact rfl
  | ok dispatched =>
      simp only [waitAndRouteActs]
      split
      · exact rfl
      · cases dispatched.waitOne waves with
        | none => exact rfl
        | some waited =>
            refine Unassisted.append (.append (.of_quiet (wait_acts_quiet _ _))
              (.of_quiet (collect_acts_quiet _))) ?_
            simp only [routeActs]
            cases waited.1.collectDone.failedCompletion with
            | none => exact pop_acts_unassisted _ _
            | some failed => exact rfl

theorem invocation_acts_unassisted (runtime : DagRuntime) (input : Option DagPlan)
    (waves : List Wave) : Unassisted (runtime.invocationActs input waves) := by
  unfold invocationActs
  cases runtime.applyPlanInput input with
  | error text => exact rfl
  | ok planned =>
      refine Unassisted.append (.append (.of_quiet (plan_acts_quiet input))
        (.of_quiet (collect_acts_quiet planned))) ?_
      simp only [proceedActs]
      split
      · exact .of_quiet (drain_acts_quiet _ _ _)
      · cases planned.collectDone.failedCompletion with
        | some failed => exact rfl
        | none =>
            refine Unassisted.append (pop_acts_unassisted _ _) ?_
            rcases planned.collectDone.popCompletion with ⟨_ | record, rest⟩
            · exact dispatch_and_wait_unassisted rest waves
            · exact rfl

theorem dispatch_nodes_agents (nodeIds : List String) (runtime : DagRuntime) :
    (dispatched (dispatchNodes nodeIds runtime)).agents = runtime.agents := by
  induction nodeIds generalizing runtime with
  | nil => rfl
  | cons nodeId rest ih =>
      rw [dispatchNodes]
      cases ran : runtime.dispatchNode nodeId with
      | error raised => exact congrArg agents (dispatch_node_error ran)
      | ok next =>
          obtain ⟨node, rfl⟩ := dispatch_node_ok ran
          exact ih _

theorem pop_agents (runtime : DagRuntime) : runtime.popCompletion.2.agents = runtime.agents := by
  rw [pop_plan]

theorem route_agents {ended : Outcome × DagRuntime} (routed : RouteEnds runtime ended) :
    ended.2.agents = runtime.agents := by
  have popped := pop_agents runtime
  cases routed with
  | abort found => rfl
  | judge fine taken => simpa only [taken] using popped
  | stuck fine taken => simpa only [taken] using popped

theorem dispatch_and_wait_agents {waves : List Wave} {ended : Outcome × DagRuntime}
    (ran : runtime.dispatchAndWait waves = some ended) : ended.2.agents = runtime.agents := by
  have same : (dispatched runtime.dispatchReady).agents = runtime.agents := dispatch_nodes_agents _ _
  cases dispatch_and_wait_ends ran with
  | unknown ready => simpa only [ready, dispatched] using same
  | idle ready idle => simpa only [ready, dispatched] using same
  | waited ready busy waits routed =>
      rw [ready] at same
      rw [route_agents routed, collect_done_agents, wait_one_frame waits]
      exact same

theorem proceed_agents {waves : List Wave} {ended : Outcome × DagRuntime}
    (ran : runtime.proceed waves = some ended) : ended.2.agents = runtime.agents := by
  have popped := pop_agents runtime
  cases proceed_ends ran with
  | drained asked drained => exact (drain_frame _ drained).2.2
  | abort unasked found => rfl
  | judge unasked fine taken => simpa only [taken] using popped
  | dispatch unasked fine taken later =>
      rw [taken] at popped
      exact (dispatch_and_wait_agents later).trans popped

theorem run_impl_agents {input : Option DagPlan} {waves : List Wave}
    {ended : Outcome × DagRuntime} (ran : runtime.runImpl input waves = some ended) :
    ended.2.agents = runtime.agents := by
  cases run_impl_ends ran with
  | refused applied => rfl
  | proceeded applied later =>
      rw [proceed_agents later, collect_done_agents]
      cases input with
      | none =>
          cases applied
          rfl
      | some plan =>
          obtain ⟨_, rfl⟩ := apply_plan_ok applied
          rfl

theorem judge_agents (runtime : DagRuntime) (nodeId : String) :
    (Helper.runImpl runtime nodeId).agents = runtime.agents := by
  unfold Helper.runImpl
  generalize Helper.assists runtime nodeId = mentions
  induction mentions generalizing runtime with
  | nil => rfl
  | cons mention rest ih => exact ih _

end Invocations

/-! ### Runs of the workflow -/

section Workflow

/-- Where the requests of the output fit, the plan has kept the assist of each
request that was granted before. -/
def DagRuntime.Remembers (runtime : DagRuntime) (granted : List (String × String))
    (nodeId : String) : Prop :=
  ∀ parent ∈ runtime.plan.find? nodeId,
    runtime.canAddAssists nodeId
        (Helper.candidates runtime parent nodeId [] (runtime.requests nodeId)).length = true →
      ∀ request ∈ runtime.requests nodeId, request.1 ≠ parent.agentName →
        (nodeId, request.1) ∈ granted → runtime.hasAssistFor nodeId request.1 = true

instance (runtime : DagRuntime) (granted : List (String × String)) (nodeId : String) :
    Decidable (runtime.Remembers granted nodeId) :=
  inferInstanceAs (Decidable (∀ parent ∈ runtime.plan.find? nodeId, _ → ∀ request ∈ _, _ → _ → _))

/-- What the helper is about to judge. -/
def Loop.judged (loop : Loop) : LoopEvent → Option String
  | .judge => loop.stage.judging
  | .plan _ | .invoke _ | .finish _ => none

def Loop.Remembers (loop : Loop) (event : LoopEvent) : Prop :=
  ∀ nodeId ∈ loop.judged event, loop.runtime.Remembers (assistPairs loop.journal) nodeId

instance (loop : Loop) (event : LoopEvent) : Decidable (loop.Remembers event) :=
  inferInstanceAs (Decidable (∀ nodeId ∈ loop.judged event, _))

/-- Then, and only then, no request is granted again. -/
theorem remembers_iff (runtime : DagRuntime) (granted : List (String × String)) (nodeId : String) :
    runtime.Remembers granted nodeId ↔
      ∀ mention ∈ Helper.assists runtime nodeId, (nodeId, mention.1) ∉ granted := by
  unfold DagRuntime.Remembers Helper.assists
  cases found : runtime.plan.find? nodeId with
  | none => simp
  | some parent =>
      simp only [Option.mem_def, Option.some.injEq, forall_eq']
      have listed := @candidates_agents runtime parent nodeId (runtime.requests nodeId) []
      rw [← show runtime.requests nodeId = Helper.parseMentions _ _ from rfl]
      generalize Helper.candidates runtime parent nodeId [] (runtime.requests nodeId) = found at *
      cases room : runtime.canAddAssists nodeId found.length with
      | false => simp
      | true =>
          simp only [true_implies, if_true]
          constructor
          · intro remembers mention member given
            obtain ⟨_, foreign, unassisted, asked⟩ := (listed mention.1).mp (List.mem_map_of_mem member)
            obtain ⟨request, inside, same⟩ := List.mem_map.mp asked
            have kept := remembers request inside (same ▸ foreign) (same ▸ given)
            rw [same, unassisted] at kept
            cases kept
          · intro fresh request asked foreign given
            cases assisted : runtime.hasAssistFor nodeId request.1 with
            | true => rfl
            | false =>
                have member := (listed request.1).mpr
                  ⟨List.not_mem_nil, foreign, assisted, List.mem_map_of_mem asked⟩
                obtain ⟨mention, inside, same⟩ := List.mem_map.mp member
                exact absurd given (same ▸ fresh mention inside)

/-- What one step adds to the assists. -/
theorem step_pairs {loop next : Loop} {event : LoopEvent} (stepped : loop.step event = some next) :
    next.runtime.agents = loop.runtime.agents ∧
      assistPairs next.journal = assistPairs loop.journal ++
        (loop.judged event).elim [] fun nodeId =>
          (Helper.assists loop.runtime nodeId).map fun mention => (nodeId, mention.1) := by
  have journal : ∀ acts, Unassisted acts →
      assistPairs (loop.journal ++ acts) = assistPairs loop.journal ++ [] := by
    intro acts unassisted
    rw [assistPairs, List.filterMap_append]
    exact congrArg _ unassisted
  cases event with
  | plan plan =>
      simp only [Loop.step] at stepped
      split at stepped
      · cases stepped
        exact ⟨rfl, (List.append_nil _).symm⟩
      · cases stepped
  | invoke waves =>
      simp only [Loop.step] at stepped
      split at stepped
      · obtain ⟨ended, invoked, rfl⟩ := Option.map_eq_some_iff.mp stepped
        exact ⟨run_impl_agents invoked, journal _ (invocation_acts_unassisted _ _ _)⟩
      · cases stepped
  | judge =>
      simp only [Loop.step] at stepped
      split at stepped
      · rename_i nodeId turn
        cases stepped
        refine ⟨judge_agents _ _, ?_⟩
        simp only [Loop.judged, turn, Stage.judging, Option.elim_some]
        rw [← assist_pairs_judge, assistPairs, assistPairs, assistPairs, ← List.filterMap_append]
        rfl
      · cases stepped
  | finish wave =>
      simp only [Loop.step] at stepped
      split at stepped
      · cases stepped
      · cases stepped
        refine ⟨by rw [finish_frame], journal _ (.of_quiet (finish_acts_quiet wave))⟩

/-- Every assist is of an agent of the catalog, and no two are alike. -/
structure Distinct (agents : Dict String AgentInfo) (loop : Loop) : Prop where
  once : (assistPairs loop.journal).Nodup
  known : ∀ pair ∈ assistPairs loop.journal, pair.2 ∈ agents.keys
  catalog : loop.runtime.agents = agents

variable {agents : Dict String AgentInfo} {loop next : Loop} {event : LoopEvent}

theorem assists_distinct (runtime : DagRuntime) (nodeId : String) :
    ((Helper.assists runtime nodeId).map fun mention => (nodeId, mention.1)).Nodup := by
  have names : ((Helper.assists runtime nodeId).map Prod.fst).Nodup := by
    unfold Helper.assists
    cases runtime.plan.find? nodeId with
    | none => exact List.nodup_nil
    | some parent =>
        dsimp only
        split
        · exact candidates_nodup _ _
        · exact List.nodup_nil
  have pairs := names.map (fun _ _ same => (Prod.mk.inj same).2 :
    Function.Injective (Prod.mk nodeId))
  rwa [List.map_map] at pairs

theorem Distinct.step (distinct : Distinct agents loop) (remembers : loop.Remembers event)
    (stepped : loop.step event = some next) : Distinct agents next := by
  obtain ⟨catalog, pairs⟩ := step_pairs stepped
  refine ⟨?_, ?_, catalog.trans distinct.catalog⟩
  · rw [pairs]
    cases judged : loop.judged event with
    | none => simpa using distinct.once
    | some nodeId =>
        have fresh := (remembers_iff _ _ nodeId).mp (remembers nodeId judged)
        refine List.nodup_append.mpr ⟨distinct.once, assists_distinct _ nodeId, ?_⟩
        rintro pair before other member rfl
        obtain ⟨mention, inside, rfl⟩ := List.mem_map.mp member
        exact fresh mention inside before
  · intro pair member
    rw [pairs, List.mem_append] at member
    rcases member with before | added
    · exact distinct.known pair before
    · cases judged : loop.judged event with
      | none => simp [judged] at added
      | some nodeId =>
          rw [judged] at added
          obtain ⟨mention, inside, rfl⟩ := List.mem_map.mp added
          rw [← distinct.catalog]
          exact assists_agents _ nodeId mention inside

/-- A step after which no assist is repeated remembers the granted ones. -/
theorem remembers_of_once (stepped : loop.step event = some next)
    (once : (assistPairs next.journal).Nodup) : loop.Remembers event := by
  intro nodeId judged
  rw [(step_pairs stepped).2, show loop.judged event = some nodeId from judged] at once
  apply (remembers_iff _ _ nodeId).mpr
  intro mention inside before
  exact (List.nodup_append.mp once).2.2 _ before _ (List.mem_map_of_mem inside) rfl

/-- The assists stay bounded in a run exactly as long as the plan keeps the
assist of every request that comes again. -/
theorem assists_bounded_iff (agents : Dict String AgentInfo) (userTask : String)
    (events : List LoopEvent) :
    Runs.Guarded Loop.step Loop.Remembers (.start agents userTask) events ↔
      ∀ front, front <+: events →
        ∀ reached, Runs.run Loop.step (.start agents userTask) front = some reached →
          Bounded agents (assistPairs reached.journal) := by
  apply Runs.guarded_iff_always (Distinct agents)
  · exact fun loop distinct => bounded_of_nodup distinct.once distinct.known
  · exact fun loop event next distinct remembers stepped => distinct.step remembers stepped
  · intro loop event _ bounded nodeId judged
    -- the helper's turn is always possible
    have stepped : ∃ next, loop.step event = some next := by
      cases event with
      | judge =>
          cases turn : loop.stage with
          | helper target => exact ⟨loop.judge target, by simp only [Loop.step, turn]⟩
          | _ => simp [Loop.judged, turn, Stage.judging] at judged
      | _ => cases judged
    obtain ⟨next, stepped⟩ := stepped
    exact remembers_of_once stepped (bounded next stepped).1 nodeId judged
  · exact ⟨List.nodup_nil, by simp [Loop.start, assistPairs], rfl⟩

/-- The planner drops the assist that the node waited for, and the node asks for
it again. -/
def askedAgainRun : List LoopEvent :=
  [.plan (planOf ["a"]), .invoke [[("a", .ok "@helper check")]], .judge,
    .invoke [[("a-assist1", .ok "checked")]], .judge, .plan (planOf ["a"]),
    .invoke [[("a", .ok "@helper check")]], .judge]

theorem request_granted_again :
    ¬ ∀ (agents : Dict String AgentInfo) (userTask : String) (events : List LoopEvent) (loop : Loop),
      Runs.run Loop.step (.start agents userTask) events = some loop →
        Bounded agents (assistPairs loop.journal) := by
  intro claim
  have ends : Runs.Ends Loop.step (.start pairAgents "task") askedAgainRun fun loop =>
      ¬ (assistPairs loop.journal).Nodup := by
    decide +kernel
  obtain ⟨loop, ran, repeated⟩ := ends
  exact repeated (claim pairAgents "task" askedAgainRun loop ran).1

end Workflow

end Choirworks.Dag
