import NitpickerDaemon.Evidence
import NitpickerDaemon.Permissions

/-!
The stage events of a run: every agent is bracketed by a start and an end, the first that raises
ends the stage, and the L3 review is bracketed after them.
-/

set_option autoImplicit false

namespace Nitpicker

open Effect

/-- A stage event by the fields that identify it. -/
structure StageEvent where
  request_id : String
  stage : PyVal
  phase : PyVal
  result_code : PyVal
  agent_name : PyVal
  ordinal : PyVal
  total : PyVal

def StageEvent.read (request_id : String) (payload : PyDict) : StageEvent where
  request_id := request_id
  stage := payload.get "stage"
  phase := payload.get "phase"
  result_code := payload.get "result_code"
  agent_name := payload.get "agent_name"
  ordinal := payload.get "ordinal"
  total := payload.get "total"

/-- The event of one agent of a run for `total` agents. -/
def agent_event (request_id : String) (total ordinal : Nat) (agent : Agent)
    (phase result_code : String) : StageEvent where
  request_id := request_id
  stage := .str "agent"
  phase := .str phase
  result_code := .str result_code
  agent_name := .str (Orchestrator.agent_label agent)
  ordinal := .int ordinal
  total := .int total

def l3_event (request_id phase result_code : String) : StageEvent where
  request_id := request_id
  stage := .str "l3"
  phase := .str phase
  result_code := .str result_code
  agent_name := .none
  ordinal := .none
  total := .none

/-- What a run has done and got at its stages. -/
inductive StageMark where
  | decided (decision : PolicyDecision)
  | event (e : StageEvent)
  | ran (agent : Agent) (answer : Except PyExc AgentDecision)
  | agreed (consensus : ConsensusResult)
  | reviewed (answer : Except PyExc PyDict)

def stage_mark : (o : Op) → Ans o → Option StageMark
  | .evaluate_request _, .ok decision => some (.decided decision)
  | .append_event request_id event_type payload, _ =>
    if event_type = "review.stage" then some (.event (.read request_id payload)) else none
  | .agent_run agent _ _, answer => some (.ran agent answer)
  | .decide _, .ok consensus => some (.agreed consensus)
  | .llm_review _ _ _, answer => some (.reviewed answer)
  | _, _ => none

section Brackets

variable (request_id : String) (total : Nat)

def agent_started (ordinal : Nat) (agent : Agent) : StageEvent :=
  agent_event request_id total ordinal agent "started" "AGENT_STARTED"

def agent_completed (ordinal : Nat) (agent : Agent) : StageEvent :=
  agent_event request_id total ordinal agent "completed" "AGENT_COMPLETED"

def agent_failed (ordinal : Nat) (agent : Agent) : StageEvent :=
  agent_event request_id total ordinal agent "failed" "AGENT_FAILED"

/-- The marks of agents that decided, from the ordinal on. -/
def completed_marks : Nat → List (Agent × AgentDecision) → List StageMark
  | _, [] => []
  | ordinal, (agent, decision) :: runs =>
    .event (agent_started request_id total ordinal agent) :: .ran agent (.ok decision) ::
      .event (agent_completed request_id total ordinal agent) :: completed_marks (ordinal + 1) runs

/-- The marks of an agent that raised. -/
def failed_marks (ordinal : Nat) (agent : Agent) (e : PyExc) : List StageMark :=
  [.event (agent_started request_id total ordinal agent), .ran agent (.error e),
    .event (agent_failed request_id total ordinal agent)]

/-- The marks of an L3 review. -/
def l3_marks (answer : Except PyExc PyDict) : List StageMark :=
  [.event (l3_event request_id "started" "L3_STARTED"), .reviewed answer,
    .event (match answer with
      | .ok _ => l3_event request_id "completed" "L3_COMPLETED"
      | .error _ => l3_event request_id "failed" "L3_FAILED")]

end Brackets

/-- The marks after the last agent decided. -/
inductive AfterAgents (orc : Orchestrator) (request_id : String) : List StageMark → Prop where
  | undecided : AfterAgents orc request_id []
  | unreviewed (consensus : ConsensusResult) :
      ¬(consensus.status = .pass ∧ orc.llm_review_gate = true) →
      AfterAgents orc request_id [.agreed consensus]
  | reviewed (consensus : ConsensusResult) (answer : Except PyExc PyDict) :
      consensus.status = .pass ∧ orc.llm_review_gate = true →
      AfterAgents orc request_id (.agreed consensus :: l3_marks request_id answer)

/-- The marks a run may leave, in their order. -/
inductive Bracketed (orc : Orchestrator) (request : ReviewRequest) : List StageMark → Prop where
  | undecided : Bracketed orc request []
  | unstarted (decision : PolicyDecision) : Bracketed orc request [.decided decision]
  | failed (decision : PolicyDecision) (runs : List (Agent × AgentDecision)) (agent : Agent)
      (agents : List Agent) (e : PyExc) :
      orc.active_agents request decision = runs.map (·.1) ++ agent :: agents →
      Bracketed orc request (.decided decision ::
        (completed_marks request.request_id (orc.active_agents request decision).length 1 runs ++
          failed_marks request.request_id (orc.active_agents request decision).length
            (1 + runs.length) agent e))
  | completed (decision : PolicyDecision) (runs : List (Agent × AgentDecision))
      (tail : List StageMark) : orc.active_agents request decision = runs.map (·.1) →
      AfterAgents orc request.request_id tail →
      Bracketed orc request (.decided decision ::
        (completed_marks request.request_id (orc.active_agents request decision).length 1 runs ++
          tail))

namespace Orchestrator

section Stages

variable {α β κ : Type} {orc : Orchestrator} {request : ReviewRequest} {context : ContextBundle}
  {f : Locals → κ} {x : List StageMark}

/-- A question that leaves no mark. -/
def Unstaged (o : Op) : Prop := ∀ a, stage_mark o a = none

/-- A part of the pipeline from the marks `x` on, with its own postcondition for exceptions. -/
abbrev Leaves (x : List StageMark) (V : α → List StageMark → Prop)
    (E : PyExc → List StageMark → Prop) (m : Review α) : Prop :=
  Proc.Monitors (collecting stage_mark) (fun _ _ => True) x V E m

theorem leaves_unstaged {m : Review β} {k : β → Review α} {V : α → List StageMark → Prop}
    {E : PyExc → List StageMark → Prop} {R : PyExc → Prop}
    (hm : Proc.Within (fun _ _ => True) Unstaged f R m) (hE : ∀ e, R e → E e x)
    (hk : ∀ b, Leaves x V E (k b)) : Leaves x V E (m >>= k) :=
  hm.monitors_bind (fun _ _ => trivial) (fun _ a h => collecting_none (h a)) hE hk

theorem leaves_end {m : Review α} {V : α → List StageMark → Prop}
    {E : PyExc → List StageMark → Prop} {R : PyExc → Prop}
    (hm : Proc.Within (fun _ _ => True) Unstaged f R m) (hV : ∀ a, V a x)
    (hE : ∀ e, R e → E e x) : Leaves x V E m :=
  hm.monitors (fun _ _ => trivial) (fun _ a h => collecting_none (h a)) hV hE

theorem monotonic_unstaged {R : PyExc → Prop} :
    Proc.Within (fun _ _ => True) Unstaged f R monotonic :=
  monotonic_asks fun _ => rfl

theorem record_stage_event_leaves {request_id stage phase code : String} {details : PyDict}
    {E : PyExc → List StageMark → Prop} :
    Leaves x (fun _ y => y = x ++ [.event (.read request_id ([("stage", .str stage),
      ("phase", .str phase), ("result_code", .str code)] ++ details))]) E
      (record_stage_event_best_effort request_id stage phase code details) :=
  .attempt (E := fun _ y => y = x ++ [.event (.read request_id ([("stage", .str stage),
      ("phase", .str phase), ("result_code", .str code)] ++ details))])
    (.invoke trivial (fun _ _ _ => rfl) fun _ _ _ => rfl) fun _ _ hy => .pure hy

/-- An agent leaves its start, its answer and its end. -/
theorem run_agent_leaves {total ordinal : Nat} {agent : Agent} :
    Leaves x (fun decision y => y = x ++ completed_marks request.request_id total ordinal
        [(agent, decision)])
      (fun e y => y = x ++ failed_marks request.request_id total ordinal agent e)
      (run_agent request context ordinal total agent) := by
  unfold run_agent
  refine record_stage_event_leaves.then fun _ => leaves_unstaged (f := id) (R := fun _ => False)
    monotonic_unstaged (fun _ h => h.elim) fun start => ?_
  refine .bind (W := fun decision y => y = x ++ [.event (agent_started request.request_id total
    ordinal agent), .ran agent (.ok decision)]) (.attempt (E := fun e y => y = x ++
    [.event (agent_started request.request_id total ordinal agent), .ran agent (.error e)])
    (.invoke trivial (fun a decision ha => ?_) fun a e ha => ?_) fun e y hy => ?_)
    fun decision y hy => ?_
  · obtain rfl : a = .ok decision := ha
    simp [collecting, stage_mark]
    rfl
  · obtain rfl : a = .error e := ha
    simp [collecting, stage_mark]
    rfl
  · subst hy
    refine leaves_unstaged (f := id) (R := fun _ => False) monotonic_unstaged (fun _ h => h.elim)
      fun now => record_stage_event_leaves.then fun _ => .raise ?_
    rw [List.append_assoc]
    rfl
  · subst hy
    refine leaves_unstaged (f := id) (R := fun _ => False) monotonic_unstaged (fun _ h => h.elim)
      fun now => record_stage_event_leaves.then fun _ => .pure ?_
    rw [List.append_assoc]
    rfl

theorem completed_marks_append (request_id : String) (total ordinal : Nat)
    (runs runs' : List (Agent × AgentDecision)) :
    completed_marks request_id total ordinal (runs ++ runs') =
      completed_marks request_id total ordinal runs ++
        completed_marks request_id total (ordinal + runs.length) runs' := by
  induction runs generalizing ordinal with
  | nil => simp [completed_marks]
  | cons run runs ih =>
    have hsum : ordinal + 1 + runs.length = ordinal + (runs.length + 1) := by omega
    simp only [List.cons_append, completed_marks, ih, List.length_cons, hsum]

/-- The agents before the first that raises are completed, and it is the last. -/
theorem run_agents_leaves {total : Nat} {agents : List Agent} {ordinal : Nat} :
    Leaves x (fun decisions y => ∃ runs : List (Agent × AgentDecision),
        agents = runs.map (·.1) ∧ decisions = runs.map (·.2) ∧
        y = x ++ completed_marks request.request_id total ordinal runs)
      (fun e y => ∃ (runs : List (Agent × AgentDecision)) (agent : Agent) (rest : List Agent),
        agents = runs.map (·.1) ++ agent :: rest ∧
        y = x ++ (completed_marks request.request_id total ordinal runs ++
          failed_marks request.request_id total (ordinal + runs.length) agent e))
      (run_agents request context total ordinal agents) := by
  induction agents generalizing x ordinal with
  | nil => exact .pure ⟨[], rfl, rfl, by simp [completed_marks]⟩
  | cons agent agents ih =>
    unfold run_agents
    refine .bind (run_agent_leaves.mono (fun _ _ h => h) fun e y hy => ?_) fun decision y hy => ?_
    · exact ⟨[], agent, agents, rfl, by simpa [completed_marks] using hy⟩
    · subst hy
      refine .bind (ih.mono (fun _ _ h => h) fun e y hy => ?_) fun decisions y hy => .pure ?_
      · obtain ⟨runs, failing, rest, hagents, rfl⟩ := hy
        refine ⟨(agent, decision) :: runs, failing, rest, by simp [hagents], ?_⟩
        have hsum : ordinal + 1 + runs.length = ordinal + (runs.length + 1) := by omega
        simp [completed_marks, hsum]
      · obtain ⟨runs, hagents, hdecisions, rfl⟩ := hy
        exact ⟨(agent, decision) :: runs, by simp [hagents], by simp [hdecisions],
          by simp [completed_marks]⟩

/-- The L3 review is asked for, and bracketed, exactly when the agents agree and there is a
gate. -/
theorem l3_stage_leaves {decisions : List AgentDecision} {v : Verdict} :
    Leaves x (fun _ y => (v.consensus.status = .pass ∧ orc.llm_review_gate = true →
          ∃ answer, y = x ++ l3_marks request.request_id answer) ∧
        (¬(v.consensus.status = .pass ∧ orc.llm_review_gate = true) → y = x))
      (fun _ y => v.consensus.status = .pass ∧ orc.llm_review_gate = true ∧
        ∃ answer, y = x ++ l3_marks request.request_id answer)
      (orc.l3_stage request context decisions v) := by
  unfold l3_stage
  refine .ite (fun hl3 => ?_) fun hl3 => .pure ⟨fun h => absurd h hl3, fun _ => rfl⟩
  refine leaves_unstaged (f := id) (R := fun _ => False) (log_analytics_asks fun _ _ => rfl)
    (fun _ h => h.elim) fun _ => leaves_unstaged (f := id) (R := fun _ => False)
    monotonic_unstaged (fun _ h => h.elim) fun start => record_stage_event_leaves.then fun _ => ?_
  refine .bind (W := fun d y => y = x ++ [.event (l3_event request.request_id "started"
    "L3_STARTED"), .reviewed (.ok d)]) (.attempt (E := fun e y => y = x ++ [.event (l3_event
    request.request_id "started" "L3_STARTED"), .reviewed (.error e)])
    (.invoke trivial (fun a d ha => ?_) fun a e ha => ?_) fun e y hy => ?_) fun d y hy => ?_
  · obtain rfl : a = .ok d := ha
    simp [collecting, stage_mark]
    rfl
  · obtain rfl : a = .error e := ha
    simp [collecting, stage_mark]
    rfl
  · subst hy
    refine leaves_unstaged (f := id) (R := fun _ => False) monotonic_unstaged (fun _ h => h.elim)
      fun now => record_stage_event_leaves.then fun _ => .raise ⟨hl3.1, hl3.2, .error e, ?_⟩
    rw [List.append_assoc]
    rfl
  · subst hy
    have hmarks : x ++ [StageMark.event (l3_event request.request_id "started" "L3_STARTED"),
        .reviewed (.ok d)] ++ [.event (l3_event request.request_id "completed" "L3_COMPLETED")] =
          x ++ l3_marks request.request_id (.ok d) := by
      rw [List.append_assoc]
      rfl
    refine leaves_unstaged (f := id) (R := fun _ => False) monotonic_unstaged (fun _ h => h.elim)
      fun now => record_stage_event_leaves.then fun _ => leaves_unstaged (f := id)
      (R := fun _ => False) (log_analytics_asks fun _ _ => rfl) (fun _ h => h.elim) fun _ =>
      .ofExcept (fun v' _ => ?_) fun e _ => ?_
    · exact ⟨fun _ => ⟨.ok d, hmarks⟩, fun h => absurd hl3 h⟩
    · exact ⟨hl3.1, hl3.2, .ok d, hmarks⟩

/-- A part of the pipeline that ends, either way, with the marks of a run. -/
abbrev Brackets (orc : Orchestrator) (request : ReviewRequest) (x : List StageMark)
    (m : Review α) : Prop :=
  Leaves x (fun _ y => Bracketed orc request y) (fun _ y => Bracketed orc request y) m

theorem brackets_unstaged {m : Review β} {k : β → Review α} (hx : Bracketed orc request x)
    (hm : Proc.Within (fun _ _ => True) Unstaged f (fun _ => True) m)
    (hk : ∀ b, orc.Brackets request x (k b)) : orc.Brackets request x (m >>= k) :=
  leaves_unstaged hm (fun _ _ => hx) hk

theorem brackets_end {m : Review α} (hx : Bracketed orc request x)
    (hm : Proc.Within (fun _ _ => True) Unstaged f (fun _ => True) m) :
    orc.Brackets request x m :=
  leaves_end hm (fun _ => hx) fun _ _ => hx

/-- A checked transition and the assignment after it. -/
theorem brackets_transition {from_state to_state : ReviewState} {reason code : String}
    {k : Review α} (hx : Bracketed orc request x) (hk : orc.Brackets request x k) :
    orc.Brackets request x (do
      transition request.request_id from_state to_state reason code
      Proc.assign fun l => { l with current_state := to_state }
      k) :=
  brackets_unstaged (f := id) hx (transition_asks fun _ => rfl) fun _ =>
    brackets_unstaged (f := fun _ => ()) hx (.assign fun _ => rfl) fun _ => hk

theorem deliver_unstaged {decisions : List AgentDecision} {v : Verdict} :
    Proc.Within (fun _ _ => True) Unstaged id (fun _ => True)
      (orc.deliver request decisions v) :=
  .bind (mark_terminal_safe_asks fun _ => rfl) fun _ => .bind (log_analytics_asks fun _ _ => rfl)
    fun _ => .bind (publish_diagnostics_asks fun _ => rfl) fun _ =>
    .bind (publish_quick_fix_asks (fun _ => rfl) fun _ _ _ => trivial) fun _ =>
    .bind (log_result_asks fun _ => rfl) fun _ => .pure _

/-- After the agents, from the marks of the consensus on. -/
theorem settle_brackets {decisions : List AgentDecision} {v : Verdict}
    (hx : Bracketed orc request x) : orc.Brackets request x (do
      let v ← orc.patch_stage request v
      let v ← orc.autofix_stage request v
      orc.deliver request decisions v) :=
  brackets_unstaged (f := id) hx (patch_stage_asks (fun _ _ => rfl) (fun _ _ => rfl)
    (fun _ _ => rfl) (fun _ _ _ => trivial) fun _ _ _ => trivial) fun _ =>
    brackets_unstaged (f := id) hx (autofix_stage_asks (fun _ _ => rfl) (fun _ _ => rfl)
      (fun _ _ _ => trivial) trivial) fun _ => brackets_end hx deliver_unstaged

/-- The marks up to the decision of the last agent. -/
def decided_marks (orc : Orchestrator) (request : ReviewRequest) (decision : PolicyDecision)
    (runs : List (Agent × AgentDecision)) : List StageMark :=
  .decided decision ::
    completed_marks request.request_id (orc.active_agents request decision).length 1 runs

theorem conclude_brackets {decision : PolicyDecision} {runs : List (Agent × AgentDecision)}
    {decisions : List AgentDecision} (hruns : orc.active_agents request decision = runs.map (·.1)) :
    orc.Brackets request (orc.decided_marks request decision runs)
      (orc.conclude request context decisions) := by
  have hafter : ∀ tail, AfterAgents orc request.request_id tail →
      Bracketed orc request (orc.decided_marks request decision runs ++ tail) :=
    fun tail htail => .completed decision runs tail hruns htail
  have hdone : Bracketed orc request (orc.decided_marks request decision runs) := by
    have h := hafter [] .undecided
    rwa [List.append_nil] at h
  refine brackets_transition hdone (.bind (W := fun consensus y => y =
    orc.decided_marks request decision runs ++ [.agreed consensus])
    (.invoke trivial (fun a consensus ha => ?_) fun a e ha => ?_) fun consensus y hy => ?_)
  · obtain rfl : a = .ok consensus := ha
    rfl
  · obtain rfl : a = .error e := ha
    have hsame : collecting stage_mark (orc.decided_marks request decision runs)
        (.decide decisions) (.error e) = orc.decided_marks request decision runs :=
      collecting_none rfl
    rw [hsame]
    exact hdone
  · subst hy
    have hreviewed : consensus.status = .pass ∧ orc.llm_review_gate = true → ∀ answer,
        Bracketed orc request (orc.decided_marks request decision runs ++ [.agreed consensus] ++
          l3_marks request.request_id answer) := by
      intro hl3 answer
      rw [List.append_assoc]
      exact hafter _ (.reviewed consensus answer hl3)
    refine .bind (l3_stage_leaves.mono (fun _ _ h => h) fun e y hy => ?_) fun v y hy => ?_
    · obtain ⟨hpass, hgate, answer, rfl⟩ := hy
      exact hreviewed ⟨hpass, hgate⟩ answer
    · by_cases hl3 : consensus.status = .pass ∧ orc.llm_review_gate = true
      · obtain ⟨answer, rfl⟩ := hy.1 hl3
        exact settle_brackets (hreviewed hl3 answer)
      · rw [hy.2 hl3]
        exact settle_brackets (hafter _ (.unreviewed consensus hl3))

theorem analyze_leaves {decision : PolicyDecision} :
    Leaves [.decided decision] (fun _ y => ∃ runs, orc.active_agents request decision =
        runs.map (·.1) ∧ y = orc.decided_marks request decision runs)
      (fun _ y => Bracketed orc request y) (orc.analyze request decision context) := by
  have hx : Bracketed orc request [.decided decision] := .unstarted decision
  refine leaves_unstaged (f := id) (transition_asks fun _ => rfl) (fun _ _ => hx) fun _ =>
    leaves_unstaged (f := fun _ => ()) (R := fun _ => False) (.assign fun _ => rfl)
      (fun _ h => h.elim) fun _ => leaves_unstaged (f := id) (R := fun _ => False)
      monotonic_unstaged (fun _ h => h.elim) fun start => ?_
  refine .bind (run_agents_leaves.mono (fun _ _ h => h) fun e y hy => ?_) fun decisions y hy => ?_
  · obtain ⟨runs, agent, rest, hagents, rfl⟩ := hy
    exact .failed decision runs agent rest e hagents
  · obtain ⟨runs, hagents, -, rfl⟩ := hy
    exact leaves_unstaged (f := id) (R := fun _ => False) monotonic_unstaged (fun _ h => h.elim)
      fun now => leaves_unstaged (f := id) (R := fun _ => False)
      (log_analytics_asks fun _ _ => rfl) (fun _ h => h.elim) fun _ => .pure ⟨runs, hagents, rfl⟩

theorem review_brackets {decision : PolicyDecision} :
    orc.Brackets request [.decided decision] (orc.review request decision) := by
  have hx : Bracketed orc request [.decided decision] := .unstarted decision
  refine brackets_transition hx (brackets_unstaged (f := id) hx (.invoke (fun _ => rfl)
    fun _ _ _ _ => trivial) fun context => brackets_unstaged (f := id) hx (offload_asks
    (fun _ _ => rfl) (fun _ => rfl) (fun _ _ => rfl) fun _ _ => trivial) fun _ =>
    brackets_unstaged (f := id) hx (context_cache_asks (fun _ _ => rfl) (fun _ _ _ => rfl)
      (fun _ => rfl) fun _ _ _ _ _ => trivial) fun _ => .bind analyze_leaves fun decisions y hy => ?_)
  obtain ⟨runs, hruns, rfl⟩ := hy
  exact conclude_brackets hruns

theorem reject_policy_unstaged {decision : PolicyDecision} :
    Proc.Within (fun _ _ => True) Unstaged (fun _ => ()) (fun _ => True)
      (orc.reject_policy request decision) :=
  .bind (transition_asks fun _ => rfl) fun _ => .bind (.assign fun _ => rfl) fun _ =>
    .bind (mark_terminal_safe_asks fun _ => rfl) fun _ =>
    .bind (publish_diagnostics_asks fun _ => rfl) fun _ =>
    .bind (log_result_asks fun _ => rfl) fun _ => .pure _

theorem admission_brackets : orc.Brackets request [] (orc.admission request) := by
  have hnil : Bracketed orc request [] := .undecided
  refine brackets_unstaged (f := id) hnil (.invoke (fun _ => rfl) fun _ _ _ _ => trivial) fun ok =>
    .ite (fun _ => .bind (W := fun decision y => y = [.decided decision])
      (.invoke trivial (fun a decision ha => ?_) fun a e ha => ?_) fun decision y hy => ?_)
      fun _ => brackets_end (f := id) hnil (.bind (mark_terminal_safe_asks fun _ => rfl) fun _ =>
        .bind (log_result_asks fun _ => rfl) fun _ => .pure _)
  · obtain rfl : a = .ok decision := ha
    rfl
  · obtain rfl : a = .error e := ha
    exact hnil
  · subst hy
    have hx : Bracketed orc request [.decided decision] := .unstarted decision
    exact brackets_unstaged (f := id) hx (log_analytics_asks fun _ _ => rfl) fun _ =>
      .ite (fun _ => review_brackets) fun _ => brackets_end hx reject_policy_unstaged

theorem pipeline_brackets : orc.Brackets request [] (orc.pipeline request) := by
  have hnil : Bracketed orc request [] := .undecided
  have hassign : ∀ g : Locals → Locals, orc.Brackets request []
      (Proc.assign g >>= fun _ => orc.admission request) := fun g =>
    brackets_unstaged (f := fun _ => ()) hnil (.assign fun _ => rfl) fun _ => admission_brackets
  refine brackets_unstaged (f := id) hnil (.invoke (fun _ => rfl) fun _ _ _ _ => trivial)
    fun outcome => ?_
  cases outcome with
  | none => exact hassign _
  | some outcome =>
    refine .ite (fun _ => brackets_end (f := id) hnil ?_) fun _ => hassign _
    exact .bind (log_analytics_asks fun _ _ => rfl) fun _ =>
      .bind (publish_diagnostics_asks fun _ => rfl) fun _ =>
      .bind (log_result_asks fun _ => rfl) fun _ => .pure _

theorem run_once_brackets : Leaves [] (fun _ y => Bracketed orc request y) (fun _ _ => False)
    (orc.run_once request) := by
  refine .attempt pipeline_brackets fun e y hy => ?_
  have hhandler : Proc.Within (fun _ _ => True) Unstaged (fun _ => ()) (fun _ => False)
      (orc.handle_failure request e) :=
    handle_failure_asks (fun _ _ _ => rfl) (fun _ _ => rfl) (fun _ _ _ _ _ _ => rfl)
      fun _ _ _ _ _ => rfl
  exact leaves_end hhandler (fun _ => hy) fun _ h => h.elim

end Stages

end Orchestrator

/-- The stage events of a run, in order. -/
def stage_events (t : Trace) : List StageEvent :=
  t.filterMap fun ev => match ev.op with
    | .append_event request_id event_type payload =>
      if event_type = "review.stage" then some (.read request_id payload) else none
    | _ => none

/-- What the consensus engine decided in a run. -/
def agreements (t : Trace) : List ConsensusResult :=
  t.filterMap fun ev => match ev.op, ev.ans with
    | .decide _, .ok consensus => some consensus
    | _, _ => none

def completed_events (request_id : String) (total : Nat) : Nat → List Agent → List StageEvent
  | _, [] => []
  | ordinal, agent :: agents => agent_started request_id total ordinal agent ::
      agent_completed request_id total ordinal agent ::
      completed_events request_id total (ordinal + 1) agents

/-- The stage events after those of the agents. -/
inductive L3Trace (orc : Orchestrator) (request_id : String) (t : Trace) :
    List StageEvent → Prop where
  | unreviewed : l3_answers t = [] → (∀ consensus ∈ agreements t,
      ¬(consensus.status = .pass ∧ orc.llm_review_gate = true)) → L3Trace orc request_id t []
  | completed (consensus : ConsensusResult) (llm_result : PyDict) :
      agreements t = [consensus] → consensus.status = .pass ∧ orc.llm_review_gate = true →
      l3_answers t = [.ok llm_result] → L3Trace orc request_id t
        [l3_event request_id "started" "L3_STARTED", l3_event request_id "completed" "L3_COMPLETED"]
  | failed (consensus : ConsensusResult) (e : PyExc) :
      agreements t = [consensus] → consensus.status = .pass ∧ orc.llm_review_gate = true →
      l3_answers t = [.error e] → L3Trace orc request_id t
        [l3_event request_id "started" "L3_STARTED", l3_event request_id "failed" "L3_FAILED"]

/-- The stage events of a run against what its agents and its gate answered. -/
inductive StageTrace (orc : Orchestrator) (request : ReviewRequest) (t : Trace) : Prop where
  | unstarted : agent_runs t = [] → l3_answers t = [] → stage_events t = [] →
      StageTrace orc request t
  | failed (decision : PolicyDecision) (runs : List (Agent × AgentDecision)) (agent : Agent)
      (rest : List Agent) (e : PyExc) : decisions t = [decision] →
      orc.active_agents request decision = runs.map (·.1) ++ agent :: rest →
      agent_runs t = runs.map (fun run => (run.1, .ok run.2)) ++ [(agent, .error e)] →
      stage_events t = completed_events request.request_id
          (orc.active_agents request decision).length 1 (runs.map (·.1)) ++
        [agent_started request.request_id (orc.active_agents request decision).length
            (1 + runs.length) agent,
          agent_failed request.request_id (orc.active_agents request decision).length
            (1 + runs.length) agent] → StageTrace orc request t
  | completed (decision : PolicyDecision) (runs : List (Agent × AgentDecision))
      (l3 : List StageEvent) : decisions t = [decision] →
      orc.active_agents request decision = runs.map (·.1) →
      agent_runs t = runs.map (fun run => (run.1, .ok run.2)) →
      L3Trace orc request.request_id t l3 →
      stage_events t = completed_events request.request_id
        (orc.active_agents request decision).length 1 (runs.map (·.1)) ++ l3 →
      StageTrace orc request t

namespace StageMark

def read_event : StageMark → Option StageEvent
  | .event e => some e
  | _ => none

def read_run : StageMark → Option (Agent × Except PyExc AgentDecision)
  | .ran agent answer => some (agent, answer)
  | _ => none

def read_decision : StageMark → Option PolicyDecision
  | .decided decision => some decision
  | _ => none

def read_consensus : StageMark → Option ConsensusResult
  | .agreed consensus => some consensus
  | _ => none

def read_review : StageMark → Option (Except PyExc PyDict)
  | .reviewed answer => some answer
  | _ => none

end StageMark

def stage_marks (t : Trace) : List StageMark := t.filterMap fun ev => stage_mark ev.op ev.ans

section Readings

variable {t : Trace}

/-- What is read off the marks is read off the events. -/
theorem filterMap_marks {μ : Type} {read : StageMark → Option μ} {g : Event Db Op Ans → Option μ}
    (h : ∀ ev, (stage_mark ev.op ev.ans).bind read = g ev) :
    (stage_marks t).filterMap read = t.filterMap g := by
  rw [stage_marks, List.filterMap_filterMap]
  congr 1
  funext ev
  exact h ev

theorem stage_events_marks : (stage_marks t).filterMap StageMark.read_event = stage_events t := by
  apply filterMap_marks
  intro ev
  obtain ⟨s, o, a, s'⟩ := ev
  cases o with
  | append_event request_id event_type payload =>
    by_cases h : event_type = "review.stage" <;> simp [stage_mark, h, StageMark.read_event]
  | _ => first | rfl | cases a <;> rfl

theorem agent_runs_marks : (stage_marks t).filterMap StageMark.read_run = agent_runs t := by
  apply filterMap_marks
  intro ev
  obtain ⟨s, o, a, s'⟩ := ev
  cases o with
  | append_event request_id event_type payload =>
    by_cases h : event_type = "review.stage" <;> simp [stage_mark, h, StageMark.read_run, agent_run]
  | _ => first | rfl | cases a <;> rfl

theorem decisions_marks : (stage_marks t).filterMap StageMark.read_decision = decisions t := by
  apply filterMap_marks
  intro ev
  obtain ⟨s, o, a, s'⟩ := ev
  cases o with
  | append_event request_id event_type payload =>
    by_cases h : event_type = "review.stage" <;> simp [stage_mark, h, StageMark.read_decision]
  | _ => first | rfl | cases a <;> rfl

theorem agreements_marks : (stage_marks t).filterMap StageMark.read_consensus = agreements t := by
  apply filterMap_marks
  intro ev
  obtain ⟨s, o, a, s'⟩ := ev
  cases o with
  | append_event request_id event_type payload =>
    by_cases h : event_type = "review.stage" <;> simp [stage_mark, h, StageMark.read_consensus]
  | _ => first | rfl | cases a <;> rfl

theorem l3_answers_marks : (stage_marks t).filterMap StageMark.read_review = l3_answers t := by
  apply filterMap_marks
  intro ev
  obtain ⟨s, o, a, s'⟩ := ev
  cases o with
  | append_event request_id event_type payload =>
    by_cases h : event_type = "review.stage" <;>
      simp [stage_mark, h, StageMark.read_review, l3_answer]
  | _ => first | rfl | cases a <;> rfl

end Readings

section Completed

variable (request_id : String) (total ordinal : Nat) (runs : List (Agent × AgentDecision))

theorem completed_events_marks :
    (completed_marks request_id total ordinal runs).filterMap StageMark.read_event =
      completed_events request_id total ordinal (runs.map (·.1)) := by
  induction runs generalizing ordinal with
  | nil => rfl
  | cons run runs ih =>
    exact congrArg (fun events => agent_started request_id total ordinal run.1 ::
      agent_completed request_id total ordinal run.1 :: events) (ih (ordinal + 1))

theorem completed_runs_marks :
    (completed_marks request_id total ordinal runs).filterMap StageMark.read_run =
      runs.map fun run => (run.1, .ok run.2) := by
  induction runs generalizing ordinal with
  | nil => rfl
  | cons run runs ih =>
    exact congrArg (fun rest => (run.1, Except.ok run.2) :: rest) (ih (ordinal + 1))

/-- Completed agents leave no other mark. -/
theorem completed_unread {μ : Type} {read : StageMark → Option μ}
    (hevent : ∀ e, read (.event e) = none) (hran : ∀ agent answer, read (.ran agent answer) = none) :
    (completed_marks request_id total ordinal runs).filterMap read = [] := by
  induction runs generalizing ordinal with
  | nil => rfl
  | cons run runs ih => simp [completed_marks, hevent, hran, ih]

end Completed

open StageMark in
/-- The stage events of a whole run are bracketed: those of the agents in order, up to the first
that raises, and then those of the L3 review when the consensus is a pass and there is a gate. -/
theorem stage_events_bracketed {env : Env} {orc : Orchestrator} {request : ReviewRequest}
    {db db' : Db} {t : Trace} {r : Except PyExc ReviewResult × Locals}
    (hr : Steps env.step db (orc.run_once request {}) t db' (.ret r)) :
    StageTrace orc request t := by
  have hmarks : Bracketed orc request (stage_marks t) := by
    have hend := hr.path.monitored (Orchestrator.run_once_brackets {})
    rw [watch_collecting, List.nil_append] at hend
    obtain ⟨e | result, l⟩ := r
    · exact hend.elim
    · exact hend
  have hdecided : ∀ decision, read_decision (.decided decision) = some decision := fun _ => rfl
  generalize hm : stage_marks t = marks at hmarks
  have hevents := @stage_events_marks t
  have hruns := @agent_runs_marks t
  have hdecisions := @decisions_marks t
  have hagreements := @agreements_marks t
  have hreviews := @l3_answers_marks t
  rw [hm] at hevents hruns hdecisions hagreements hreviews
  cases hmarks with
  | undecided => exact .unstarted hruns.symm hreviews.symm hevents.symm
  | unstarted decision => exact .unstarted hruns.symm hreviews.symm hevents.symm
  | failed decision runs agent rest e hagents =>
    refine .failed decision runs agent rest e ?_ hagents ?_ ?_
    · rw [← hdecisions, List.filterMap_cons_some (hdecided _), List.filterMap_append,
        completed_unread _ _ _ _ (fun _ => rfl) fun _ _ => rfl]
      rfl
    · rw [← hruns, List.filterMap_cons_none rfl, List.filterMap_append, completed_runs_marks]
      rfl
    · rw [← hevents, List.filterMap_cons_none rfl, List.filterMap_append, completed_events_marks]
      rfl
  | completed decision runs tail hagents htail =>
    rw [List.filterMap_cons_none rfl, List.filterMap_append, completed_events_marks] at hevents
    rw [List.filterMap_cons_none rfl, List.filterMap_append, completed_runs_marks] at hruns
    rw [List.filterMap_cons_some (hdecided _), List.filterMap_append,
      completed_unread _ _ _ _ (fun _ => rfl) fun _ _ => rfl] at hdecisions
    rw [List.filterMap_cons_none rfl, List.filterMap_append,
      completed_unread _ _ _ _ (fun _ => rfl) fun _ _ => rfl, List.nil_append] at hagreements
    rw [List.filterMap_cons_none rfl, List.filterMap_append,
      completed_unread _ _ _ _ (fun _ => rfl) fun _ _ => rfl, List.nil_append] at hreviews
    cases htail with
    | undecided =>
      refine .completed decision runs [] hdecisions.symm hagents ?_ (.unreviewed hreviews.symm ?_)
        hevents.symm
      · rw [← hruns]
        exact List.append_nil _
      · rw [← hagreements]
        exact fun consensus h => absurd h List.not_mem_nil
    | unreviewed consensus hl3 =>
      refine .completed decision runs [] hdecisions.symm hagents ?_ (.unreviewed hreviews.symm ?_)
        hevents.symm
      · rw [← hruns]
        exact List.append_nil _
      · rw [← hagreements]
        intro other hother
        rw [List.mem_singleton.mp hother]
        exact hl3
    | reviewed consensus answer hl3 =>
      have hran : agent_runs t = runs.map fun run => (run.1, .ok run.2) := by
        rw [← hruns]
        exact List.append_nil _
      cases answer with
      | ok llm_result =>
        exact .completed decision runs _ hdecisions.symm hagents hran
          (.completed consensus llm_result hagreements.symm hl3 hreviews.symm) hevents.symm
      | error e =>
        exact .completed decision runs _ hdecisions.symm hagents hran
          (.failed consensus e hagreements.symm hl3 hreviews.symm) hevents.symm

/-- Two agents and an L3 gate. -/
def two_agents : Orchestrator where
  agents := [⟨some "security", "SecurityAgent"⟩, ⟨some "architecture", "ArchitectureAgent"⟩]
  llm_review_gate := true

/-- The second agent raises. -/
def architecture_raises : (o : Op) → Ans o
  | .agent_run agent request context =>
    if agent.name = some "architecture" then .error ⟨"ValueError", [.valueError], "bad regex"⟩
    else agreeable (.agent_run agent request context)
  | o => agreeable o

theorem stage_events_sample : ∃ t db r,
    Steps anyone.step {} (two_agents.run_once (sampleRequest "req_1" "key") {}) t db (.ret r) ∧
    StageTrace two_agents (sampleRequest "req_1" "key") t ∧ (agent_runs t).length = 2 := by
  have hr := @play_steps anyone architecture_raises (fun _ => trivial) two_agents
    (sampleRequest "req_1" "key") {} 60
  -- the arithmetic of rationals is irreducible
  with_unfolding_all
    exact ⟨_, _, _, hr, stage_events_bracketed hr, rfl⟩

end Nitpicker
