import NitpickerDaemon.DeepReview
import NitpickerDaemon.DefaultAgents
import NitpickerDaemon.GreenLight

/-!
The default pipeline from end to end: which agents a request is put to, and on what its verdict
depends.
-/

set_option autoImplicit false

namespace Nitpicker

open Effect

/-- The agents answered one after the other, each to this request and this context. -/
def Heard (request : ReviewRequest) (context : ContextBundle) (agents : List Agent)
    (decisions : List AgentDecision) (t : Trace) : Prop :=
  List.Forall₂ (fun agent d => Answered t (.agent_run agent request context) (.ok d)) agents
    decisions

section Heard

variable {request : ReviewRequest} {context : ContextBundle} {agents : List Agent}
  {decisions : List AgentDecision} {t t' : Trace}

theorem Heard.append_left (h : Heard request context agents decisions t) :
    Heard request context agents decisions (t ++ t') :=
  List.Forall₂.imp (fun _ _ ha => ha.append_left) h

theorem Heard.append_right (h : Heard request context agents decisions t') :
    Heard request context agents decisions (t ++ t') :=
  List.Forall₂.imp (fun _ _ ha => ha.append_right) h

end Heard

/-- The review behind a verdict: the policy, the context, the agents and the consensus. -/
structure Deliberated (orc : Orchestrator) (request : ReviewRequest) (decision : PolicyDecision)
    (context : ContextBundle) (decisions : List AgentDecision) (consensus : ConsensusResult)
    (t : Trace) : Prop where
  evaluated : Answered t (.evaluate_request request) (.ok decision)
  accepted : decision.accepted = true
  built : Answered t (.build_context request) (.ok context)
  heard : Heard request context (orc.active_agents request decision) decisions t
  decided : Answered t (.decide decisions) (.ok consensus)

/-- What a code says about the consensus. -/
structure CodeFollows (orc : Orchestrator) (consensus : ConsensusResult) (code : PyVal) : Prop where
  passed : code = .str "REVIEW_PASSED" → consensus.status = .pass
  rejected : code = .str "REVIEW_REJECTED" →
    consensus.status ≠ .pass ∨ orc.llm_review_gate = true

/-- The two codes of a review that was carried through. -/
def CarriedThrough (code : PyVal) : Prop :=
  code = .str "REVIEW_PASSED" ∨ code = .str "REVIEW_REJECTED"

namespace Orchestrator

section Returns

variable {orc : Orchestrator} {request : ReviewRequest} {context : ContextBundle}
  {consensus : ConsensusResult} {v : Verdict}

theorem run_agent_heard {ordinal total : Nat} {agent : Agent} :
    Proc.Returns (run_agent request context ordinal total agent) fun d t =>
      Answered t (.agent_run agent request context) (.ok d) := by
  refine .bind (.any _) fun _ t₁ _ => .bind (.any _) fun _ t₂ _ =>
    .bind (P := fun d t => Answered t (.agent_run agent request context) (.ok d))
      (.attempt (.invoke ?_) fun e t => ?_) fun d t₃ h₃ =>
    .bind (.any _) fun _ t₄ _ => .bind (.any _) fun _ t₅ _ => .pure ?_
  · rintro a d s s' rfl
    exact ⟨s, s', List.mem_cons_self⟩
  · exact .bind (.any _) fun _ _ _ => .bind (.any _) fun _ _ _ => .raise e
  · exact (h₃.append_left.append_right).append_right

theorem run_agents_heard {total : Nat} {agents : List Agent} {ordinal : Nat} :
    Proc.Returns (run_agents request context total ordinal agents) fun ds t =>
      Heard request context agents ds t := by
  induction agents generalizing ordinal with
  | nil => exact .pure .nil
  | cons agent agents ih =>
    refine .bind run_agent_heard fun d t₁ h₁ => .bind ih fun ds t₂ h₂ => .pure ?_
    have h₂' : Heard request context agents ds (t₂ ++ []) := h₂.append_left
    exact .cons h₁.append_left h₂'.append_right

theorem analyze_heard {decision : PolicyDecision} :
    Proc.Returns (orc.analyze request decision context) fun decisions t =>
      Heard request context (orc.active_agents request decision) decisions t := by
  refine .bind (.any _) fun _ t₁ _ => .bind (.any _) fun _ t₂ _ => .bind (.any _) fun _ t₃ _ =>
    .bind run_agents_heard fun decisions t₄ h₄ => .bind (.any _) fun _ t₅ _ =>
    .bind (.any _) fun _ t₆ _ => .pure ?_
  exact ((h₄.append_left.append_right).append_right).append_right

theorem first_verdict_follows : CodeFollows orc consensus (first_verdict consensus).result_code := by
  by_cases h : consensus.status = .pass
  · exact ⟨fun _ => h, by simp [first_verdict, h]⟩
  · exact ⟨by simp [first_verdict, h], fun _ => .inl h⟩

theorem l3_stage_follows {decisions : List AgentDecision} :
    Proc.Returns (orc.l3_stage request context decisions (first_verdict consensus)) fun v (_ : Trace)
      => CodeFollows orc consensus v.result_code := by
  refine l3_stage_returns.mono fun v t h => ?_
  by_cases hc : consensus.status = .pass ∧ orc.llm_review_gate = true
  · exact ⟨fun _ => hc.1, fun _ => .inr hc.2⟩
  · rw [h.2.2 hc]
    exact first_verdict_follows

theorem patch_stage_follows (h : CodeFollows orc consensus v.result_code) :
    Proc.Returns (orc.patch_stage request v) fun v' (_ : Trace) =>
      CodeFollows orc consensus v'.result_code := by
  refine patch_stage_returns.mono fun v' t hv => ?_
  rcases hv.2 with rfl | ⟨-, hcode⟩
  · exact h
  · simp only [List.mem_cons, List.not_mem_nil, or_false] at hcode
    rcases hcode with hc | hc | hc <;> exact ⟨by simp [hc], by simp [hc]⟩

theorem autofix_stage_follows (h : CodeFollows orc consensus v.result_code) :
    Proc.Returns (orc.autofix_stage request v) fun v' (_ : Trace) =>
      CodeFollows orc consensus v'.result_code := by
  refine autofix_stage_returns.mono fun v' t hv => ?_
  rcases hv.2 with rfl | ⟨-, ⟨-, hc⟩ | ⟨-, hc⟩⟩
  · exact h
  all_goals exact ⟨by simp [hc], by simp [hc]⟩

theorem conclude_follows {decisions : List AgentDecision} :
    Proc.Returns (orc.conclude request context decisions) fun result t => ∃ consensus,
      Answered t (.decide decisions) (.ok consensus) ∧
        CodeFollows orc consensus result.result_code := by
  refine .bind (.any _) fun _ t₁ _ => .bind (.any _) fun _ t₂ _ =>
    .bind (ask_returns trivial) fun consensus t₃ h₃ => .bind l3_stage_follows fun v t₄ h₄ =>
    .bind (patch_stage_follows h₄) fun v t₅ h₅ => .bind (autofix_stage_follows h₅)
      fun v t₆ h₆ => deliver_returns.mono fun result t₇ h₇ => ?_
  obtain ⟨-, _, rfl, hdecided⟩ := h₃
  obtain ⟨-, -, hcode, -⟩ := h₇
  rw [hcode]
  exact ⟨consensus, (hdecided.append_left.append_right).append_right, h₆⟩

theorem review_follows {decision : PolicyDecision} :
    Proc.Returns (orc.review request decision) fun result t => ∃ context decisions consensus,
      Answered t (.build_context request) (.ok context) ∧
      Heard request context (orc.active_agents request decision) decisions t ∧
      Answered t (.decide decisions) (.ok consensus) ∧
      CodeFollows orc consensus result.result_code := by
  refine .bind (.any _) fun _ t₁ _ => .bind (.any _) fun _ t₂ _ =>
    .bind (ask_returns trivial) fun context t₃ h₃ => .bind (.any _) fun _ t₄ _ =>
    .bind (.any _) fun _ t₅ _ => .bind analyze_heard fun decisions t₆ h₆ =>
    conclude_follows.mono fun result t₇ h₇ => ?_
  obtain ⟨-, _, rfl, hbuilt⟩ := h₃
  obtain ⟨consensus, hdecided, hfollows⟩ := h₇
  have hheard : Heard request context (orc.active_agents request decision) decisions (t₆ ++ t₇) :=
    h₆.append_left
  have hdecided' := hdecided.append_right (t := t₆)
  exact ⟨context, decisions, consensus, (hbuilt.append_left.append_right).append_right,
    ((((hheard.append_right).append_right).append_right).append_right).append_right,
    ((((hdecided'.append_right).append_right).append_right).append_right).append_right, hfollows⟩

/-- A verdict of a carried review has the review behind it. -/
def Backed (orc : Orchestrator) (request : ReviewRequest) (result : ReviewResult) (t : Trace) :
    Prop :=
  CarriedThrough result.result_code → ∃ decision context decisions consensus,
    Deliberated orc request decision context decisions consensus t ∧
      CodeFollows orc consensus result.result_code

theorem Backed.append_right {result : ReviewResult} {t t' : Trace}
    (h : Backed orc request result t') : Backed orc request result (t ++ t') := fun hc => by
  obtain ⟨decision, context, decisions, consensus, hd, hf⟩ := h hc
  exact ⟨decision, context, decisions, consensus, ⟨hd.evaluated.append_right, hd.accepted,
    hd.built.append_right, hd.heard.append_right, hd.decided.append_right⟩, hf⟩

theorem backed_of_code {result : ReviewResult} {code : String} (t : Trace)
    (hcode : result.result_code = .str code) (hp : code ≠ "REVIEW_PASSED")
    (hr : code ≠ "REVIEW_REJECTED") : Backed orc request result t := by
  rintro (hc | hc)
  · exact absurd (PyVal.str.inj (hcode.symm.trans hc)) hp
  · exact absurd (PyVal.str.inj (hcode.symm.trans hc)) hr

theorem admission_backed : Proc.Returns (orc.admission request) fun result t =>
    Backed orc request result t := by
  refine .bind (.any _) fun _ t₁ _ => .ite (fun _ => ?_) fun _ => ?_
  · refine .bind (ask_returns trivial) fun decision t₂ h₂ => .bind (.any _) fun _ t₃ _ =>
      .ite (fun haccepted => review_follows.mono fun result t₄ h₄ => ?_) fun _ => ?_
    · obtain ⟨-, _, rfl, hevaluated⟩ := h₂
      obtain ⟨context, decisions, consensus, hbuilt, hheard, hdecided, hfollows⟩ := h₄
      have hback : Backed orc request result (t₂ ++ (t₃ ++ t₄)) := fun _ =>
        ⟨decision, context, decisions, consensus, ⟨hevaluated.append_left, haccepted,
          (hbuilt.append_right).append_right, (hheard.append_right).append_right,
          (hdecided.append_right).append_right⟩, hfollows⟩
      exact hback.append_right
    · exact .bind (.any _) fun _ _ _ => .bind (.any _) fun _ _ _ => .bind (.any _) fun _ _ _ =>
        .bind (.any _) fun _ _ _ => .bind (.any _) fun _ _ _ => .pure (backed_of_code _
          rfl (by decide) (by decide))
  · exact .bind (.any _) fun _ _ _ => .bind (.any _) fun _ _ _ => .pure (backed_of_code _ rfl
      (by decide) (by decide))

theorem handle_failure_backed {error : PyExc} :
    Proc.Returns (orc.handle_failure request error) fun result t => Backed orc request result t := by
  have hclass := classify_failure_mem error
  unfold handle_failure
  generalize classify_failure error = c at hclass ⊢
  obtain ⟨state, status, code⟩ := c
  refine .bind (.any _) fun _ _ _ => .bind (.any _) fun _ _ _ => .bind (.any _) fun _ _ _ =>
    .bind (.any _) fun _ _ _ => .pure ?_
  simp only [List.mem_cons, Prod.mk.injEq, List.not_mem_nil, or_false] at hclass
  rcases hclass with ⟨-, -, rfl⟩ | ⟨-, -, rfl⟩ | ⟨-, -, rfl⟩ | ⟨-, -, rfl⟩ <;>
    exact backed_of_code _ rfl (by decide) (by decide)

theorem after_create_backed {outcome : Option JobCreationOutcome} :
    Proc.Returns (orc.after_create request outcome) fun result t =>
      Backed orc request result t := by
  cases outcome with
  | none => exact .bind (.any _) fun _ _ _ => admission_backed.mono fun _ _ h => h.append_right
  | some outcome =>
    refine .ite (fun _ => ?_) fun _ =>
      .bind (.any _) fun _ _ _ => admission_backed.mono fun _ _ h => h.append_right
    exact .bind (.any _) fun _ _ _ => .bind (.any _) fun _ _ _ => .bind (.any _) fun _ _ _ =>
      .pure (backed_of_code _ rfl (by decide) (by decide))

theorem run_once_backed : Proc.Returns (orc.run_once request) fun result t =>
    Backed orc request result t :=
  .attempt (.bind (.any _) fun _ _ _ => after_create_backed.mono fun _ _ h => h.append_right)
    fun _ _ => handle_failure_backed.mono fun _ _ h => h.append_right

end Returns

end Orchestrator

/-- The agents are those of the default registry. -/
def Env.DefaultAgents (env : Env) (tools : AgentTools) : Prop :=
  ∀ (cls : AgentClass) request context a, env.may (.agent_run cls.agent request context) a →
    a = cls.run tools request context

section Default

variable {orc : Orchestrator} {request : ReviewRequest}

theorem default_active_agents {engine : DefaultPolicyEngine} {stat : String → Option Nat}
    (hreg : orc.agent_registry = some create_default_registry)
    (hfast : engine.fast_path_agents = ({} : DefaultPolicyEngine).fast_path_agents)
    (haccepted : (engine.evaluate_request stat request).accepted = true) :
    orc.active_agents request (engine.evaluate_request stat request) =
      (consulted request).map AgentClass.agent := by
  have hall : orc.all_agents request = (MANIFESTS.filter fun entry =>
      entry.1.supported_intents.contains (orDefault request.trigger_intent "active_intent")).map
        fun entry => entry.2.agent := by
    simp only [Orchestrator.all_agents, hreg]
    rw [select_default]
    rfl
  by_cases hpassive : request.trigger_intent = some "passive_save"
  · have hnames : (engine.evaluate_request stat request).allowed_agents =
        some engine.fast_path_agents := by
      revert haccepted
      simp only [DefaultPolicyEngine.evaluate_request, hpassive]
      split
      · split
        · simp
        · simp
      · simp
    have hallowed : Orchestrator.allowed (engine.evaluate_request stat request) =
        fun agent => agent.name.any ({} : DefaultPolicyEngine).fast_path_agents.contains := by
      funext agent
      simp only [Orchestrator.allowed, hnames, hfast]
      cases agent.name <;> rfl
    rw [Orchestrator.active_agents, hall, consulted, hpassive, hallowed]
    decide
  · have hnone := @allowed_agents_none engine stat _ hpassive
    rw [active_agents_all hnone, hall, consulted]
    have hintent : orDefault request.trigger_intent "active_intent" ≠ "passive_save" := by
      simp only [orDefault]
      split
      · rename_i value hvalue
        split
        · decide
        · rintro rfl
          exact hpassive hvalue
      · decide
    generalize orDefault request.trigger_intent "active_intent" = intent at hintent
    by_cases hactive : intent = "active_intent"
    · subst hactive
      decide
    · simp [hactive, hintent, MANIFESTS, both_intents]

theorem heard_answers {env : Env} {tools : AgentTools} {context : ContextBundle} {db db' : Db}
    {t : Trace} {p : Running} {m : Running} (he : env.DefaultAgents tools)
    (hr : Steps env.step db m t db' p) {classes : List AgentClass}
    {decisions : List AgentDecision}
    (h : Heard request context (classes.map AgentClass.agent) decisions t) :
    List.Forall₂ (fun (cls : AgentClass) d => cls.run tools request context = .ok d) classes
      decisions := by
  rw [Heard, List.forall₂_map_left_iff] at h
  refine h.imp fun cls d hd => ?_
  obtain ⟨s, s', hmem⟩ := hd
  exact (he cls request context _ (hr.event _ hmem).1).symm

/-- One of the agents rejects exactly when one of them is blocked. -/
theorem exists_reject_iff {tools : AgentTools} {context : ContextBundle}
    {classes : List AgentClass} {decisions : List AgentDecision}
    (h : List.Forall₂ (fun (cls : AgentClass) d => cls.run tools request context = .ok d) classes
      decisions) :
    (∃ d ∈ decisions, d.status = .reject) ↔
      ∃ cls ∈ classes, Blocked tools request context cls := by
  induction h with
  | nil => simp
  | cons hd _ ih => simp [status_reject_iff hd, ih]

/-- Without an L3 gate the verdict of the default pipeline is decided by what blocks the agents it
consults; with one, a pass still has nothing that blocks them. -/
theorem default_verdict_iff {env : Env} {tools : AgentTools} {format : PyVal → String}
    {engine : DefaultPolicyEngine} {db db' : Db} {t : Trace} {result : ReviewResult} {l : Locals}
    (hreg : orc.agent_registry = some create_default_registry)
    (hagents : env.DefaultAgents tools) (hconsensus : env.DefaultConsensus format)
    (hpolicy : env.DefaultPolicy engine)
    (hfast : engine.fast_path_agents = ({} : DefaultPolicyEngine).fast_path_agents)
    (hr : Steps env.step db (orc.run_once request {}) t db' (.ret (.ok result, l)))
    (hcode : CarriedThrough result.result_code) :
    ∃ context, Answered t (.build_context request) (.ok context) ∧
      (result.result_code = .str "REVIEW_PASSED" →
        ∀ cls ∈ consulted request, ¬Blocked tools request context cls) ∧
      (orc.llm_review_gate = false → (result.result_code = .str "REVIEW_PASSED" ↔
        ∀ cls ∈ consulted request, ¬Blocked tools request context cls)) := by
  obtain ⟨decision, context, decisions, consensus, hd, hfollows⟩ :=
    Orchestrator.run_once_backed _ _ _ _ hr.path hcode
  obtain ⟨s, s', hevaluated⟩ := hd.evaluated
  obtain ⟨stat, hdecision⟩ := hpolicy request _ (hr.event _ hevaluated).1
  obtain rfl := Except.ok.inj hdecision
  obtain ⟨s₁, s₁', hdecided⟩ := hd.decided
  have heq := hconsensus decisions _ (hr.event _ hdecided).1
  obtain rfl := Except.ok.inj heq
  have hheard := hd.heard
  rw [default_active_agents hreg hfast hd.accepted] at hheard
  have hreject := exists_reject_iff (heard_answers hagents hr hheard)
  have hpass : (DefaultConsensusEngine.decide format decisions).status = .pass ↔
      ∀ cls ∈ consulted request, ¬Blocked tools request context cls := by
    have hnone : (¬∃ cls ∈ consulted request, Blocked tools request context cls) ↔
        ∀ cls ∈ consulted request, ¬Blocked tools request context cls := by simp
    rw [← hnone, ← hreject, ← @DefaultConsensusEngine.decide_status format]
    rcases @DefaultConsensusEngine.decide_pass_or_reject format decisions with h | h <;> simp [h]
  refine ⟨context, hd.built, fun hp => hpass.mp (hfollows.passed hp), fun hgate =>
    ⟨fun hp => hpass.mp (hfollows.passed hp), fun hn => ?_⟩⟩
  rcases hcode with hp | hrejected
  · exact hp
  · rcases hfollows.rejected hrejected with h | h
    · exact absurd (hpass.mpr hn) h
    · rw [hgate] at h
      cases h

end Default

/-- No file is on the disk, and pytest fails. -/
def failingTools : AgentTools where
  py := text_python
  isalnum := Char.isAlphanum
  static_tools := ⟨fun _ => false, fun _ => .not_found, fun _ => .not_found⟩
  ast_parse := fun _ => .tree []
  pytest := fun _ => .ended 1 "1 failed" ""
  project_root := "/srv/jemmin"

/-- The default agents over a context that asks for the tests. -/
def verifying : (o : Op) → Ans o
  | .agent_run agent request context =>
    match (MANIFESTS.map Prod.snd).find? (·.agent = agent) with
    | some cls => cls.run failingTools request context
    | none => .error (runtimeError "no agent")
  | .build_context request =>
    .ok ⟨request.request_id, "", 0, [], [("run_verification", .bool true)]⟩
  | o => agreeable o

theorem default_verdict_sample : ∃ context, Answered
    (({ agent_registry := some create_default_registry } : Orchestrator).play verifying
      (sampleRequest "req_1" "idemp_1") {} 90).1
      (.build_context (sampleRequest "req_1" "idemp_1")) (.ok context) ∧
    ∃ cls ∈ consulted (sampleRequest "req_1" "idemp_1"),
      Blocked failingTools (sampleRequest "req_1" "idemp_1") context cls := by
  have hr := @play_steps (scripting verifying) _ (fun _ => rfl)
    { agent_registry := some create_default_registry } (sampleRequest "req_1" "idemp_1") {} 90
  have hagents : (scripting verifying).DefaultAgents failingTools := by
    intro cls request context a ha
    cases cls <;> exact ha
  have hconsensus : (scripting verifying).DefaultConsensus fun _ => "" := fun _ _ ha => ha
  have hpolicy : (scripting verifying).DefaultPolicy {} := fun _ _ ha => ⟨_, ha⟩
  obtain ⟨context, hbuilt, -, hiff⟩ :=
    default_verdict_iff rfl hagents hconsensus hpolicy rfl hr (.inr rfl)
  refine ⟨context, hbuilt, ?_⟩
  by_contra hnone
  have hpassed := (hiff rfl).mpr fun cls hcls hblocked => hnone ⟨cls, hcls, hblocked⟩
  exact absurd (PyVal.str.inj hpassed) (by decide)

end Nitpicker
