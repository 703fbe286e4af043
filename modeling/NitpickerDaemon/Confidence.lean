import NitpickerDaemon.ErringAgents
import NitpickerDaemon.Evidence

/-!
Where the confidence of a result comes from: a constant, the consensus, or the number that the
L3 gate puts in its place.
-/

set_option autoImplicit false

namespace Nitpicker

open Effect Orchestrator

def Probability (q : Rat) : Prop := 0 ≤ q ∧ q ≤ 1

/-- An L3 dict whose confidence the controller can take over: it is no number, or a number that
is a probability, or an integer that no float can hold. -/
def Calibrated (d : PyDict) : Prop :=
  ∀ q, to_float (d.get "confidence_score") = some (.ok q) → Probability q

/-- The confidence after the L3 stage. -/
def reported_confidence (d : PyDict) (consensus : ConsensusResult) : Rat :=
  match to_float (d.get "confidence_score") with
  | some (.ok q) => q
  | _ => consensus.confidence_score

theorem reported_probability_iff {d : PyDict} {consensus : ConsensusResult}
    (h : Probability consensus.confidence_score) :
    Probability (reported_confidence d consensus) ↔ Calibrated d := by
  unfold reported_confidence Calibrated
  cases hf : to_float (d.get "confidence_score") with
  | none => simp [h]
  | some r =>
    cases r with
    | error e => simp [h]
    | ok q => simp

/-- The confidence of `result` is the one of the consensus over `decisions`, or what the L3 gate
made of it. -/
def Scored (decisions : List AgentDecision) (result : ReviewResult) (t : Trace) : Prop :=
  ∃ consensus, Answered t (.decide decisions) (.ok consensus) ∧
    ((l3_answers t = [] ∧ result.confidence_score = consensus.confidence_score) ∨
      ∃ d, l3_answers t = [.ok d] ∧ result.confidence_score = reported_confidence d consensus)

/-- The confidence of `result` is a constant of the controller. -/
structure Constant (result : ReviewResult) (t : Trace) : Prop where
  score : result.confidence_score = 0 ∨ result.confidence_score = 1
  unreviewed : result.state = .DELIVERED → l3_answers t = []

theorem Constant.probability {result : ReviewResult} {t : Trace} (h : Constant result t) :
    Probability result.confidence_score := by
  rcases h.score with hs | hs <;> rw [hs] <;> constructor <;> norm_num

theorem Scored.prepend {decisions : List AgentDecision} {result : ReviewResult} {t t' : Trace}
    (h : Scored decisions result t') (ht : l3_answers t = []) :
    Scored decisions result (t ++ t') := by
  obtain ⟨consensus, hdecided, hscore⟩ := h
  refine ⟨consensus, hdecided.append_right, ?_⟩
  rw [l3_answers_append, ht, List.nil_append]
  exact hscore

/-- Either of the two, the decisions being those of the agents of `t`. -/
def ScoreKnown (result : ReviewResult) (t : Trace) : Prop :=
  Constant result t ∨ ∃ decisions, (agent_runs t).map Prod.snd = decisions.map .ok ∧
    Scored decisions result t

theorem ScoreKnown.prepend {result : ReviewResult} {t t' : Trace} (h : ScoreKnown result t')
    (hl : l3_answers t = []) (ha : agent_runs t = []) : ScoreKnown result (t ++ t') := by
  rcases h with h | ⟨decisions, hran, h⟩
  · refine .inl ⟨h.score, fun hs => ?_⟩
    rw [l3_answers_append, hl, h.unreviewed hs]
    rfl
  · refine .inr ⟨decisions, ?_, h.prepend hl⟩
    rw [agent_runs_append, ha, List.nil_append]
    exact hran

namespace Orchestrator

section Returns

variable {orc : Orchestrator} {request : ReviewRequest} {context : ContextBundle}

theorem apply_l3_confidence {d : PyDict} {v v' : Verdict} (h : apply_l3 d v = .ok v') :
    v'.consensus.confidence_score = reported_confidence d v.consensus := by
  unfold apply_l3 at h
  unfold reported_confidence
  cases hf : to_float (d.get "confidence_score") with
  | none =>
    simp only [hf, Except.ok.injEq] at h
    rw [← h]
  | some r =>
    cases r with
    | error e => simp [hf] at h
    | ok q =>
      simp only [hf, Except.ok.injEq] at h
      rw [← h]

theorem patch_stage_consensus {v : Verdict} :
    Proc.Returns (orc.patch_stage request v) fun v' (_ : Trace) => v'.consensus = v.consensus := by
  unfold patch_stage
  refine .ite (fun _ => .ite (fun _ => ?_) fun _ => .pure rfl) fun _ => .pure rfl
  refine .bind (.any _) fun patch _ _ => ?_
  cases patch with
  | none => exact .pure rfl
  | some patch =>
    exact .bind (.any _) fun report _ _ => .bind (.any _) fun _ _ _ =>
      .ite (fun _ => .pure rfl) fun _ => .pure rfl

theorem autofix_stage_consensus {v : Verdict} :
    Proc.Returns (orc.autofix_stage request v) fun v' (_ : Trace) => v'.consensus = v.consensus := by
  unfold autofix_stage
  refine .ite (fun _ => ?_) fun _ => .pure rfl
  refine .bind (.any _) fun patch _ _ => .ite (fun _ => ?_) fun _ => .pure rfl
  refine .bind (.any _) fun fix _ _ => .bind (.any _) fun _ _ _ => .pure ?_
  unfold apply_fix
  split
  · split <;> rfl
  · rfl

theorem deliver_confidence {decisions : List AgentDecision} {v : Verdict} :
    Proc.Returns (orc.deliver request decisions v) fun result (_ : Trace) =>
      result.confidence_score = v.consensus.confidence_score :=
  .bind (.any _) fun _ _ _ => .bind (.any _) fun _ _ _ => .bind (.any _) fun _ _ _ =>
    .bind (.any _) fun _ _ _ => .bind (.any _) fun _ _ _ => .pure rfl

theorem conclude_scored {decisions : List AgentDecision} :
    Proc.Returns (orc.conclude request context decisions) fun result t =>
      Scored decisions result t := by
  refine .bind (ask_unreviewed trivial) fun _ t₁ h₁ =>
    .bind (P := fun _ t => l3_answers t = []) (.assign rfl) fun _ t₂ h₂ =>
    .bind (Proc.Returns.and (ask_unreviewed trivial) (ask_returns trivial)) fun consensus t₃ h₃ =>
    .bind l3_stage_answers fun v t₄ h₄ =>
    .bind (Proc.Returns.and patch_stage_answers patch_stage_consensus) fun v₅ t₅ h₅ =>
    .bind (Proc.Returns.and autofix_stage_answers autofix_stage_consensus) fun v₆ t₆ h₆ =>
    (Proc.Returns.and deliver_answers deliver_confidence).mono fun result t₇ h₇ => ?_
  obtain ⟨hn₃, -, _, rfl, hdecided⟩ := h₃
  have hscore : result.confidence_score = v.consensus.confidence_score := by
    rw [h₇.2, h₆.2, h₅.2]
  refine ⟨consensus, hdecided.append_left.append_right.append_right, ?_⟩
  have hanswers : l3_answers (t₁ ++ (t₂ ++ (t₃ ++ (t₄ ++ (t₅ ++ (t₆ ++ t₇)))))) =
      l3_answers t₄ := by
    simp [l3_answers_append, h₁, h₂, hn₃, h₅.1, h₆.1.1, h₇.1.1]
  rw [hanswers, hscore]
  rcases h₄ with ⟨hnil, rfl⟩ | ⟨d, hd, -, hv⟩
  · exact .inl ⟨hnil, rfl⟩
  · exact .inr ⟨d, hd, apply_l3_confidence hv⟩

theorem analyze_accounted {decision : PolicyDecision} :
    Proc.Returns (orc.analyze request decision context) fun decisions t =>
      l3_answers t = [] ∧ (agent_runs t).map Prod.snd = decisions.map .ok :=
  (Proc.Returns.and analyze_answers analyze_returns).mono fun _ _ h => ⟨h.1, h.2.2⟩

/-- The pipeline from the context on asks nothing of an agent after the decisions. -/
theorem conclude_agentless {decisions : List AgentDecision} :
    Proc.Returns (orc.conclude request context decisions) fun _ t => agent_runs t = [] :=
  conclude_returns.mono fun _ _ h => h.1

theorem review_score_known {decision : PolicyDecision} :
    Proc.Returns (orc.review request decision) fun result t => ScoreKnown result t := by
  refine .bind (Proc.Returns.and (ask_unreviewed trivial) (ask_returns trivial)) fun _ t₁ h₁ =>
    .bind (P := fun _ t => l3_answers t = [] ∧ agent_runs t = []) (.assign ⟨rfl, rfl⟩)
      fun _ t₂ h₂ =>
    .bind (Proc.Returns.and (ask_unreviewed trivial) (ask_returns trivial)) fun context t₃ h₃ =>
    .bind (Proc.Returns.and (unreviewed_returns (f := id) (R := fun _ => True) (offload_asks
      (fun _ => trivial) trivial (fun _ => trivial) fun _ _ => trivial))
      (background_returns (offload_within fun _ _ => trivial))) fun _ t₄ h₄ =>
    .bind (Proc.Returns.and (idle_unreviewed (context_cache_idle fun _ _ _ _ _ => trivial))
      (background_returns (context_cache_within fun _ _ _ _ _ => trivial))) fun _ t₅ h₅ =>
    .bind analyze_accounted fun decisions t₆ h₆ =>
    (Proc.Returns.and conclude_scored conclude_agentless).mono fun result t₇ h₇ => ?_
  have hscored : ScoreKnown result (t₆ ++ t₇) := by
    refine .inr ⟨decisions, ?_, h₇.1.prepend h₆.1⟩
    rw [agent_runs_append, h₇.2, List.append_nil]
    exact h₆.2
  exact ((((hscored.prepend h₅.1 h₅.2).prepend h₄.1 h₄.2).prepend h₃.1 h₃.2.1).prepend
    h₂.1 h₂.2).prepend h₁.1 h₁.2.1

theorem reject_policy_constant {decision : PolicyDecision} :
    Proc.Returns (orc.reject_policy request decision) fun result t => Constant result t :=
  .bind (.any _) fun _ _ _ => .bind (.any _) fun _ _ _ => .bind (.any _) fun _ _ _ =>
    .bind (.any _) fun _ _ _ => .bind (.any _) fun _ _ _ => .pure ⟨.inr rfl, nofun⟩

theorem reject_resources_constant :
    Proc.Returns (orc.reject_resources request) fun result t => Constant result t :=
  .bind (.any _) fun _ _ _ => .bind (.any _) fun _ _ _ => .pure ⟨.inl rfl, nofun⟩

theorem handle_duplicate_constant {state : Option String} :
    Proc.Returns (orc.handle_duplicate_request request state) fun result t =>
      Constant result t := by
  refine .bind (idle_unreviewed log_analytics_idle) fun _ t₁ h₁ =>
    .bind (idle_unreviewed publish_diagnostics_idle) fun _ t₂ h₂ =>
    .bind (idle_unreviewed log_result_idle) fun _ t₃ h₃ => .pure ⟨.inr rfl, fun _ => ?_⟩
  simp [l3_answers_append, h₁, h₂, h₃]

theorem handle_failure_constant {error : PyExc} {t : Trace} :
    Proc.Returns (orc.handle_failure request error) fun result t' =>
      Constant result (t ++ t') := by
  have hclass := classify_failure_mem error
  unfold handle_failure
  generalize classify_failure error = c at hclass ⊢
  obtain ⟨state, status, code⟩ := c
  refine .bind (.any _) fun _ _ _ => .bind (.any _) fun _ _ _ => .bind (.any _) fun _ _ _ =>
    .bind (.any _) fun _ _ _ => .pure ⟨.inl rfl, ?_⟩
  simp only [List.mem_cons, Prod.mk.injEq, List.not_mem_nil, or_false] at hclass
  rcases hclass with ⟨rfl, -, -⟩ | ⟨rfl, -, -⟩ | ⟨rfl, -, -⟩ | ⟨rfl, -, -⟩ <;> nofun

theorem admission_score_known :
    Proc.Returns (orc.admission request) fun result t => ScoreKnown result t := by
  refine .bind (Proc.Returns.and (ask_unreviewed trivial) (ask_returns trivial)) fun allowed t₁ h₁ =>
    .ite (fun _ => ?_) fun _ => ?_
  · refine .bind (Proc.Returns.and (ask_unreviewed trivial) (ask_returns trivial))
      fun decision t₂ h₂ => .bind (Proc.Returns.and (idle_unreviewed log_analytics_idle)
      (background_returns log_analytics_within)) fun _ t₃ h₃ => ?_
    have hprefix : ∀ {result : ReviewResult} {t : Trace}, ScoreKnown result t →
        ScoreKnown result (t₁ ++ (t₂ ++ (t₃ ++ t))) :=
      fun h => ((h.prepend h₃.1 h₃.2).prepend h₂.1 h₂.2.1).prepend h₁.1 h₁.2.1
    refine .ite (fun _ => ?_) fun _ => ?_
    · exact review_score_known.mono fun _ _ h => hprefix h
    · exact reject_policy_constant.mono fun _ _ h => hprefix (.inl h)
  · exact reject_resources_constant.mono fun _ _ h =>
      ScoreKnown.prepend (.inl h) h₁.1 h₁.2.1

theorem run_once_score_known :
    Proc.Returns (orc.run_once request) fun result t => ScoreKnown result t := by
  have hassign : ∀ g : Locals → Locals, Proc.Returns
      (Proc.assign g >>= fun _ => orc.admission request) fun result t => ScoreKnown result t :=
    fun g => .bind (P := fun _ t => t = []) (.assign rfl) fun _ t ht =>
      admission_score_known.mono fun result t' h => h.prepend (by simp [ht, l3_answers])
        (by simp [ht, agent_runs])
  refine .attempt (.bind (Proc.Returns.and (ask_unreviewed trivial) (ask_returns trivial))
    fun outcome t₁ h₁ => ?_) fun e t => handle_failure_constant.mono fun _ _ h => .inl h
  have hcreated : ∀ g : Locals → Locals, Proc.Returns
      (Proc.assign g >>= fun _ => orc.admission request) fun result t =>
        ScoreKnown result (t₁ ++ t) :=
    fun g => (hassign g).mono fun _ _ h => h.prepend h₁.1 h₁.2.1
  cases outcome with
  | none => exact hcreated _
  | some outcome =>
    refine .ite (fun _ => ?_) fun _ => hcreated _
    exact handle_duplicate_constant.mono fun _ _ h =>
      ScoreKnown.prepend (.inl h) h₁.1 h₁.2.1

end Returns

end Orchestrator

/-- The consensus engine makes probabilities of probabilities, whatever its status. -/
def Env.KeepsProbability (env : Env) : Prop :=
  ∀ decisions consensus, env.may (.decide decisions) (.ok consensus) →
    (∀ d ∈ decisions, Probability d.confidence_score) → Probability consensus.confidence_score

theorem Env.DefaultConsensus.keeps {env : Env} {format : PyVal → String}
    (h : env.DefaultConsensus format) : env.KeepsProbability := by
  intro decisions consensus hmay hunit
  obtain rfl := Except.ok.inj (h decisions _ hmay)
  by_cases hne : decisions = []
  · subst hne
    constructor <;> norm_num [DefaultConsensusEngine.decide]
  · exact DefaultConsensusEngine.score_unit hne hunit

/-- In a run whose agents are sure with probabilities, the confidence of the result is one too
when every dict of the L3 gate is calibrated; and a delivered result has no other way to be one. -/
theorem confidence_probability_iff {orc : Orchestrator} {env : Env} {request : ReviewRequest}
    {db db' : Db} {t : Trace} {result : ReviewResult} {l : Locals} (he : env.KeepsProbability)
    (hr : Steps env.step db (orc.run_once request {}) t db' (.ret (.ok result, l)))
    (hagents : ∀ agent d, (agent, .ok d) ∈ agent_runs t → Probability d.confidence_score) :
    ((∀ d, .ok d ∈ l3_answers t → Calibrated d) → Probability result.confidence_score) ∧
    (result.state = .DELIVERED → Probability result.confidence_score →
      ∀ d, .ok d ∈ l3_answers t → Calibrated d) := by
  rcases run_once_score_known _ _ _ _ hr.path with h | ⟨decisions, hran, consensus, hdecided, h⟩
  · refine ⟨fun _ => h.probability, fun hs _ d hd => ?_⟩
    rw [h.unreviewed hs] at hd
    cases hd
  · have hunit : ∀ d ∈ decisions, Probability d.confidence_score := by
      intro d hd
      have hmem : Except.ok d ∈ (agent_runs t).map Prod.snd := by
        rw [hran]
        exact List.mem_map_of_mem hd
      obtain ⟨⟨agent, a⟩, hrun, rfl⟩ := List.mem_map.mp hmem
      exact hagents agent d hrun
    obtain ⟨s, s', hev⟩ := hdecided
    have hconsensus := he decisions consensus (hr.event _ hev).1 hunit
    rcases h with ⟨hnil, hscore⟩ | ⟨d, hd, hscore⟩
    · rw [hnil, hscore]
      exact ⟨fun _ => hconsensus, fun _ _ _ hd => nomatch hd⟩
    · rw [hd, hscore, reported_probability_iff hconsensus]
      simp

/-- The L3 gate answers with a confidence alone. -/
def l3_confident (confidence : PyVal) : (o : Op) → Ans o
  | .llm_review _ _ _ => .ok [("confidence_score", confidence)]
  | o => agreeable o

theorem l3_confident_keeps (confidence : PyVal) :
    (scripting (l3_confident confidence)).KeepsProbability := by
  have h : (scripting (l3_confident confidence)).DefaultConsensus fun _ => "" := by
    rintro decisions a rfl
    rfl
  exact h.keeps

/-- The run of the two sample agents, which are sure of their pass. -/
def confident_run (confidence : PyVal) : Trace × Db × Running :=
  (sampleOrchestrator true).play (l3_confident confidence) (sampleRequest "req_1" "idemp_1") {} 60

theorem confident_run_agents (q : Rat) : ∀ agent d,
    (agent, .ok d) ∈ agent_runs (confident_run (.float q)).1 →
      Probability d.confidence_score := by
  have hruns : (agent_runs (confident_run (.float q)).1).map Prod.snd =
      [.ok ⟨"Agent", .pass, 1, [], [], none⟩, .ok ⟨"Agent", .pass, 1, [], [], none⟩] := rfl
  intro agent d hd
  have hmem := List.mem_map_of_mem (f := Prod.snd) hd
  rw [hruns] at hmem
  obtain rfl : d = ⟨"Agent", .pass, 1, [], [], none⟩ := by simpa using hmem
  constructor <;> norm_num

theorem confidence_kept : ∃ result l,
    (confident_run (.float (1 / 2))).2.2 = .ret (.ok result, l) ∧
      Probability result.confidence_score := by
  obtain ⟨result, l, hres, hanswers⟩ : ∃ result l,
      (confident_run (.float (1 / 2))).2.2 = .ret (.ok result, l) ∧
      l3_answers (confident_run (.float (1 / 2))).1 =
        [.ok [("confidence_score", .float (1 / 2))]] := ⟨_, _, rfl, rfl⟩
  have hr := @play_steps (scripting (l3_confident (.float (1 / 2)))) _ (fun _ => rfl)
    (sampleOrchestrator true) (sampleRequest "req_1" "idemp_1") {} 60
  change Steps _ _ _ _ _ (confident_run (.float (1 / 2))).2.2 at hr
  rw [hres] at hr
  have h := confidence_probability_iff (l3_confident_keeps _) hr (confident_run_agents (1 / 2))
  refine ⟨result, l, hres, h.1 fun d hd => ?_⟩
  change _ ∈ l3_answers (confident_run (.float (1 / 2))).1 at hd
  rw [hanswers] at hd
  obtain rfl : d = [("confidence_score", .float (1 / 2))] := by simpa using hd
  rintro q ⟨⟩
  constructor <;> norm_num

/-- The L3 gate is 95 sure, and so is the result. -/
theorem confidence_of_95 : ∃ t db' result l,
    Steps (scripting (l3_confident (.float 95))).step {}
      ((sampleOrchestrator true).run_once (sampleRequest "req_1" "idemp_1") {}) t db'
      (.ret (.ok result, l)) ∧
    (scripting (l3_confident (.float 95))).KeepsProbability ∧
    (∀ agent d, (agent, .ok d) ∈ agent_runs t → Probability d.confidence_score) ∧
    ¬Probability result.confidence_score := by
  have hr := @play_steps (scripting (l3_confident (.float 95))) _ (fun _ => rfl)
    (sampleOrchestrator true) (sampleRequest "req_1" "idemp_1") {} 60
  refine ⟨_, _, _, _, hr, l3_confident_keeps _, confident_run_agents 95, fun h => ?_⟩
  have hle : (95 : Rat) ≤ 1 := h.2
  norm_num at hle

end Nitpicker
