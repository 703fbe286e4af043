import NitpickerDaemon.Consensus
import NitpickerDaemon.GreenLight

/-!
Agents that answer with an error: the consensus counts them in the mean only, so that a
green result names one of them just when the line of the warners happens to.
-/

set_option autoImplicit false

namespace Nitpicker

open Effect

/-- The text has `name` somewhere. -/
def PyVal.Names (v : PyVal) (name : String) : Prop :=
  ∃ s, v = .str s ∧ name.toList <:+: s.toList

theorem PyVal.names_str (s name : String) :
    (PyVal.str s).Names name ↔ name.toList <:+: s.toList := by
  simp [PyVal.Names]

/-- What is said of the agents that warn: their names and their first three findings. -/
def warning_line (format : PyVal → String) (warners : List AgentDecision) : String :=
  "advisory by " ++ ", ".intercalate (warners.map (·.agent_name)) ++ ": " ++
    "; ".intercalate ((finding_labels format warners).take 3)

theorem warning_line_ne (format : PyVal → String) (warners : List AgentDecision) :
    warning_line format warners ≠ "모든 에이전트 통과" := by
  intro h
  have hchars := congrArg (fun s : String => s.toList.head?) h
  simp [warning_line] at hchars

section Summary

variable {format : PyVal → String} {decisions : List AgentDecision}

theorem decide_summary (hne : decisions ≠ []) (hno : ∀ d ∈ decisions, d.status ≠ .reject) :
    (DefaultConsensusEngine.decide format decisions).summary =
      if decisions.filter (·.status = .warn) ≠ [] then
        .str (warning_line format (decisions.filter (·.status = .warn)))
      else .str "모든 에이전트 통과" := by
  have hnone : decisions.filter (·.status = .reject) = [] := by
    simpa [List.filter_eq_nil_iff] using hno
  simp only [DefaultConsensusEngine.decide, if_neg hne, hnone]
  split
  · rename_i h
    exact absurd rfl h
  · split <;> rfl

theorem warners_ne_nil : decisions.filter (·.status = .warn) ≠ [] ↔
    ∃ d ∈ decisions, d.status = .warn := by
  rw [Ne, List.filter_eq_nil_iff]
  simp

theorem decide_all_passed (hne : decisions ≠ []) (hno : ∀ d ∈ decisions, d.status ≠ .reject) :
    (DefaultConsensusEngine.decide format decisions).summary ≠ .str "모든 에이전트 통과" ↔
      ∃ d ∈ decisions, d.status = .warn := by
  rw [decide_summary hne hno, ← warners_ne_nil]
  by_cases h : decisions.filter (·.status = .warn) ≠ []
  · simp [h, warning_line_ne]
  · simp [h]

end Summary

section Run

variable {orc : Orchestrator} {env : Env} {format : PyVal → String} {request : ReviewRequest}
  {db db' : Db} {t : Trace} {result : ReviewResult} {l : Locals} {decisions : List AgentDecision}

/-- A green result without an L3 gate carries the summary of the consensus over the answers of
its agents. -/
theorem passed_summary (hgate : orc.llm_review_gate = false) (he : env.DefaultConsensus format)
    (hr : Steps env.step db (orc.run_once request {}) t db' (.ret (.ok result, l)))
    (hruns : (agent_runs t).map Prod.snd = decisions.map .ok)
    (hpass : result.result_code = .str "REVIEW_PASSED") :
    result.summary = (DefaultConsensusEngine.decide format decisions).summary := by
  obtain ⟨-, decision, decided, consensus, hg⟩ := (run_account hr.path hr.event).passed hpass
  have hsame : decided.map Except.ok = decisions.map (Except.ok (ε := PyExc)) := by
    rw [← hg.all_ran.2, hruns]
  have hinj : Function.Injective (Except.ok (ε := PyExc) (α := AgentDecision)) :=
    fun _ _ h => Except.ok.inj h
  obtain rfl : decided = decisions := List.map_injective_iff.mpr hinj hsame
  rw [hg.summary hgate, hg.consensus_eq he hr]

/-- The default consensus hides no error of an agent just when some agent warns; and a green
result without an L3 gate names the agents that erred just when their names occur in the line
of the warners. -/
theorem erring_named_iff (hno : ∀ d ∈ decisions, d.status ≠ .reject)
    (herr : ∃ d ∈ decisions, d.status = .error) :
    ((DefaultConsensusEngine.decide format decisions).summary ≠ .str "모든 에이전트 통과" ↔
      ∃ d ∈ decisions, d.status = .warn) ∧
    ∀ {orc : Orchestrator} {env : Env} {request : ReviewRequest} {db db' : Db} {t : Trace}
      {result : ReviewResult} {l : Locals}, orc.llm_review_gate = false →
      env.DefaultConsensus format →
      Steps env.step db (orc.run_once request {}) t db' (.ret (.ok result, l)) →
      (agent_runs t).map Prod.snd = decisions.map .ok →
      result.result_code = .str "REVIEW_PASSED" →
      ((DefaultConsensusEngine.decide format decisions).summary ≠ .str "모든 에이전트 통과" ∧
        (∀ d ∈ decisions, d.status = .error → result.summary.Names d.agent_name) ↔
      (∃ d ∈ decisions, d.status = .warn) ∧ ∀ d ∈ decisions, d.status = .error →
        d.agent_name.toList <:+:
          (warning_line format (decisions.filter (·.status = .warn))).toList) := by
  obtain ⟨d, hd, -⟩ := herr
  have hne : decisions ≠ [] := List.ne_nil_of_mem hd
  refine ⟨decide_all_passed hne hno, fun hgate he hr hruns hpass => ?_⟩
  rw [decide_all_passed hne hno, passed_summary hgate he hr hruns hpass, decide_summary hne hno]
  refine and_congr_right fun hwarn => ?_
  rw [if_pos (warners_ne_nil.mpr hwarn)]
  simp only [PyVal.names_str]

end Run

/-- Of two agents one answers with an error; the other one passes or warns. -/
def one_errs (status : AgentStatus) : (o : Op) → Ans o
  | .agent_run agent _ _ => .ok (if agent.name = some "security"
      then sampleDecision "security_review" status (1 / 2)
      else sampleDecision "security" .error 0)
  | o => agreeable o

theorem one_errs_consensus (status : AgentStatus) :
    (scripting (one_errs status)).DefaultConsensus fun _ => "" := by
  rintro decisions a rfl
  rfl

/-- What they answer. -/
def erringDecisions (status : AgentStatus) : List AgentDecision :=
  [sampleDecision "security_review" status (1 / 2), sampleDecision "security" .error 0]

theorem erringDecisions_line : ∀ d ∈ erringDecisions .warn, d.status = .error →
    d.agent_name.toList <:+:
      (warning_line (fun _ => "") ((erringDecisions .warn).filter (·.status = .warn))).toList := by
  intro d hd herr
  have hcases : d = sampleDecision "security_review" .warn (1 / 2) ∨
      d = sampleDecision "security" .error 0 := by simpa [erringDecisions] using hd
  rcases hcases with rfl | rfl
  · cases herr
  · decide +kernel

theorem erring_named_sample : ∃ result l,
    ((sampleOrchestrator false).play (one_errs .warn) (sampleRequest "req_1" "idemp_1") {} 60).2.2 =
      .ret (.ok result, l) ∧ result.summary.Names "security" := by
  obtain ⟨result, l, hres, hpass⟩ : ∃ result l, ((sampleOrchestrator false).play (one_errs .warn)
      (sampleRequest "req_1" "idemp_1") {} 60).2.2 = .ret (.ok result, l) ∧
      result.result_code = .str "REVIEW_PASSED" := ⟨_, _, rfl, rfl⟩
  have hr := @play_steps (scripting (one_errs .warn)) _ (fun _ => rfl)
    (sampleOrchestrator false) (sampleRequest "req_1" "idemp_1") {} 60
  rw [hres] at hr
  have h := @erring_named_iff (fun _ => "") (erringDecisions .warn) (by decide) (by decide)
  have hiff := h.2 rfl (one_errs_consensus .warn) hr rfl hpass
  have hnames := hiff.mpr ⟨by decide, erringDecisions_line⟩
  exact ⟨result, l, hres, hnames.2 (sampleDecision "security" .error 0)
    (by simp [erringDecisions]) rfl⟩

/-- One agent passes, the other one errs: the consensus reports that all agents passed, and the
run is green under a summary without the agent's name. -/
theorem error_reported_passed :
    (∀ d ∈ erringDecisions .pass, d.status ≠ .reject) ∧
    (∃ d ∈ erringDecisions .pass, d.status = .error ∧ d.agent_name = "security") ∧
    (DefaultConsensusEngine.decide (fun _ => "") (erringDecisions .pass)).summary =
      .str "모든 에이전트 통과" ∧
    ∃ t db' result l, Steps (scripting (one_errs .pass)).step {}
        ((sampleOrchestrator false).run_once (sampleRequest "req_1" "idemp_1") {}) t db'
        (.ret (.ok result, l)) ∧
      (agent_runs t).map Prod.snd = (erringDecisions .pass).map .ok ∧
      result.result_code = .str "REVIEW_PASSED" ∧ ¬result.summary.Names "security" := by
  have hr := @play_steps (scripting (one_errs .pass)) _ (fun _ => rfl)
    (sampleOrchestrator false) (sampleRequest "req_1" "idemp_1") {} 60
  refine ⟨by decide, by decide, rfl, _, _, _, _, hr, rfl, rfl, ?_⟩
  change ¬(PyVal.str "모든 에이전트 통과").Names "security"
  rw [PyVal.names_str]
  decide +kernel

end Nitpicker
