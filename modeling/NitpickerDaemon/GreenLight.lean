import NitpickerDaemon.Settlement
import NitpickerDaemon.Verdicts

/-!
What a green result is worth: when `REVIEW_PASSED` is returned, and which agents stand
behind it.
-/

set_option autoImplicit false

namespace Nitpicker

open Effect

theorem exit_code_zero_iff (code : PyVal) :
    exit_code_from_result_code code = 0 ↔ code = .str "REVIEW_PASSED" := by
  rw [exit_code_from_result_code, ← PyVal.isStr_iff]
  split
  · rename_i h
    simp [h]
  · rename_i h
    simp [h]

theorem decide_pass {format : PyVal → String} {decisions : List AgentDecision}
    (h : (DefaultConsensusEngine.decide format decisions).status = .pass) :
    ∀ d ∈ decisions, d.status ≠ .reject := by
  intro d hd hreject
  have hmem : d ∈ decisions.filter (·.status = .reject) := by simp [hd, hreject]
  have hrejecters : decisions.filter (·.status = .reject) ≠ [] := List.ne_nil_of_mem hmem
  have hne : decisions ≠ [] := List.ne_nil_of_mem hd
  simp only [DefaultConsensusEngine.decide, if_neg hne, if_pos hrejecters] at h
  cases h

/-- The consensus engine is the default one. -/
def Env.DefaultConsensus (env : Env) (format : PyVal → String) : Prop :=
  ∀ decisions a, env.may (.decide decisions) a →
    a = .ok (DefaultConsensusEngine.decide format decisions)

/-- Anyone, with the default consensus engine. -/
def default_consensus : Env where
  may := fun o a => match o with
    | .decide decisions => a = .ok (DefaultConsensusEngine.decide (fun _ => "") decisions)
    | _ => True

theorem agreeable_default_consensus (o : Op) : default_consensus.may o (agreeable o) := by
  cases o <;> trivial

section Green

variable {orc : Orchestrator} {env : Env} {format : PyVal → String} {request : ReviewRequest}
  {db db' : Db} {t : Trace} {result : ReviewResult} {l : Locals}

/-- The consensus behind a green result is the default one over its decisions. -/
theorem GreenLight.consensus_eq {p : Running}
    {decision : PolicyDecision} {decisions : List AgentDecision} {consensus : ConsensusResult}
    (hg : GreenLight orc request decision decisions consensus result t)
    (he : env.DefaultConsensus format)
    (hr : Steps env.step db (orc.run_once request {}) t db' p) :
    consensus = DefaultConsensusEngine.decide format decisions := by
  obtain ⟨s, s', hmem⟩ := hg.decided
  have hstep := hr.event _ hmem
  have ha := he decisions _ hstep.1
  cases ha
  rfl

theorem no_false_green {r : Except PyExc ReviewResult} (he : env.DefaultConsensus format)
    (hr : Steps env.step db (orc.run_once request {}) t db' (.ret (r, l))) :
    ∃ result, r = .ok result ∧
      (result.status = .pass ↔ result.result_code = .str "REVIEW_PASSED") ∧
      (exit_code_from_result_code result.result_code = 0 ↔
        result.result_code = .str "REVIEW_PASSED") ∧
      (result.result_code = .str "REVIEW_PASSED" → was_created t = true ∧
        ∃ decision decisions consensus,
          GreenLight orc request decision decisions consensus result t ∧
          ∀ d ∈ decisions, d.status ≠ .reject) := by
  obtain ⟨result, rfl⟩ := run_ok hr
  have hacc := run_account hr.path hr.event
  refine ⟨result, rfl, hacc.pass_iff, exit_code_zero_iff _, fun hp => ?_⟩
  obtain ⟨hc, decision, decisions, consensus, hg⟩ := hacc.passed hp
  have hagreed := hg.agreed
  rw [hg.consensus_eq he hr] at hagreed
  exact ⟨hc, decision, decisions, consensus, hg, decide_pass hagreed⟩

end Green

/-- An agent that reviews every profile with the intents given. -/
def sampleEntry (name : String) (intents : List String) : AgentRegistration where
  manifest := { name := name, supported_profiles := ["*"], supported_intents := intents }
  agent := ⟨some name, "Agent"⟩

def sampleOrchestrator (gate : Bool) : Orchestrator where
  agent_registry := some {
    entries := [sampleEntry "security" ["active_intent", "passive_save"],
      sampleEntry "llm_review" ["active_intent"]]
    names := by decide }
  llm_review_gate := gate

theorem no_false_green_sample : ∃ decision decisions consensus result,
    GreenLight (sampleOrchestrator true) (sampleRequest "req_1" "idemp_1") decision decisions
      consensus result
      ((sampleOrchestrator true).play agreeable (sampleRequest "req_1" "idemp_1") {} 60).1 := by
  have hr := play_steps agreeable_default_consensus (sampleOrchestrator true)
    (sampleRequest "req_1" "idemp_1") {} 60
  obtain ⟨result, hres, -, -, hgreen⟩ := no_false_green (fun _ _ ha => ha) hr
  obtain rfl := Except.ok.inj hres
  obtain ⟨-, decision, decisions, consensus, hg, -⟩ := hgreen rfl
  exact ⟨decision, decisions, consensus, _, hg⟩

/-- The agents of a registry that are selected for a request. -/
theorem mem_active_agents {orc : Orchestrator} {registry : AgentRegistry} {request : ReviewRequest}
    {decision : PolicyDecision} (hreg : orc.agent_registry = some registry)
    (hprofile : request.project_profile ≠ "") {entry : AgentRegistration}
    (hentry : entry ∈ registry.entries)
    (hsel : entry.manifest.selectable request.project_profile
      (orDefault request.trigger_intent "active_intent") [] = true)
    (hallowed : Orchestrator.allowed decision entry.agent = true) :
    entry.agent ∈ orc.active_agents request decision := by
  have hall : orc.all_agents request = registry.select request.project_profile
      (orDefault request.trigger_intent "active_intent") [] := by
    simp only [Orchestrator.all_agents, hreg, if_neg hprofile]
    rfl
  rw [Orchestrator.active_agents, hall, AgentRegistry.select]
  simp only [List.mem_filter, List.mem_map]
  exact ⟨⟨entry, ⟨hentry, hsel⟩, rfl⟩, hallowed⟩

theorem daemon_profile {sha256 : ByteArray → String} {event : TriggerEvent}
    {request : ReviewRequest} (h : Adapter.daemon.build_request sha256 event = .ok request) :
    request.project_profile ≠ "" := by
  simp only [Adapter.build_request, build_common] at h
  split at h
  · cases h
    simp only [orDefault]
    split
    · split
      · decide
      · assumption
    · decide
  · cases h
  · cases h
  · cases h

/-- A green result of a daemon request without an L3 gate: an agent reviewed it, or no agent
is selected for it and the summary says that the pass is the default one. -/
theorem pass_reviewed_or_unselected {sha256 : ByteArray → String} {event : TriggerEvent}
    {orc : Orchestrator} {registry : AgentRegistry} {env : Env} {format : PyVal → String}
    {request : ReviewRequest} {db db' : Db} {t : Trace} {result : ReviewResult} {l : Locals}
    (hbuild : Adapter.daemon.build_request sha256 event = .ok request)
    (hreg : orc.agent_registry = some registry) (hgate : orc.llm_review_gate = false)
    (he : env.DefaultConsensus format)
    (hr : Steps env.step db (orc.run_once request {}) t db' (.ret (.ok result, l)))
    (hpass : result.result_code = .str "REVIEW_PASSED") :
    (∃ agent decision, (agent, .ok decision) ∈ agent_runs t) ∨
      ∃ decision, Answered t (.evaluate_request request) (.ok decision) ∧
        (∀ entry ∈ registry.entries, entry.manifest.selectable request.project_profile
          (orDefault request.trigger_intent "active_intent") [] = true →
          Orchestrator.allowed decision entry.agent = false) ∧
        agent_runs t = [] ∧ result.summary = .str "에이전트 결정 없음 — 기본 pass" := by
  obtain ⟨-, decision, decisions, consensus, hg⟩ := (run_account hr.path hr.event).passed hpass
  have hran := hg.all_ran
  cases hruns : agent_runs t with
  | cons run runs =>
    obtain ⟨agent, answer⟩ := run
    have hanswer : answer ∈ decisions.map Except.ok := by
      rw [← hran.2, hruns]
      exact List.mem_cons_self
    obtain ⟨d, -, rfl⟩ := List.mem_map.mp hanswer
    exact .inl ⟨agent, d, List.mem_cons_self⟩
  | nil =>
    rw [AllRan, hruns] at hran
    have hagents : orc.active_agents request decision = [] := hran.1.symm
    have hdecisions : decisions = [] := by simpa using hran.2.symm
    refine .inr ⟨decision, hg.evaluated, fun entry hentry hsel => ?_, rfl, ?_⟩
    · by_contra hallowed
      have hmem := mem_active_agents hreg (daemon_profile hbuild) hentry hsel
        (Bool.eq_true_of_not_eq_false hallowed)
      rw [hagents] at hmem
      cases hmem
    · rw [hg.summary hgate, hg.consensus_eq he hr, hdecisions]
      rfl

def intentEvent (intent : String) : TriggerEvent where
  source := "daemon"
  payload := [("target_file", some "a.py"), ("diff_text", some "+x"),
    ("trigger_intent", some intent)]

theorem pass_reviewed_sample : ∃ request, Adapter.daemon.build_request sampleSha256
    (intentEvent "active_intent") = .ok request ∧ ∃ agent decision, (agent, .ok decision) ∈
      agent_runs ((sampleOrchestrator false).play agreeable request {} 60).1 := by
  refine ⟨_, rfl, ?_⟩
  rcases @pass_reviewed_or_unselected sampleSha256 (intentEvent "active_intent")
    (sampleOrchestrator false) _ default_consensus (fun _ => "") _ _ _ _ _ _ rfl rfl rfl
    (fun _ _ ha => ha) (play_steps agreeable_default_consensus _ _ {} 60) rfl with
    h | ⟨_, -, -, hnone, -⟩
  · exact h
  · cases hnone

/-- An intent no manifest names empties the selection, and the default consensus passes it. -/
theorem unknown_intent_passes :
    (∃ registry ∈ (sampleOrchestrator false).agent_registry, ∃ entry ∈ registry.entries,
      "active_intent" ∈ entry.manifest.supported_intents) ∧
    ∃ request result,
      Adapter.daemon.build_request sampleSha256 (intentEvent "weird") = .ok request ∧
      (∃ t db' l, Steps default_consensus.step {} ((sampleOrchestrator false).run_once request {})
        t db' (.ret (.ok result, l)) ∧ was_created t = true ∧ agent_runs t = []) ∧
      result.result_code = .str "REVIEW_PASSED" := by
  refine ⟨⟨_, rfl, _, List.mem_cons_self, by decide⟩, _, _, rfl,
    ⟨_, _, _, play_steps agreeable_default_consensus _ _ {} 60, rfl, rfl⟩, rfl⟩

end Nitpicker
