import NitpickerDaemon.Consensus
import NitpickerDaemon.FastGate
import NitpickerDaemon.ScanAgents

/-!
The agents every front end registers: the registry built from their manifests, what each answers,
and which of them can reject a change.
-/

set_option autoImplicit false

namespace Nitpicker

open Text (Regex)

/-- What `ast.parse` makes of a text. -/
inductive AstParse where
  | tree (body : List PyStmt)
  | syntax_error
  | raised (e : PyExc)

/-- What comes of running pytest. -/
inductive PytestRun where
  | timeout
  | raised (e : PyExc)
  | ended (returncode : Int) (stdout stderr : String)

/-- Everything the agents call that is no code of their own. -/
structure AgentTools where
  py : Python
  isalnum : Char → Bool
  static_tools : StaticTools
  ast_parse : String → AstParse
  pytest : PyVal → PytestRun
  project_root : String

namespace AstSecurityAnalyzer

/-- `_SEVERITY_ORDER.get(severity, 0)` -/
def severity_order (severity : String) : Nat :=
  ([("error", 3), ("warning", 2), ("info", 1)].lookup severity).getD 0

def finding_dict (finding : AstFinding) : PyDict :=
  [("code", .str finding.code), ("message", .str finding.message),
    ("severity", .str finding.severity), ("line_number", .int finding.line_number),
    ("node_type", .str finding.node_type)]

def pass_decision : AgentDecision where
  agent_name := "ast_security"
  status := .pass
  confidence_score := 1
  findings := []
  suggested_actions := []

/-- `_analyze_code` -/
def analyze_code (ast_parse : String → AstParse) (code : String) : Except PyExc (List AstFinding) :=
  match ast_parse code with
  | .tree body => .ok (analyze_module body)
  | .syntax_error => .ok []
  | .raised e => .error e

/-- The findings of a request: of the added lines of a Python file, when there are any. -/
def request_findings (ast_parse : String → AstParse) (request : ReviewRequest) :
    Except PyExc (List AstFinding) :=
  let added_code := AstSecurity.extract_added_lines request.diff_text
  if request.diff_text = "" then .ok []
  else if request.target_file ≠ "" ∧ ¬".py".toList <:+ request.target_file.toList then .ok []
  else if (strip added_code).isEmpty then .ok []
  else analyze_code ast_parse added_code

def decide (findings : List AstFinding) : AgentDecision :=
  match findings.argmax fun f => severity_order f.severity with
  | none => pass_decision
  | some max_severity =>
    { agent_name := "ast_security"
      status := if max_severity.severity = "error" then .reject else .warn
      confidence_score := 95 / 100
      findings := findings.map finding_dict
      suggested_actions := findings.map fun f => "Review " ++ f.code ++ ": " ++ f.message }

def run (ast_parse : String → AstParse) (request : ReviewRequest) : Except PyExc AgentDecision :=
  (request_findings ast_parse request).map decide

end AstSecurityAnalyzer

namespace PatchAgent

/-- `^(---\s+|\+\+\+\s+|@@)` -/
def DIFF_HEADER_RE : Regex Char :=
  .seq bol (.group 1 (.alt (.seq (literal "---") (spaces 1)) (.alt
    (.seq (literal "+++") (spaces 1)) (literal "@@"))))

def decision (status : AgentStatus) (confidence_score : Rat) (findings : List PyDict)
    (suggested_actions : List String) : AgentDecision where
  agent_name := "patch"
  status := status
  confidence_score := confidence_score
  findings := findings
  suggested_actions := suggested_actions

def run (context : ContextBundle) : Except PyExc AgentDecision :=
  let proposal := context.metadata.get "patch_proposal"
  if proposal.truthy then
    match proposal with
    | .str text =>
      if DIFF_HEADER_RE.found text.toList then .ok (decision .pass (9 / 10)
        [[("code", .str "PATCH_OK"), ("message", .str "패치 제쥜 유효성 확인 완료")]] [])
      else .ok (decision .warn (5 / 10)
        [[("code", .str "PATCH001"), ("message", .str "패치 제쥜이 유효한 unified diff 형식이 아님")]]
        ["PATCH001: 패치를 unified diff(--- +++ @@) 형식으로 숙정하세요"])
    | value => .error (typeError ("expected string or bytes-like object, got '" ++
        value.type_name ++ "'"))
  else .ok (decision .pass 1 [] [])

end PatchAgent

namespace VerificationAgent

def decision (status : AgentStatus) (confidence_score : Rat) (findings : List PyDict)
    (suggested_actions : List String) : AgentDecision where
  agent_name := "verification"
  status := status
  confidence_score := confidence_score
  findings := findings
  suggested_actions := suggested_actions

/-- `output[:n]` in a message. -/
def output_finding (code message : String) (output : String) (n : Nat) : PyDict :=
  [("code", .str code), ("message", .str (message ++ String.ofList (output.toList.take n)))]

/-- The run of pytest that the metadata of the context asks for. -/
def requested_run (pytest : PyVal → PytestRun) (project_root : String) (context : ContextBundle) :
    Option PytestRun :=
  if (context.metadata.get "run_verification").truthy then
    some (pytest (context.metadata.getD "project_root" (.str project_root)))
  else none

def run (pytest : PyVal → PytestRun) (project_root : String) (context : ContextBundle) :
    Except PyExc AgentDecision :=
  match requested_run pytest project_root context with
  | none => .ok (decision .pass 1 [] [])
  | some .timeout => .ok (decision .warn (3 / 10)
      [[("code", .str "VER001"), ("message", .str "pytest 실행 시간 초과")]]
      ["VER001: 테스트 실행 시간을 줄이거나 슬로테스트 분리 권장"])
  | some (.raised e) => .error e
  | some (.ended returncode stdout stderr) =>
    let output := strip (stdout ++ stderr)
    if returncode = 0 then
      .ok (decision .pass (95 / 100) [output_finding "VER_OK" "pytest 통과: " output 200] [])
    else .ok (decision .reject (95 / 100) [output_finding "VER002" "pytest 실패: " output 500]
      ["VER002: 패치 적용 후 테스트가 실패함 — 패치 재검토 필요"])

end VerificationAgent

/-- The classes of agents that are registered. -/
inductive AgentClass where
  | FastGateAgent | ContextAgent | DomainRuleAgent | ArchitectureAgent | SecurityAgent
  | PerformanceAgent | PatchAgent | VerificationAgent | IncidentTriageAgent | AstSecurityAnalyzer
  deriving DecidableEq, Repr

namespace AgentClass

/-- The `name` of the class. -/
def name : AgentClass → String
  | FastGateAgent => "fast_gate"
  | ContextAgent => "context"
  | DomainRuleAgent => "domain_rule"
  | ArchitectureAgent => "architecture"
  | SecurityAgent => "security"
  | PerformanceAgent => "performance"
  | PatchAgent => "patch"
  | VerificationAgent => "verification"
  | IncidentTriageAgent => "incident_triage"
  | AstSecurityAnalyzer => "ast_security"

def class_name : AgentClass → String
  | FastGateAgent => "FastGateAgent"
  | ContextAgent => "ContextAgent"
  | DomainRuleAgent => "DomainRuleAgent"
  | ArchitectureAgent => "ArchitectureAgent"
  | SecurityAgent => "SecurityAgent"
  | PerformanceAgent => "PerformanceAgent"
  | PatchAgent => "PatchAgent"
  | VerificationAgent => "VerificationAgent"
  | IncidentTriageAgent => "IncidentTriageAgent"
  | AstSecurityAnalyzer => "AstSecurityAnalyzer"

def agent (cls : AgentClass) : Agent := ⟨some cls.name, cls.class_name⟩

/-- `run(request, context)` of an instance. -/
def run (tools : AgentTools) (cls : AgentClass) (request : ReviewRequest)
    (context : ContextBundle) : Except PyExc AgentDecision :=
  match cls with
  | FastGateAgent => Nitpicker.FastGateAgent.run tools.py tools.static_tools request
  | ContextAgent => .ok (Nitpicker.ContextAgent.run tools.isalnum request)
  | DomainRuleAgent => .ok (Nitpicker.DomainRuleAgent.run tools.isalnum request)
  | ArchitectureAgent => .ok (Nitpicker.ArchitectureAgent.run tools.isalnum request)
  | SecurityAgent => .ok (Nitpicker.SecurityAgent.run tools.isalnum request)
  | PerformanceAgent => .ok (Nitpicker.PerformanceAgent.run tools.isalnum request)
  | PatchAgent => Nitpicker.PatchAgent.run context
  | VerificationAgent => Nitpicker.VerificationAgent.run tools.pytest tools.project_root context
  | IncidentTriageAgent => .ok (Nitpicker.IncidentTriageAgent.run tools.isalnum request)
  | AstSecurityAnalyzer => Nitpicker.AstSecurityAnalyzer.run tools.ast_parse request

end AgentClass

def both_intents : List String := ["active_intent", "passive_save"]

/-- `_MANIFESTS` -/
def MANIFESTS : List (AgentManifest × AgentClass) :=
  [({ name := "fast_gate", capabilities := ["lint", "type_check", "fast_path"]
      supported_profiles := ["*"], supported_intents := both_intents }, .FastGateAgent),
    ({ name := "context", capabilities := ["diff_quality", "context_check"]
       supported_profiles := ["*"], supported_intents := ["active_intent"] }, .ContextAgent),
    ({ name := "domain_rule", capabilities := ["domain_rule", "profile_rule"]
       supported_profiles := ["*"], supported_intents := ["active_intent"] }, .DomainRuleAgent),
    ({ name := "architecture", capabilities := ["architecture", "pattern_check"]
       supported_profiles := ["*"], supported_intents := both_intents }, .ArchitectureAgent),
    ({ name := "security", capabilities := ["security", "secret_scan"]
       supported_profiles := ["*"], supported_intents := both_intents }, .SecurityAgent),
    ({ name := "performance", capabilities := ["performance", "anti_pattern"]
       supported_profiles := ["*"], supported_intents := ["active_intent"] }, .PerformanceAgent),
    ({ name := "patch", capabilities := ["patch_generation"]
       supported_profiles := ["*"], supported_intents := ["active_intent"] }, .PatchAgent),
    ({ name := "verification", capabilities := ["patch_verification"]
       supported_profiles := ["*"], supported_intents := ["active_intent"] }, .VerificationAgent),
    ({ name := "incident_triage", capabilities := ["incident", "triage"]
       supported_profiles := ["*"], supported_intents := ["active_intent"] }, .IncidentTriageAgent),
    ({ name := "ast_security", capabilities := ["security", "ast_analysis"]
       supported_profiles := ["*"], supported_intents := both_intents }, .AstSecurityAnalyzer)]

def create_default_registry : AgentRegistry :=
  MANIFESTS.foldl (fun registry (manifest, cls) => registry.register manifest cls.agent) {}

theorem create_default_registry_entries : create_default_registry.entries =
    MANIFESTS.map fun (manifest, cls) => ⟨manifest, cls.agent⟩ := by decide

/-- The classes a request is put to under the default policy. -/
def consulted (request : ReviewRequest) : List AgentClass :=
  let intent := orDefault request.trigger_intent "active_intent"
  if intent = "active_intent" then MANIFESTS.map Prod.snd
  else if intent = "passive_save" then [.FastGateAgent, .ArchitectureAgent, .SecurityAgent]
  else []

theorem select_default {profile intent : String} :
    create_default_registry.select profile intent [] =
      (MANIFESTS.filter fun (manifest, _) => manifest.supported_intents.contains intent).map
        fun (_, cls) => cls.agent := by
  have hsel : ∀ entry ∈ create_default_registry.entries, entry.manifest.selectable profile intent []
      = entry.manifest.supported_intents.contains intent := by
    intro entry hentry
    have hwild : entry.manifest.enabled = true ∧
        "*" ∈ entry.manifest.supported_profiles := by
      rw [create_default_registry_entries] at hentry
      revert entry
      decide
    simp [AgentManifest.selectable, hwild.1, hwild.2]
  rw [AgentRegistry.select, List.filter_congr hsel, create_default_registry_entries,
    List.filter_map, List.map_map]
  rfl

namespace AstSecurityAnalyzer

theorem severity_order_le (severity : String) : severity_order severity ≤ 3 := by
  simp only [severity_order, List.lookup]
  split
  · decide
  · split
    · decide
    · split <;> decide

theorem severity_order_error {severity : String} :
    severity_order severity = 3 ↔ severity = "error" := by
  simp only [severity_order, List.lookup]
  split
  · rename_i h
    simpa using h
  · rename_i h
    have hne : severity ≠ "error" := by simpa using h
    simp only [hne, iff_false]
    split
    · decide
    · split <;> decide

/-- The decision rejects as soon as one finding is an error. -/
theorem decide_reject {findings : List AstFinding} :
    (decide findings).status = .reject ↔ ∃ f ∈ findings, f.severity = "error" := by
  unfold decide
  cases hmax : findings.argmax fun f => severity_order f.severity with
  | none =>
    obtain rfl := List.argmax_eq_none.mp hmax
    simp [pass_decision]
  | some m =>
    have hm : m ∈ findings := List.argmax_mem hmax
    simp only
    constructor
    · intro h
      by_cases herr : m.severity = "error"
      · exact ⟨m, hm, herr⟩
      · simp [herr] at h
    · rintro ⟨f, hf, herr⟩
      have hle : severity_order f.severity ≤ severity_order m.severity :=
        @List.le_of_mem_argmax AstFinding _ _ (fun f => severity_order f.severity) _ _ _ hf hmax
      have htop : severity_order f.severity = 3 := severity_order_error.mpr herr
      have hm3 : severity_order m.severity = 3 := by
        have hbound := severity_order_le m.severity
        omega
      simp [severity_order_error.mp hm3]

end AstSecurityAnalyzer

namespace FastGateAgent

theorem decide_reject {py : Python} {ruff_findings mypy_findings : List ToolFinding} :
    (decide py ruff_findings mypy_findings).status = .reject ↔
      ∃ f ∈ ruff_findings, f.is_error = true := by
  have herrors : ruff_findings.filter ToolFinding.is_error ≠ [] ↔
      ∃ f ∈ ruff_findings, f.is_error = true := by simp
  by_cases h : ruff_findings.filter ToolFinding.is_error = []
  · have hnone := mt herrors.mpr (not_not.mpr h)
    simp only [decide, ne_eq, h, not_true_eq_false, if_false]
    split <;> exact iff_of_false (by simp) hnone
  · simp only [decide, if_pos h]
    exact iff_of_true trivial (herrors.mp h)

end FastGateAgent

/-- What makes an agent reject a change. -/
def Blocked (tools : AgentTools) (request : ReviewRequest) (context : ContextBundle) :
    AgentClass → Prop
  | .FastGateAgent => ∃ ruff_findings,
      FastGateAgent.run_ruff tools.py tools.static_tools (FastGateAgent.file_path request) =
        .ok ruff_findings ∧ ∃ f ∈ ruff_findings, f.is_error = true
  | .SecurityAgent => SecurityAgent.scan_diff tools.isalnum request.diff_text ≠ []
  | .AstSecurityAnalyzer => ∃ findings,
      AstSecurityAnalyzer.request_findings tools.ast_parse request = .ok findings ∧
        ∃ f ∈ findings, f.severity = "error"
  | .VerificationAgent => ∃ returncode stdout stderr,
      VerificationAgent.requested_run tools.pytest tools.project_root context =
        some (.ended returncode stdout stderr) ∧ returncode ≠ 0
  | _ => False

section Reject

variable {tools : AgentTools} {request : ReviewRequest} {context : ContextBundle}
  {d : AgentDecision}

theorem fast_gate_reject
    (h : FastGateAgent.run tools.py tools.static_tools request = .ok d) :
    d.status = .reject ↔ Blocked tools request context .FastGateAgent := by
  simp only [FastGateAgent.run, Blocked] at h ⊢
  cases hruff : FastGateAgent.run_ruff tools.py tools.static_tools
      (FastGateAgent.file_path request) with
  | error e => simp [hruff, bind, Except.bind] at h
  | ok ruff_findings =>
    cases hmypy : FastGateAgent.run_mypy tools.py tools.static_tools
        (FastGateAgent.file_path request) with
    | error e => simp [hruff, hmypy, bind, Except.bind] at h
    | ok mypy_findings =>
      simp only [hruff, hmypy, bind, Except.bind, pure, Except.pure, Except.ok.injEq] at h
      subst h
      simp [FastGateAgent.decide_reject]

theorem verification_reject
    (h : VerificationAgent.run tools.pytest tools.project_root context = .ok d) :
    d.status = .reject ↔ Blocked tools request context .VerificationAgent := by
  simp only [VerificationAgent.run, Blocked] at h ⊢
  cases hrun : VerificationAgent.requested_run tools.pytest tools.project_root context with
  | none =>
    simp only [hrun, Except.ok.injEq] at h
    subst h
    simp [VerificationAgent.decision]
  | some run =>
    cases run with
    | timeout =>
      simp only [hrun, Except.ok.injEq] at h
      subst h
      simp [VerificationAgent.decision]
    | raised e => simp [hrun] at h
    | ended returncode stdout stderr =>
      simp only [hrun] at h
      split at h
      · rename_i hzero
        cases h
        simp [VerificationAgent.decision, hzero]
      · rename_i hcode
        cases h
        simp [VerificationAgent.decision, hcode]

theorem patch_status (h : PatchAgent.run context = .ok d) : d.status ≠ .reject := by
  simp only [PatchAgent.run] at h
  split at h
  · split at h
    · split at h <;> cases h <;> simp [PatchAgent.decision]
    · cases h
  · cases h
    simp [PatchAgent.decision]

theorem ast_security_reject
    (h : AstSecurityAnalyzer.run tools.ast_parse request = .ok d) :
    d.status = .reject ↔ Blocked tools request context .AstSecurityAnalyzer := by
  simp only [AstSecurityAnalyzer.run, Blocked] at h ⊢
  cases hfound : AstSecurityAnalyzer.request_findings tools.ast_parse request with
  | error e => simp [hfound, Except.map] at h
  | ok findings =>
    simp only [hfound, Except.map, Except.ok.injEq] at h
    subst h
    simp [AstSecurityAnalyzer.decide_reject]

theorem rule_decision_never {agent_name : String} {confidence clean : Rat}
    {action : RuleFinding → String} {findings : List RuleFinding} :
    (rule_decision agent_name .warn confidence clean action findings).status ≠ .reject := by
  rw [rule_decision_status]
  split <;> simp

/-- An agent that answers rejects exactly for its own reason. -/
theorem status_reject_iff {cls : AgentClass} (h : cls.run tools request context = .ok d) :
    d.status = .reject ↔ Blocked tools request context cls := by
  cases cls with
  | FastGateAgent => exact fast_gate_reject h
  | SecurityAgent =>
    cases h
    simp only [SecurityAgent.run, Blocked]
    cases SecurityAgent.scan_diff tools.isalnum request.diff_text <;> simp
  | AstSecurityAnalyzer => exact ast_security_reject h
  | VerificationAgent => exact verification_reject h
  | PatchAgent => exact iff_of_false (patch_status h) id
  | _ =>
    cases h
    exact iff_of_false rule_decision_never id

end Reject

end Nitpicker
