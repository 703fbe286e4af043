import NitpickerDaemon.Effect.Procedure
import NitpickerDaemon.JobStore
import NitpickerDaemon.Selection

/-!
The review orchestrator as a program over its collaborators. Every call to the job store,
to an agent, a service, an output channel or the clock is a question; log lines are left out.
-/

set_option autoImplicit false

namespace Nitpicker

open Effect

/-- The calls `run_once` makes. -/
inductive Op where
  | create_request (request : ReviewRequest)
  | transition_state (request_id : String) (from_state to_state : ReviewState)
      (reason result_code : PyVal)
  | mark_terminal (request_id : String) (state : ReviewState) (reason result_code : PyVal)
  | append_event (request_id event_type : String) (payload : PyDict)
  | allow_new_job (request : ReviewRequest)
  | evaluate_request (request : ReviewRequest)
  | build_context (request : ReviewRequest)
  | should_offload (request : ReviewRequest) (context_size : Nat)
  | submit (request : OffloadRequest)
  | get_or_create (system_prompt : PyVal) (static_context : String)
  | cache_hits
  | agent_run (agent : Agent) (request : ReviewRequest) (context : ContextBundle)
  | decide (decisions : List AgentDecision)
  | llm_review (request : ReviewRequest) (context : ContextBundle) (findings : List PyDict)
  | create_patch (request : ReviewRequest) (consensus : ConsensusResult)
  | verify_patch (request : ReviewRequest) (patch : PatchProposal)
  | apply_patch (patch_text : PyVal) (target_file : String)
  | publish_diagnostics (result : ReviewResult) (target_file : String)
  | publish_quick_fix (result : ReviewResult) (target_file : String) (findings : List PyDict)
      (patch : Option PatchProposal)
  | log_result (result : ReviewResult)
  | notify (result : ReviewResult) (target_file : String)
  | analytics_write (payload : PyDict)
  | monotonic

/-- Their answers: a value or an exception. A job store may answer `create_request` with an
object that is no `JobCreationOutcome`, which is `none`. -/
abbrev Ans : Op → Type
  | .create_request _ => Except PyExc (Option JobCreationOutcome)
  | .transition_state _ _ _ _ _ => Except PyExc Unit
  | .mark_terminal _ _ _ _ => Except PyExc Unit
  | .append_event _ _ _ => Except PyExc Unit
  | .allow_new_job _ => Except PyExc Bool
  | .evaluate_request _ => Except PyExc PolicyDecision
  | .build_context _ => Except PyExc ContextBundle
  | .should_offload _ _ => Except PyExc Bool
  | .submit _ => Except PyExc OffloadResult
  | .get_or_create _ _ => Except PyExc String
  | .cache_hits => Nat
  | .agent_run _ _ _ => Except PyExc AgentDecision
  | .decide _ => Except PyExc ConsensusResult
  | .llm_review _ _ _ => Except PyExc PyDict
  | .create_patch _ _ => Except PyExc (Option PatchProposal)
  | .verify_patch _ _ => Except PyExc VerificationReport
  | .apply_patch _ _ => Except PyExc AutoFixResult
  | .publish_diagnostics _ _ => Except PyExc Unit
  | .publish_quick_fix _ _ _ _ => Except PyExc Unit
  | .log_result _ => Except PyExc Unit
  | .notify _ _ => Except PyExc Unit
  | .analytics_write _ => Except PyExc Unit
  | .monotonic => Rat

/-- The two locals of `run_once` its exception handler reads. -/
structure Locals where
  current_state : ReviewState := .QUEUED
  request_persisted : Bool := false

abbrev Review (α : Type) := Proc PyExc Locals Op Ans α

/-- What is left of a started `run_once`. -/
abbrev Running := Prog Op Ans (Except PyExc ReviewResult × Locals)

/-- What an orchestrator was built with. An optional service is only present or absent
here; `format` is what an f-string makes of a value that is no string. -/
structure Orchestrator where
  has_should_offload : Bool := true
  agents : List Agent := []
  agent_registry : Option AgentRegistry := none
  feedback_service : Bool := true
  review_logger : Bool := true
  analytics_logger : Bool := false
  notifier : Bool := false
  context_cache_manager : Bool := false
  offload_gateway : Bool := false
  llm_review_gate : Bool := false
  patch_service : Bool := false
  verification_service : Bool := false
  autofix_service : Bool := false
  format : PyVal → String := fun _ => ""

namespace Orchestrator

/-- `f"{value}"` -/
def fmt (orc : Orchestrator) : PyVal → String
  | .str s => s
  | value => orc.format value

/-- `except Exception` around a call whose failure is only logged. -/
def best_effort (m : Review Unit) : Review Unit := Proc.attempt m fun _ => pure ()

def transition (request_id : String) (from_state to_state : ReviewState)
    (reason result_code : String) : Review Unit :=
  Proc.invoke (.transition_state request_id from_state to_state (.str reason) (.str result_code)) id

def mark_terminal_safe (request_id : String) (state : ReviewState) (reason : String)
    (result_code : PyVal) : Review Unit :=
  best_effort (Proc.invoke (.mark_terminal request_id state (.str reason) result_code) id)

def record_failure_transition_best_effort (request_id : String)
    (from_state to_state : ReviewState) (reason result_code : String) : Review Unit :=
  best_effort (transition request_id from_state to_state reason result_code)

def record_stage_event_best_effort (request_id stage phase result_code : String)
    (details : PyDict) : Review Unit :=
  best_effort (Proc.invoke (.append_event request_id "review.stage" ([("stage", .str stage),
    ("phase", .str phase), ("result_code", .str result_code)] ++ details)) id)

def monotonic : Review Rat := Proc.invoke .monotonic .ok

def publish_diagnostics (orc : Orchestrator) (result : ReviewResult) (target_file : String) :
    Review Unit :=
  if orc.feedback_service then
    best_effort (Proc.invoke (.publish_diagnostics result target_file) id)
  else pure ()

/-- The quick-fix channel catches only these three. -/
def quick_fix_catches (e : PyExc) : Bool :=
  e.isInstance .osError || e.isInstance .valueError || e.isInstance .typeError

def publish_quick_fix (orc : Orchestrator) (result : ReviewResult) (target_file : String)
    (findings : List PyDict) (patch : Option PatchProposal) : Review Unit :=
  if orc.feedback_service then
    Proc.attempt (Proc.invoke (.publish_quick_fix result target_file findings patch) id) fun e =>
      if quick_fix_catches e then pure () else Proc.raise e
  else pure ()

def log_result (orc : Orchestrator) (result : ReviewResult) : Review Unit :=
  if orc.review_logger then best_effort (Proc.invoke (.log_result result) id) else pure ()

def send_notification (orc : Orchestrator) (result : ReviewResult) (target_file : String) :
    Review Unit :=
  if orc.notifier then best_effort (Proc.invoke (.notify result target_file) id) else pure ()

/-- The single call for all channels; `run_once` calls the channels one by one instead. -/
def publish_result (orc : Orchestrator) (result : ReviewResult) (target_file : String)
    (findings : List PyDict) (patch : Option PatchProposal) : Review Unit := do
  orc.publish_diagnostics result target_file
  if target_file = "" then pure () else orc.publish_quick_fix result target_file findings patch
  orc.log_result result
  orc.send_notification result target_file

/-- The keyword arguments of `log_analytics`. -/
structure Analytics where
  event_type : String
  status : String := ""
  agent_name : String := ""
  latency_ms : Rat := 0
  findings_cnt : Nat := 0
  result_code : PyVal := .str ""
  confidence : Rat := 0

def log_analytics (orc : Orchestrator) (request_id : String) (a : Analytics) : Review Unit :=
  if orc.analytics_logger then
    best_effort (Proc.invoke (.analytics_write [
      ("request_id", .str request_id), ("event_type", .str a.event_type),
      ("status", .str a.status), ("agent_name", .str a.agent_name),
      ("latency_ms", .float a.latency_ms), ("findings_cnt", .int a.findings_cnt),
      ("result_code", a.result_code), ("confidence_score", .float a.confidence)]) id)
  else pure ()

def build_result (request : ReviewRequest) (state : ReviewState) (status : ReviewStatus)
    (summary : PyVal) (confidence_score : Rat) (result_code : PyVal) : ReviewResult where
  request_id := request.request_id
  state := state
  status := status
  summary := summary
  confidence_score := confidence_score
  result_code := result_code
  reviewer := request.metadata.getD "reviewer" (.str "")

/-- `_handle_duplicate_request` -/
def handle_duplicate_request (orc : Orchestrator) (request : ReviewRequest)
    (existing_state : Option String) : Review ReviewResult := do
  let terminal := match existing_state with
    | none => false
    | some value => ((ReviewState.ofValue value).map ReviewState.terminal).getD false
  let summary :=
    if terminal then "동일한 코드 변경 내역에 대한 리뷰가 이미 완료되었습니다. " ++
      "새로운 변경 사항을 저장해 주세요. (기존 상태: " ++ existing_state.getD "None" ++ ")"
    else "동일한 코드 변경 내역에 대한 리뷰가 이미 진행 중입니다. " ++
      "잠시 후 결과를 확인해 주세요. (기존 상태: " ++ orDefaultState existing_state ++ ")"
  let result := build_result request .DELIVERED .ignored (.str summary) 1
    (.str "DUPLICATE_REQUEST_IGNORED")
  orc.log_analytics request.request_id {
    event_type := "duplicate_request", status := "ignored"
    result_code := .str "DUPLICATE_REQUEST_IGNORED", confidence := 1 }
  orc.publish_diagnostics result request.target_file
  orc.log_result result
  pure result
where
  /-- `existing_state or 'unknown'` -/
  orDefaultState : Option String → String
    | none => "unknown"
    | some "" => "unknown"
    | some value => value

/-- The resource manager refused the request. -/
def reject_resources (orc : Orchestrator) (request : ReviewRequest) : Review ReviewResult := do
  let result := build_result request .DEGRADED .degraded
    (.str "resource manager rejected the request") 0 (.str "RESOURCE_REJECTED")
  mark_terminal_safe request.request_id .DEGRADED "resource budget exceeded"
    (.str "RESOURCE_REJECTED")
  orc.log_result result
  pure result

/-- The policy engine did not accept the request. -/
def reject_policy (orc : Orchestrator) (request : ReviewRequest) (decision : PolicyDecision) :
    Review ReviewResult := do
  let reason := match decision.reason with
    | some reason => if reason = "" then "precheck failed" else reason
    | none => "precheck failed"
  transition request.request_id .QUEUED .PRECHECK_FAILED reason "POLICY_REJECTED"
  Proc.assign fun l => { l with current_state := .PRECHECK_FAILED }
  let result := build_result request .PRECHECK_FAILED .rejected (.str reason) 1
    (.str "POLICY_REJECTED")
  mark_terminal_safe request.request_id .PRECHECK_FAILED reason (.str "POLICY_REJECTED")
  orc.publish_diagnostics result request.target_file
  orc.log_result result
  pure result

/-- Hand the review to a remote worker when it is large; any failure is only logged. -/
def offload (orc : Orchestrator) (request : ReviewRequest) (context : ContextBundle) :
    Review Unit := do
  if orc.offload_gateway && orc.has_should_offload then
    let should_offload ← Proc.invoke (.should_offload request context.token_estimate) id
    if should_offload then
      best_effort do
        let offload_result ← Proc.invoke (.submit {
          request_id := request.request_id
          git_revision := request.git_revision
          context_bundle := context.context_hash
          masked_diff := request.diff_text }) id
        orc.log_analytics request.request_id {
          event_type := "offload_submitted"
          status := if offload_result.accepted then "accepted" else "rejected"
          agent_name := "offload_gateway" }
    else pure ()
  else pure ()

/-- The cache step catches `RuntimeError`, `ConnectionError`, `TimeoutError`, `OSError`. -/
def cache_catches (e : PyExc) : Bool :=
  e.isInstance .runtimeError || e.isInstance .connectionError || e.isInstance .timeoutError ||
    e.isInstance .osError

def context_cache (orc : Orchestrator) (request : ReviewRequest) (context : ContextBundle) :
    Review Unit :=
  if orc.context_cache_manager then
    Proc.attempt (do
      let system_prompt := context.metadata.getD "system_prompt" (.str "")
      let static_ctx := "\n".intercalate
        ((context.tiers.lookup "tier2").getD [] ++ (context.tiers.lookup "tier3").getD [])
      if system_prompt.truthy || static_ctx != "" then
        let _ ← Proc.invoke (.get_or_create system_prompt static_ctx) id
        let hits ← Proc.invoke .cache_hits .ok
        orc.log_analytics request.request_id {
          event_type := "context_cache", status := if hits > 0 then "hit" else "miss"
          agent_name := "context_cache_manager" }
      else pure ())
      fun e => if cache_catches e then pure () else Proc.raise e
  else pure ()

/-- The agents of one run, before the policy's allow-list. -/
def all_agents (orc : Orchestrator) (request : ReviewRequest) : List Agent :=
  match orc.agent_registry with
  | some registry =>
    registry.select (if request.project_profile = "" then "general" else request.project_profile)
      (match request.trigger_intent with
        | some intent => if intent = "" then "active_intent" else intent
        | none => "active_intent") []
  | none => orc.agents

def allowed (decision : PolicyDecision) (agent : Agent) : Bool :=
  match decision.allowed_agents with
  | none => true
  | some names => match agent.name with
    | some name => names.contains name
    | none => false

def active_agents (orc : Orchestrator) (request : ReviewRequest) (decision : PolicyDecision) :
    List Agent :=
  (orc.all_agents request).filter (allowed decision)

def agent_label (agent : Agent) : String :=
  match agent.name with
  | some name => if name = "" then agent.class_name else name
  | none => agent.class_name

/-- One turn of the agent loop. -/
def run_agent (request : ReviewRequest) (context : ContextBundle) (ordinal total : Nat)
    (agent : Agent) : Review AgentDecision := do
  let details : PyDict := [("agent_name", .str (agent_label agent)), ("ordinal", .int ordinal),
    ("total", .int total)]
  record_stage_event_best_effort request.request_id "agent" "started" "AGENT_STARTED" details
  let t_agent_start ← monotonic
  let agent_decision ← Proc.attempt (Proc.invoke (.agent_run agent request context) id) fun e => do
    let now ← monotonic
    record_stage_event_best_effort request.request_id "agent" "failed" "AGENT_FAILED"
      (details ++ [("latency_ms", .float ((now - t_agent_start) * 1000)),
        ("exception_type", .str e.type_name)])
    Proc.raise e
  let now ← monotonic
  record_stage_event_best_effort request.request_id "agent" "completed" "AGENT_COMPLETED"
    (details ++ [("latency_ms", .float ((now - t_agent_start) * 1000)),
      ("status", .str agent_decision.status.value)])
  pure agent_decision

def run_agents (request : ReviewRequest) (context : ContextBundle) (total : Nat) :
    Nat → List Agent → Review (List AgentDecision)
  | _, [] => pure []
  | ordinal, agent :: agents => do
    let decision ← run_agent request context ordinal total agent
    let decisions ← run_agents request context total (ordinal + 1) agents
    pure (decision :: decisions)

/-- `_collect_findings`: each finding gets the name of its agent unless it has one. -/
def collect_findings (decisions : List AgentDecision) : List PyDict :=
  decisions.flatMap fun d => d.findings.map fun finding =>
    if (finding.lookup "agent_name").isSome then finding
    else finding ++ [("agent_name", .str d.agent_name)]

/-- The locals that become the final result. -/
structure Verdict where
  status : ReviewStatus
  summary : PyVal
  result_code : PyVal
  consensus : ConsensusResult
  llm_result : Option PyDict := none
  patch_proposal : Option PatchProposal := none

def first_verdict (consensus : ConsensusResult) : Verdict where
  status := if consensus.status = .pass then .pass else .rejected
  summary := consensus.summary
  result_code := if consensus.status = .pass then .str "REVIEW_PASSED" else .str "REVIEW_REJECTED"
  consensus := consensus

def overflowError : PyExc := ⟨"OverflowError", [], "int too large to convert to float"⟩

/-- `float(v)` for an `int` or a `float`, with a bool as an int; `none` for other values. -/
def to_float : PyVal → Option (Except PyExc Rat)
  | .bool b => some (.ok (if b then 1 else 0))
  | .int n => some (if n.natAbs < 2 ^ 1024 - 2 ^ 970 then .ok n else .error overflowError)
  | .float q => some (.ok q)
  | _ => none

/-- What the L3 dict does to the verdict. -/
def apply_l3 (llm_result : PyDict) (v : Verdict) : Except PyExc Verdict :=
  let l3_code := llm_result.getD "result_code" (.str "REVIEW_PASSED")
  let summary := (llm_result.get "summary").or v.consensus.summary
  let status : ReviewStatus := if l3_code.isStr "REVIEW_PASSED" then .pass else .rejected
  let v := { v with
    status := status, summary := summary, result_code := l3_code, llm_result := some llm_result }
  match to_float (llm_result.get "confidence_score") with
  | none => .ok v
  | some (.error e) => .error e
  | some (.ok confidence) =>
    let consensus := { v.consensus with summary := summary, confidence_score := confidence }
    .ok { v with consensus := consensus }

/-- The L3 review, made only when the consensus is a pass. -/
def l3_stage (orc : Orchestrator) (request : ReviewRequest) (context : ContextBundle)
    (decisions : List AgentDecision) (v : Verdict) : Review Verdict :=
  if v.consensus.status = .pass ∧ orc.llm_review_gate then do
    orc.log_analytics request.request_id { event_type := "l3_review_start", status := "started" }
    let t_l3_start ← monotonic
    record_stage_event_best_effort request.request_id "l3" "started" "L3_STARTED" []
    let llm_result ← Proc.attempt
      (Proc.invoke (.llm_review request context (collect_findings decisions)) id) fun e => do
        let now ← monotonic
        record_stage_event_best_effort request.request_id "l3" "failed" "L3_FAILED"
          [("latency_ms", .float ((now - t_l3_start) * 1000)),
            ("exception_type", .str e.type_name)]
        Proc.raise e
    let now ← monotonic
    let latency_ms := (now - t_l3_start) * 1000
    record_stage_event_best_effort request.request_id "l3" "completed" "L3_COMPLETED"
      [("latency_ms", .float latency_ms)]
    orc.log_analytics request.request_id {
      event_type := "l3_review_complete", status := "done", latency_ms := latency_ms
      result_code := llm_result.getD "result_code" (.str "REVIEW_PASSED") }
    Proc.ofExcept (apply_l3 llm_result v)
  else pure v

def patch_required (orc : Orchestrator) (v : Verdict) : Verdict :=
  { v with
    status := .rejected
    summary := .str ("[PATCH REQUIRED] " ++ orc.fmt v.consensus.summary)
    result_code := .str "PATCH_REQUIRED" }

/-- A consensus that asks for a patch: create it and verify it. -/
def patch_stage (orc : Orchestrator) (request : ReviewRequest) (v : Verdict) : Review Verdict :=
  if v.consensus.status = .patch then
    if orc.patch_service && orc.verification_service then do
      match ← Proc.invoke (.create_patch request v.consensus) id with
      | none => pure (orc.patch_required v)
      | some patch => do
        let v := { v with patch_proposal := some patch }
        let report ← Proc.invoke (.verify_patch request patch) id
        orc.log_analytics request.request_id {
          event_type := "patch_verify"
          status := if report.passed then "verified" else "rejected"
          agent_name := "verification_service", confidence := if report.passed then 1 else 0 }
        if report.passed then pure { v with
          status := .patch
          summary := .str ("[PATCH VERIFIED] " ++ orc.fmt v.consensus.summary)
          result_code := .str "PATCH_PROPOSED" }
        else pure { v with
          status := .rejected
          summary := .str ("[PATCH REJECTED] tests failed (rc=" ++ toString report.returncode ++
            "): " ++ orc.fmt v.consensus.summary)
          result_code := .str "PATCH_VERIFY_FAILED" }
    else pure (orc.patch_required v)
  else pure v

/-- Reading the local `llm_result` before the L3 stage assigned it. -/
def unboundLocalError : PyExc := ⟨"UnboundLocalError", [],
  "cannot access local variable 'llm_result' where it is not associated with a value"⟩

/-- `llm_result.get("suggested_patch") or ""`, read only behind the gate. -/
def suggested_patch (orc : Orchestrator) (v : Verdict) : Except PyExc PyVal :=
  if orc.llm_review_gate then
    match v.llm_result with
    | none => .error unboundLocalError
    | some llm_result => .ok ((llm_result.get "suggested_patch").or (.str ""))
  else .ok (.str "")

def apply_fix (orc : Orchestrator) (fix : AutoFixResult) (v : Verdict) : Verdict :=
  if fix.applied then
    if fix.verify_passed = some false then { v with
      status := .rejected
      summary := .str ("[Auto-Fix Rolled Back] " ++ orc.fmt v.consensus.summary)
      result_code := .str "PATCH_ROLLBACK" }
    else { v with
      summary := .str ("[Auto-Fixed] " ++ orc.fmt v.summary)
      result_code := .str "PATCH_APPLIED" }
  else v

def autofix_stage (orc : Orchestrator) (request : ReviewRequest) (v : Verdict) : Review Verdict :=
  if v.result_code.isStr "PATCH_PROPOSED" ∧ orc.autofix_service then do
    let patch ← Proc.ofExcept (orc.suggested_patch v)
    if patch.truthy then do
      let fix ← Proc.invoke (.apply_patch patch request.target_file) id
      orc.log_analytics request.request_id {
        event_type := "autofix", status := if fix.applied then "applied" else "failed"
        agent_name := "autofix_service" }
      pure (orc.apply_fix fix v)
    else pure v
  else pure v

/-- The normal end: write the terminal state, then publish. -/
def deliver (orc : Orchestrator) (request : ReviewRequest) (decisions : List AgentDecision)
    (v : Verdict) : Review ReviewResult := do
  let result := build_result request .DELIVERED v.status v.summary v.consensus.confidence_score
    v.result_code
  mark_terminal_safe request.request_id .DELIVERED "pipeline completed normally" v.result_code
  orc.log_analytics request.request_id {
    event_type := "pipeline_complete", status := v.status.value, result_code := v.result_code
    confidence := result.confidence_score }
  orc.publish_diagnostics result request.target_file
  orc.publish_quick_fix result request.target_file (collect_findings decisions) v.patch_proposal
  orc.log_result result
  pure result

/-- From the agents' decisions to the result. -/
def conclude (orc : Orchestrator) (request : ReviewRequest) (context : ContextBundle)
    (decisions : List AgentDecision) : Review ReviewResult := do
  transition request.request_id .ANALYZING .CONSENSUS_REACHED "agent decisions collected"
    "CONSENSUS_REACHED"
  Proc.assign fun l => { l with current_state := .CONSENSUS_REACHED }
  let consensus ← Proc.invoke (.decide decisions) id
  let v ← orc.l3_stage request context decisions (first_verdict consensus)
  let v ← orc.patch_stage request v
  let v ← orc.autofix_stage request v
  orc.deliver request decisions v

/-- From the context to the agents' decisions. -/
def analyze (orc : Orchestrator) (request : ReviewRequest) (decision : PolicyDecision)
    (context : ContextBundle) : Review (List AgentDecision) := do
  transition request.request_id .CONTEXT_READY .ANALYZING "agents start" "AGENTS_STARTED"
  Proc.assign fun l => { l with current_state := .ANALYZING }
  let agents := orc.active_agents request decision
  let t_agents_start ← monotonic
  let decisions ← run_agents request context agents.length 1 agents
  let now ← monotonic
  orc.log_analytics request.request_id {
    event_type := "agents_run", status := "done", latency_ms := (now - t_agents_start) * 1000
    findings_cnt := decisions.countP (·.status ≠ .pass) }
  pure decisions

/-- The pipeline after the policy engine accepted the request. -/
def review (orc : Orchestrator) (request : ReviewRequest) (decision : PolicyDecision) :
    Review ReviewResult := do
  transition request.request_id .QUEUED .CONTEXT_READY "context build start"
    "CONTEXT_BUILD_STARTED"
  Proc.assign fun l => { l with current_state := .CONTEXT_READY }
  let context ← Proc.invoke (.build_context request) id
  orc.offload request context
  orc.context_cache request context
  let decisions ← orc.analyze request decision context
  orc.conclude request context decisions

/-- The pipeline after the request was created. -/
def admission (orc : Orchestrator) (request : ReviewRequest) : Review ReviewResult := do
  if ← Proc.invoke (.allow_new_job request) id then
    let decision ← Proc.invoke (.evaluate_request request) id
    orc.log_analytics request.request_id {
      event_type := "policy_decision"
      status := if decision.fast_path_only then "fast_path" else "heavy_path"
      agent_name := "policy_engine" }
    if decision.accepted then orc.review request decision
    else orc.reject_policy request decision
  else orc.reject_resources request

/-- The pipeline after `create_request` answered. -/
def after_create (orc : Orchestrator) (request : ReviewRequest) :
    Option JobCreationOutcome → Review ReviewResult
  | none => do
    Proc.assign fun l => { l with request_persisted := true }
    orc.admission request
  | some outcome =>
    if outcome.duplicate then orc.handle_duplicate_request request outcome.existing_state
    else do
      Proc.assign fun l => { l with request_persisted := outcome.created }
      orc.admission request

/-- The body of the `try` in `run_once`. -/
def pipeline (orc : Orchestrator) (request : ReviewRequest) : Review ReviewResult := do
  let creation_outcome ← Proc.invoke (.create_request request) id
  orc.after_create request creation_outcome

def classify_failure (error : PyExc) : ReviewState × ReviewStatus × String :=
  let message := error.message.toLower
  if error.isInstance .timeoutError then (.DEGRADED, .degraded, "LLM_TIMEOUT")
  else if error.isInstance .connectionError then (.DEGRADED, .degraded, "LLM_CONNECTION_ERROR")
  else if contains message "rate limit" then (.DEGRADED, .degraded, "LLM_RATE_LIMITED")
  else if contains message "timeout" then (.DEGRADED, .degraded, "LLM_TIMEOUT")
  else if contains message "connection" then (.DEGRADED, .degraded, "LLM_CONNECTION_ERROR")
  else (.FAILED, .failed, "SYSTEM_FAILED")

def build_user_failure_summary (result_code : String) : String :=
  if result_code = "LLM_TIMEOUT" then
    "[TIMEOUT] Gemini API 응답이 설정된 제한 시간을 초과했습니다. " ++
      "네트워크를 확인하거나 로컬 모델로 전환하세요."
  else if result_code = "LLM_CONNECTION_ERROR" then
    "[CONNECTION] Gemini API 연결에 실패했습니다. 네트워크 또는 API 설정을 확인하세요."
  else if result_code = "LLM_RATE_LIMITED" then
    "[RATE LIMIT] Gemini API 호출 한도에 도달했습니다. " ++
      "잠시 후 다시 시도하거나 로컬 모델로 전환하세요."
  else
    "[SYSTEM] 리뷰 파이프라인 내부 오류가 발생했습니다. " ++
      "latest_review.json 또는 review_history.jsonl 내용을 관리자에게 전달해 주세요."

/-- The checked transition of the exception handler. -/
def record_failure (request : ReviewRequest) (fallback_state : ReviewState)
    (reason fallback_result_code : String) : Review Unit := do
  let l ← Proc.locals
  if l.request_persisted && !l.current_state.terminal && l.current_state != fallback_state then do
    record_failure_transition_best_effort request.request_id l.current_state fallback_state reason
      fallback_result_code
    Proc.assign fun l => { l with current_state := fallback_state }
  else pure ()

/-- The unchecked terminal write of the exception handler. -/
def mark_failure (request : ReviewRequest) (fallback_state : ReviewState)
    (reason fallback_result_code : String) : Review Unit := do
  let l ← Proc.locals
  if l.request_persisted then
    mark_terminal_safe request.request_id fallback_state reason (.str fallback_result_code)
  else pure ()

/-- The `except Exception` of `run_once`. -/
def handle_failure (orc : Orchestrator) (request : ReviewRequest) (error : PyExc) :
    Review ReviewResult := do
  let (fallback_state, fallback_status, fallback_result_code) := classify_failure error
  let reason := "pipeline exception: " ++ error.message
  record_failure request fallback_state reason fallback_result_code
  mark_failure request fallback_state reason fallback_result_code
  let result := build_result request fallback_state fallback_status
    (.str (build_user_failure_summary fallback_result_code)) 0 (.str fallback_result_code)
  orc.publish_diagnostics result request.target_file
  orc.log_result result
  pure result

def run_once (orc : Orchestrator) (request : ReviewRequest) : Review ReviewResult :=
  Proc.attempt (orc.pipeline request) (orc.handle_failure request)

end Orchestrator

/-- `_exit_code_from_result_code` of the command line. -/
def exit_code_from_result_code (result_code : PyVal) : Nat :=
  if result_code.isStr "REVIEW_PASSED" then 0 else 1

end Nitpicker
