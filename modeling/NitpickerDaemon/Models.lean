import NitpickerDaemon.PyValue

/-!
The records of a review: requests, decisions, consensus and results.
-/

set_option autoImplicit false

namespace Nitpicker

inductive ReviewState where
  | QUEUED | PRECHECK_FAILED | CONTEXT_READY | ANALYZING | CONSENSUS_REACHED
  | PATCH_PROPOSED | VERIFIED | DELIVERED | DEGRADED | FAILED
  deriving DecidableEq, Repr

def ReviewState.value : ReviewState → String
  | .QUEUED => "queued"
  | .PRECHECK_FAILED => "precheck_failed"
  | .CONTEXT_READY => "context_ready"
  | .ANALYZING => "analyzing"
  | .CONSENSUS_REACHED => "consensus_reached"
  | .PATCH_PROPOSED => "patch_proposed"
  | .VERIFIED => "verified"
  | .DELIVERED => "delivered"
  | .DEGRADED => "degraded"
  | .FAILED => "failed"

def ReviewState.ofValue : String → Option ReviewState
  | "queued" => some .QUEUED
  | "precheck_failed" => some .PRECHECK_FAILED
  | "context_ready" => some .CONTEXT_READY
  | "analyzing" => some .ANALYZING
  | "consensus_reached" => some .CONSENSUS_REACHED
  | "patch_proposed" => some .PATCH_PROPOSED
  | "verified" => some .VERIFIED
  | "delivered" => some .DELIVERED
  | "degraded" => some .DEGRADED
  | "failed" => some .FAILED
  | _ => none

@[simp] theorem ReviewState.ofValue_value (s : ReviewState) : ofValue s.value = some s := by
  cases s <;> rfl

theorem ReviewState.value_injective {s t : ReviewState} (h : s.value = t.value) : s = t := by
  have hh := congrArg ofValue h
  simpa using hh

/-- The controller's own set of terminal states. -/
def ReviewState.terminal : ReviewState → Bool
  | .PRECHECK_FAILED | .DELIVERED | .DEGRADED | .FAILED => true
  | _ => false

/-- A review request. `trigger`, `trigger_intent` and `git_revision` come from the wire
with a default for an absent member only, so a JSON null reaches them as `none`. -/
structure ReviewRequest where
  request_id : String
  idempotency_key : String
  project_id : String
  project_profile : String
  trigger : Option String
  trigger_intent : Option String := some "active_intent"
  target_file : String := ""
  git_revision : Option String := some ""
  base_file_hash : String := ""
  diff_text : String := ""
  metadata : PyDict := []

/-- `patch` is outside the literals the result type declares, but the pipeline sets it. -/
inductive ReviewStatus where
  | pass | rejected | degraded | failed | ignored | patch
  deriving DecidableEq, Repr

def ReviewStatus.value : ReviewStatus → String
  | .pass => "pass"
  | .rejected => "rejected"
  | .degraded => "degraded"
  | .failed => "failed"
  | .ignored => "ignored"
  | .patch => "patch"

/-- `summary` and `result_code` are strings unless an L3 verdict put another value there. -/
structure ReviewResult where
  request_id : String
  state : ReviewState
  status : ReviewStatus
  summary : PyVal
  confidence_score : Rat
  result_code : PyVal
  patch_hash : Option String := none
  verification_result : Option PyDict := none
  reviewer : PyVal

structure ContextBundle where
  request_id : String
  context_hash : String
  token_estimate : Nat
  tiers : List (String × List String)
  metadata : PyDict

inductive AgentStatus where
  | pass | warn | reject | error
  deriving DecidableEq, Repr

def AgentStatus.value : AgentStatus → String
  | .pass => "pass"
  | .warn => "warn"
  | .reject => "reject"
  | .error => "error"

structure AgentDecision where
  agent_name : String
  status : AgentStatus
  confidence_score : Rat
  findings : List PyDict
  suggested_actions : List String
  raw_ref : Option String := none

inductive ConsensusStatus where
  | pass | reject | patch | degraded
  deriving DecidableEq, Repr

structure ConsensusResult where
  status : ConsensusStatus
  summary : PyVal
  confidence_score : Rat
  winning_reasons : List String
  conflicting_agents : List String

structure PatchProposal where
  patch_hash : String
  unified_diff : String
  source_file : String
  saved_path : Option String

structure VerificationReport where
  passed : Bool
  returncode : Int
  stdout : String
  stderr : String
  patch_hash : String

structure AutoFixResult where
  applied : Bool := false
  rolled_back : Bool := false
  reason : String := ""
  patch_text : String := ""
  verify_passed : Option Bool := none

structure OffloadRequest where
  request_id : String
  git_revision : Option String
  context_bundle : String
  masked_diff : String
  allowlisted_files : List String := []
  verification_mode : String := "strict"

structure OffloadResult where
  request_id : String
  accepted : Bool
  remote_job_id : String
  status_url : String
  reason : Option String := none

structure PolicyDecision where
  accepted : Bool
  project_profile : String
  offload_allowed : Bool
  auto_apply_allowed : Bool
  redaction_required : Bool
  reason : Option String := none
  fast_path_only : Bool := false
  allowed_agents : Option (List String) := none

end Nitpicker
