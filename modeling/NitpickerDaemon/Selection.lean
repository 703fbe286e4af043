import NitpickerDaemon.Models

/-!
Who reviews and who decides: the agent registry, the default policy engine and the
default consensus engine.
-/

set_option autoImplicit false

namespace Nitpicker

/-- What the pipeline reads of an agent: its `name` attribute, when that is a string, and
the name of its class. -/
structure Agent where
  name : Option String
  class_name : String
  deriving DecidableEq, Repr

structure AgentManifest where
  name : String
  capabilities : List String := []
  supported_profiles : List String := ["general"]
  supported_intents : List String := ["active_intent", "passive_save"]
  enabled : Bool := true
  deriving DecidableEq, Repr

structure AgentRegistration where
  manifest : AgentManifest
  agent : Agent
  deriving DecidableEq, Repr

/-- Registrations in insertion order, one for each manifest name. -/
structure AgentRegistry where
  entries : List AgentRegistration := []
  names : (entries.map (·.manifest.name)).Nodup := by simp

/-- Assigning to a dict key: an old key keeps its place. -/
def assign_entry (entry : AgentRegistration) : List AgentRegistration → List AgentRegistration
  | [] => [entry]
  | e :: es =>
    if e.manifest.name = entry.manifest.name then entry :: es else e :: assign_entry entry es

theorem assign_entry_names (entry : AgentRegistration) (es : List AgentRegistration) :
    (assign_entry entry es).map (·.manifest.name) =
      if entry.manifest.name ∈ es.map (·.manifest.name) then es.map (·.manifest.name)
      else es.map (·.manifest.name) ++ [entry.manifest.name] := by
  induction es with
  | nil => simp [assign_entry]
  | cons e es ih =>
    by_cases h : e.manifest.name = entry.manifest.name
    · simp [assign_entry, h]
    · have hne : entry.manifest.name ≠ e.manifest.name := Ne.symm h
      simp only [assign_entry, if_neg h, List.map_cons, ih, List.mem_cons, hne, false_or]
      split <;> simp

def AgentRegistry.register (registry : AgentRegistry) (manifest : AgentManifest) (agent : Agent) :
    AgentRegistry where
  entries := assign_entry ⟨manifest, agent⟩ registry.entries
  names := by
    rw [assign_entry_names]
    split
    · exact registry.names
    · rename_i h
      refine List.nodup_append.mpr ⟨registry.names, by simp, ?_⟩
      rintro _ ha _ hb rfl
      exact h (List.mem_singleton.mp hb ▸ ha)

/-- The three conditions an entry passes in `select`; `required` is its last one. -/
def AgentManifest.selectable (manifest : AgentManifest) (project_profile trigger_intent : String)
    (required : List String) : Bool :=
  manifest.enabled &&
    (manifest.supported_profiles.contains project_profile ||
      manifest.supported_profiles.contains "*") &&
    manifest.supported_intents.contains trigger_intent &&
    (required.isEmpty || required.all manifest.capabilities.contains)

def AgentRegistry.select (registry : AgentRegistry) (project_profile trigger_intent : String)
    (required : List String) : List Agent :=
  (registry.entries.filter
    (·.manifest.selectable project_profile trigger_intent required)).map (·.agent)

structure DefaultPolicyEngine where
  max_file_size_bytes : Nat := 512000
  fast_path_agents : List String := ["fast_gate", "security", "architecture"]

/-- `stat` gives the size of a file that exists. -/
def DefaultPolicyEngine.evaluate_request (engine : DefaultPolicyEngine)
    (stat : String → Option Nat) (request : ReviewRequest) : PolicyDecision :=
  let is_passive := request.trigger_intent == some "passive_save"
  let accepted : PolicyDecision := {
    accepted := true
    project_profile := request.project_profile
    offload_allowed := !is_passive
    auto_apply_allowed := false
    redaction_required := false
    fast_path_only := is_passive
    allowed_agents := if is_passive then some engine.fast_path_agents else none }
  match stat request.target_file with
  | some size =>
    if size > engine.max_file_size_bytes then {
      accepted := false
      project_profile := request.project_profile
      offload_allowed := false
      auto_apply_allowed := false
      redaction_required := false
      reason := some "file too large" }
    else accepted
  | none => accepted

def DefaultPolicyEngine.should_offload (request : ReviewRequest) (context_size : Nat) : Bool :=
  if request.trigger_intent == some "passive_save" then false else decide (context_size > 4000)

/-- `round(q, 4)`, half to even. -/
def round4 (q : Rat) : Rat :=
  let x := q * 10000
  let n := x.floor
  let r := x - n
  let m := if r < 1 / 2 then n else if 1 / 2 < r then n + 1 else if n % 2 = 0 then n else n + 1
  m / 10000

def AgentDecision.weight (d : AgentDecision) : Rat := if d.status = .reject then 2 else 1

def weighted_confidence (decisions : List AgentDecision) : Rat :=
  (decisions.map fun d => d.confidence_score * d.weight).sum /
    (decisions.map AgentDecision.weight).sum

def finding_labels (format : PyVal → String) (decisions : List AgentDecision) : List String :=
  decisions.flatMap fun d => d.findings.map fun f =>
    format (f.getD "code" (.str "?")) ++ ": " ++ format (f.getD "message" (.str ""))

/-- `DefaultConsensusEngine.decide`; `format` is what an f-string makes of a value. -/
def DefaultConsensusEngine.decide (format : PyVal → String) (decisions : List AgentDecision) :
    ConsensusResult :=
  if decisions = [] then {
    status := .pass
    summary := .str "에이전트 결정 없음 — 기본 pass"
    confidence_score := 1 / 2
    winning_reasons := []
    conflicting_agents := [] }
  else
    let rejecters := decisions.filter (·.status = .reject)
    let warners := decisions.filter (·.status = .warn)
    let passers := decisions.filter (·.status = .pass)
    let names := fun ds : List AgentDecision => ds.map (·.agent_name)
    let weighted_conf := weighted_confidence decisions
    if rejecters ≠ [] then {
      status := .reject
      summary := .str ("reject by " ++ ", ".intercalate (names rejecters) ++ ". findings: " ++
        "; ".intercalate ((finding_labels format rejecters).take 5))
      confidence_score := round4 weighted_conf
      winning_reasons := names rejecters
      conflicting_agents := names passers }
    else if warners ≠ [] then {
      status := .pass
      summary := .str ("advisory by " ++ ", ".intercalate (names warners) ++ ": " ++
        "; ".intercalate ((finding_labels format warners).take 3))
      confidence_score := round4 weighted_conf
      winning_reasons := names warners
      conflicting_agents := names passers }
    else {
      status := .pass
      summary := .str "모든 에이전트 통과"
      confidence_score := round4 weighted_conf
      winning_reasons := names passers
      conflicting_agents := [] }

end Nitpicker
