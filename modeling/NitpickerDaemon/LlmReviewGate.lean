import NitpickerDaemon.Controller
import NitpickerDaemon.PyText

/-!
The L3 gate: the prompt it sends to its provider and the verdict it reads from the reply.
-/

set_option autoImplicit false

namespace Nitpicker

/-- `float(value)` -/
def Python.float (py : Python) (value : PyVal) : Except PyExc Rat :=
  match value with
  | .str s => py.float_of_text s
  | value =>
    match Orchestrator.to_float value with
    | some r => r
    | none => .error (typeError ("float() argument must be a string or a real number, not '" ++
        value.type_name ++ "'"))

structure ProviderRequest where
  prompt_pack_version : String
  system_prompt : String
  user_prompt : String
  response_schema : PyDict
  metadata : PyDict

/-- The gate of one review: what its prompt loader returns and how its provider answers. -/
structure LlmReviewGate where
  system_prompt : String
  generate : ProviderRequest → Except PyExc PyVal

namespace LlmReviewGate

def MAX_DIFF_CHARS : Nat := 4000

def MAX_CONTEXT_CHARS : Nat := 2000

def MAX_TOTAL_PROMPT_CHARS : Nat := 8000

/-- `s[:limit] + note` when `s` is longer than `limit` -/
def truncate (limit : Nat) (note s : String) : String :=
  if s.length > limit then String.ofList (s.toList.take limit) ++ note else s

def finding_line (py : Python) (finding : PyDict) : String :=
  "- [" ++ py.str (finding.getD "code" (.str "?")) ++ "] " ++
    py.str (finding.getD "message" (finding.getD "issue" (.str "")))

def build_user_prompt (py : Python) (request : ReviewRequest) (context : ContextBundle)
    (agent_findings : List PyDict) : String :=
  let target := ["[Target File]\n" ++ request.target_file ++ "\n"]
  let note := "\n... (truncated, " ++ toString request.diff_text.length ++ " chars total)"
  let diff := ["[Git Diff]\n" ++ truncate MAX_DIFF_CHARS note request.diff_text ++ "\n"]
  let tiers := (context.tiers.mergeSort fun a b => decide (a.1 ≤ b.1)).filter (!·.2.isEmpty)
  let contexts := tiers.map fun tier => "[Context: " ++ tier.1 ++ "]\n" ++
    truncate MAX_CONTEXT_CHARS "\n... (truncated)" ("\n".intercalate tier.2) ++ "\n"
  let findings := if agent_findings.isEmpty then [] else
    ["[Pre-filter Agent Findings]\n" ++
      "\n".intercalate (agent_findings.map (finding_line py)) ++ "\n"]
  truncate MAX_TOTAL_PROMPT_CHARS "\n... (prompt truncated)"
    ("\n".intercalate (target ++ diff ++ contexts ++ findings))

def fallback_pass (reason : String) : PyDict :=
  [("result_code", .str "REVIEW_PASSED"), ("summary", .str reason),
    ("confidence_score", .float (1 / 2)), ("details", .list []), ("suggested_patch", .none)]

/-- A list of details that is not empty, or a patch. -/
def has_evidence (payload : PyDict) : Bool :=
  (match payload.get "details" with
    | .list details => !details.isEmpty
    | _ => false) || (payload.get "suggested_patch").truthy

/-- What an objection without evidence becomes. -/
def advisory (py : Python) (payload : PyDict) : Except PyExc PyDict := do
  let summary := strip (py.str ((payload.get "summary").or (.str "")))
  let summary := if summary = "" then "근거 없는 L3 차단 의견" else summary
  let confidence ← py.float ((payload.get "confidence_score").or (.float (1 / 2)))
  pure [("result_code", .str "REVIEW_PASSED"),
    ("summary", .str ("잔소리(advisory): " ++ summary)),
    ("confidence_score", .float (min confidence (1 / 2))), ("details", .list []),
    ("suggested_patch", .none)]

def normalize_response (py : Python) (payload : PyDict) : Except PyExc PyDict :=
  let result_code := payload.get "result_code"
  match result_code.unhashable with
  | some e => .error e
  | none =>
    if !(result_code.isStr "REVIEW_REJECTED" || result_code.isStr "PATCH_PROPOSED") then
      .ok payload
    else if has_evidence payload then .ok payload
    else advisory py payload

/-- `json.loads` of a text, normalised; what is no object has no `get`. -/
def parse_text (py : Python) (text : String) : Except PyExc PyDict :=
  match py.loads text with
  | .ok (.dict payload) => normalize_response py payload
  | .ok payload => .error (attributeError payload "get")
  | .error e =>
    if e.is_json_decode_error then .ok (fallback_pass "LLM 응답 파싱 불가 — L2 PASS 결과를 유지합니다")
    else .error e

/-- `raw.get("text") or raw.get("reason") or ""` -/
def reply_text (raw : PyDict) : PyVal := ((raw.get "text").or (raw.get "reason")).or (.str "")

def parse_dict (py : Python) (raw : PyDict) : Except PyExc PyDict :=
  if raw.has "result_code" then normalize_response py raw else
    match reply_text raw with
    | .str text =>
      if (strip text).startsWith "\x7b" then parse_text py (strip text)
      else .ok (fallback_pass "LLM 응답 파싱 불가 — L2 PASS 결과를 유지합니다")
    | _ => .ok (fallback_pass "LLM 응답 파싱 불가 — L2 PASS 결과를 유지합니다")

def parse_response (py : Python) : PyVal → Except PyExc PyDict
  | .dict raw => parse_dict py raw
  | raw => .error (attributeError raw "get")

/-- What a call of the provider raised. -/
def provider_failed (e : PyExc) : Except PyExc PyDict :=
  if e.isInstance .timeoutError || e.isInstance .connectionError || e.isInstance .osError then
    .ok (fallback_pass "LLM 호출 실패 — L2 PASS 결과를 유지합니다")
  else if e.isInstance .valueError || e.isInstance .keyError || e.isInstance .runtimeError then
    .ok (fallback_pass "LLM 응답 오류 — L2 PASS 결과를 유지합니다")
  else .error e

def provider_request (py : Python) (gate : LlmReviewGate) (request : ReviewRequest)
    (context : ContextBundle) (agent_findings : List PyDict) : ProviderRequest where
  prompt_pack_version := "1.0"
  system_prompt := gate.system_prompt
  user_prompt := build_user_prompt py request context agent_findings
  response_schema := []
  metadata := [("request_id", .str request.request_id), ("stage", .str "l3_review")]

def review (py : Python) (gate : LlmReviewGate) (request : ReviewRequest)
    (context : ContextBundle) (agent_findings : List PyDict) : Except PyExc PyDict :=
  match gate.generate (gate.provider_request py request context agent_findings) with
  | .ok raw => parse_response py raw
  | .error e => provider_failed e

theorem has_evidence_iff {payload : PyDict} : has_evidence payload = true ↔
    (∃ detail details, PyDict.get payload "details" = .list (detail :: details)) ∨
      (PyDict.get payload "suggested_patch").truthy = true := by
  unfold has_evidence
  rw [Bool.or_eq_true]
  cases PyDict.get payload "details" with
  | list details => cases details <;> simp
  | _ => simp

/-- `float` accepts the confidence of `payload`, or the default in its place. -/
def Readable (py : Python) (payload : PyDict) : Prop :=
  ∃ confidence, py.float ((PyDict.get payload "confidence_score").or (.float (1 / 2))) =
    .ok confidence

theorem advisory_passes {py : Python} {payload d : PyDict} (h : advisory py payload = .ok d) :
    PyDict.getD d "result_code" (.str "REVIEW_PASSED") = .str "REVIEW_PASSED" := by
  unfold advisory at h
  cases hf : py.float ((PyDict.get payload "confidence_score").or (.float (1 / 2))) with
  | error e =>
    rw [hf] at h
    cases h
  | ok confidence =>
    rw [hf] at h
    cases h
    rfl

theorem advisory_ok_iff {py : Python} {payload : PyDict} :
    (∃ d, advisory py payload = .ok d) ↔ Readable py payload := by
  unfold advisory Readable
  cases py.float ((PyDict.get payload "confidence_score").or (.float (1 / 2))) with
  | error e =>
    constructor
    · intro h
      obtain ⟨d, hd⟩ := h
      cases hd
    · intro h
      obtain ⟨q, hq⟩ := h
      cases hq
  | ok confidence => exact ⟨fun _ => ⟨confidence, rfl⟩, fun _ => ⟨_, rfl⟩⟩

/-- The two codes the normaliser asks evidence for. -/
def Blocks (payload : PyDict) : Prop :=
  PyDict.get payload "result_code" = .str "REVIEW_REJECTED" ∨
    PyDict.get payload "result_code" = .str "PATCH_PROPOSED"

/-- What the normaliser does to a payload. -/
inductive Normalized (py : Python) (payload : PyDict) : Except PyExc PyDict → Prop where
  | unhashable (e : PyExc) : ¬Blocks payload → Normalized py payload (.error e)
  | kept : ¬Blocks payload ∨ has_evidence payload = true → Normalized py payload (.ok payload)
  | downgraded (r : Except PyExc PyDict) : Blocks payload → has_evidence payload = false →
      advisory py payload = r → Normalized py payload r

theorem normalize_response_cases (py : Python) (payload : PyDict) :
    Normalized py payload (normalize_response py payload) := by
  have hblocks : ((PyDict.get payload "result_code").isStr "REVIEW_REJECTED" ||
      (PyDict.get payload "result_code").isStr "PATCH_PROPOSED") = true ↔ Blocks payload := by
    rw [Bool.or_eq_true, PyVal.isStr_iff, PyVal.isStr_iff]
    rfl
  cases hu : (PyDict.get payload "result_code").unhashable with
  | some e =>
    have heq : normalize_response py payload = .error e := by simp [normalize_response, hu]
    rw [heq]
    refine .unhashable e fun hb => ?_
    rcases hb with hb | hb <;> simp [hb, PyVal.unhashable] at hu
  | none =>
    by_cases hb : Blocks payload
    · have hcode := hblocks.mpr hb
      cases he : has_evidence payload with
      | true =>
        have heq : normalize_response py payload = .ok payload := by
          simp [normalize_response, hu, he]
        rw [heq]
        exact .kept (.inr he)
      | false =>
        have heq : normalize_response py payload = advisory py payload := by
          simp only [normalize_response, hu, hcode, he, Bool.not_true, Bool.false_eq_true, if_false]
        rw [heq]
        exact .downgraded _ hb he rfl
    · have hcode := Bool.eq_false_iff.mpr fun h => hb (hblocks.mp h)
      have heq : normalize_response py payload = .ok payload := by
        simp only [normalize_response, hu, hcode, Bool.not_false, if_true]
      rw [heq]
      exact .kept (.inl hb)

/-- The JSON object of the model that a dict of the provider is or holds. -/
def dict_object (py : Python) (raw : PyDict) : Option PyDict :=
  if raw.has "result_code" then some raw else
    match reply_text raw with
    | .str text =>
      if (strip text).startsWith "\x7b" then
        match py.loads (strip text) with
        | .ok (.dict payload) => some payload
        | _ => none
      else none
    | _ => none

def reply_object (py : Python) : PyVal → Option PyDict
  | .dict raw => dict_object py raw
  | _ => none

theorem parse_dict_object {py : Python} {raw object : PyDict}
    (h : dict_object py raw = some object) :
    parse_dict py raw = normalize_response py object := by
  cases hhas : raw.has "result_code" with
  | true =>
    simp only [dict_object, hhas, if_true, Option.some.injEq] at h
    subst h
    simp [parse_dict, hhas]
  | false =>
    simp only [dict_object, hhas, Bool.false_eq_true, if_false] at h
    cases ht : reply_text raw with
    | str text =>
      simp only [ht] at h
      split at h
      · rename_i hbrace
        split at h
        · rename_i payload hl
          cases h
          simp [parse_dict, hhas, ht, hbrace, parse_text, hl]
        · cases h
      · cases h
    | _ =>
      rw [ht] at h
      cases h

theorem parse_response_object {py : Python} {raw : PyVal} {object : PyDict}
    (h : reply_object py raw = some object) :
    parse_response py raw = normalize_response py object := by
  cases raw with
  | dict raw => exact parse_dict_object h
  | _ => cases h

end LlmReviewGate

end Nitpicker
