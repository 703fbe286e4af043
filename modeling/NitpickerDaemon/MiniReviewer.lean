import NitpickerDaemon.Effect.Procedure
import NitpickerDaemon.OllamaProvider

/-!
The mini reviewer: it reviews the diffs of its target files one by one, with Ollama or with
Gemini, and its command line turns the verdicts into an exit status.
-/

set_option autoImplicit false

namespace Nitpicker

open Effect

/-- The settings a review reads. -/
structure MiniReviewerSettings where
  gemini_api_key : String := ""
  gemini_model : String := ""
  skip : Bool := false
  auto_apply_patches : Bool := false
  gemini_fallback_model : String := ""
  provider : String := "ollama"
  ollama_model : String := ""
  ollama_base_url : String := ""

/-- The `parsed` attribute of a Gemini response: a dict, a model that dumps to one, or
something else. -/
inductive GeminiParsed where
  | dict : PyDict → GeminiParsed
  | model : PyDict → GeminiParsed
  | other : GeminiParsed

structure GeminiResponse where
  parsed : GeminiParsed
  text : PyVal

/-- What the mini reviewer asks: configuration, git, its models, and the files it writes. -/
inductive MiniOp where
  | load_settings
  | normalize_target (path : String)
  | git (args : List String)
  | get_system_prompt
  | available (provider : OllamaProvider)
  | urlopen (url : String) (body : PyDict)
  | build_client (api_key : String)
  | generate_content (model contents system_instruction : String)
  | git_apply_check (patch_text : String)
  | git_apply (patch_text : String)
  | utc_now
  | kst_now
  | append_log (lines : List JsonText)
  | replace_latest_json (latest : JsonText)
  | replace_latest_text (text : String)

/-- The answers; `git` gives the output of a command that exits with 0. -/
def MiniAns : MiniOp → Type
  | .load_settings => Except PyExc MiniReviewerSettings
  | .normalize_target _ => Except PyExc String
  | .git _ => Except PyExc String
  | .get_system_prompt => Except PyExc String
  | .available _ => Except PyExc Bool
  | .urlopen _ _ => Except PyExc OllamaStream
  | .build_client _ => Except PyExc Unit
  | .generate_content _ _ _ => Except PyExc GeminiResponse
  | .git_apply_check _ => Except PyExc Bool
  | .git_apply _ => Except PyExc Bool
  | .utc_now => String
  | .kst_now => String
  | .append_log _ => Except PyExc Unit
  | .replace_latest_json _ => Except PyExc Unit
  | .replace_latest_text _ => Except PyExc Unit

abbrev MiniReview (α : Type) := Proc PyExc Unit MiniOp MiniAns α

namespace MiniReviewer

/-- `git(*args)`: the output without the white space around it. -/
def git (args : List String) : MiniReview String := do
  let stdout ← Proc.invoke (.git args) id
  pure (strip stdout)

def staged_names : List String := ["diff", "--cached", "--name-only", "--diff-filter=ACM"]

def normalize_targets : List String → MiniReview (List String)
  | [] => pure []
  | path :: paths => do
    let target ← Proc.invoke (.normalize_target path) id
    let targets ← normalize_targets paths
    pure (target :: targets)

def targets_from_args (paths : List String) (staged : Bool) : MiniReview (List String) :=
  if staged then do
    let names ← git staged_names
    pure ((splitlines names).filter (· ≠ ""))
  else normalize_targets paths

def diff_args (path : String) (staged : Bool) : List String :=
  ["diff", "--unified=3"] ++ (if staged then ["--cached"] else ["HEAD"]) ++ ["--", path]

def diff_for (path : String) (staged : Bool) : MiniReview String := git (diff_args path staged)

def build_user_prompt (path diff_text : String) : String :=
  "[Target File]\n" ++ path ++ "\n\n[Git Diff]\n" ++ diff_text ++ "\n"

def VALID_RESULT_CODES : List String := ["REVIEW_PASSED", "PATCH_PROPOSED", "REVIEW_REJECTED"]

def OLLAMA_RESPONSE_FORMAT : PyDict :=
  let type := fun name : String => PyVal.dict [("type", .str name)]
  let nullable := fun name : String => PyVal.dict [("type", .list [.str name, .str "null"])]
  [("type", .str "object"),
    ("properties", .dict [
      ("result_code", .dict [("type", .str "string"),
        ("enum", .list (VALID_RESULT_CODES.map .str))]),
      ("summary", type "string"),
      ("confidence_score", type "number"),
      ("details", .dict [("type", .str "array"),
        ("items", .dict [("type", .str "object"),
          ("properties", .dict [("line_number", nullable "integer"), ("issue", type "string")]),
          ("required", .list [.str "line_number", .str "issue"])])]),
      ("suggested_patch", nullable "string")]),
    ("required", .list [.str "result_code", .str "summary", .str "confidence_score",
      .str "details", .str "suggested_patch"])]

/-- The details that are dicts, with a line number and a text each. -/
def normalized_details (py : Python) : List PyVal → List PyVal
  | [] => []
  | .dict detail :: details =>
    .dict [("line_number", PyDict.get detail "line_number"),
      ("issue", .str (py.str (PyDict.getD detail "issue" (.str ""))))] ::
        normalized_details py details
  | _ :: details => normalized_details py details

def coerce_ollama_payload (py : Python) : PyVal → Except PyExc PyDict
  | .dict raw =>
    let result_code := PyDict.get raw "result_code"
    if VALID_RESULT_CODES.any result_code.isStr then
      let details := match PyDict.get raw "details" with
        | .list details => details
        | _ => []
      .ok [("result_code", result_code),
        ("summary", .str (py.str (PyDict.getD raw "summary" (.str "")))),
        ("confidence_score", PyDict.getD raw "confidence_score" (.float 0)),
        ("details", .list (normalized_details py details)),
        ("suggested_patch", PyDict.get raw "suggested_patch")]
    else .error (runtimeError ("Ollama가 유효하지 않은 result_code를 반환: " ++ py.repr result_code ++
      " (허용: ('REVIEW_PASSED', 'PATCH_PROPOSED', 'REVIEW_REJECTED')). " ++
      "silent-PASS 금지 → 리뷰 차단."))
  | raw => .error (runtimeError ("Ollama mini 응답이 객체가 아님: " ++ raw.type_name))

theorem coerce_code {py : Python} {raw : PyVal} {payload : PyDict}
    (h : coerce_ollama_payload py raw = .ok payload) : ∃ object code, raw = .dict object ∧
      code ∈ VALID_RESULT_CODES ∧ PyDict.get object "result_code" = .str code ∧
      PyDict.get payload "result_code" = .str code := by
  cases raw with
  | dict object =>
    simp only [coerce_ollama_payload] at h
    split at h
    · rename_i hvalid
      obtain ⟨code, hmem, hcode⟩ := List.any_eq_true.mp hvalid
      cases h
      have heq := PyVal.isStr_iff.mp hcode
      exact ⟨object, code, rfl, hmem, heq, heq⟩
    · cases h
  | _ => cases h

/-- `s.rstrip("/")` -/
def rstrip_slashes (s : String) : String :=
  String.ofList (s.toList.reverse.dropWhile (· == '/')).reverse

def http_post_streaming (py : Python) (p : OllamaProvider) (url : String) (body : PyDict) :
    MiniReview String :=
  if p.total_timeout ≤ 0 then
    Proc.raise (timeoutError ("Ollama 응답 생성 " ++ toString p.total_timeout ++ "s 초과"))
  else do
    let stream ← Proc.invoke (.urlopen url body) id
    Proc.ofExcept (p.response_text py stream)

def generate_mini (py : Python) (p : OllamaProvider) (system_prompt user_prompt : String)
    (response_format : PyDict) : MiniReview PyVal := do
  let available ← Proc.invoke (.available p) id
  if available then do
    let response_text ← http_post_streaming py p (p.base_url ++ "/api/generate")
      (p.generate_body system_prompt user_prompt response_format)
    Proc.ofExcept (OllamaProvider.parse_mini py response_text)
  else Proc.raise p.unavailable

/-- `load_settings` leaves neither the model nor the address empty. -/
def ollama_provider (settings : MiniReviewerSettings) : OllamaProvider where
  model := settings.ollama_model
  base_url := rstrip_slashes settings.ollama_base_url

def generate_review_ollama (py : Python) (path diff_text : String)
    (settings : MiniReviewerSettings) : MiniReview PyDict := do
  let provider := ollama_provider settings
  let system_prompt ← Proc.invoke .get_system_prompt id
  let raw ← generate_mini py provider system_prompt (build_user_prompt path diff_text)
    OLLAMA_RESPONSE_FORMAT
  let payload ← Proc.ofExcept (coerce_ollama_payload py raw)
  pure ((PyDict.set payload "target_file" (.str path)).set "reviewer"
    (.str ("Ollama/" ++ provider.model)))

def model_candidates (settings : MiniReviewerSettings) : List String :=
  let candidates := [settings.gemini_model].filter (· ≠ "")
  candidates ++ [settings.gemini_fallback_model].filter fun model =>
    model ≠ "" ∧ model ∉ candidates

def is_missing_model_error (message : String) : Bool :=
  let lowered := message.toLower
  contains lowered "not_found" || contains lowered "is not found" ||
    contains lowered "listmodels"

/-- The error that replaces one of Gemini which no other model can answer for. -/
def gemini_error (tried : List String) (e : PyExc) : PyExc :=
  let lowered := e.message.toLower
  if is_missing_model_error e.message then
    runtimeError ("Gemini model is not available for generateContent in this API path; tried: " ++
      ", ".intercalate tried)
  else if contains e.message "RESOURCE_EXHAUSTED" || contains lowered "quota" then
    runtimeError ("Gemini API quota exhausted; check billing/quota or switch to a key/project " ++
      "with available capacity")
  else if contains e.message "API key" || contains lowered "authentication" ||
      contains lowered "permission" then
    runtimeError "Gemini API authentication failed; verify gemini_api_key in the local config"
  else e

/-- Reading the local `response` when there was no model to try. -/
def unbound_response : PyExc := ⟨"UnboundLocalError", [],
  "cannot access local variable 'response' where it is not associated with a value"⟩

/-- The models left to try, in order: the first response, with its model. -/
def try_models (candidates : List String) (contents : String) :
    List String → MiniReview (GeminiResponse × String)
  | [] => Proc.raise unbound_response
  | model :: models => Proc.attempt
      (do
        let system_instruction ← Proc.invoke .get_system_prompt id
        let response ← Proc.invoke (.generate_content model contents system_instruction) id
        pure (response, model))
      fun e =>
        if is_missing_model_error e.message && !models.isEmpty then
          try_models candidates contents models
        else Proc.raise (gemini_error candidates e)

def normalize_response_payload (py : Python) (response : GeminiResponse) : Except PyExc PyVal :=
  match response.parsed with
  | .dict payload => .ok (.dict payload)
  | .model payload => .ok (.dict payload)
  | .other =>
    match response.text with
    | .str text =>
      if strip text = "" then .error (runtimeError "Gemini returned an empty response body")
      else py.loads text
    | _ => .error (runtimeError "Gemini returned an empty response body")

/-- `payload["target_file"] = …` and `payload["reviewer"] = …` -/
def label_payload (path reviewer : String) : PyVal → Except PyExc PyDict
  | .dict payload =>
    .ok ((PyDict.set payload "target_file" (.str path)).set "reviewer" (.str reviewer))
  | .list _ => .error (typeError "list indices must be integers or slices, not str")
  | payload => .error (typeError ("'" ++ payload.type_name ++
      "' object does not support item assignment"))

def generate_review_gemini (py : Python) (has_genai : Bool) (path diff_text : String)
    (settings : MiniReviewerSettings) : MiniReview PyDict :=
  if has_genai then do
    Proc.invoke (.build_client settings.gemini_api_key) id
    let candidates := model_candidates settings
    let (response, model_name) ← try_models candidates (build_user_prompt path diff_text) candidates
    let payload ← Proc.ofExcept (normalize_response_payload py response)
    Proc.ofExcept (label_payload path ("Gemini/" ++ model_name) payload)
  else Proc.raise (runtimeError "google-genai is not installed in the active Python environment")

def generate_review (py : Python) (has_genai : Bool) (path : String) (staged : Bool)
    (settings : MiniReviewerSettings) : MiniReview (Option PyDict) :=
  if settings.skip then pure none else do
    let diff_text ← diff_for path staged
    if diff_text = "" then pure none
    else if settings.provider = "ollama" then
      some <$> generate_review_ollama py path diff_text settings
    else some <$> generate_review_gemini py has_genai path diff_text settings

/-- `_apply_patch_safely`; what is no text has no `strip`. -/
def apply_patch_safely : PyVal → MiniReview Bool
  | .str patch_text =>
    if strip patch_text = "" then pure false else do
      if ← Proc.invoke (.git_apply_check patch_text) id then
        Proc.invoke (.git_apply patch_text) id
      else pure false
  | patch => if patch.truthy then Proc.raise (attributeError patch "strip") else pure false

/-- The auto-fix of a proposed patch. -/
def auto_apply (py : Python) (settings : MiniReviewerSettings) (payload : PyDict) :
    MiniReview PyDict :=
  if (PyDict.get payload "result_code").isStr "PATCH_PROPOSED" ∧ settings.auto_apply_patches then do
    let applied ← apply_patch_safely ((PyDict.get payload "suggested_patch").or (.str ""))
    if applied then
      pure ((PyDict.set payload "result_code" (.str "PATCH_APPLIED")).set "summary"
        (.str ("[Auto-Fixed] " ++ py.str (PyDict.getD payload "summary" (.str "")))))
    else pure payload
  else pure payload

/-- The loop over the targets: the payloads in order. -/
def review_each (py : Python) (has_genai staged : Bool) (settings : MiniReviewerSettings) :
    List String → MiniReview (List PyDict)
  | [] => pure []
  | path :: paths => do
    let payload ← generate_review py has_genai path staged settings
    match payload with
    | none => review_each py has_genai staged settings paths
    | some payload => do
      let payload ← auto_apply py settings payload
      let payloads ← review_each py has_genai staged settings paths
      pure (payload :: payloads)

def log_lines : List PyDict → MiniReview (List JsonText)
  | [] => pure []
  | payload :: payloads => do
    let now ← Proc.invoke .utc_now .ok
    let record := payload.foldl (fun d kv => PyDict.set d kv.1 kv.2) [("timestamp", .str now)]
    let line ← Proc.ofExcept (PyDict.dumps record)
    let lines ← log_lines payloads
    pure (line :: lines)

def append_review_logs (payloads : List PyDict) : MiniReview Unit :=
  if payloads.isEmpty then pure () else do
    let lines ← log_lines payloads
    Proc.invoke (.append_log lines) id

/-- One line of the details of a review text. -/
def detail_line (py : Python) : PyVal → Except PyExc String
  | .dict detail =>
    let line_number := PyDict.get detail "line_number"
    let label := match line_number with
      | .none => "줄 미지정"
      | line_number => py.str line_number ++ "번째 줄"
    .ok ("- " ++ label ++ ": " ++ py.str (PyDict.getD detail "issue" (.str "")))
  | detail => .error (attributeError detail "get")

def detail_lines (py : Python) (details : PyVal) : Except PyExc (List String) :=
  if details.truthy then
    match details with
    | .list details => details.mapM (detail_line py)
    | .dict ((key, _) :: _) => .error (attributeError (.str key) "get")
    | .str _ => .error (attributeError (.str "") "get")
    | details => .error (typeError ("'" ++ details.type_name ++ "' object is not iterable"))
  else .ok ["- 없음"]

def format_review_text (py : Python) (kst_now : String) (payload : PyDict) :
    Except PyExc String := do
  let field := fun key => py.str (PyDict.getD payload key (.str ""))
  let details ← detail_lines py (PyDict.get payload "details")
  match (PyDict.get payload "suggested_patch").or (.str "(없음)") with
  | .str patch => pure ("\n".intercalate (["리뷰 시각: " ++ kst_now,
      "대상 파일: " ++ field "target_file", "리뷰어: " ++ field "reviewer",
      "결과 코드: " ++ field "result_code", "요약: " ++ field "summary",
      "신뢰도: " ++ field "confidence_score", "세부 사항:"] ++ details ++
      ["제안 패치:", patch]) ++ "\n")
  | patch => .error (typeError ("sequence item " ++ toString (details.length + 8) ++
      ": expected str instance, " ++ patch.type_name ++ " found"))

def write_latest_review_files (py : Python) (payloads : List PyDict) : MiniReview Unit :=
  match payloads.getLast? with
  | none => pure ()
  | some latest => do
    let json ← Proc.ofExcept (PyDict.dumps latest)
    Proc.invoke (.replace_latest_json json) id
    let kst_now ← Proc.invoke .kst_now .ok
    let text ← Proc.ofExcept (format_review_text py kst_now latest)
    Proc.invoke (.replace_latest_text text) id

def review_targets (py : Python) (has_genai : Bool) (paths : List String) (staged : Bool)
    (settings : MiniReviewerSettings) : MiniReview (List PyDict) :=
  if settings.skip then pure [] else do
    let targets ← targets_from_args paths staged
    if targets.isEmpty then pure [] else do
      let payloads ← review_each py has_genai staged settings targets
      append_review_logs payloads
      write_latest_review_files py payloads
      pure payloads

end MiniReviewer

end Nitpicker
