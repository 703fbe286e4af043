import NitpickerDaemon.Data.Fallback
import NitpickerDaemon.Data.Traverse
import NitpickerDaemon.LlmReviewGate
import NitpickerDaemon.SilentPass

/-!
The settings of the mini reviewer, and the models of Gemini they let it try.
-/

set_option autoImplicit false

namespace Nitpicker

open Effect

namespace MiniReviewer

def DEFAULT_GEMINI_MODEL : String := "gemini-3.1-pro-preview"

def DEFAULT_GEMINI_FALLBACK_MODEL : String := "gemini-2.0-flash"

def DEFAULT_PROVIDER : String := "ollama"

def DEFAULT_OLLAMA_MODEL : String := "qwen2.5-coder:7b"

def DEFAULT_OLLAMA_BASE_URL : String := "http://localhost:11434"

/-- The settings, with those that only the watch daemon reads. -/
structure LocalSettings extends MiniReviewerSettings where
  watch_path : PyVal
  debounce_seconds : Rat
  file_extensions : List String

/-- What `load_settings` reads: the environment variables, and what `_load_jsonc` does with the
configuration, where that exists. -/
structure Configuration where
  root : String
  environ : String → Option String
  config : Option (Except PyExc PyVal)

/-- `os.environ.get(name) == "1"` -/
def Configuration.switched (c : Configuration) (name : String) : Bool :=
  c.environ name = some "1"

/-- `os.environ.get(name) or data.get(key, default)` -/
def Configuration.setting (c : Configuration) (data : PyDict) (name key default : String) :
    PyVal :=
  ((c.environ name).elim PyVal.none PyVal.str).or (PyDict.getD data key (.str default))

/-- `value.strip()` -/
def stripped : PyVal → Except PyExc String
  | .str s => .ok (strip s)
  | value => .error (attributeError value "strip")

/-- `text or default` -/
def or_default (text default : String) : String := if text = "" then default else text

def lowered_extension : PyVal → Except PyExc String
  | .str ext => .ok ext.toLower
  | ext => .error (attributeError ext "lower")

/-- `tuple(ext.lower() for ext in value)` -/
def lowered_extensions : PyVal → Except PyExc (List String)
  | .list extensions => extensions.mapM lowered_extension
  | .str s => .ok (s.toList.map fun c => (String.singleton c).toLower)
  | .dict d => .ok (d.map fun kv => kv.1.toLower)
  | value => .error (typeError ("'" ++ value.type_name ++ "' object is not iterable"))

/-- The settings before they are checked. A key of Gemini that is no text is kept as its text:
nothing but the client of Gemini looks into it. -/
def read_settings (py : Python) (c : Configuration) (data : PyDict) (api_key : PyVal) :
    Except PyExc LocalSettings := do
  let gemini_model ← stripped (c.setting data "GEMINI_MODEL" "gemini_model" DEFAULT_GEMINI_MODEL)
  let gemini_fallback_model ← stripped (c.setting data "GEMINI_FALLBACK_MODEL"
    "gemini_fallback_model" DEFAULT_GEMINI_FALLBACK_MODEL)
  let provider ← stripped (c.setting data "NITPICKER_PROVIDER" "provider" DEFAULT_PROVIDER)
  let ollama_model ← stripped (c.setting data "OLLAMA_MODEL" "ollama_model" DEFAULT_OLLAMA_MODEL)
  let ollama_base_url ←
    stripped (c.setting data "OLLAMA_BASE_URL" "ollama_base_url" DEFAULT_OLLAMA_BASE_URL)
  let debounce_seconds ← py.float (PyDict.getD data "debounce_seconds" (.float 2))
  let file_extensions ← lowered_extensions (PyDict.getD data "file_extensions"
    (.list [.str ".py", .str ".cpp", .str ".h", .str ".hpp"]))
  pure {
    gemini_api_key := py.str api_key
    gemini_model := gemini_model
    watch_path := PyDict.getD data "watch_path" (.str "src")
    debounce_seconds := debounce_seconds
    file_extensions := file_extensions
    skip := c.switched "NITPICKER_SKIP" || (PyDict.getD data "skip" (.bool false)).truthy
    auto_apply_patches := c.switched "NITPICKER_AUTO_APPLY" ||
      (PyDict.getD data "auto_apply_patches" (.bool false)).truthy
    gemini_fallback_model :=
      if gemini_fallback_model = gemini_model then "" else gemini_fallback_model
    provider := or_default provider.toLower DEFAULT_PROVIDER
    ollama_model := or_default ollama_model DEFAULT_OLLAMA_MODEL
    ollama_base_url := or_default ollama_base_url DEFAULT_OLLAMA_BASE_URL }

def spaced (model : String) : Bool := model.toList.any isspace

/-- The first error of the settings. -/
def settings_error (c : Configuration) (api_key : PyVal) (settings : LocalSettings) :
    Option PyExc :=
  if settings.provider ≠ "ollama" ∧ settings.provider ≠ "gemini" then
    some (runtimeError ("invalid provider '" ++ settings.provider ++
      "' in local config; use 'ollama' or 'gemini'"))
  else if settings.provider = "gemini" ∧ settings.skip = false ∧ api_key.truthy = false then
    some (runtimeError ("missing Gemini API key; copy " ++ c.root ++
      "/config/nitpicker.local.example.json to " ++ c.root ++
      "/config/nitpicker.local.json or set GEMINI_API_KEY"))
  else if settings.provider = "gemini" ∧ settings.skip = false ∧
      (settings.gemini_model = "" ∨ spaced settings.gemini_model) then
    some (runtimeError ("invalid gemini_model in local config; use a valid model id such as " ++
      "gemini-3.1-pro-preview"))
  else if settings.provider = "gemini" ∧ settings.skip = false ∧ settings.gemini_fallback_model ≠ "" ∧
      spaced settings.gemini_fallback_model then
    some (runtimeError ("invalid gemini_fallback_model in local config; use a valid model id " ++
      "such as gemini-2.0-flash"))
  else if settings.provider = "ollama" ∧ settings.skip = false ∧
      (settings.ollama_model = "" ∨ spaced settings.ollama_model) then
    some (runtimeError ("invalid ollama_model in local config; use a valid model id such as " ++
      "qwen2.5-coder:7b"))
  else none

def load_settings (py : Python) (c : Configuration) : Except PyExc LocalSettings := do
  match ← c.config.getD (.ok (.dict [])) with
  | .dict data =>
    let api_key := c.setting data "GEMINI_API_KEY" "gemini_api_key" ""
    let settings ← read_settings py c data api_key
    match settings_error c api_key settings with
    | some e => .error e
    | none => pure settings
  | data => .error (attributeError data "get")

section Settings

variable {py : Python} {c : Configuration} {settings : LocalSettings}

theorem load_settings_checked (h : load_settings py c = .ok settings) :
    ∃ api_key, settings_error c api_key settings = none := by
  obtain ⟨data, -, h⟩ := Traverse.bind_ok.mp h
  cases data with
  | dict data =>
    obtain ⟨read, -, h⟩ := Traverse.bind_ok.mp h
    refine ⟨c.setting data "GEMINI_API_KEY" "gemini_api_key" "", ?_⟩
    cases herror : settings_error c (c.setting data "GEMINI_API_KEY" "gemini_api_key" "") read with
    | some e =>
      simp only [herror] at h
      cases h
    | none =>
      simp only [herror] at h
      cases h
      exact herror
  | _ => cases h

/-- Settings that review with Gemini name a model. -/
theorem load_settings_model (h : load_settings py c = .ok settings)
    (hgemini : settings.provider = "gemini") (hskip : settings.skip = false) :
    settings.gemini_model ≠ "" := by
  obtain ⟨api_key, h⟩ := load_settings_checked h
  intro hempty
  unfold settings_error at h
  split at h
  · cases h
  split at h
  · cases h
  rw [if_pos ⟨hgemini, hskip, .inl hempty⟩] at h
  cases h

theorem model_candidates_ne_nil {settings : MiniReviewerSettings}
    (h : settings.gemini_model ≠ "") : model_candidates settings ≠ [] := by
  simp [model_candidates, h]

theorem model_candidates_nodup (settings : MiniReviewerSettings) :
    (model_candidates settings).Nodup := by
  unfold model_candidates
  refine List.nodup_append.mpr ⟨(List.nodup_singleton _).filter _,
    (List.nodup_singleton _).filter _, ?_⟩
  rintro a ha b hb rfl
  simp only [List.mem_filter, List.mem_singleton, decide_eq_true_eq] at hb
  exact hb.2.2 (by simpa using ha)

end Settings

/-- One turn of the loop over the models. -/
def ask_model (contents model : String) : MiniReview GeminiResponse := do
  let system_instruction ← Proc.invoke .get_system_prompt id
  Proc.invoke (.generate_content model contents system_instruction) id

theorem try_models_cons (candidates models : List String) (contents model : String) :
    try_models candidates contents (model :: models) = Proc.attempt
      (ask_model contents model >>= fun response => pure (response, model))
      fun e =>
        if is_missing_model_error e.message && !models.isEmpty then
          try_models candidates contents models
        else Proc.raise (gemini_error candidates e) := by
  rw [ask_model, Proc.bind_assoc]
  rfl

/-- The trace holds these attempts and nothing else. -/
inductive Attempted {S : Type} (contents : String) :
    List (String × Except PyExc GeminiResponse) → MiniTrace S → Prop where
  | nil : Attempted contents [] []
  | cons {model : String} {outcome : Except PyExc GeminiResponse}
      {attempts : List (String × Except PyExc GeminiResponse)} {t t' : MiniTrace S} :
      Path (ask_model contents model ()) t (.ret (outcome, ())) → Attempted contents attempts t' →
      Attempted contents ((model, outcome) :: attempts) (t ++ t')

theorem Attempted.one {S : Type} {contents model : String}
    {outcome : Except PyExc GeminiResponse} {t : MiniTrace S}
    (h : Path (ask_model contents model ()) t (.ret (outcome, ()))) :
    Attempted contents [(model, outcome)] t := by
  have hcons := Attempted.cons h .nil
  rwa [List.append_nil] at hcons

/-- An error after which the next model is tried. -/
def Missing (e : PyExc) : Prop := is_missing_model_error e.message = true

/-- What the loop over the models makes of its last attempt. -/
def response_of (candidates : List String) (last : String × Except PyExc GeminiResponse) :
    Except PyExc (GeminiResponse × String) :=
  match last.2 with
  | .ok response => .ok (response, last.1)
  | .error e => .error (gemini_error candidates e)

/-- The payload of a response of a model. -/
def gemini_payload (py : Python) (path : String) (last : GeminiResponse × String) :
    Except PyExc PyDict := do
  let payload ← normalize_response_payload py last.1
  label_payload path ("Gemini/" ++ last.2) payload

section Runs

variable {S : Type} {py : Python} {has_genai staged : Bool} {path contents : String}
  {candidates models : List String} {t : MiniTrace S}

theorem try_models_attempted {r : Except PyExc (GeminiResponse × String)} (hne : models ≠ [])
    (hp : Path (try_models candidates contents models ()) t (.ret (r, ()))) :
    ∃ attempts last, Attempted contents attempts t ∧ Fallback.Sound Missing models attempts ∧
      attempts.getLast? = some last ∧ r = response_of candidates last := by
  induction models generalizing t with
  | nil => exact absurd rfl hne
  | cons model models ih =>
    rw [try_models_cons] at hp
    rcases Proc.attempt_inv hp with ⟨a, rfl, hask⟩ | ⟨e, l, t₁, t₂, rfl, hraised, hrest⟩
    · obtain ⟨response, l, t₁, t₂, rfl, hask, hpure⟩ := Proc.bind_inv hask
      obtain ⟨rfl, heq⟩ := Path.ret_inv hpure
      cases heq
      rw [List.append_nil]
      exact ⟨[(model, .ok response)], (model, .ok response), .one hask, .ok, rfl, rfl⟩
    · have hask : Path (ask_model contents model ()) t₁ (.ret (.error e, ())) := by
        rcases Proc.bind_cases hraised with ⟨e', heq, hask⟩ | ⟨response, l', _, _, rfl, -, hpure⟩
        · cases heq
          exact hask
        · obtain ⟨-, heq⟩ := Path.ret_inv hpure
          cases heq
      by_cases hnext : (is_missing_model_error e.message && !models.isEmpty) = true
      · rw [if_pos hnext] at hrest
        simp only [Bool.and_eq_true, Bool.not_eq_true', List.isEmpty_eq_false_iff] at hnext
        obtain ⟨attempts, last, hattempted, hsound, hlast, hr⟩ := ih hnext.2 hrest
        refine ⟨_, last, .cons hask hattempted, hsound.cons hnext.1, ?_, hr⟩
        rwa [List.getLast?_cons_of_ne_nil hsound.tried]
      · rw [if_neg hnext] at hrest
        obtain ⟨rfl, heq⟩ := Path.ret_inv hrest
        cases heq
        rw [List.append_nil]
        refine ⟨[(model, .error e)], (model, .error e), .one hask, .error fun hmissing => ?_, rfl, rfl⟩
        simpa [show is_missing_model_error e.message = true from hmissing] using hnext

theorem ofExcept_bind {α β : Type} (x : Except PyExc α) (f : α → Except PyExc β) :
    (Proc.ofExcept x >>= fun a => Proc.ofExcept (f a) : MiniReview β) = Proc.ofExcept (x >>= f) := by
  cases x <;> rfl

/-- `payload` is `object` with its target and the model that answered. -/
structure Labelled (path model : String) (object payload : PyDict) : Prop where
  reviewer : PyDict.get payload "reviewer" = .str ("Gemini/" ++ model)
  target_file : PyDict.get payload "target_file" = .str path
  others : ∀ key, key ≠ "reviewer" → key ≠ "target_file" →
    PyDict.get payload key = PyDict.get object key

theorem label_payload_ok {model : String} {value : PyVal} {payload : PyDict}
    (h : label_payload path ("Gemini/" ++ model) value = .ok payload) :
    ∃ object, value = .dict object ∧ Labelled path model object payload := by
  cases value with
  | dict object =>
    cases h
    refine ⟨object, rfl, PyDict.get_set_self _ _ _, ?_, fun key hreviewer htarget => ?_⟩
    · rw [PyDict.get_set_ne _ _ (by decide), PyDict.get_set_self]
    · rw [PyDict.get_set_ne _ _ hreviewer, PyDict.get_set_ne _ _ htarget]
  | _ => cases h

/-- A review returns only a payload of the model that answered, under its name. -/
theorem gemini_payload_ok {last : String × Except PyExc GeminiResponse} {payload : PyDict}
    (h : response_of candidates last >>= gemini_payload py path = .ok payload) :
    ∃ response object, last.2 = .ok response ∧
      normalize_response_payload py response = .ok (.dict object) ∧
      Labelled path last.1 object payload := by
  obtain ⟨model, e | response⟩ := last
  · cases h
  · have hpayload : gemini_payload py path (response, model) = .ok payload := h
    obtain ⟨value, hvalue, hlabel⟩ := Traverse.bind_ok.mp hpayload
    obtain ⟨object, rfl, hlabelled⟩ := label_payload_ok hlabel
    exact ⟨response, object, rfl, hvalue, hlabelled⟩

theorem generate_review_gemini_cases {settings : MiniReviewerSettings} {diff_text : String}
    {r : Except PyExc PyDict} (hne : model_candidates settings ≠ [])
    (hp : Path (generate_review_gemini py has_genai path diff_text settings ()) t (.ret (r, ()))) :
    (has_genai = false ∧ t = [] ∧ ∃ e, r = .error e) ∨
    (∃ s e s', t = [⟨s, .build_client settings.gemini_api_key, .error e, s'⟩] ∧ r = .error e) ∨
    ∃ s s' t' attempts last, t = ⟨s, .build_client settings.gemini_api_key, .ok (), s'⟩ :: t' ∧
      Attempted (build_user_prompt path diff_text) attempts t' ∧
      Fallback.Sound Missing (model_candidates settings) attempts ∧
      attempts.getLast? = some last ∧
      r = response_of (model_candidates settings) last >>= gemini_payload py path := by
  unfold generate_review_gemini at hp
  cases has_genai with
  | false =>
    obtain ⟨rfl, heq⟩ := Path.ret_inv hp
    cases heq
    exact .inl ⟨rfl, rfl, _, rfl⟩
  | true =>
    rw [if_pos rfl] at hp
    rcases Proc.bind_cases hp with ⟨e, rfl, hclient⟩ | ⟨_, l, t₁, t₂, rfl, hclient, hrest⟩
    · obtain ⟨s, a, s', rfl, heq, -⟩ := Proc.invoke_inv hclient
      cases heq
      exact .inr (.inl ⟨s, e, s', rfl, rfl⟩)
    obtain ⟨s, a, s', rfl, heq, -⟩ := Proc.invoke_inv hclient
    cases heq
    refine .inr (.inr ⟨s, s', t₂, ?_⟩)
    rcases Proc.bind_cases hrest with ⟨e, rfl, hloop⟩ | ⟨b, l', t₃, t₄, rfl, hloop, hend⟩
    · obtain ⟨attempts, last, hattempted, hsound, hlast, hr⟩ := try_models_attempted hne hloop
      refine ⟨attempts, last, rfl, hattempted, hsound, hlast, ?_⟩
      rw [← hr]
      rfl
    · obtain ⟨attempts, last, hattempted, hsound, hlast, hr⟩ := try_models_attempted hne hloop
      have hpayload : Path (Proc.ofExcept (gemini_payload py path b) ()) t₄ (.ret (r, ())) := by
        rw [gemini_payload, ← ofExcept_bind]
        exact hend
      obtain ⟨rfl, heq⟩ := Path.ret_inv hpayload
      cases heq
      rw [List.append_nil]
      refine ⟨attempts, last, rfl, hattempted, hsound, hlast, ?_⟩
      rw [← hr]
      rfl

/-- What a review by Gemini of a diff that is not empty came to: no model was asked, or the
candidates were tried in order and the last one tried decided. -/
def Decided (py : Python) (has_genai : Bool) (path diff_text : String)
    (settings : MiniReviewerSettings) (t : MiniTrace S) (r : Except PyExc (Option PyDict)) : Prop :=
  (has_genai = false ∧ t = [] ∧ ∃ e, r = .error e) ∨
  (∃ s e s', t = [⟨s, .build_client settings.gemini_api_key, .error e, s'⟩] ∧ r = .error e) ∨
  ∃ s s' t' attempts last, t = ⟨s, .build_client settings.gemini_api_key, .ok (), s'⟩ :: t' ∧
    Attempted (build_user_prompt path diff_text) attempts t' ∧
    Fallback.Sound Missing (model_candidates settings) attempts ∧
    attempts.getLast? = some last ∧
    r = some <$> (response_of (model_candidates settings) last >>= gemini_payload py path) ∧
    ∀ verdict, r = .ok verdict → ∃ response object payload, last.2 = .ok response ∧
      normalize_response_payload py response = .ok (.dict object) ∧ verdict = some payload ∧
      Labelled path last.1 object payload

theorem map_path {α β : Type} {m : MiniReview α} {f : α → β} {r : Except PyExc β}
    (hp : Path ((f <$> m) ()) t (.ret (r, ()))) :
    ∃ r', Path (m ()) t (.ret (r', ())) ∧ r = f <$> r' := by
  have heq : f <$> m = m >>= fun a => Pure.pure (f a) := rfl
  rw [heq] at hp
  rcases Proc.bind_cases hp with ⟨e, rfl, hm⟩ | ⟨a, l, t₁, t₂, rfl, hm, hpure⟩
  · exact ⟨.error e, hm, rfl⟩
  · obtain ⟨rfl, heq⟩ := Path.ret_inv hpure
    cases heq
    rw [List.append_nil]
    exact ⟨.ok a, hm, rfl⟩

/-- With settings of `load_settings` a review by Gemini has distinct candidates, at least one, and
ends with what the last candidate it tried answered. -/
theorem model_fallback_sound {c : Configuration} {settings : LocalSettings} {s s' : S}
    {out : String} {r : Except PyExc (Option PyDict)} (hload : load_settings py c = .ok settings)
    (hgemini : settings.provider = "gemini") (hskip : settings.skip = false)
    (hp : Path (generate_review py has_genai path staged settings.toMiniReviewerSettings ())
      (⟨s, .git (diff_args path staged), .ok out, s'⟩ :: t) (.ret (r, ())))
    (hdiff : strip out ≠ "") :
    model_candidates settings.toMiniReviewerSettings ≠ [] ∧
      (model_candidates settings.toMiniReviewerSettings).Nodup ∧
      Decided py has_genai path (strip out) settings.toMiniReviewerSettings t r := by
  have hne := model_candidates_ne_nil (load_settings_model hload hgemini hskip)
  refine ⟨hne, model_candidates_nodup _, ?_⟩
  have hrest := generate_review_diffed hp hdiff
  have hprovider : ¬settings.provider = "ollama" := by
    rw [hgemini]
    decide
  rw [if_neg hprovider] at hrest
  obtain ⟨r', hrun, rfl⟩ := map_path hrest
  rcases generate_review_gemini_cases hne hrun with
    ⟨hgenai, rfl, e, rfl⟩ | ⟨s₁, e, s₂, rfl, rfl⟩ |
    ⟨s₁, s₂, t', attempts, last, rfl, hattempted, hsound, hlast, hr⟩
  · exact .inl ⟨hgenai, rfl, e, rfl⟩
  · exact .inr (.inl ⟨s₁, e, s₂, rfl, rfl⟩)
  · refine .inr (.inr ⟨s₁, s₂, t', attempts, last, rfl, hattempted, hsound, hlast,
      congrArg (some <$> ·) hr, fun verdict hverdict => ?_⟩)
    cases r' with
    | error e => cases hverdict
    | ok payload =>
      cases hverdict
      obtain ⟨response, object, hresponse, hobject, hlabelled⟩ := gemini_payload_ok hr.symm
      exact ⟨response, object, payload, hresponse, hobject, rfl, hlabelled⟩

end Runs

/-- Gemini, with its key in the environment and no configuration file. -/
def gemini_configuration : Configuration where
  root := "/repo"
  environ := fun name => [("NITPICKER_PROVIDER", "gemini"), ("GEMINI_API_KEY", "key")].lookup name
  config := none

/-- Gemini does not know its default model; the fallback model passes the diff. -/
def gemini_answers : (o : MiniOp) → MiniAns o
  | .generate_content model _ _ =>
    if model = DEFAULT_GEMINI_MODEL then .error ⟨"ClientError", [], "404 NOT_FOUND"⟩
    else .ok ⟨.dict [("result_code", .str "REVIEW_PASSED")], .none⟩
  | o => sample_answers o

/-- The loop ends with the response of the fallback model. -/
theorem gemini_retries : ∃ t : MiniTrace Unit, Path (try_models
    [DEFAULT_GEMINI_MODEL, DEFAULT_GEMINI_FALLBACK_MODEL] (build_user_prompt "a.py" "+x")
    [DEFAULT_GEMINI_MODEL, DEFAULT_GEMINI_FALLBACK_MODEL] ()) t
    (.ret (.ok (⟨.dict [("result_code", .str "REVIEW_PASSED")], .none⟩,
      DEFAULT_GEMINI_FALLBACK_MODEL), ())) := by
  have hmissing : is_missing_model_error "404 NOT_FOUND" = true := by decide +kernel
  have hnext : ∃ t : MiniTrace Unit, Path ((if (is_missing_model_error "404 NOT_FOUND" &&
      !List.isEmpty [DEFAULT_GEMINI_FALLBACK_MODEL]) = true then
        try_models [DEFAULT_GEMINI_MODEL, DEFAULT_GEMINI_FALLBACK_MODEL]
          (build_user_prompt "a.py" "+x") [DEFAULT_GEMINI_FALLBACK_MODEL]
      else Proc.raise (gemini_error [DEFAULT_GEMINI_MODEL, DEFAULT_GEMINI_FALLBACK_MODEL]
        ⟨"ClientError", [], "404 NOT_FOUND"⟩)) ()) t
      (.ret (.ok (⟨.dict [("result_code", .str "REVIEW_PASSED")], .none⟩,
        DEFAULT_GEMINI_FALLBACK_MODEL), ())) := by
    rw [hmissing]
    exact ⟨_, (mini_play_steps (try_models [DEFAULT_GEMINI_MODEL, DEFAULT_GEMINI_FALLBACK_MODEL]
      (build_user_prompt "a.py" "+x") [DEFAULT_GEMINI_FALLBACK_MODEL]) gemini_answers 2).path⟩
  obtain ⟨t, hnext⟩ := hnext
  refine ⟨⟨(), .get_system_prompt, .ok "review", ()⟩ ::
    ⟨(), .generate_content DEFAULT_GEMINI_MODEL (build_user_prompt "a.py" "+x") "review",
      .error ⟨"ClientError", [], "404 NOT_FOUND"⟩, ()⟩ :: t, ?_⟩
  rw [try_models_cons]
  exact .call (.call hnext)

theorem model_fallback_sample : ∃ (settings : LocalSettings) (t : MiniTrace Unit)
    (payload : PyDict), load_settings sample_python gemini_configuration = .ok settings ∧
    PyDict.get payload "reviewer" = .str "Gemini/gemini-2.0-flash" ∧
    Decided sample_python true "a.py" "+x" settings.toMiniReviewerSettings t
      (.ok (some payload)) := by
  have hsettings : (load_settings sample_python gemini_configuration).toOption.map
      (fun settings => (settings.provider, settings.skip, settings.gemini_model,
        settings.gemini_fallback_model)) =
      some ("gemini", false, DEFAULT_GEMINI_MODEL, DEFAULT_GEMINI_FALLBACK_MODEL) := by
    decide +kernel
  cases hload : load_settings sample_python gemini_configuration with
  | error e =>
    rw [hload] at hsettings
    cases hsettings
  | ok settings =>
    rw [hload] at hsettings
    obtain ⟨⟨key, model, skip, auto, fallback, provider, ollama, url⟩, watch, seconds, extensions⟩ :=
      settings
    cases hsettings
    obtain ⟨t, hretries⟩ := gemini_retries
    have hp : ∃ t payload, PyDict.get payload "reviewer" = .str "Gemini/gemini-2.0-flash" ∧
        Path (generate_review sample_python true "a.py" false ⟨key, DEFAULT_GEMINI_MODEL, false, auto,
          DEFAULT_GEMINI_FALLBACK_MODEL, "gemini", ollama, url⟩ ())
          (⟨(), .git (diff_args "a.py" false), .ok "+x", ()⟩ ::
            ⟨(), .build_client key, .ok (), ()⟩ :: t) (.ret (.ok (some payload), ())) :=
      ⟨t, ((PyDict.set [("result_code", .str "REVIEW_PASSED")] "target_file" (.str "a.py")).set
        "reviewer" (.str "Gemini/gemini-2.0-flash")), rfl,
        .call (.call ((hretries.bind _).bind _))⟩
    obtain ⟨t, payload, hreviewer, hp⟩ := hp
    exact ⟨_, _, payload, rfl, hreviewer,
      (model_fallback_sound hload rfl rfl hp (by decide)).2.2⟩

end MiniReviewer

end Nitpicker
