import NitpickerDaemon.Evidence

/-!
The replies the L3 gate can take: for which of them its review returns a verdict, and for which
of those the verdict is the fallback pass.
-/

set_option autoImplicit false

namespace Nitpicker

namespace LlmReviewGate

section Replies

variable {py : Python} {object raw : PyDict}

/-- The objects the normaliser returns a verdict for. -/
structure Normalizable (py : Python) (object : PyDict) : Prop where
  hashable : (PyDict.get object "result_code").unhashable = none
  confidence : Blocks object → has_evidence object = false → Readable py object

theorem blocks_iff : ((PyDict.get object "result_code").isStr "REVIEW_REJECTED" ||
    (PyDict.get object "result_code").isStr "PATCH_PROPOSED") = true ↔ Blocks object := by
  rw [Bool.or_eq_true, PyVal.isStr_iff, PyVal.isStr_iff]
  rfl

theorem normalize_ok_iff :
    (∃ d, normalize_response py object = .ok d) ↔ Normalizable py object := by
  cases hu : (PyDict.get object "result_code").unhashable with
  | some e =>
    have heq : normalize_response py object = .error e := by simp [normalize_response, hu]
    rw [heq]
    constructor
    · intro h
      obtain ⟨d, hd⟩ := h
      cases hd
    · intro h
      rw [h.hashable] at hu
      cases hu
  | none =>
    by_cases hb : Blocks object ∧ has_evidence object = false
    · have heq : normalize_response py object = advisory py object := by
        simp only [normalize_response, hu, blocks_iff.mpr hb.1, hb.2, Bool.not_true,
          Bool.false_eq_true, if_false]
      rw [heq, advisory_ok_iff]
      exact ⟨fun h => ⟨hu, fun _ _ => h⟩, fun h => h.confidence hb.1 hb.2⟩
    · have heq : normalize_response py object = .ok object := by
        simp only [normalize_response, hu]
        by_cases hblocks : Blocks object
        · have he : has_evidence object = true := by
            simpa using fun h => hb ⟨hblocks, h⟩
          simp [he]
        · have hcode := Bool.eq_false_iff.mpr fun h => hblocks (blocks_iff.mp h)
          simp [hcode]
      rw [heq]
      exact ⟨fun _ => ⟨hu, fun h he => absurd ⟨h, he⟩ hb⟩, fun _ => ⟨object, rfl⟩⟩

/-- The fallback pass, with some reason. -/
def FallsBack (r : Except PyExc PyDict) : Prop := ∃ reason, r = .ok (fallback_pass reason)

theorem falls_back_code {d : PyDict} (h : FallsBack (.ok d)) :
    PyDict.has d "result_code" = true := by
  obtain ⟨reason, heq⟩ := h
  cases heq
  rfl

/-- The reply can be interpreted as a JSON object with a result code. -/
def HasObject (py : Python) (reply : Except PyExc PyVal) : Prop :=
  ∃ raw object, reply = .ok raw ∧ reply_object py raw = some object ∧
    PyDict.has object "result_code" = true

/-- The texts that are read as a verdict or not read at all. -/
def TextHandled (py : Python) (text : String) : Prop :=
  (strip text).startsWith "\x7b" → match py.loads (strip text) with
    | .ok (.dict object) => PyDict.has object "result_code" = true ∧ Normalizable py object
    | .ok _ => False
    | .error e => e.is_json_decode_error = true

/-- The replies the gate handles: dicts that are a verdict it can normalise, that hold the text
of one, or that hold no text of an object. -/
def Handled (py : Python) : PyVal → Prop
  | .dict raw =>
    if PyDict.has raw "result_code" then Normalizable py raw else
      match reply_text raw with
      | .str text => TextHandled py text
      | _ => True
  | _ => False

/-- An object without a code is taken for a verdict as it is. -/
theorem normalize_codeless (h : PyDict.has object "result_code" = false) :
    normalize_response py object = .ok object := by
  have hget : PyDict.get object "result_code" = .none := by
    simp only [PyDict.has, Option.isSome_eq_false_iff, Option.isNone_iff_eq_none] at h
    simp [PyDict.get, PyDict.getD, h]
  simp [normalize_response, hget, PyVal.unhashable, PyVal.isStr]

/-- A verdict on `object` that is in order, or the fallback pass where there is no code. -/
theorem normalized_iff : ((∃ d, normalize_response py object = .ok d) ∧
    (PyDict.has object "result_code" = false → FallsBack (normalize_response py object))) ↔
      PyDict.has object "result_code" = true ∧ Normalizable py object := by
  rw [normalize_ok_iff]
  cases hhas : PyDict.has object "result_code" with
  | true => simp
  | false =>
    have hkept := @normalize_codeless py object hhas
    rw [hkept]
    constructor
    · intro h
      have hcode := falls_back_code (h.2 rfl)
      rw [hhas] at hcode
      cases hcode
    · intro h
      cases h.1

theorem has_object_iff {raw : PyDict} : HasObject py (.ok (.dict raw)) ↔
    ∃ object, dict_object py raw = some object ∧ PyDict.has object "result_code" = true := by
  constructor
  · rintro ⟨_, object, heq, hobject, hcode⟩
    cases heq
    exact ⟨object, hobject, hcode⟩
  · rintro ⟨object, hobject, hcode⟩
    exact ⟨_, object, rfl, hobject, hcode⟩

theorem falls_back_ok {r : Except PyExc PyDict} {P : Prop} (h : FallsBack r) :
    (∃ d, r = .ok d) ∧ (P → FallsBack r) := by
  obtain ⟨reason, heq⟩ := h
  exact ⟨⟨_, heq⟩, fun _ => ⟨reason, heq⟩⟩

/-- What holds of the verdict on a dict. -/
theorem parse_dict_iff {raw : PyDict} : ((∃ d, parse_dict py raw = .ok d) ∧
    (¬HasObject py (.ok (.dict raw)) → FallsBack (parse_dict py raw))) ↔
      Handled py (.dict raw) := by
  rw [has_object_iff]
  cases hhas : PyDict.has raw "result_code" with
  | true =>
    have hparse : parse_dict py raw = normalize_response py raw := by simp [parse_dict, hhas]
    have hobject : dict_object py raw = some raw := by simp [dict_object, hhas]
    rw [hparse, hobject, normalize_ok_iff]
    simp [Handled, hhas]
  | false =>
    cases ht : reply_text raw with
    | str text =>
      by_cases hbrace : (strip text).startsWith "\x7b" = true
      · have hparse : parse_dict py raw = parse_text py (strip text) := by
          simp [parse_dict, hhas, ht, hbrace]
        have hhandled : Handled py (.dict raw) ↔ TextHandled py text := by
          simp [Handled, hhas, ht]
        rw [hparse, hhandled]
        unfold TextHandled parse_text
        cases hl : py.loads (strip text) with
        | ok value =>
          cases value with
          | dict object =>
            have hobject : dict_object py raw = some object := by
              simp [dict_object, hhas, ht, hbrace, hl]
            rw [hobject]
            simpa [hbrace] using @normalized_iff py object
          | _ => simp [hbrace]
        | error e =>
          cases he : e.is_json_decode_error with
          | true =>
            simp only [hbrace, he, if_true, iff_true, forall_true_left]
            exact falls_back_ok ⟨_, rfl⟩
          | false => simp [hbrace, he]
      · have hparse : FallsBack (parse_dict py raw) := by
          simp only [parse_dict, hhas, ht, hbrace, Bool.false_eq_true, if_false]
          exact ⟨_, rfl⟩
        have hhandled : Handled py (.dict raw) := by
          simp [Handled, hhas, ht, TextHandled, hbrace]
        exact iff_of_true (falls_back_ok hparse) hhandled
    | _ =>
      have hparse : FallsBack (parse_dict py raw) := by
        simp only [parse_dict, hhas, ht, Bool.false_eq_true, if_false]
        exact ⟨_, rfl⟩
      have hhandled : Handled py (.dict raw) := by simp [Handled, hhas, ht]
      exact iff_of_true (falls_back_ok hparse) hhandled

/-- The classes of exceptions that the gate catches around its provider. -/
def Caught (e : PyExc) : Prop := e.isInstance .timeoutError = true ∨
  e.isInstance .connectionError = true ∨ e.isInstance .osError = true ∨
  e.isInstance .valueError = true ∨ e.isInstance .keyError = true ∨
  e.isInstance .runtimeError = true

theorem provider_failed_falls_back {e : PyExc} (h : Caught e) : FallsBack (provider_failed e) := by
  unfold provider_failed
  split
  · exact ⟨_, rfl⟩
  · split
    · exact ⟨_, rfl⟩
    · unfold Caught at h
      simp_all

end Replies

end LlmReviewGate

open LlmReviewGate in
/-- A review of the L3 gate returns, with the fallback pass for whatever is no verdict, exactly
when the reply of its provider is one that the gate handles. -/
theorem gate_total_iff {py : Python} {gate : LlmReviewGate} {request : ReviewRequest}
    {context : ContextBundle} {agent_findings : List PyDict}
    (hcaught : ∀ pr e, gate.generate pr = .error e → Caught e) :
    ((∃ d, gate.review py request context agent_findings = .ok d) ∧
      (¬HasObject py (gate.generate (gate.provider_request py request context agent_findings)) →
        FallsBack (gate.review py request context agent_findings))) ↔
      ∀ raw, gate.generate (gate.provider_request py request context agent_findings) = .ok raw →
        Handled py raw := by
  unfold review
  cases hreply : gate.generate (gate.provider_request py request context agent_findings) with
  | error e =>
    have hfalls := provider_failed_falls_back (hcaught _ _ hreply)
    constructor
    · intro _ raw h
      cases h
    · intro _
      obtain ⟨reason, heq⟩ := hfalls
      exact ⟨⟨_, heq⟩, fun _ => ⟨reason, heq⟩⟩
  | ok raw =>
    have hraw : (∀ raw', (.ok raw : Except PyExc PyVal) = .ok raw' → Handled py raw') ↔
        Handled py raw := by simp
    rw [hraw]
    cases raw with
    | dict raw => exact parse_dict_iff
    | _ => simp [parse_response, Handled]

theorem gate_total_sample : ∃ d, (replying detailed_rejection).review plain_python
    (sampleRequest "req_1" "key") sampleContext [] = .ok d := by
  have htotal := @gate_total_iff plain_python (replying detailed_rejection)
    (sampleRequest "req_1" "key") sampleContext [] (fun _ _ h => by cases h)
  have hhandled : LlmReviewGate.Handled plain_python (.dict detailed_rejection) :=
    ⟨rfl, fun _ h => by cases h⟩
  exact (htotal.mpr fun raw h => by
    cases h
    exact hhandled).1

/-- A gate whose provider returns the JSON value `value`. -/
def answering (value : PyVal) : LlmReviewGate where
  system_prompt := ""
  generate := fun _ => .ok value

def listed_code : PyDict := [("result_code", .list [])]

def worded_confidence : PyDict :=
  [("result_code", .str "REVIEW_REJECTED"), ("confidence_score", .str "high")]

/-- Python for which every text is the JSON object `object`. -/
def reading (object : PyDict) : Python where
  format := fun _ => ""
  repr := fun _ => ""
  float_of_text := fun s => .error (valueError ("could not convert string to float: " ++ s))
  loads := fun _ => .ok (.dict object)

/-- A list, a list for a code and a word for a confidence raise; an object without a code that
is the text of a reply is returned for a verdict. -/
theorem gate_raises :
    ((answering (.list [])).review plain_python (sampleRequest "req_1" "key") sampleContext [] =
      .error (attributeError (.list []) "get")) ∧
    ((replying listed_code).review plain_python (sampleRequest "req_1" "key") sampleContext [] =
      .error (typeError "unhashable type: 'list'")) ∧
    ((replying worded_confidence).review plain_python (sampleRequest "req_1" "key")
      sampleContext [] = .error (valueError "could not convert string to float: high")) ∧
    ((replying [("text", .str "\x7b\x7d")]).review (reading []) (sampleRequest "req_1" "key")
      sampleContext [] = .ok []) := by
  refine ⟨rfl, rfl, rfl, ?_⟩
  have hbrace : (strip "\x7b\x7d").startsWith "\x7b" = true := by decide +kernel
  have htext : LlmReviewGate.reply_text [("text", .str "\x7b\x7d")] = .str "\x7b\x7d" := rfl
  have hcode : PyDict.has [("text", .str "\x7b\x7d")] "result_code" = false := rfl
  have hparse : LlmReviewGate.parse_dict (reading []) [("text", .str "\x7b\x7d")] =
      LlmReviewGate.parse_text (reading []) (strip "\x7b\x7d") := by
    simp only [LlmReviewGate.parse_dict, hcode, htext, hbrace, Bool.false_eq_true, if_false,
      if_true]
  exact hparse

end Nitpicker
