import NitpickerDaemon.LlmReviewGate
import NitpickerDaemon.MiniReviewer
import NitpickerDaemon.GreenLight

/-!
What a blocking verdict of a language model must carry: the L3 gate and the mini reviewer
normalise the object of the model, each in its own way.
-/

set_option autoImplicit false

namespace Nitpicker

open Effect

/-- The code the controller reads from an L3 dict. -/
def verdict_code (d : PyDict) : PyVal := PyDict.getD d "result_code" (.str "REVIEW_PASSED")

/-- The dict is an objection: its code is any other than `REVIEW_PASSED`. -/
def Objects (d : PyDict) : Prop := verdict_code d ≠ .str "REVIEW_PASSED"

/-- The dict has a list of details that is not empty, or a patch. -/
def Evident (d : PyDict) : Prop :=
  (∃ detail details, PyDict.get d "details" = .list (detail :: details)) ∨
    (PyDict.get d "suggested_patch").truthy = true

def SummaryOnly (d : PyDict) : Prop := Objects d ∧ ¬Evident d

/-- The answers of the L3 gate in a run. -/
def l3_answer : Event Db Op Ans → Option (Except PyExc PyDict)
  | ⟨_, .llm_review _ _ _, a, _⟩ => some a
  | _ => none

def l3_answers (t : Trace) : List (Except PyExc PyDict) := t.filterMap l3_answer

theorem l3_answers_append (t t' : Trace) :
    l3_answers (t ++ t') = l3_answers t ++ l3_answers t' := by
  simp [l3_answers]

theorem Answered.l3_answers {t : Trace} {request : ReviewRequest} {context : ContextBundle}
    {findings : List PyDict} {a : Except PyExc PyDict}
    (h : Answered t (.llm_review request context findings) a) : a ∈ l3_answers t := by
  obtain ⟨s, s', hev⟩ := h
  exact List.mem_filterMap.mpr ⟨_, hev, rfl⟩

/-- A question other than the L3 review. -/
def Op.unreviewed : Op → Prop
  | .llm_review _ _ _ => False
  | _ => True

theorem Op.idle_unreviewed {o : Op} (h : o.idle) : o.unreviewed := by
  cases o <;> trivial

theorem Op.channel_unreviewed {o : Op} (h : o.channel) : o.unreviewed := by
  cases o <;> trivial

theorem l3_answers_nil {t : Trace} (h : ∀ ev ∈ t, ev.op.unreviewed) : l3_answers t = [] := by
  refine List.filterMap_eq_nil_iff.mpr fun ev hev => ?_
  have ho := h ev hev
  obtain ⟨s, o, a, s'⟩ := ev
  cases o <;> first | rfl | exact ho.elim

/-- Whatever the L3 gate answered in `t`, a rejection comes from an objection. -/
def Founded (result : ReviewResult) (t : Trace) : Prop :=
  result.status = .rejected → ∀ a ∈ l3_answers t, ∃ d, a = .ok d ∧ Objects d

theorem Founded.prepend {result : ReviewResult} {t t' : Trace} (h : Founded result t')
    (ht : l3_answers t = []) : Founded result (t ++ t') := by
  intro hs a ha
  rw [l3_answers_append, ht, List.nil_append] at ha
  exact h hs a ha

theorem founded_of_status {result : ReviewResult} {t : Trace} (h : result.status ≠ .rejected) :
    Founded result t := fun hs => absurd hs h

theorem founded_of_nil {result : ReviewResult} {t : Trace} (h : l3_answers t = []) :
    Founded result t := by
  intro _ a ha
  rw [h] at ha
  cases ha

namespace Orchestrator

section Answers

variable {α : Type} {orc : Orchestrator} {request : ReviewRequest} {context : ContextBundle}

theorem unreviewed_returns {κ : Type} {f : Locals → κ} {R : PyExc → Prop} {m : Review α}
    (hm : Proc.Within (fun _ _ => True) Op.unreviewed f R m) :
    Proc.Returns m fun _ t => l3_answers t = [] :=
  hm.returns.mono fun _ _ ht => l3_answers_nil ht

theorem idle_unreviewed {m : Review α}
    (hm : Proc.Within (fun _ _ => True) Op.idle id (fun _ => True) m) :
    Proc.Returns m fun _ t => l3_answers t = [] :=
  unreviewed_returns (hm.mono (fun _ _ h => h) (fun _ => Op.idle_unreviewed) fun _ h => h)

theorem ask_unreviewed {o : Op} {g : Ans o → Except PyExc α} (ho : o.unreviewed) :
    Proc.Returns (Proc.invoke o g : Review α) fun _ t => l3_answers t = [] :=
  unreviewed_returns (f := id) (R := fun _ => True) (.invoke ho fun _ _ _ _ => trivial)

theorem mark_unreviewed {request_id : String} {state : ReviewState} {reason : String}
    {code : PyVal} : Proc.Returns (mark_terminal_safe request_id state reason code) fun _ t =>
      l3_answers t = [] :=
  unreviewed_returns (f := id) (R := fun _ => True)
    (best_effort_within (.invoke trivial fun _ _ _ _ => trivial))

theorem l3_stage_answers {decisions : List AgentDecision} {v : Verdict} :
    Proc.Returns (orc.l3_stage request context decisions v) fun v' t =>
      (l3_answers t = [] ∧ v' = v) ∨
        ∃ d, l3_answers t = [.ok d] ∧ v.consensus.status = .pass ∧ apply_l3 d v = .ok v' := by
  unfold l3_stage
  refine .ite (fun hc => ?_) fun _ => .pure (.inl ⟨rfl, rfl⟩)
  refine .bind (idle_unreviewed log_analytics_idle) fun _ t₁ h₁ =>
    .bind (idle_unreviewed monotonic_idle) fun _ t₂ h₂ =>
    .bind (idle_unreviewed record_stage_event_idle) fun _ t₃ h₃ =>
    .bind (P := fun d t => l3_answers t = [.ok d]) (.attempt (.invoke ?_) fun e t => ?_)
      fun d t₄ h₄ => .bind (idle_unreviewed monotonic_idle) fun _ t₅ h₅ =>
    .bind (idle_unreviewed record_stage_event_idle) fun _ t₆ h₆ =>
    .bind (idle_unreviewed log_analytics_idle) fun _ t₇ h₇ => .ofExcept fun v' hv => ?_
  · intro a d s s' ha
    obtain rfl : a = .ok d := ha
    rfl
  · exact .bind (idle_unreviewed monotonic_idle) fun _ _ _ =>
      .bind (idle_unreviewed record_stage_event_idle) fun _ _ _ => .raise e
  · refine .inr ⟨d, ?_, hc.1, hv⟩
    simp [l3_answers_append, h₁, h₂, h₃, h₄, h₅, h₆, h₇]

/-- An agreeing consensus asks for no patch. -/
theorem patch_stage_pass {v : Verdict} (h : v.consensus.status = .pass) :
    orc.patch_stage request v = pure v := by
  simp [patch_stage, h]

theorem patch_stage_answers {v : Verdict} :
    Proc.Returns (orc.patch_stage request v) fun _ t => l3_answers t = [] :=
  unreviewed_returns (f := id) (R := fun _ => True) (patch_stage_asks
    (fun _ => trivial) (fun _ => trivial) (fun _ => trivial) (fun _ _ _ => trivial)
    fun _ _ _ => trivial)

theorem autofix_stage_answers {v : Verdict} :
    Proc.Returns (orc.autofix_stage request v) fun v' t => l3_answers t = [] ∧
      (v'.status = .rejected → v.status = .rejected ∨ v.result_code = .str "PATCH_PROPOSED") := by
  have hnil : Proc.Returns (orc.autofix_stage request v) fun _ t => l3_answers t = [] :=
    unreviewed_returns (f := id) (R := fun _ => True) (autofix_stage_asks
      (fun _ => trivial) (fun _ => trivial) (fun _ _ _ => trivial) trivial)
  intro l l' v' t hp
  refine ⟨hnil l l' v' t hp, fun hs => ?_⟩
  rcases (autofix_stage_returns l l' v' t hp).2 with rfl | ⟨hcode, -⟩
  · exact .inl hs
  · exact .inr hcode

theorem deliver_answers {decisions : List AgentDecision} {v : Verdict} :
    Proc.Returns (orc.deliver request decisions v) fun result t => l3_answers t = [] ∧
      result.status = v.status := by
  refine .bind mark_unreviewed fun _ t₁ h₁ => .bind (idle_unreviewed log_analytics_idle)
    fun _ t₂ h₂ => .bind (idle_unreviewed publish_diagnostics_idle) fun _ t₃ h₃ =>
    .bind (unreviewed_returns ((publish_quick_fix_channel (f := id) (R := fun _ => True)
      fun _ _ _ => trivial).mono (fun _ _ h => h) (fun _ => Op.channel_unreviewed) fun _ h => h))
      fun _ t₄ h₄ => .bind (idle_unreviewed log_result_idle) fun _ t₅ h₅ => .pure ⟨?_, rfl⟩
  simp [l3_answers_append, h₁, h₂, h₃, h₄, h₅]

/-- An L3 dict that makes the verdict a rejection, or a proposed patch, is an objection. -/
theorem apply_l3_objects {d : PyDict} {v v' : Verdict} (h : apply_l3 d v = .ok v')
    (hs : v'.status = .rejected ∨ v'.result_code = .str "PATCH_PROPOSED") : Objects d := by
  obtain ⟨hcode, hiff⟩ := apply_l3_ok h
  intro hpass
  have hpassed : v'.result_code = .str "REVIEW_PASSED" := hcode.trans hpass
  rcases hs with hs | hs
  · have hstatus := hiff.mpr hpassed
    rw [hs] at hstatus
    cases hstatus
  · rw [hs] at hpassed
    simp at hpassed

theorem conclude_founded {decisions : List AgentDecision} :
    Proc.Returns (orc.conclude request context decisions) fun result t => Founded result t := by
  refine .bind (ask_unreviewed trivial) fun _ t₁ h₁ =>
    .bind (P := fun _ t => l3_answers t = []) (.assign rfl) fun _ t₂ h₂ =>
    .bind (ask_unreviewed trivial) fun consensus t₃ h₃ => .bind l3_stage_answers fun v t₄ h₄ => ?_
  have hprefix : ∀ {result : ReviewResult} {t : Trace}, Founded result t →
      Founded result (t₁ ++ (t₂ ++ (t₃ ++ t))) :=
    fun h => ((h.prepend h₃).prepend h₂).prepend h₁
  rcases h₄ with ⟨h₄, -⟩ | ⟨d, h₄, hpass, hd⟩
  · refine .bind patch_stage_answers fun v t₅ h₅ => .bind autofix_stage_answers fun v t₆ h₆ =>
      deliver_answers.mono fun result t₇ h₇ => hprefix (founded_of_nil ?_)
    simp [l3_answers_append, h₄, h₅, h₆.1, h₇.1]
  · have hpatch := (apply_l3_status hd).trans hpass
    rw [patch_stage_pass hpatch]
    refine .bind (P := fun v' t => v' = v ∧ l3_answers t = []) (.pure ⟨rfl, rfl⟩)
      fun v' t₅ h₅ => .bind autofix_stage_answers fun v'' t₆ h₆ =>
      deliver_answers.mono fun result t₇ h₇ => hprefix fun hs a ha => ?_
    obtain ⟨rfl, h₅⟩ := h₅
    have hobjects := apply_l3_objects hd (h₆.2 (h₇.2.symm.trans hs))
    simp only [l3_answers_append, h₄, h₅, h₆.1, h₇.1, List.append_nil, List.mem_singleton] at ha
    exact ⟨d, ha, hobjects⟩

theorem analyze_answers {decision : PolicyDecision} :
    Proc.Returns (orc.analyze request decision context) fun _ t => l3_answers t = [] := by
  refine .bind (ask_unreviewed trivial) fun _ t₁ h₁ =>
    .bind (P := fun _ t => l3_answers t = []) (.assign rfl) fun _ t₂ h₂ =>
    .bind (idle_unreviewed monotonic_idle) fun _ t₃ h₃ =>
    .bind (unreviewed_returns (f := id) (R := fun _ => True) (run_agents_asks
      trivial (fun _ => trivial) (fun _ => trivial) fun _ _ _ _ => trivial)) fun _ t₄ h₄ =>
    .bind (idle_unreviewed monotonic_idle) fun _ t₅ h₅ =>
    .bind (idle_unreviewed log_analytics_idle) fun _ t₆ h₆ => .pure ?_
  simp [l3_answers_append, h₁, h₂, h₃, h₄, h₅, h₆]

theorem review_founded {decision : PolicyDecision} :
    Proc.Returns (orc.review request decision) fun result t => Founded result t := by
  refine .bind (ask_unreviewed trivial) fun _ t₁ h₁ =>
    .bind (P := fun _ t => l3_answers t = []) (.assign rfl) fun _ t₂ h₂ =>
    .bind (ask_unreviewed trivial) fun context t₃ h₃ =>
    .bind (unreviewed_returns (f := id) (R := fun _ => True) (offload_asks
      (fun _ => trivial) trivial (fun _ => trivial) fun _ _ => trivial)) fun _ t₄ h₄ =>
    .bind (idle_unreviewed (context_cache_idle fun _ _ _ _ _ => trivial)) fun _ t₅ h₅ =>
    .bind analyze_answers fun decisions t₆ h₆ => conclude_founded.mono fun result t₇ h₇ => ?_
  exact (((((h₇.prepend h₆).prepend h₅).prepend h₄).prepend h₃).prepend h₂).prepend h₁

theorem reject_policy_founded {decision : PolicyDecision} :
    Proc.Returns (orc.reject_policy request decision) fun result t => Founded result t := by
  refine .bind (ask_unreviewed trivial) fun _ t₁ h₁ =>
    .bind (P := fun _ t => l3_answers t = []) (.assign rfl) fun _ t₂ h₂ =>
    .bind mark_unreviewed fun _ t₃ h₃ => .bind (idle_unreviewed publish_diagnostics_idle)
      fun _ t₄ h₄ => .bind (idle_unreviewed log_result_idle) fun _ t₅ h₅ =>
        .pure (founded_of_nil ?_)
  simp [l3_answers_append, h₁, h₂, h₃, h₄, h₅]

theorem admission_founded :
    Proc.Returns (orc.admission request) fun result t => Founded result t := by
  refine .bind (ask_unreviewed trivial) fun allowed t₁ h₁ => .ite (fun _ => ?_) fun _ => ?_
  · refine .bind (ask_unreviewed trivial) fun decision t₂ h₂ =>
      .bind (idle_unreviewed log_analytics_idle) fun _ t₃ h₃ => .ite (fun _ => ?_) fun _ => ?_
    · exact review_founded.mono fun result t h => ((h.prepend h₃).prepend h₂).prepend h₁
    · exact reject_policy_founded.mono fun result t h => ((h.prepend h₃).prepend h₂).prepend h₁
  · exact .bind (.any _) fun _ _ _ => .bind (.any _) fun _ _ _ =>
      .pure (founded_of_status (by simp [build_result]))

theorem handle_failure_unrejected {error : PyExc} :
    Proc.Returns (orc.handle_failure request error) fun result (_ : Trace) =>
      result.status ≠ .rejected := by
  have hclass := classify_failure_mem error
  unfold handle_failure
  generalize classify_failure error = c at hclass ⊢
  obtain ⟨state, status, code⟩ := c
  refine .bind (.any _) fun _ _ _ => .bind (.any _) fun _ _ _ => .bind (.any _) fun _ _ _ =>
    .bind (.any _) fun _ _ _ => .pure ?_
  simp only [List.mem_cons, Prod.mk.injEq, List.not_mem_nil, or_false] at hclass
  rcases hclass with ⟨-, rfl, -⟩ | ⟨-, rfl, -⟩ | ⟨-, rfl, -⟩ | ⟨-, rfl, -⟩ <;> simp [build_result]

theorem run_once_founded :
    Proc.Returns (orc.run_once request) fun result t => Founded result t := by
  have hassign : ∀ g : Locals → Locals, Proc.Returns
      (Proc.assign g >>= fun _ => orc.admission request) fun result t => Founded result t :=
    fun g => .bind (P := fun _ t => l3_answers t = []) (.assign rfl) fun _ t ht =>
      admission_founded.mono fun result t' h => h.prepend ht
  refine .attempt (.bind (ask_unreviewed trivial) fun outcome t₁ h₁ => ?_) fun e t =>
    handle_failure_unrejected.mono fun result t' h => founded_of_status h
  cases outcome with
  | none => exact (hassign _).mono fun result t h => h.prepend h₁
  | some outcome =>
    refine .ite (fun _ => ?_) fun _ => (hassign _).mono fun result t h => h.prepend h₁
    exact handle_duplicate_request_returns.mono fun result t h =>
      founded_of_status (by simp [h.1])

end Answers

end Orchestrator

section Normalizers

variable {py : Python} {object payload d : PyDict}

theorem evident_iff : Evident d ↔ LlmReviewGate.has_evidence d = true :=
  LlmReviewGate.has_evidence_iff.symm

theorem verdict_code_of_get {code : String}
    (h : PyDict.get d "result_code" = .str code) : verdict_code d = .str code := by
  unfold PyDict.get PyDict.getD at h
  unfold verdict_code PyDict.getD
  cases hl : d.lookup "result_code" with
  | none => simp [hl] at h
  | some v => simpa [hl] using h

theorem Blocks.objects (h : LlmReviewGate.Blocks d) : Objects d := by
  unfold Objects
  rcases h with h | h <;> simp [verdict_code_of_get h]

/-- What the L3 normaliser answers on an object without evidence. -/
theorem normalized_passes_iff (hs : SummaryOnly object) :
    (∃ d, LlmReviewGate.normalize_response py object = .ok d ∧ ¬Objects d) ↔
      LlmReviewGate.Blocks object ∧ LlmReviewGate.Readable py object := by
  have hno : ¬LlmReviewGate.has_evidence object = true := fun h => hs.2 (evident_iff.mpr h)
  have hcases := LlmReviewGate.normalize_response_cases py object
  generalize LlmReviewGate.normalize_response py object = r at hcases
  constructor
  · intro h
    obtain ⟨d, rfl, hd⟩ := h
    cases hcases with
    | kept hk => exact absurd hs.1 hd
    | downgraded _ hb _ heq => exact ⟨hb, LlmReviewGate.advisory_ok_iff.mp ⟨d, heq⟩⟩
  · intro h
    obtain ⟨hb, hread⟩ := h
    cases hcases with
    | unhashable e hn => exact absurd hb hn
    | kept hk => exact absurd hk (by simp [hb, hno])
    | downgraded _ _ _ heq =>
      obtain ⟨d, hd⟩ := LlmReviewGate.advisory_ok_iff.mpr hread
      exact ⟨d, heq.symm.trans hd, fun hn => hn (LlmReviewGate.advisory_passes hd)⟩

/-- An objection that leaves the L3 normaliser is the object itself. -/
theorem normalized_objects (h : LlmReviewGate.normalize_response py object = .ok d)
    (hd : Objects d) : d = object := by
  have hcases := LlmReviewGate.normalize_response_cases py object
  rw [h] at hcases
  cases hcases with
  | kept _ => rfl
  | downgraded _ _ _ heq => exact absurd (LlmReviewGate.advisory_passes heq) hd

/-- A dict detail is all that the mini reviewer keeps of the details. -/
theorem normalized_details_nonempty_iff {details : List PyVal} :
    (∃ x xs, MiniReviewer.normalized_details py details = x :: xs) ↔
      ∃ detail, PyVal.dict detail ∈ details := by
  induction details with
  | nil => simp [MiniReviewer.normalized_details]
  | cons x details ih =>
    cases x with
    | dict detail => simp [MiniReviewer.normalized_details]
    | _ => simpa [MiniReviewer.normalized_details] using ih

/-- The evidence that survives the mini reviewer's coercion. -/
def Usable (object : PyDict) : Prop :=
  (∃ details detail, PyDict.get object "details" = .list details ∧ PyVal.dict detail ∈ details) ∨
    (PyDict.get object "suggested_patch").truthy = true

theorem Usable.evident (h : Usable object) : Evident object := by
  rcases h with ⟨details, detail, hd, hmem⟩ | h
  · cases details with
    | nil => cases hmem
    | cons x xs => exact .inl ⟨x, xs, hd⟩
  · exact .inr h

/-- What the coercion makes of an object with one of the three codes. -/
structure Coerced (object payload : PyDict) : Prop where
  valid : ∃ code ∈ MiniReviewer.VALID_RESULT_CODES, PyDict.get object "result_code" = .str code
  code : PyDict.get payload "result_code" = PyDict.get object "result_code"
  evident_iff : Evident payload ↔ Usable object

theorem coerce_coerced (h : MiniReviewer.coerce_ollama_payload py (.dict object) = .ok payload) :
    Coerced object payload := by
  obtain ⟨_, code, heq, hmem, hobject, hpayload⟩ := MiniReviewer.coerce_code h
  cases heq
  refine ⟨⟨code, hmem, hobject⟩, hpayload.trans hobject.symm, ?_⟩
  simp only [MiniReviewer.coerce_ollama_payload] at h
  split at h
  · cases h
    unfold Evident Usable
    simp only [PyDict.get, PyDict.getD, List.lookup]
    cases hd : PyDict.getD object "details" .none with
    | list details =>
      have hiff := @normalized_details_nonempty_iff py details
      simp only [PyDict.getD] at hd
      simp [hd] at hiff ⊢
      rw [hiff]
    | _ =>
      simp only [PyDict.getD] at hd
      simp [hd, MiniReviewer.normalized_details]
  · cases h

theorem coerce_ok {code : String} (hc : code ∈ MiniReviewer.VALID_RESULT_CODES)
    (h : PyDict.get object "result_code" = .str code) :
    ∃ payload, MiniReviewer.coerce_ollama_payload py (.dict object) = .ok payload := by
  have hany : MiniReviewer.VALID_RESULT_CODES.any (PyDict.get object "result_code").isStr = true :=
    List.any_eq_true.mpr ⟨code, hc, PyVal.isStr_iff.mpr h⟩
  simp only [MiniReviewer.coerce_ollama_payload, hany, if_true]
  exact ⟨_, rfl⟩

/-- The mini reviewer keeps a blocking code whatever the evidence. -/
theorem coerced_evidence_iff :
    (∀ payload, MiniReviewer.coerce_ollama_payload py (.dict object) = .ok payload →
      (LlmReviewGate.Blocks payload → Evident payload) ∧ (SummaryOnly object → ¬Objects payload)) ↔
    (LlmReviewGate.Blocks object → Usable object) := by
  constructor
  · intro h hb
    have hvalid : ∃ code ∈ MiniReviewer.VALID_RESULT_CODES,
        PyDict.get object "result_code" = .str code := by
      rcases hb with hb | hb
      · exact ⟨_, by decide, hb⟩
      · exact ⟨_, by decide, hb⟩
    obtain ⟨code, hmem, hcode⟩ := hvalid
    obtain ⟨payload, hp⟩ := @coerce_ok py object code hmem hcode
    have hc := coerce_coerced hp
    have hblocks : LlmReviewGate.Blocks payload := by
      unfold LlmReviewGate.Blocks at hb ⊢
      rwa [hc.code]
    exact hc.evident_iff.mp ((h payload hp).1 hblocks)
  · intro h payload hp
    have hc := coerce_coerced hp
    have hblocks : LlmReviewGate.Blocks payload ↔ LlmReviewGate.Blocks object := by
      unfold LlmReviewGate.Blocks
      rw [hc.code]
    refine ⟨fun hb => hc.evident_iff.mpr (h (hblocks.mp hb)), fun hs => ?_⟩
    obtain ⟨code, hmem, hcode⟩ := hc.valid
    have hpassed : ¬LlmReviewGate.Blocks object := fun hb => hs.2 (h hb).evident
    simp only [MiniReviewer.VALID_RESULT_CODES, List.mem_cons, List.not_mem_nil, or_false] at hmem
    rcases hmem with rfl | rfl | rfl
    · exact absurd (verdict_code_of_get hcode) hs.1
    · exact absurd (.inr hcode) hpassed
    · exact absurd (.inl hcode) hpassed

end Normalizers

/-- An L3 rejection carries evidence, and objections without evidence pass as advice, exactly
for the objects whose code is one of the two the normaliser knows and whose confidence is
readable; the mini reviewer's blocking payloads carry evidence exactly for objects that do. -/
theorem blocking_carries_evidence_iff {py : Python} {object : PyDict} :
    (∀ {gate : LlmReviewGate} {raw : PyVal} {request : ReviewRequest} {context : ContextBundle}
      {findings : List PyDict} {orc : Orchestrator} {env : Env} {db db' : Db} {t : Trace}
      {result : ReviewResult} {l : Locals},
      gate.generate (gate.provider_request py request context findings) = .ok raw →
      LlmReviewGate.reply_object py raw = some object →
      Steps env.step db (orc.run_once request {}) t db' (.ret (.ok result, l)) →
      Answered t (.llm_review request context findings)
        (gate.review py request context findings) →
      (((result.status = .rejected →
          ∃ d, gate.review py request context findings = .ok d ∧ Evident d) ∧
        (SummaryOnly object →
          ∃ d, gate.review py request context findings = .ok d ∧ ¬Objects d)) ↔
      (SummaryOnly object → LlmReviewGate.Blocks object ∧ LlmReviewGate.Readable py object))) ∧
    ((∀ payload, MiniReviewer.coerce_ollama_payload py (.dict object) = .ok payload →
        (LlmReviewGate.Blocks payload → Evident payload) ∧
          (SummaryOnly object → ¬Objects payload)) ↔
      (LlmReviewGate.Blocks object → Usable object)) := by
  refine ⟨?_, coerced_evidence_iff⟩
  intro gate raw request context findings orc env db db' t result l hraw hobject hr hanswer
  have hreview : gate.review py request context findings =
      LlmReviewGate.normalize_response py object := by
    unfold LlmReviewGate.review
    rw [hraw]
    exact LlmReviewGate.parse_response_object hobject
  rw [hreview] at hanswer ⊢
  constructor
  · intro h hs
    exact (normalized_passes_iff hs).mp (h.2 hs)
  · intro h
    refine ⟨fun hrejected => ?_, fun hs => (normalized_passes_iff hs).mpr (h hs)⟩
    have hfounded := Orchestrator.run_once_founded _ _ _ _ hr.path hrejected
    obtain ⟨d, hd, hobjects⟩ := hfounded _ hanswer.l3_answers
    have hsame := normalized_objects hd hobjects
    subst hsame
    refine ⟨d, hd, by_contra fun hno => ?_⟩
    obtain ⟨d', hd', hpass⟩ := (normalized_passes_iff ⟨hobjects, hno⟩).mpr (h ⟨hobjects, hno⟩)
    rw [hd] at hd'
    cases hd'
    exact hpass hobjects

/-- Python over texts that hold neither a number nor JSON. -/
def plain_python : Python where
  format := fun _ => ""
  repr := fun _ => ""
  float_of_text := fun s => .error (valueError ("could not convert string to float: " ++ s))
  loads := fun _ => .error (jsonDecodeError "Expecting value")

/-- A gate whose provider returns `raw`. -/
def replying (raw : PyDict) : LlmReviewGate where
  system_prompt := ""
  generate := fun _ => .ok (.dict raw)

/-- Collaborators that agree, with an L3 gate whose provider returns `raw`. -/
def l3_replies (raw : PyDict) : (o : Op) → Ans o
  | .llm_review request context findings =>
    (replying raw).review plain_python request context findings
  | o => agreeable o

def gated : Orchestrator where
  llm_review_gate := true

def detailed_rejection : PyDict :=
  [("result_code", .str "REVIEW_REJECTED"), ("summary", .str "unchecked branch"),
    ("confidence_score", .float (9 / 10)),
    ("details", .list [.dict [("line_number", .int 3), ("issue", .str "branch")]]),
    ("suggested_patch", .none)]

/-- The context `agreeable` collaborators build. -/
def sampleContext : ContextBundle := ⟨"req_1", "", 0, [], []⟩

theorem blocking_carries_evidence_sample : ∃ t db result l d,
    Steps anyone.step {} (gated.run_once (sampleRequest "req_1" "key") {}) t db
      (.ret (.ok result, l)) ∧
    Answered t (.llm_review (sampleRequest "req_1" "key") sampleContext []) (.ok d) ∧
    result.status = .rejected ∧ Evident d := by
  have hr := @play_steps anyone (l3_replies detailed_rejection) (fun _ => trivial) gated
    (sampleRequest "req_1" "key") {} 60
  have hev : Answered (gated.play (l3_replies detailed_rejection) (sampleRequest "req_1" "key")
      {} 60).1 (.llm_review (sampleRequest "req_1" "key") sampleContext [])
      ((replying detailed_rejection).review plain_python (sampleRequest "req_1" "key")
        sampleContext []) :=
    ⟨_, _, List.mem_of_getElem? (i := 12) rfl⟩
  have hsound := ((@blocking_carries_evidence_iff plain_python detailed_rejection).1 rfl rfl hr
    hev).mpr fun hs => absurd (.inl ⟨_, _, rfl⟩) hs.2
  obtain ⟨d, hd, hevident⟩ := hsound.1 rfl
  rw [hd] at hev
  exact ⟨_, _, _, _, d, hr, hev, rfl, hevident⟩

/-- A null code is no pass for the controller and nothing to normalise for the gate. -/
def null_verdict : PyDict := [("result_code", .none), ("summary", .str "looks wrong")]

def summary_rejection : PyDict :=
  [("result_code", .str "REVIEW_REJECTED"), ("summary", .str "looks wrong")]

theorem not_evident {d : PyDict} (h : LlmReviewGate.has_evidence d = false) : ¬Evident d := by
  rw [evident_iff, h]
  simp

/-- A rejection without evidence, from the L3 gate and from the mini reviewer. -/
theorem null_code_rejects :
    (∃ t db result l d,
      Steps anyone.step {} (gated.run_once (sampleRequest "req_1" "key") {}) t db
        (.ret (.ok result, l)) ∧
      Answered t (.llm_review (sampleRequest "req_1" "key") sampleContext [])
        ((replying null_verdict).review plain_python (sampleRequest "req_1" "key")
          sampleContext []) ∧
      (replying null_verdict).review plain_python (sampleRequest "req_1" "key") sampleContext [] =
        .ok d ∧
      result.status = .rejected ∧ ¬Evident d) ∧
    ∃ payload, MiniReviewer.coerce_ollama_payload plain_python (.dict summary_rejection) =
        .ok payload ∧ LlmReviewGate.Blocks payload ∧ ¬Evident payload := by
  refine ⟨⟨_, _, _, _, _, @play_steps anyone (l3_replies null_verdict) (fun _ => trivial) gated
    (sampleRequest "req_1" "key") {} 60, ⟨_, _, List.mem_of_getElem? (i := 12) rfl⟩, rfl, rfl,
    not_evident rfl⟩, _, rfl, .inl rfl, not_evident rfl⟩

end Nitpicker
