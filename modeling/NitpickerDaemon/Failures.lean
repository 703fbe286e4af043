import NitpickerDaemon.History
import NitpickerDaemon.Settlement
import NitpickerDaemon.Verdicts

/-!
Runs in which nothing fails. They write neither `DEGRADED` nor `FAILED`, and when they
return they have recorded the state of their result.
-/

set_option autoImplicit false

namespace Nitpicker

open Effect

/-- The answers that send a run to its exception handler or to the resource rejection, and
the terminal writes that raise. -/
def Orchestrator.fails (orc : Orchestrator) : (o : Op) → Ans o → Bool
  | .transition_state _ _ _ _ _, .error _ => true
  | .mark_terminal _ _ _ _, .error _ => true
  | .allow_new_job _, .error _ => true
  | .allow_new_job _, .ok allowed => !allowed
  | .evaluate_request _, .error _ => true
  | .build_context _, .error _ => true
  | .should_offload _ _, .error _ => true
  | .get_or_create _ _, .error e => !cache_catches e
  | .agent_run _ _ _, .error _ => true
  | .decide _, .error _ => true
  | .llm_review _ _ _, .error _ => true
  | .llm_review _ _ _, .ok llm_result =>
    match to_float (llm_result.get "confidence_score") with
    | some (.error _) => true
    | _ => false
  | .create_patch _ _, .error _ => true
  | .verify_patch _ _, .error _ => true
  -- after a verified patch the auto-fix reads the L3 result, which was not assigned
  | .verify_patch _ _, .ok report => report.passed && orc.llm_review_gate && orc.autofix_service
  | .apply_patch _ _, .error _ => true
  | .publish_quick_fix _ _ _ _, .error e => !quick_fix_catches e
  | _, _ => false

/-- The answers that send a run to its exception handler. -/
def Orchestrator.faults (orc : Orchestrator) (o : Op) (a : Ans o) : Bool :=
  match o, a with
  | .allow_new_job _, .ok _ => false
  | o, a => orc.fails o a

theorem Orchestrator.fails_of_faults {orc : Orchestrator} {o : Op} {a : Ans o}
    (h : orc.faults o a = true) : orc.fails o a = true := by
  cases o with
  | allow_new_job request =>
    cases a with
    | ok allowed => cases h
    | error e => exact h
  | _ => exact h

/-- No answer of the trace fails the run. -/
def Orchestrator.Unfailing (orc : Orchestrator) (t : Trace) : Prop :=
  ∀ ev ∈ t, orc.fails ev.op ev.ans = false

/-- A question that writes neither `DEGRADED` nor `FAILED`. -/
def Op.upright : Op → Prop
  | .transition_state _ _ to_state _ _ => to_state ≠ .DEGRADED ∧ to_state ≠ .FAILED
  | .mark_terminal _ state _ _ => state ≠ .DEGRADED ∧ state ≠ .FAILED
  | _ => True

theorem Op.silent_upright {o : Op} (h : o.silent) : o.upright := by
  cases o <;> first | exact h.elim | trivial

namespace Orchestrator

section Asks

variable {orc : Orchestrator} {request : ReviewRequest} {context : ContextBundle}

/-- With answers that are no fault, `m` raises nothing and asks only upright questions. -/
abbrev Holds {α : Type} (orc : Orchestrator) (m : Review α) (V : α → Prop) : Prop :=
  Proc.Asks (fun o a => orc.faults o a = false) Op.upright V (fun _ => False) m

/-- The same with answers that do not fail. -/
abbrev Succeeds {α : Type} (orc : Orchestrator) (m : Review α) (V : α → Prop) : Prop :=
  Proc.Asks (fun o a => orc.fails o a = false) Op.upright V (fun _ => False) m

theorem Holds.succeeds {α : Type} {m : Review α} {V : α → Prop} (h : orc.Holds m V) :
    orc.Succeeds m fun _ => True := by
  refine (h.weaken (fun o a ha => ?_) fun _ ho => ho).mono (fun _ _ => trivial) fun _ he => he
  rw [Bool.eq_false_iff] at ha ⊢
  exact fun hf => ha (fails_of_faults hf)

theorem background_holds {α : Type} {m : Review α}
    (hm : Proc.Within (fun o a => orc.faults o a = false) Op.background id (fun _ => False) m) :
    orc.Holds m fun _ => True :=
  (hm.mono (fun _ _ h => h) (fun _ ho => Op.silent_upright (Op.background_silent ho))
    fun _ h => h).asks

/-- A question whose every exception fails the run. -/
theorem invoke_holds {α : Type} {o : Op} {f : Ans o → Except PyExc α} (ho : o.upright)
    (hf : ∀ a e, f a = .error e → orc.faults o a = true) :
    orc.Holds (Proc.invoke o f) fun v => ∃ a, f a = .ok v ∧ orc.faults o a = false := by
  refine .invoke ho (fun a v ha hv => ⟨a, hv, ha⟩) fun a e ha he => ?_
  rw [hf a e he] at ha
  cases ha

theorem transition_holds {request_id : String} {from_state to_state : ReviewState}
    {reason result_code : String} (h : to_state ≠ .DEGRADED ∧ to_state ≠ .FAILED) :
    orc.Holds (transition request_id from_state to_state reason result_code) fun _ => True :=
  (invoke_holds (o := .transition_state _ _ _ _ _) h fun _ _ he => by cases he; rfl).mono
    (fun _ _ => trivial) fun _ he => he

theorem mark_terminal_safe_holds {request_id : String} {state : ReviewState} {reason : String}
    {result_code : PyVal} (h : state ≠ .DEGRADED ∧ state ≠ .FAILED) :
    orc.Holds (mark_terminal_safe request_id state reason result_code) fun _ => True :=
  .attempt (R := fun _ => True) (.invoke h (fun _ _ _ _ => trivial) fun _ _ _ _ => trivial)
    fun _ _ => .pure trivial

theorem assign_holds {f : Locals → Locals} :
    orc.Holds (Proc.assign f) fun _ => True := fun _ => trivial

/-- What the auto-fix relies on: a proposed patch comes with an L3 result. -/
def Verdict.Known (orc : Orchestrator) (v : Verdict) : Prop :=
  v.result_code.isStr "PATCH_PROPOSED" = true → orc.autofix_service = true →
    orc.llm_review_gate = true → v.llm_result ≠ none

theorem first_verdict_known (consensus : ConsensusResult) :
    (first_verdict consensus).Known orc := by
  intro h
  unfold first_verdict at h
  rw [PyVal.isStr_iff] at h
  split at h <;> simp at h

theorem apply_l3_known {d : PyDict} {v v' : Verdict} (h : apply_l3 d v = .ok v') :
    v'.llm_result = some d := by
  unfold apply_l3 at h
  split at h
  · cases h
    rfl
  · cases h
  · cases h
    rfl

theorem l3_stage_holds {decisions : List AgentDecision} {v : Verdict} (hv : v.Known orc) :
    orc.Holds (orc.l3_stage request context decisions v) (Verdict.Known orc) := by
  unfold l3_stage
  refine .ite (fun _ => ?_) fun _ => .pure hv
  refine .bind (background_holds log_analytics_within) fun _ _ =>
    .bind (background_holds monotonic_within) fun _ _ =>
    .bind (background_holds record_stage_event_within) fun _ _ =>
    .bind (.attempt (invoke_holds trivial fun _ _ he => by cases he; rfl) fun _ he => he.elim)
      fun d hd => .bind (background_holds monotonic_within) fun _ _ =>
    .bind (background_holds record_stage_event_within) fun _ _ =>
    .bind (background_holds log_analytics_within) fun _ _ => .ofExcept ?_ ?_
  · intro v' hv' _ _ _ hnone
    rw [apply_l3_known hv'] at hnone
    cases hnone
  · intro e he
    obtain ⟨_, rfl, hd⟩ := hd
    simp only [faults, fails] at hd
    unfold apply_l3 at he
    split at he
    · cases he
    · rename_i hf
      simp [hf] at hd
    · cases he

theorem patch_required_known (v : Verdict) : (orc.patch_required v).Known orc := by
  intro h
  rw [PyVal.isStr_iff] at h
  simp [patch_required] at h

theorem patch_stage_holds {v : Verdict} (hv : v.Known orc) :
    orc.Holds (orc.patch_stage request v) (Verdict.Known orc) := by
  unfold patch_stage
  refine .ite (fun _ => .ite (fun _ => ?_) fun _ => .pure (patch_required_known v))
    fun _ => .pure hv
  refine .bind (invoke_holds trivial fun _ _ he => by cases he; rfl) fun patch _ => ?_
  cases patch with
  | none => exact .pure (patch_required_known v)
  | some patch =>
    refine .bind (invoke_holds trivial fun _ _ he => by cases he; rfl) fun report hreport =>
      .bind (background_holds log_analytics_within) fun _ _ =>
        .ite (fun hp => .pure ?_) fun _ => .pure ?_
    · obtain ⟨_, rfl, hreport⟩ := hreport
      intro _ hauto hgate
      simp [faults, fails, hp, hauto, hgate] at hreport
    · intro h
      rw [PyVal.isStr_iff] at h
      simp at h

theorem autofix_stage_holds {v : Verdict} (hv : v.Known orc) :
    orc.Holds (orc.autofix_stage request v) fun _ => True := by
  unfold autofix_stage
  refine .ite (fun hc => ?_) fun _ => .pure trivial
  refine .bind (.ofExcept (fun _ _ => trivial) fun e he => ?_) fun patch _ =>
    .ite (fun _ => .bind (invoke_holds trivial fun _ _ he => by cases he; rfl) fun fix _ =>
      .bind (background_holds log_analytics_within) fun _ _ => .pure trivial) fun _ => .pure trivial
  unfold suggested_patch at he
  split at he
  · rename_i hgate
    split at he
    · rename_i hnone
      exact hv hc.1 hc.2 hgate hnone
    · cases he
  · cases he

theorem deliver_holds {decisions : List AgentDecision} {v : Verdict} :
    orc.Holds (orc.deliver request decisions v) fun result => result.state = .DELIVERED := by
  refine .bind (mark_terminal_safe_holds (by decide)) fun _ _ =>
    .bind (background_holds log_analytics_within) fun _ _ =>
    .bind (background_holds publish_diagnostics_within) fun _ _ =>
    .bind (background_holds (publish_quick_fix_within fun e ha hcatch => ?_)) fun _ _ =>
    .bind (background_holds log_result_within) fun _ _ => .pure rfl
  simp [faults, fails, hcatch] at ha

theorem conclude_holds {decisions : List AgentDecision} :
    orc.Holds (orc.conclude request context decisions) fun result => result.state = .DELIVERED :=
  .bind (transition_holds (by decide)) fun _ _ => .bind assign_holds fun _ _ =>
    .bind (invoke_holds trivial fun _ _ he => by cases he; rfl) fun consensus _ =>
    .bind (l3_stage_holds (first_verdict_known consensus)) fun _ hv =>
    .bind (patch_stage_holds hv) fun _ hv => .bind (autofix_stage_holds hv) fun _ _ => deliver_holds

theorem analyze_holds {decision : PolicyDecision} :
    orc.Holds (orc.analyze request decision context) fun _ => True := by
  refine .bind (transition_holds (by decide)) fun _ _ => .bind assign_holds fun _ _ =>
    .bind (background_holds monotonic_within) fun _ _ => .bind (Proc.Within.asks (f := id)
      ((run_agents_within fun _ _ e ha => ?_).mono (fun _ _ h => h)
        (fun _ => Op.silent_upright) fun _ h => h)) fun _ _ =>
    .bind (background_holds monotonic_within) fun _ _ =>
    .bind (background_holds log_analytics_within) fun _ _ => .pure trivial
  cases ha

theorem review_holds {decision : PolicyDecision} :
    orc.Holds (orc.review request decision) fun result => result.state = .DELIVERED := by
  refine .bind (transition_holds (by decide)) fun _ _ => .bind assign_holds fun _ _ =>
    .bind (invoke_holds trivial fun _ _ he => by cases he; rfl) fun context _ =>
    .bind (background_holds (offload_within fun e ha => ?_)) fun _ _ =>
    .bind (background_holds (context_cache_within fun _ _ e ha hcatch => ?_)) fun _ _ =>
    .bind analyze_holds fun _ _ => conclude_holds
  · cases ha
  · simp [faults, fails, hcatch] at ha

theorem reject_policy_holds {decision : PolicyDecision} :
    orc.Holds (orc.reject_policy request decision) fun result =>
      result.state = .PRECHECK_FAILED :=
  .bind (transition_holds (by decide)) fun _ _ => .bind assign_holds fun _ _ =>
    .bind (mark_terminal_safe_holds (by decide)) fun _ _ =>
    .bind (background_holds publish_diagnostics_within) fun _ _ =>
    .bind (background_holds log_result_within) fun _ _ => .pure rfl

theorem admission_succeeds : orc.Succeeds (orc.admission request) fun _ => True := by
  have hpolicy : orc.Holds (Proc.invoke (.evaluate_request request) id) fun decision =>
      ∃ a, id a = .ok decision ∧ orc.faults (.evaluate_request request) a = false :=
    invoke_holds trivial fun _ _ he => by cases he; rfl
  refine .bind (W := fun allowed => allowed = true) (.invoke trivial (fun a allowed ha h => ?_)
    fun a e ha h => ?_) fun allowed hallowed => .ite (fun _ => .bind
      hpolicy.succeeds fun decision _ =>
      .bind (background_holds log_analytics_within).succeeds fun _ _ =>
        .ite (fun _ => review_holds.succeeds) fun _ => reject_policy_holds.succeeds) fun hn => ?_
  · obtain rfl : a = .ok allowed := h
    simpa [fails] using ha
  · obtain rfl : a = .error e := h
    cases ha
  · exact absurd hallowed hn

end Asks

end Orchestrator

/-- What a run that ended without its exception handler has recorded. -/
structure Recorded (result : ReviewResult) (t : Trace) : Prop where
  terminal : result.state.terminal = true
  ignored : result.result_code = .str "DUPLICATE_REQUEST_IGNORED" → result.state = .DELIVERED
  row : (∀ ev ∈ t, mark_succeeds ev = true) → recorded t = some result.state

theorem Recorded.append_right {result : ReviewResult} {t t' : Trace} (h : Recorded result t') :
    Recorded result (t ++ t') := by
  refine ⟨h.terminal, h.ignored, fun hm => ?_⟩
  rw [recorded_append, h.row fun ev hev => hm ev (List.mem_append_right _ hev), Option.some_or]

namespace Orchestrator

section Records

variable {orc : Orchestrator} {request : ReviewRequest} {context : ContextBundle}

theorem silent_returns {α : Type} {m : Review α}
    (hm : Proc.Within (fun _ _ => True) Op.background id (fun _ => True) m) :
    Proc.Returns m fun _ (t : Trace) => recorded t = none :=
  hm.returns.mono fun _ _ ht => recorded_silent fun ev hev => Op.background_silent (ht ev hev)

theorem mark_terminal_safe_returns {request_id : String} {state : ReviewState} {reason : String}
    {result_code : PyVal} :
    Proc.Returns (mark_terminal_safe request_id state reason result_code) fun _ (t : Trace) =>
      (∀ ev ∈ t, mark_succeeds ev = true) → recorded t = some state := by
  intro l l' _ t hp hm
  rcases Proc.attempt_inv hp with ⟨_, -, hp⟩ | ⟨e, l₁, t₁, t₂, rfl, hp, -⟩
  · cases hp with
    | @call s s' _ _ a t _ hk =>
      obtain ⟨rfl, heq⟩ := hk.ret_inv
      obtain rfl : a = .ok _ := (Prod.mk.inj heq).1
      rfl
  · cases hp with
    | @call s s' _ _ a t _ hk =>
      obtain ⟨rfl, heq⟩ := hk.ret_inv
      obtain rfl : a = .error e := (Prod.mk.inj heq).1
      have hfalse := hm _ (List.mem_append_left _ List.mem_cons_self)
      cases hfalse

/-- The end of a run that marks its request and then only publishes. -/
theorem recorded_of_mark {result : ReviewResult} {t t' : Trace}
    (hm : (∀ ev ∈ t, mark_succeeds ev = true) → recorded t = some result.state)
    (hterm : result.state.terminal = true)
    (hi : result.result_code = .str "DUPLICATE_REQUEST_IGNORED" → result.state = .DELIVERED)
    (ht : recorded t' = none) : Recorded result (t ++ t') := by
  refine ⟨hterm, hi, fun h => ?_⟩
  rw [recorded_append, ht, Option.none_or]
  exact hm fun ev hev => h ev (List.mem_append_left _ hev)

theorem deliver_records {decisions : List AgentDecision} {v : Verdict} :
    Proc.Returns (orc.deliver request decisions v) Recorded := by
  refine .bind mark_terminal_safe_returns fun _ t₁ h₁ =>
    .bind (silent_returns log_analytics_within) fun _ t₂ h₂ =>
    .bind (silent_returns publish_diagnostics_within) fun _ t₃ h₃ =>
    .bind (silent_returns (publish_quick_fix_within fun _ _ _ => trivial)) fun _ t₄ h₄ =>
    .bind (silent_returns log_result_within) fun _ t₅ h₅ => .pure ?_
  refine recorded_of_mark h₁ rfl (fun _ => rfl) ?_
  simp [recorded_append, h₂, h₃, h₄, h₅]

theorem reject_resources_records : Proc.Returns (orc.reject_resources request) Recorded := by
  refine .bind mark_terminal_safe_returns fun _ t₁ h₁ =>
    .bind (silent_returns log_result_within) fun _ t₂ h₂ => .pure ?_
  refine recorded_of_mark h₁ rfl (fun h => ?_) ?_
  · simp [build_result] at h
  · simp [h₂]

theorem reject_policy_records {decision : PolicyDecision} :
    Proc.Returns (orc.reject_policy request decision) Recorded := by
  refine .bind (.any _) fun _ _ _ => .bind (.any _) fun _ _ _ => .bind
    mark_terminal_safe_returns fun _ t₁ h₁ =>
    .bind (silent_returns publish_diagnostics_within) fun _ t₂ h₂ =>
    .bind (silent_returns log_result_within) fun _ t₃ h₃ => .pure ?_
  refine Recorded.append_right (Recorded.append_right (recorded_of_mark h₁ rfl (fun h => ?_) ?_))
  · simp [build_result] at h
  · simp [recorded_append, h₂, h₃]

/-- Whatever comes before the recorded end. -/
theorem records_after {α : Type} {m : Review α} {k : α → Review ReviewResult}
    (hk : ∀ a, Proc.Returns (k a) Recorded) : Proc.Returns (m >>= k) Recorded :=
  .bind (.any m) fun a _ _ => (hk a).mono fun _ _ h => h.append_right

theorem conclude_records {decisions : List AgentDecision} :
    Proc.Returns (orc.conclude request context decisions) Recorded :=
  records_after fun _ => records_after fun _ => records_after fun _ => records_after fun _ =>
    records_after fun _ => records_after fun _ => deliver_records

theorem review_records {decision : PolicyDecision} :
    Proc.Returns (orc.review request decision) Recorded :=
  records_after fun _ => records_after fun _ => records_after fun _ => records_after fun _ =>
    records_after fun _ => records_after fun _ => conclude_records

theorem admission_records : Proc.Returns (orc.admission request) Recorded :=
  records_after fun _ => .ite (fun _ => records_after fun _ => records_after fun _ =>
    .ite (fun _ => review_records) fun _ => reject_policy_records) fun _ => reject_resources_records

end Records

end Orchestrator

section Created

variable {env : Env} {orc : Orchestrator} {request : ReviewRequest} {t : Trace}
  {p : Running}

/-- The path of a run that created its request. -/
theorem created_path (hp : Path (orc.run_once request {}) t p)
    (hs : ∀ ev ∈ t, env.step ev.pre ev.op ev.ans ev.post) (hc : was_created t = true) :
    ∃ ev t' state, t = ev :: t' ∧ written ev = some .QUEUED ∧
      Path (orc.rest request (.ok (some ⟨true, false, state⟩)) {}) t' p := by
  rcases run_path_head hp with ⟨rfl, -⟩ | ⟨s, a, s', t', rfl, hrest, hjob⟩
  · cases hc
  · rw [was_created_head hjob] at hc
    have hcr : Created s request a s' := Env.step_created (hs _ List.mem_cons_self)
    cases hcr with
    | raised e => cases hc
    | created _ _ _ _ _ _ => exact ⟨_, t', _, rfl, rfl, hrest⟩
    | duplicate _ _ _ => cases hc

theorem rest_created_holds {state : Option String} :
    orc.Succeeds (orc.rest request (.ok (some ⟨true, false, state⟩))) fun _ => True :=
  .attempt (.bind Orchestrator.assign_holds.succeeds fun _ _ => Orchestrator.admission_succeeds)
    fun _ he => he.elim

theorem written_upright {ev : Event Db Op Ans} {state : ReviewState} (ho : ev.op.upright)
    (hw : written ev = some state) : state ≠ .DEGRADED ∧ state ≠ .FAILED := by
  unfold written at hw
  split at hw
  · cases hw
    decide
  · cases hw
    exact ho
  · cases hw
    exact ho
  · cases hw

/-- The states recorded by a run in which nothing fails. -/
theorem unfailing_recorded (hp : Path (orc.run_once request {}) t p)
    (hs : ∀ ev ∈ t, env.step ev.pre ev.op ev.ans ev.post) (hc : was_created t = true)
    (hu : orc.Unfailing t) :
    ∃ state, recorded t = some state ∧ state ≠ .DEGRADED ∧ state ≠ .FAILED := by
  obtain ⟨ev, t', value, rfl, hev, hrest⟩ := created_path hp hs hc
  have hup := (hrest.within (rest_created_holds {}) fun e he =>
    hu e (List.mem_cons_of_mem _ he)).1
  have hsome : recorded (ev :: t') ≠ none := by
    rw [← List.singleton_append, recorded_append]
    simp [recorded, hev]
  obtain ⟨state, hstate⟩ := Option.ne_none_iff_exists'.mp hsome
  refine ⟨state, hstate, ?_⟩
  obtain ⟨t₁, e, t₂, heq, he, -⟩ := recorded_split.mp hstate
  have hmem : e ∈ ev :: t' := by simp [heq]
  rcases List.mem_cons.mp hmem with rfl | hmem
  · rw [hev] at he
    cases he
    decide
  · exact written_upright (hup e hmem) he

/-- The record of a run that ends without its handler: nothing failed, or its result is no
failure. -/
theorem created_recorded {result : ReviewResult} {l : Locals}
    (hp : Path (orc.run_once request {}) t (.ret (.ok result, l)))
    (hs : ∀ ev ∈ t, env.step ev.pre ev.op ev.ans ev.post) (hc : was_created t = true)
    (hu : orc.Unfailing t ∨ ¬Refused result) : Recorded result t := by
  obtain ⟨ev, t', value, rfl, -, hrest⟩ := created_path hp hs hc
  rw [← List.singleton_append]
  refine Recorded.append_right ?_
  rcases Proc.attempt_inv hrest with ⟨_, heq, hbody⟩ | ⟨e, l₁, t₁, t₂, rfl, hbody, hhandler⟩
  · cases heq
    exact (Orchestrator.records_after fun _ => Orchestrator.admission_records) {} l result t' hbody
  · rcases hu with hu | hn
    · have hholds : orc.Succeeds (orc.after_create request (some ⟨true, false, value⟩))
          fun _ => True :=
        .bind Orchestrator.assign_holds.succeeds fun _ _ => Orchestrator.admission_succeeds
      have hend := (hbody.within (hholds {}) fun ev' he =>
        hu ev' (List.mem_cons_of_mem _ (List.mem_append_left _ he))).2
      exact hend.elim
    · exact absurd (Orchestrator.handle_failure_returns l₁ l result t₂ hhandler) hn

end Created

end Nitpicker
