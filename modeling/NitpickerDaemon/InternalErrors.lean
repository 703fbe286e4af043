import NitpickerDaemon.Failures
import NitpickerDaemon.Channels
import NitpickerDaemon.Effect.Monitor

/-!
Runs in which no collaborator and no store call raises: when such a run still enters its
exception handler.
-/

set_option autoImplicit false

namespace Nitpicker

open Effect

/-- An exception of a collaborator or of the job store. -/
def raised : (o : Op) → Ans o → Bool
  | .create_request _, .error _ => true
  | .transition_state _ _ _ _ _, .error _ => true
  | .mark_terminal _ _ _ _, .error _ => true
  | .append_event _ _ _, .error _ => true
  | .allow_new_job _, .error _ => true
  | .evaluate_request _, .error _ => true
  | .build_context _, .error _ => true
  | .should_offload _ _, .error _ => true
  | .submit _, .error _ => true
  | .get_or_create _ _, .error _ => true
  | .agent_run _ _ _, .error _ => true
  | .decide _, .error _ => true
  | .llm_review _ _ _, .error _ => true
  | .create_patch _ _, .error _ => true
  | .verify_patch _ _, .error _ => true
  | .apply_patch _ _, .error _ => true
  | .publish_diagnostics _ _, .error _ => true
  | .publish_quick_fix _ _ _ _, .error _ => true
  | .log_result _, .error _ => true
  | .notify _ _, .error _ => true
  | .analytics_write _, .error _ => true
  | _, _ => false

namespace Orchestrator

/-- The values after which the pipeline itself raises: a confidence that no float can hold, and
a verified patch where the auto-fix then reads the L3 result that was never assigned. -/
def slips (orc : Orchestrator) : (o : Op) → Ans o → Bool
  | .llm_review _ _ _, .ok llm_result =>
    match to_float (llm_result.get "confidence_score") with
    | some (.error _) => true
    | _ => false
  | .verify_patch _ _, .ok report => report.passed && orc.llm_review_gate && orc.autofix_service
  | _, _ => false

/-- A question with no such value. -/
def Unslipped (orc : Orchestrator) (o : Op) : Prop := ∀ a, orc.slips o a = false

theorem faults_cases {orc : Orchestrator} {o : Op} {a : Ans o} (hr : raised o a = false)
    (hs : orc.slips o a = false) : orc.faults o a = false := by
  cases o with
  | cache_hits => rfl
  | monotonic => rfl
  | llm_review request context findings =>
    cases a with
    | error e => cases hr
    | ok d => exact hs
  | verify_patch request patch =>
    cases a with
    | error e => cases hr
    | ok report => exact hs
  | _ =>
    cases a with
    | error e => cases hr
    | ok v => rfl

section Slips

variable {α β κ : Type} {orc : Orchestrator} {request : ReviewRequest} {context : ContextBundle}
  {f : Locals → κ} {x : Bool}

theorem idle_unslipped {o : Op} (h : o.idle) : orc.Unslipped o := by
  cases o <;> first | exact fun _ => rfl | exact h.elim

theorem channel_unslipped {o : Op} (h : o.channel) : orc.Unslipped o := by
  cases o <;> first | exact fun _ => rfl | exact h.elim

/-- A part of the pipeline; what it raises does not matter here. -/
abbrev Watches (orc : Orchestrator) (x : Bool) (V : α → Bool → Prop) (m : Review α) : Prop :=
  Proc.Monitors (flagging orc.slips) (fun _ _ => True) x V (fun _ _ => True) m

theorem watches_unslipped {m : Review β} {k : β → Review α} {V : α → Bool → Prop}
    (hm : Proc.Within (fun _ _ => True) orc.Unslipped f (fun _ => True) m)
    (hk : ∀ b, orc.Watches x V (k b)) : orc.Watches x V (m >>= k) :=
  hm.monitors_bind (fun _ _ => trivial) (fun _ a h => flagging_false (h a)) (fun _ _ => trivial) hk

theorem within_unslipped {R : PyExc → Prop} {m : Review α}
    (hm : Proc.Within (fun _ _ => True) Op.idle f R m) :
    Proc.Within (fun _ _ => True) orc.Unslipped f R m :=
  hm.mono (fun _ _ h => h) (fun _ => idle_unslipped) fun _ h => h

theorem watches_idle {m : Review β} {k : β → Review α} {V : α → Bool → Prop}
    (hm : Proc.Within (fun _ _ => True) Op.idle id (fun _ => True) m)
    (hk : ∀ b, orc.Watches x V (k b)) : orc.Watches x V (m >>= k) :=
  watches_unslipped (within_unslipped hm) hk

/-- A part without a slip, at the end. -/
theorem watches_end {m : Review α}
    (hm : Proc.Within (fun _ _ => True) orc.Unslipped f (fun _ => True) m) :
    orc.Watches x (fun _ y => y = x) m :=
  hm.monitors (fun _ _ => trivial) (fun _ a h => flagging_false (h a)) (fun _ => rfl)
    fun _ _ => trivial

theorem watches_transition {from_state to_state : ReviewState} {reason code : String}
    {k : Review α} {V : α → Bool → Prop} (hk : orc.Watches x V k) : orc.Watches x V (do
      transition request.request_id from_state to_state reason code
      Proc.assign fun l => { l with current_state := to_state }
      k) :=
  watches_unslipped (f := id) (.invoke (fun _ => rfl) fun _ _ _ _ => trivial) fun _ =>
    watches_unslipped (f := fun _ => ()) (.assign fun _ => rfl) fun _ => hk

theorem mark_terminal_safe_unslipped {state : ReviewState} {reason : String} {code : PyVal} :
    Proc.Within (fun _ _ => True) orc.Unslipped f (fun _ => True)
      (mark_terminal_safe request.request_id state reason code) :=
  best_effort_within (.invoke (fun _ => rfl) fun _ _ _ _ => trivial)

theorem apply_l3_slips {findings : List PyDict} {d : PyDict} {v v' : Verdict}
    (h : apply_l3 d v = .ok v') : orc.slips (.llm_review request context findings) (.ok d) = false := by
  unfold apply_l3 at h
  cases hf : to_float (d.get "confidence_score") with
  | none => simp [slips, hf]
  | some r =>
    cases r with
    | ok q => simp [slips, hf]
    | error e => simp [hf] at h

/-- After the L3 stage nothing has slipped, and a patch consensus has no L3 result. -/
theorem l3_stage_watches {decisions : List AgentDecision} {v : Verdict} (hv : v.llm_result = none) :
    orc.Watches false (fun v' y => y = false ∧ (v'.consensus.status = .patch → v'.llm_result = none))
      (orc.l3_stage request context decisions v) := by
  unfold l3_stage
  refine .ite (fun hc => ?_) fun _ => .pure ⟨rfl, fun _ => hv⟩
  refine watches_idle log_analytics_idle fun _ => watches_idle monotonic_idle fun _ =>
    watches_idle record_stage_event_idle fun _ => .bind
      (W := fun d y => y = orc.slips (.llm_review request context (collect_findings decisions)) (.ok d))
      (.attempt (E := fun _ _ => True) (.invoke trivial (fun a d ha => ?_) fun _ _ _ => trivial)
        fun e y _ => ?_) fun d y hy => ?_
  · obtain rfl : a = .ok d := ha
    exact Bool.false_or _
  · exact watches_idle monotonic_idle fun _ => watches_idle record_stage_event_idle fun _ _ => trivial
  · refine watches_idle monotonic_idle fun _ => watches_idle record_stage_event_idle fun _ =>
      watches_idle log_analytics_idle fun _ => .ofExcept (fun v' hv' => ?_) fun _ _ => trivial
    refine ⟨hy.trans (apply_l3_slips hv'), fun hpatch => ?_⟩
    rw [apply_l3_status hv', hc.1] at hpatch
    cases hpatch

/-- The verdict sends the auto-fix into its internal error. -/
structure Doomed (orc : Orchestrator) (v : Verdict) : Prop where
  proposed : v.result_code.isStr "PATCH_PROPOSED" = true ∧ orc.autofix_service = true
  unbound : ∃ e, orc.suggested_patch v = .error e

theorem patch_stage_watches {v : Verdict}
    (hv : v.consensus.status = .patch → v.llm_result = none) :
    orc.Watches false (fun v' y => y = true → Doomed orc v') (orc.patch_stage request v) := by
  have hno : ∀ v' : Verdict, false = true → Doomed orc v' := fun _ h => by cases h
  unfold patch_stage
  refine .ite (fun hpatch => .ite (fun _ => watches_unslipped (f := id) (.invoke (fun _ => rfl)
    fun _ _ _ _ => trivial) fun patch => ?_) fun _ => .pure (hno _)) fun _ => .pure (hno _)
  cases patch with
  | none => exact .pure (hno _)
  | some patch =>
    refine .bind (W := fun report y => y = (report.passed && orc.llm_review_gate && orc.autofix_service))
      (.invoke trivial (fun a report ha => ?_) fun _ _ _ => trivial) fun report y hy =>
      watches_idle log_analytics_idle fun _ => .ite (fun hp => .pure fun h => ?_)
        fun hp => .pure fun h => ?_
    · obtain rfl : a = .ok report := ha
      exact Bool.false_or _
    · rw [hy, Bool.and_eq_true, Bool.and_eq_true] at h
      refine ⟨⟨PyVal.isStr_iff.mpr rfl, h.2⟩, unboundLocalError, ?_⟩
      simp [suggested_patch, h.1.2, hv hpatch]
    · rw [hy] at h
      simp [hp] at h

theorem autofix_stage_watches {v : Verdict} {y : Bool} (hv : y = true → Doomed orc v) :
    orc.Watches y (fun _ z => z = false) (orc.autofix_stage request v) := by
  unfold autofix_stage
  refine .ite (fun hc => .bind (W := fun _ z => z = false) (.ofExcept (fun patch hp => ?_)
    fun _ _ => trivial) fun patch z hz => ?_) fun hc => .pure ?_
  · by_contra hy
    obtain ⟨e, he⟩ := (hv (by simpa using hy)).unbound
    rw [hp] at he
    cases he
  · subst hz
    exact .ite (fun _ => watches_unslipped (f := id) (.invoke (fun _ => rfl) fun _ _ _ _ => trivial)
      fun fix => watches_idle log_analytics_idle fun _ => .pure rfl) fun _ => .pure rfl
  · by_contra hy
    exact hc (hv (by simpa using hy)).proposed

theorem deliver_watches {decisions : List AgentDecision} {v : Verdict} :
    orc.Watches x (fun _ y => y = x) (orc.deliver request decisions v) :=
  watches_unslipped (f := id) mark_terminal_safe_unslipped fun _ => watches_idle log_analytics_idle
    fun _ => watches_idle publish_diagnostics_idle fun _ => watches_unslipped (f := id)
      ((publish_quick_fix_channel fun _ _ _ => trivial).mono (fun _ _ h => h)
        (fun _ => channel_unslipped) fun _ h => h) fun _ =>
    watches_idle log_result_idle fun _ => .pure rfl

theorem conclude_watches {decisions : List AgentDecision} :
    orc.Watches false (fun _ y => y = false) (orc.conclude request context decisions) :=
  watches_transition (watches_unslipped (f := id) (.invoke (fun _ => rfl) fun _ _ _ _ => trivial)
    fun consensus => .bind (l3_stage_watches rfl) fun v y hv => by
      obtain ⟨rfl, hv⟩ := hv
      exact .bind (patch_stage_watches hv) fun v y hv => .bind (autofix_stage_watches hv)
        fun v y hy => by
          subst hy
          exact deliver_watches)

theorem analyze_watches {decision : PolicyDecision} :
    orc.Watches false (fun _ y => y = false) (orc.analyze request decision context) :=
  watches_transition (watches_idle monotonic_idle fun _ => watches_unslipped (f := id)
    (run_agents_asks (fun _ => rfl) (fun _ _ => rfl) (fun _ _ => rfl) fun _ _ _ _ => trivial) fun _ =>
    watches_idle monotonic_idle fun _ => watches_idle log_analytics_idle fun _ => .pure rfl)

theorem offload_unslipped : Proc.Within (fun _ _ => True) orc.Unslipped id (fun _ => True)
    (orc.offload request context) :=
  offload_asks (fun _ _ => rfl) (fun _ => rfl) (fun _ _ => rfl) fun _ _ => trivial

theorem review_watches {decision : PolicyDecision} :
    orc.Watches false (fun _ y => y = false) (orc.review request decision) :=
  watches_transition (watches_unslipped (f := id) (.invoke (fun _ => rfl) fun _ _ _ _ => trivial)
    fun context => watches_unslipped offload_unslipped fun _ =>
    watches_idle (context_cache_idle fun _ _ _ _ _ => trivial) fun _ => .bind analyze_watches
      fun _ y hy => by
        subst hy
        exact conclude_watches)

theorem reject_policy_watches {decision : PolicyDecision} :
    orc.Watches false (fun _ y => y = false) (orc.reject_policy request decision) :=
  watches_transition (watches_unslipped (f := id) mark_terminal_safe_unslipped fun _ =>
    watches_idle publish_diagnostics_idle fun _ => watches_idle log_result_idle fun _ => .pure rfl)

theorem admission_watches :
    orc.Watches false (fun _ y => y = false) (orc.admission request) :=
  watches_unslipped (f := id) (.invoke (fun _ => rfl) fun _ _ _ _ => trivial) fun _ =>
    .ite (fun _ => watches_unslipped (f := id) (.invoke (fun _ => rfl) fun _ _ _ _ => trivial)
      fun _ => watches_idle log_analytics_idle fun _ => .ite (fun _ => review_watches)
        fun _ => reject_policy_watches) fun _ =>
      watches_unslipped (f := id) mark_terminal_safe_unslipped fun _ =>
        watches_idle log_result_idle fun _ => .pure rfl

/-- A pipeline that returns has not slipped. -/
theorem pipeline_watches :
    orc.Watches false (fun _ y => y = false) (orc.pipeline request) := by
  refine watches_unslipped (f := id) (.invoke (fun _ => rfl) fun _ _ _ _ => trivial)
    fun outcome => ?_
  have hassign : ∀ g : Locals → Locals, orc.Watches false (fun _ y => y = false)
      (Proc.assign g >>= fun _ => orc.admission request) := fun g =>
    watches_unslipped (f := fun _ => ()) (.assign fun _ => rfl) fun _ => admission_watches
  cases outcome with
  | none => exact hassign _
  | some outcome =>
    exact .ite (fun _ => watches_end (f := id) (handle_duplicate_request_channel.mono
      (fun _ _ h => h) (fun _ => channel_unslipped) fun _ h => h)) fun _ => hassign _

/-- With answers that are values and no slip, `m` raises nothing. -/
abbrev Proceeds (orc : Orchestrator) (m : Review α) (V : α → Prop) : Prop :=
  Proc.Asks (fun o a => raised o a = false ∧ orc.slips o a = false) (fun _ => True) V
    (fun _ => False) m

theorem Holds.proceeds {m : Review α} {V : α → Prop} (h : orc.Holds m V) : orc.Proceeds m V :=
  h.weaken (fun _ _ ha => faults_cases ha.1 ha.2) fun _ _ => trivial

theorem invoke_proceeds {o : Op} {g : Ans o → Except PyExc α}
    (hg : ∀ a e, g a = .error e → raised o a = true) :
    orc.Proceeds (Proc.invoke o g) fun _ => True := by
  refine .invoke trivial (fun _ _ _ _ => trivial) fun a e ha he => ?_
  rw [hg a e he] at ha
  cases ha.1

/-- The results of a pipeline that returns. -/
def Proper (result : ReviewResult) : Prop :=
  result.state = .DELIVERED ∨ result.state = .PRECHECK_FAILED ∨
    (result.state = .DEGRADED ∧ result.result_code = .str "RESOURCE_REJECTED")

theorem admission_proceeds : orc.Proceeds (orc.admission request) Proper :=
  .bind (invoke_proceeds fun _ _ he => by cases he; rfl) fun allowed _ => .ite
    (fun _ => .bind (invoke_proceeds fun _ _ he => by cases he; rfl) fun decision _ =>
      .bind (background_holds log_analytics_within).proceeds fun _ _ => .ite
        (fun _ => review_holds.proceeds.mono (fun _ h => .inl h) fun _ h => h)
        fun _ => reject_policy_holds.proceeds.mono (fun _ h => .inr (.inl h)) fun _ h => h)
    fun _ => .bind (W := fun _ => True) (.attempt (R := fun _ => True)
      (.invoke trivial (fun _ _ _ _ => trivial) fun _ _ _ _ => trivial) fun _ _ => .pure trivial)
      fun _ _ => .bind (background_holds log_result_within).proceeds fun _ _ =>
        .pure (.inr (.inr ⟨rfl, rfl⟩))

theorem pipeline_proceeds : orc.Proceeds (orc.pipeline request) Proper := by
  refine .bind (invoke_proceeds fun _ _ he => by cases he; rfl) fun outcome _ => ?_
  have hassign : ∀ g : Locals → Locals,
      orc.Proceeds (Proc.assign g >>= fun _ => orc.admission request) Proper := fun g =>
    .bind assign_holds.proceeds fun _ _ => admission_proceeds
  cases outcome with
  | none => exact hassign _
  | some outcome =>
    refine .ite (fun _ => ?_) fun _ => hassign _
    exact .bind (background_holds log_analytics_within).proceeds fun _ _ =>
      .bind (background_holds publish_diagnostics_within).proceeds fun _ _ =>
      .bind (background_holds log_result_within).proceeds fun _ _ => .pure (.inl rfl)

end Slips

end Orchestrator

/-- A run whose pipeline returned its result, without the exception handler. -/
structure Unhandled (orc : Orchestrator) (request : ReviewRequest) (t : Trace)
    (result : ReviewResult) (l : Locals) : Prop where
  pipeline : Path (orc.pipeline request {}) t (.ret (.ok result, l))
  proper : Orchestrator.Proper result

/-- A run in which nothing raises does not enter its exception handler, and ends in a proper
state, exactly when no answer makes the pipeline itself raise. -/
theorem unhandled_iff {env : Env} {orc : Orchestrator} {request : ReviewRequest} {db db' : Db}
    {t : Trace} {result : ReviewResult} {l : Locals}
    (hr : Steps env.step db (orc.run_once request {}) t db' (.ret (.ok result, l)))
    (hn : ∀ ev ∈ t, raised ev.op ev.ans = false) :
    Unhandled orc request t result l ↔ ∀ ev ∈ t, orc.slips ev.op ev.ans = false := by
  constructor
  · intro h
    have hend := h.pipeline.monitored (Orchestrator.pipeline_watches {})
    rw [watch_flagging, Bool.false_or] at hend
    have hany : t.any (fun ev => orc.slips ev.op ev.ans) = false := hend
    simpa using hany
  · intro hs
    rcases Proc.attempt_inv hr.path with ⟨_, heq, hbody⟩ | ⟨e, l₁, t₁, t₂, rfl, hbody, -⟩
    · cases heq
      have hend := hbody.within (Orchestrator.pipeline_proceeds {})
        fun ev hev => ⟨hn ev hev, hs ev hev⟩
      exact ⟨hbody, hend.2⟩
    · have hend := hbody.within (Orchestrator.pipeline_proceeds {}) fun ev hev =>
        ⟨hn ev (List.mem_append_left _ hev), hs ev (List.mem_append_left _ hev)⟩
      exact hend.2.elim

theorem unhandled_sample : ∃ t db result l,
    Steps anyone.step {} (({} : Orchestrator).run_once (sampleRequest "req_1" "key") {}) t db
      (.ret (.ok result, l)) ∧
    Unhandled {} (sampleRequest "req_1" "key") t result l ∧ result.state = .DELIVERED := by
  have hr := @play_steps anyone agreeable (fun _ => trivial) {} (sampleRequest "req_1" "key") {} 60
  have hall : (({} : Orchestrator).play agreeable (sampleRequest "req_1" "key") {} 60).1.all
      (fun ev => !raised ev.op ev.ans && !({} : Orchestrator).slips ev.op ev.ans) = true := rfl
  have hev : ∀ ev ∈ (({} : Orchestrator).play agreeable (sampleRequest "req_1" "key") {} 60).1,
      raised ev.op ev.ans = false ∧ ({} : Orchestrator).slips ev.op ev.ans = false := by
    simpa using hall
  exact ⟨_, _, _, _, hr, (unhandled_iff hr fun ev h => (hev ev h).1).mpr fun ev h => (hev ev h).2,
    rfl⟩

/-- The consensus asks for a patch, which is created and verified. -/
def patch_verified : (o : Op) → Ans o
  | .decide _ => .ok ⟨.patch, .str "fix", 1, [], []⟩
  | .create_patch _ _ => .ok (some ⟨"hash", "-a\n+b", "a.py", none⟩)
  | o => agreeable o

def full_service : Orchestrator where
  llm_review_gate := true
  patch_service := true
  verification_service := true
  autofix_service := true

theorem unboundLocalError_classified : Orchestrator.classify_failure Orchestrator.unboundLocalError =
    (.FAILED, .failed, "SYSTEM_FAILED") := by
  simp only [Orchestrator.classify_failure, contains, String.toLower, String.toList_map]
  decide +kernel

theorem none_raised {t : Trace} (h : t.all (fun ev => !raised ev.op ev.ans) = true) :
    ∀ ev ∈ t, raised ev.op ev.ans = false := by
  simpa using h

/-- A verified patch ends in the exception handler although nothing raised. -/
theorem verified_patch_fails : ∃ t db result l,
    Steps anyone.step {} (full_service.run_once (sampleRequest "req_1" "key") {}) t db
      (.ret (.ok result, l)) ∧
    (∀ ev ∈ t, raised ev.op ev.ans = false) ∧ result.state = .FAILED ∧
    result.result_code = .str "SYSTEM_FAILED" ∧
    ¬Unhandled full_service (sampleRequest "req_1" "key") t result l := by
  have hr := @play_steps anyone patch_verified (fun _ => trivial) full_service
    (sampleRequest "req_1" "key") {} (12 + 10)
  -- the verification is the twelfth answer, and the handler runs next
  have hend : (full_service.play patch_verified (sampleRequest "req_1" "key") {} 12).2.2 =
      full_service.handle_failure (sampleRequest "req_1" "key") Orchestrator.unboundLocalError
        ⟨.CONSENSUS_REACHED, true⟩ := rfl
  have hlast := Prog.run_for_add (scripted patch_verified) 12 10
    (full_service.run_once (sampleRequest "req_1" "key") {}) {}
  have htrace := Prog.run_for_append (scripted patch_verified) 12 10
    (full_service.run_once (sampleRequest "req_1" "key") {}) {}
  unfold Orchestrator.play at hend hr
  rw [hend, Orchestrator.handle_failure_classified unboundLocalError_classified] at hlast htrace
  rw [hlast, htrace] at hr
  refine ⟨_, _, _, _, hr, none_raised rfl, rfl, rfl, fun h => ?_⟩
  rcases h.proper with hs | hs | hs
  · cases hs
  · cases hs
  · cases hs.1

end Nitpicker
