import NitpickerDaemon.AutoFixReport

/-!
The results a run hands to its output channels: when the returned result reaches each of them
once, and no other result reaches any.
-/

set_option autoImplicit false

namespace Nitpicker

open Effect

/-- What a run hands to its channels, and what keeps it from doing so as it should. -/
inductive Publication where
  | diagnosed (result : ReviewResult) (target_file : String)
  | logged (result : ReviewResult)
  | notified (result : ReviewResult) (target_file : String)
  | refused
  | broke

def publication : (o : Op) → Ans o → Option Publication
  | .publish_diagnostics result target_file, _ => some (.diagnosed result target_file)
  | .log_result result, _ => some (.logged result)
  | .notify result target_file, _ => some (.notified result target_file)
  | .allow_new_job _, .ok false => some .refused
  | .publish_quick_fix _ _ _ _, .error e =>
    if Orchestrator.quick_fix_catches e then none else some .broke
  | _, _ => none

namespace Orchestrator

/-- The publications of a result on the two channels that are always called. -/
def told (orc : Orchestrator) (request : ReviewRequest) (result : ReviewResult) :
    List Publication :=
  (if orc.feedback_service then [.diagnosed result request.target_file] else []) ++
    if orc.review_logger then [.logged result] else []

/-- The publications of a run that returned `result`. -/
inductive Published (orc : Orchestrator) (request : ReviewRequest) (result : ReviewResult) :
    List Publication → Prop where
  | told : Published orc request result (orc.told request result)
  | refused : Published orc request result
      (.refused :: if orc.review_logger then [.logged result] else [])
  | broke (first : ReviewResult) : orc.feedback_service = true → Published orc request result
      (.diagnosed first request.target_file :: .broke :: orc.told request result)

/-- The publications at the moment an exception leaves the pipeline. -/
inductive Interrupted (orc : Orchestrator) (request : ReviewRequest) : List Publication → Prop where
  | before : Interrupted orc request []
  | broke (first : ReviewResult) : orc.feedback_service = true →
      Interrupted orc request [.diagnosed first request.target_file, .broke]

section Tells

variable {α β κ : Type} {orc : Orchestrator} {request : ReviewRequest} {context : ContextBundle}
  {f : Locals → κ} {x : List Publication}

/-- A question that publishes nothing. -/
def Untold (o : Op) : Prop := ∀ a, publication o a = none

/-- A part of the pipeline from the publications `x` on. -/
abbrev Tells (x : List Publication) (V : α → List Publication → Prop)
    (E : PyExc → List Publication → Prop) (m : Review α) : Prop :=
  Proc.Monitors (collecting publication) (fun _ _ => True) x V E m

theorem tells_untold {m : Review β} {k : β → Review α} {V : α → List Publication → Prop}
    {E : PyExc → List Publication → Prop} {R : PyExc → Prop}
    (hm : Proc.Within (fun _ _ => True) Untold f R m) (hE : ∀ e, R e → E e x)
    (hk : ∀ b, Tells x V E (k b)) : Tells x V E (m >>= k) :=
  hm.monitors_bind (fun _ _ => trivial) (fun _ a h => collecting_none (h a)) hE hk

theorem publish_diagnostics_tells {result : ReviewResult} {target_file : String}
    {E : PyExc → List Publication → Prop} :
    Tells x (fun _ y => y = x ++ if orc.feedback_service then [.diagnosed result target_file]
      else []) E (orc.publish_diagnostics result target_file) := by
  unfold publish_diagnostics
  refine .ite (fun hf => ?_) fun hf => .pure (by simp [hf])
  refine .attempt (E := fun _ y => y = x ++ [.diagnosed result target_file])
    (.invoke trivial (fun _ _ _ => ?_) fun _ _ _ => rfl) fun _ _ hy => .pure ?_
  · simp [hf, collecting, publication]
  · simpa [hf] using hy

theorem log_result_tells {result : ReviewResult} {E : PyExc → List Publication → Prop} :
    Tells x (fun _ y => y = x ++ if orc.review_logger then [.logged result] else []) E
      (orc.log_result result) := by
  unfold log_result
  refine .ite (fun hl => ?_) fun hl => .pure (by simp [hl])
  refine .attempt (E := fun _ y => y = x ++ [.logged result])
    (.invoke trivial (fun _ _ _ => ?_) fun _ _ _ => rfl) fun _ _ hy => .pure ?_
  · simp [hl, collecting, publication]
  · simpa [hl] using hy

/-- The two channels and the result. -/
theorem publish_tells {result : ReviewResult} {E : PyExc → List Publication → Prop} :
    Tells x (fun result' y => result' = result ∧ y = x ++ orc.told request result) E (do
      orc.publish_diagnostics result request.target_file
      orc.log_result result
      pure result) := by
  refine publish_diagnostics_tells.then fun _ => log_result_tells.then fun _ => .pure ⟨rfl, ?_⟩
  rw [List.append_assoc, told]

/-- The quick-fix channel publishes no result, and raises only what it does not catch. -/
theorem publish_quick_fix_tells {result : ReviewResult} {target_file : String}
    {findings : List PyDict} {patch : Option PatchProposal} :
    Tells x (fun _ y => y = x) (fun _ y => orc.feedback_service = true ∧ y = x ++ [.broke])
      (orc.publish_quick_fix result target_file findings patch) := by
  unfold publish_quick_fix
  refine .ite (fun hf => ?_) fun _ => .pure rfl
  refine .attempt (E := fun e y => y = collecting publication x
      (.publish_quick_fix result target_file findings patch) (.error e))
    (.invoke trivial (fun a v ha => ?_) fun a e ha => ?_) fun e y hy => .ite (fun hcatch => ?_)
    fun hcatch => .raise ⟨hf, ?_⟩
  · obtain rfl : a = .ok v := ha
    exact List.append_nil x
  · obtain rfl : a = .error e := ha
    rfl
  · refine .pure (hy.trans ?_)
    simp [collecting, publication, hcatch]
  · simpa [collecting, publication, hcatch] using hy

/-- A part of the pipeline that ends with the publications of a run, or is interrupted. -/
abbrev Publishes (orc : Orchestrator) (request : ReviewRequest) (x : List Publication)
    (m : Review ReviewResult) : Prop :=
  Tells x (fun result y => Published orc request result y) (fun _ y => Interrupted orc request y) m

theorem publishes_untold {m : Review β} {k : β → Review ReviewResult}
    (hm : Proc.Within (fun _ _ => True) Untold f (fun _ => True) m)
    (hk : ∀ b, orc.Publishes request [] (k b)) : orc.Publishes request [] (m >>= k) :=
  tells_untold hm (fun _ _ => .before) hk

/-- A checked transition and the assignment after it. -/
theorem publishes_transition {from_state to_state : ReviewState} {reason code : String}
    {k : Review ReviewResult} (hk : orc.Publishes request [] k) : orc.Publishes request [] (do
      transition request.request_id from_state to_state reason code
      Proc.assign fun l => { l with current_state := to_state }
      k) :=
  publishes_untold (f := id) (transition_asks fun _ => rfl) fun _ =>
    publishes_untold (f := fun _ => ()) (.assign fun _ => rfl) fun _ => hk

theorem deliver_publishes {decisions : List AgentDecision} {v : Verdict} :
    orc.Publishes request [] (orc.deliver request decisions v) := by
  refine publishes_untold (f := id) (mark_terminal_safe_asks fun _ => rfl) fun _ =>
    publishes_untold (f := id) (log_analytics_asks fun _ _ => rfl) fun _ =>
    publish_diagnostics_tells.then fun _ => ?_
  refine .bind (publish_quick_fix_tells.mono (fun _ _ h => h) fun e y hy => ?_) fun _ y hy => ?_
  · obtain ⟨hf, rfl⟩ := hy
    simp only [hf, if_true]
    exact .broke _ hf
  · subst hy
    exact log_result_tells.then fun _ => .pure .told

theorem conclude_publishes {decisions : List AgentDecision} :
    orc.Publishes request [] (orc.conclude request context decisions) :=
  publishes_transition (publishes_untold (f := id) (.invoke (fun _ => rfl)
    fun _ _ _ _ => trivial) fun _ => publishes_untold (f := id) (l3_stage_asks (fun _ _ => rfl)
    (fun _ => rfl) (fun _ _ => rfl) (fun _ _ => rfl) (fun _ _ _ => trivial) trivial) fun _ =>
    publishes_untold (f := id) (patch_stage_asks (fun _ _ => rfl) (fun _ _ => rfl)
      (fun _ _ => rfl) (fun _ _ _ => trivial) fun _ _ _ => trivial) fun _ =>
    publishes_untold (f := id) (autofix_stage_asks (fun _ _ => rfl) (fun _ _ => rfl)
      (fun _ _ _ => trivial) trivial) fun _ => deliver_publishes)

theorem analyze_untold {decision : PolicyDecision} :
    Proc.Within (fun _ _ => True) Untold (fun _ => ()) (fun _ => True)
      (orc.analyze request decision context) :=
  .bind (transition_asks fun _ => rfl) fun _ => .bind (.assign fun _ => rfl) fun _ =>
    .bind (monotonic_asks fun _ => rfl) fun _ => .bind (run_agents_asks (fun _ => rfl)
      (fun _ _ => rfl) (fun _ _ => rfl) fun _ _ _ _ => trivial) fun _ =>
    .bind (monotonic_asks fun _ => rfl) fun _ => .bind (log_analytics_asks fun _ _ => rfl)
      fun _ => .pure _

theorem review_publishes {decision : PolicyDecision} :
    orc.Publishes request [] (orc.review request decision) :=
  publishes_transition (publishes_untold (f := id) (.invoke (fun _ => rfl)
    fun _ _ _ _ => trivial) fun _ => publishes_untold (f := id) (offload_asks (fun _ _ => rfl)
    (fun _ => rfl) (fun _ _ => rfl) fun _ _ => trivial) fun _ =>
    publishes_untold (f := id) (context_cache_asks (fun _ _ => rfl) (fun _ _ _ => rfl)
      (fun _ => rfl) fun _ _ _ _ _ => trivial) fun _ =>
    publishes_untold analyze_untold fun _ => conclude_publishes)

theorem reject_policy_publishes {decision : PolicyDecision} :
    orc.Publishes request [] (orc.reject_policy request decision) :=
  publishes_transition (publishes_untold (f := id) (mark_terminal_safe_asks fun _ => rfl)
    fun _ => publish_tells.mono (fun _ _ h => by
      obtain ⟨rfl, rfl⟩ := h
      exact .told) fun _ _ h => h)

theorem reject_resources_publishes :
    Tells [.refused] (fun result y => Published orc request result y)
      (fun _ y => Interrupted orc request y) (orc.reject_resources request) :=
  tells_untold (f := id) (R := fun _ => False) (mark_terminal_safe_asks fun _ => rfl)
    (fun _ h => h.elim) fun _ => log_result_tells.then fun _ => .pure .refused

theorem admission_publishes : orc.Publishes request [] (orc.admission request) := by
  refine .bind (W := fun ok y => y = if ok = true then [] else [.refused])
    (.invoke trivial (fun a ok ha => ?_) fun a e ha => ?_) fun ok y hy => ?_
  · obtain rfl : a = .ok ok := ha
    cases ok <;> rfl
  · obtain rfl : a = .error e := ha
    exact .before
  · subst hy
    refine .ite (fun hok => ?_) fun hok => ?_
    · rw [if_pos hok]
      exact publishes_untold (f := id) (.invoke (fun _ => rfl) fun _ _ _ _ => trivial) fun _ =>
        publishes_untold (f := id) (log_analytics_asks fun _ _ => rfl) fun _ =>
        .ite (fun _ => review_publishes) fun _ => reject_policy_publishes
    · rw [if_neg hok]
      exact reject_resources_publishes

theorem pipeline_publishes : orc.Publishes request [] (orc.pipeline request) := by
  have hassign : ∀ g : Locals → Locals, orc.Publishes request []
      (Proc.assign g >>= fun _ => orc.admission request) := fun g =>
    publishes_untold (f := fun _ => ()) (.assign fun _ => rfl) fun _ => admission_publishes
  refine publishes_untold (f := id) (.invoke (fun _ => rfl) fun _ _ _ _ => trivial)
    fun outcome => ?_
  cases outcome with
  | none => exact hassign _
  | some outcome =>
    refine .ite (fun _ => ?_) fun _ => hassign _
    exact publishes_untold (f := id) (log_analytics_asks fun _ _ => rfl) fun _ =>
      publish_tells.mono (fun _ _ h => by
        obtain ⟨rfl, rfl⟩ := h
        exact .told) fun _ _ h => h

/-- The exception handler publishes its own result. -/
theorem handle_failure_tells {error : PyExc} :
    Tells x (fun result y => y = x ++ orc.told request result) (fun _ _ => False)
      (orc.handle_failure request error) := by
  have hrecord : ∀ {state : ReviewState} {reason code : String},
      Proc.Within (fun _ _ => True) Untold (fun _ => ()) (fun _ => False)
        (record_failure request state reason code) :=
    .bind .locals fun _ => .ite (fun _ => .bind (best_effort_within (transition_asks fun _ => rfl))
      fun _ => .assign fun _ => rfl) fun _ => .pure ()
  have hmark : ∀ {state : ReviewState} {reason code : String},
      Proc.Within (fun _ _ => True) Untold (fun _ => ()) (fun _ => False)
        (mark_failure request state reason code) :=
    .bind .locals fun _ => .ite (fun _ => mark_terminal_safe_asks fun _ => rfl) fun _ => .pure ()
  unfold handle_failure
  generalize classify_failure error = c
  obtain ⟨state, status, code⟩ := c
  exact tells_untold hrecord (fun _ h => h) fun _ => tells_untold hmark (fun _ h => h) fun _ =>
    publish_tells.mono (fun _ _ h => by
      obtain ⟨rfl, rfl⟩ := h
      rfl) fun _ _ h => h

theorem run_once_publishes : Tells [] (fun result y => Published orc request result y)
    (fun _ _ => False) (orc.run_once request) := by
  refine .attempt pipeline_publishes fun e y hy => handle_failure_tells.mono (fun result z hz => ?_)
    fun _ _ h => h
  subst hz
  cases hy with
  | before => exact .told
  | broke first hf => exact .broke first hf

end Tells

end Orchestrator

/-- What a run handed to its channels, in order. -/
def publications (t : Trace) : List Publication := t.filterMap fun ev => publication ev.op ev.ans

/-- The results the feedback service got to publish as diagnostics, with their files. -/
def diagnosed_results (t : Trace) : List (ReviewResult × String) :=
  (publications t).filterMap fun
    | .diagnosed result target_file => some (result, target_file)
    | _ => none

/-- The results the review logger got. -/
def logged_results (t : Trace) : List ReviewResult :=
  (publications t).filterMap fun
    | .logged result => some result
    | _ => none

/-- The results the notifier got, with their files. -/
def notified_results (t : Trace) : List (ReviewResult × String) :=
  (publications t).filterMap fun
    | .notified result target_file => some (result, target_file)
    | _ => none

/-- The resource manager refused the job. -/
def refuses_job (ev : Event Db Op Ans) : Bool :=
  match ev.op, ev.ans with
  | .allow_new_job _, .ok false => true
  | _, _ => false

/-- Every channel that is there got the returned result, once, and no other result. -/
structure ReachesOnce (orc : Orchestrator) (request : ReviewRequest) (result : ReviewResult)
    (t : Trace) : Prop where
  diagnosed : diagnosed_results t =
    if orc.feedback_service then [(result, request.target_file)] else []
  logged : logged_results t = if orc.review_logger then [result] else []
  notified : notified_results t = if orc.notifier then [(result, request.target_file)] else []

theorem refused_mem {t : Trace} : Publication.refused ∈ publications t ↔
    t.any refuses_job = true := by
  rw [publications, List.mem_filterMap, List.any_eq_true]
  refine exists_congr fun ev => and_congr_right fun _ => ?_
  obtain ⟨s, o, a, s'⟩ := ev
  cases o with
  | allow_new_job request =>
    cases a with
    | ok allowed => cases allowed <;> simp [publication, refuses_job]
    | error e => simp [publication, refuses_job]
  | publish_quick_fix result file findings patch =>
    cases a with
    | ok v => simp [publication, refuses_job]
    | error e =>
      cases hc : Orchestrator.quick_fix_catches e <;> simp [publication, refuses_job, hc]
  | _ => simp [publication, refuses_job]

theorem broke_mem {t : Trace} : Publication.broke ∈ publications t ↔
    t.any quick_fix_breaks = true := by
  rw [publications, List.mem_filterMap, List.any_eq_true]
  refine exists_congr fun ev => and_congr_right fun _ => ?_
  obtain ⟨s, o, a, s'⟩ := ev
  cases o with
  | allow_new_job request =>
    cases a with
    | ok allowed => cases allowed <;> simp [publication, quick_fix_breaks]
    | error e => simp [publication, quick_fix_breaks]
  | publish_quick_fix result file findings patch =>
    cases a with
    | ok v => simp [publication, quick_fix_breaks]
    | error e =>
      cases hc : Orchestrator.quick_fix_catches e <;> simp [publication, quick_fix_breaks, hc]
  | _ => simp [publication, quick_fix_breaks]

/-- A run reaches every channel once exactly when it has no notifier, the resource manager does
not refuse the job in front of a feedback service, and no quick fix raises what is not caught. -/
theorem reaches_once_iff {env : Env} {orc : Orchestrator} {request : ReviewRequest} {db db' : Db}
    {t : Trace} {result : ReviewResult} {l : Locals}
    (hr : Steps env.step db (orc.run_once request {}) t db' (.ret (.ok result, l))) :
    ReachesOnce orc request result t ↔ orc.notifier = false ∧
      (t.any refuses_job = true → orc.feedback_service = false) ∧
      t.any quick_fix_breaks = false := by
  have hpublished : Orchestrator.Published orc request result (publications t) := by
    have hend := hr.path.monitored (Orchestrator.run_once_publishes {})
    rwa [watch_collecting, List.nil_append] at hend
  rw [← Bool.not_eq_true (t.any quick_fix_breaks), ← refused_mem, ← broke_mem]
  have hreaches : ReachesOnce orc request result t ↔
      diagnosed_results t = (if orc.feedback_service then [(result, request.target_file)] else []) ∧
      logged_results t = (if orc.review_logger then [result] else []) ∧
      notified_results t = (if orc.notifier then [(result, request.target_file)] else []) :=
    ⟨fun h => ⟨h.diagnosed, h.logged, h.notified⟩, fun h => ⟨h.1, h.2.1, h.2.2⟩⟩
  rw [hreaches]
  unfold diagnosed_results logged_results notified_results
  generalize publications t = x at hpublished
  cases hpublished with
  | told =>
    unfold Orchestrator.told
    cases orc.feedback_service <;> cases orc.review_logger <;> cases orc.notifier <;> simp
  | refused => cases orc.feedback_service <;> cases orc.review_logger <;> cases orc.notifier <;> simp
  | broke first hf =>
    unfold Orchestrator.told
    cases orc.review_logger <;> cases orc.notifier <;> simp [hf]

theorem reaches_once_sample : ∃ t db result l,
    Steps anyone.step {} (({} : Orchestrator).run_once (sampleRequest "req_1" "key") {}) t db
      (.ret (.ok result, l)) ∧ ReachesOnce {} (sampleRequest "req_1" "key") result t := by
  have hr := @play_steps anyone agreeable (fun _ => trivial) {} (sampleRequest "req_1" "key") {} 60
  with_unfolding_all
    have hrefused : (({} : Orchestrator).play agreeable (sampleRequest "req_1" "key") {} 60).1.any
      refuses_job = false := rfl
    exact ⟨_, _, _, _, hr, (reaches_once_iff hr).mpr
      ⟨rfl, fun h => absurd (hrefused.symm.trans h) Bool.false_ne_true, rfl⟩⟩

/-- An orchestrator with a notifier. -/
def with_notifier : Orchestrator where
  notifier := true

/-- The resource manager refuses every job. -/
def refusing : (o : Op) → Ans o
  | .allow_new_job _ => .ok false
  | o => agreeable o

/-- A notifier hears nothing of a delivered result, and the feedback service nothing of a refused
job. -/
theorem channels_missed :
    (∃ t db result l, Steps anyone.step {} (with_notifier.run_once (sampleRequest "req_1" "key") {})
      t db (.ret (.ok result, l)) ∧ result.state = .DELIVERED ∧ notified_results t = []) ∧
    ∃ t db result l, Steps anyone.step {}
      (({} : Orchestrator).run_once (sampleRequest "req_1" "key") {}) t db
        (.ret (.ok result, l)) ∧ diagnosed_results t = [] ∧ logged_results t = [result] := by
  have hnotifier := @play_steps anyone agreeable (fun _ => trivial) with_notifier
    (sampleRequest "req_1" "key") {} 60
  have hrefused := @play_steps anyone refusing (fun _ => trivial) {}
    (sampleRequest "req_1" "key") {} 60
  with_unfolding_all
    exact ⟨⟨_, _, _, _, hnotifier, rfl, rfl⟩, _, _, _, _, hrefused, rfl, rfl⟩

end Nitpicker
