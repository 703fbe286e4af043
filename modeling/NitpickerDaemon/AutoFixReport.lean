import NitpickerDaemon.Channels
import NitpickerDaemon.Rollback

/-!
What the pipeline makes of the auto-fix: the result code and the summary of the run against
what the service did to the working tree.
-/

set_option autoImplicit false

namespace Nitpicker

open Effect

/-- What a run has seen that decides how it reports a fix. -/
inductive FixMark where
  | fixed (fix : AutoFixResult)
  | raised
  | broke

/-- The mark that an answer leaves. -/
def fix_mark : (o : Op) → Ans o → Option FixMark
  | .apply_patch _ _, .ok fix => some (.fixed fix)
  | .apply_patch _ _, .error _ => some .raised
  | .publish_quick_fix _ _ _ _, .error e =>
    if Orchestrator.quick_fix_catches e then none else some .broke
  | _, _ => none

abbrev marking_fix : List FixMark → (o : Op) → Ans o → List FixMark := collecting fix_mark

/-- The code and the summary that the pipeline gives a fix. -/
structure Reported (fix : AutoFixResult) (code summary : PyVal) : Prop where
  unapplied : fix.applied = false → code = .str "PATCH_PROPOSED"
  failed : fix.applied = true → fix.verify_passed = some false →
    code = .str "PATCH_ROLLBACK" ∧ ∃ s, summary = .str ("[Auto-Fix Rolled Back] " ++ s)
  kept : fix.applied = true → fix.verify_passed ≠ some false →
    code = .str "PATCH_APPLIED" ∧ ∃ s, summary = .str ("[Auto-Fixed] " ++ s)

namespace Orchestrator

section Reports

variable {α : Type} {orc : Orchestrator} {request : ReviewRequest} {context : ContextBundle}
  {x : List FixMark}

/-- A part of the pipeline from the marks `x` on. -/
abbrev Marks (x : List FixMark) (V : α → List FixMark → Prop) (m : Review α) : Prop :=
  Proc.Monitors marking_fix (fun _ _ => True) x V
    (fun _ y => ∀ fix, FixMark.fixed fix ∈ y → FixMark.broke ∈ y) m

theorem marking_fix_plain {o : Op} (a : Ans o) (h : o.plain) : marking_fix x o a = x := by
  cases o <;> first | exact List.append_nil x | exact h.elim

theorem marking_fix_steady {o : Op} (a : Ans o) (h : o.steady) : marking_fix x o a = x := by
  cases o <;> first | exact List.append_nil x | exact h.elim

/-- Before the fix nothing is marked. -/
theorem marks_before {β κ : Type} {f : Locals → κ} {R : PyExc → Prop} {m : Review β}
    {k : β → Review α} {V : α → List FixMark → Prop}
    (hm : Proc.Within (fun _ _ => True) Op.steady f R m) (hk : ∀ b, Marks [] V (k b)) :
    Marks [] V (m >>= k) :=
  hm.monitors_bind (fun _ _ => trivial) (fun _ => marking_fix_steady)
    (fun _ _ _ h => absurd h List.not_mem_nil) hk

theorem marks_plain {β κ : Type} {f : Locals → κ} {m : Review β}
    {k : β → Review α} {V : α → List FixMark → Prop}
    (hm : Proc.Within (fun _ _ => True) Op.plain f (fun _ => False) m)
    (hk : ∀ b, Marks x V (k b)) : Marks x V (m >>= k) :=
  hm.monitors_bind (fun _ _ => trivial) (fun _ => marking_fix_plain) (fun _ h => h.elim) hk

theorem within_plain {κ : Type} {f : Locals → κ} {R : PyExc → Prop} {m : Review α}
    (hm : Proc.Within (fun _ _ => True) Op.plain f R m) :
    Proc.Within (fun _ _ => True) Op.steady f R m :=
  hm.mono (fun _ _ h => h) (fun _ => Op.plain_steady) fun _ h => h

/-- A checked transition and the assignment after it. -/
theorem marks_transition {from_state to_state : ReviewState} {reason code : String}
    {k : Review α} {V : α → List FixMark → Prop} (hk : Marks [] V k) :
    Marks [] V (do
      transition request.request_id from_state to_state reason code
      Proc.assign fun l => { l with current_state := to_state }
      k) :=
  .bind (W := fun _ y => y = []) (.invoke trivial (fun _ _ _ => rfl) fun _ _ _ fix h =>
    absurd h List.not_mem_nil) fun _ y hy => .bind (W := fun _ y => y = []) (.assign hy)
    fun _ y hy => by
      subst hy
      exact hk

/-- What the fix makes of a verdict. -/
theorem apply_fix_reported {fix : AutoFixResult} {v : Verdict}
    (hv : v.result_code = .str "PATCH_PROPOSED") :
    Reported fix (orc.apply_fix fix v).result_code (orc.apply_fix fix v).summary := by
  refine ⟨fun ha => ?_, fun ha hp => ?_, fun ha hp => ?_⟩
  · simp [apply_fix, ha, hv]
  · simp [apply_fix, ha, hp]
  · simp [apply_fix, ha, hp]

/-- The marks after the auto-fix, and what they say about the verdict. -/
structure Fixed (y : List FixMark) (v : Verdict) : Prop where
  unbroken : FixMark.broke ∉ y
  answered : FixMark.raised ∉ y
  reported : ∀ fix, FixMark.fixed fix ∈ y → Reported fix v.result_code v.summary

theorem fixed_nil (v : Verdict) : Fixed [] v :=
  ⟨List.not_mem_nil, List.not_mem_nil, fun _ h => absurd h List.not_mem_nil⟩

theorem autofix_stage_marks {v : Verdict} :
    Marks [] (fun v' y => Fixed y v') (orc.autofix_stage request v) := by
  unfold autofix_stage
  refine .ite (fun hc => ?_) fun _ => .pure (fixed_nil v)
  refine marks_before (f := id) (R := fun _ => True) (.ofExcept fun _ _ => trivial) fun patch => ?_
  refine .ite (fun _ => ?_) fun _ => .pure (fixed_nil v)
  refine .bind (W := fun fix y => y = [.fixed fix]) (.invoke trivial (fun a fix ha => ?_)
    fun a e ha => ?_) fun fix y hy => ?_
  · obtain rfl : a = .ok fix := ha
    rfl
  · obtain rfl : a = .error e := ha
    exact fun fix h => by simp [marking_fix, collecting, fix_mark] at h
  · subst hy
    refine marks_plain (f := id) log_analytics_plain fun _ =>
      .pure ⟨by simp, by simp, fun fix' h => ?_⟩
    simp only [List.mem_singleton, FixMark.fixed.injEq] at h
    rw [h]
    exact apply_fix_reported (PyVal.isStr_iff.mp hc.1)

/-- The marks of a run that returned `result`. -/
structure FixedResult (y : List FixMark) (result : ReviewResult) : Prop where
  unbroken : FixMark.broke ∉ y
  answered : FixMark.raised ∉ y
  reported : ∀ fix, FixMark.fixed fix ∈ y → Reported fix result.result_code result.summary

theorem fixedResult_nil (result : ReviewResult) : FixedResult [] result :=
  ⟨List.not_mem_nil, List.not_mem_nil, fun _ h => absurd h List.not_mem_nil⟩

theorem mark_terminal_safe_plain {request_id : String} {state : ReviewState} {reason : String}
    {code : PyVal} {k : Unit → Review α} {V : α → List FixMark → Prop}
    (hk : Marks x V (k ())) : Marks x V (mark_terminal_safe request_id state reason code >>= k) :=
  .bind (W := fun _ y => y = x) (.attempt (E := fun _ y => y = x)
    (.invoke trivial (fun _ _ _ => List.append_nil x) fun _ _ _ => List.append_nil x)
    fun _ _ hy => .pure hy) fun _ y hy => by
      subst hy
      exact hk

/-- The quick-fix channel leaves a mark exactly when it breaks the run. -/
theorem publish_quick_fix_marks {result : ReviewResult} {target_file : String}
    {findings : List PyDict} {patch : Option PatchProposal} :
    Marks x (fun _ y => y = x) (orc.publish_quick_fix result target_file findings patch) := by
  unfold publish_quick_fix
  refine .ite (fun _ => ?_) fun _ => .pure rfl
  refine .attempt (E := fun e y => y = marking_fix x
      (.publish_quick_fix result target_file findings patch) (.error e))
    (.invoke trivial (fun a _ ha => ?_) fun a e ha => ?_) fun e y hy => .ite (fun hcatch => ?_)
    fun hcatch => ?_
  · obtain rfl : a = .ok _ := ha
    exact List.append_nil x
  · obtain rfl : a = .error e := ha
    rfl
  · refine .pure (hy.trans ?_)
    simp [marking_fix, collecting, fix_mark, hcatch]
  · intro l fix _
    rw [hy]
    simp [marking_fix, collecting, fix_mark, hcatch]

theorem deliver_marks {decisions : List AgentDecision} {v : Verdict} (hx : Fixed x v) :
    Marks x (fun result y => FixedResult y result) (orc.deliver request decisions v) :=
  mark_terminal_safe_plain (marks_plain (f := id) log_analytics_plain fun _ =>
    marks_plain (f := id) publish_diagnostics_plain fun _ =>
    .bind publish_quick_fix_marks fun _ y hy => by
      subst hy
      exact marks_plain (f := id) log_result_plain fun _ => .pure ⟨hx.unbroken, hx.answered, hx.reported⟩)

theorem conclude_marks {decisions : List AgentDecision} :
    Marks [] (fun result y => FixedResult y result) (orc.conclude request context decisions) :=
  marks_transition (marks_before (f := id) (R := fun _ => True)
    (.invoke trivial fun _ _ _ _ => trivial) fun _ =>
    marks_before (f := id) (R := fun _ => True)
      (within_plain (l3_stage_plain (fun _ _ _ => trivial) trivial)) fun _ =>
    marks_before (f := id) (R := fun _ => True)
      (within_plain (patch_stage_plain (fun _ _ _ => trivial) fun _ _ _ => trivial)) fun _ =>
    .bind autofix_stage_marks fun _ _ hy => deliver_marks hy)

theorem analyze_marks {decision : PolicyDecision} :
    Marks [] (fun _ y => y = []) (orc.analyze request decision context) :=
  marks_transition (marks_before (f := id) (R := fun _ => True) (within_plain monotonic_plain)
    fun _ => marks_before (f := id) (R := fun _ => True)
      (run_agents_steady fun _ _ _ _ => trivial) fun _ =>
    marks_before (f := id) (R := fun _ => True) (within_plain monotonic_plain) fun _ =>
    marks_before (f := id) (R := fun _ => True) (within_plain log_analytics_plain) fun _ =>
    .pure rfl)

/-- The remote hand-over leaves no mark. -/
theorem offload_marks {k : Unit → Review α} {V : α → List FixMark → Prop}
    (hk : Marks [] V (k ())) : Marks [] V (orc.offload request context >>= k) := by
  refine .bind (W := fun _ y => y = []) ?_ fun _ y hy => by
    subst hy
    exact hk
  refine .ite (fun _ => .bind (W := fun _ y => y = []) (.invoke trivial (fun _ _ _ => rfl)
    fun _ _ _ fix h => absurd h List.not_mem_nil) fun _ y hy => ?_) fun _ => .pure rfl
  subst hy
  refine .ite (fun _ => .attempt (E := fun _ y => y = []) (.bind (W := fun _ y => y = [])
    (.invoke trivial (fun _ _ _ => rfl) fun _ _ _ => rfl) fun _ y hy => ?_)
    fun _ _ hy => .pure hy) fun _ => .pure rfl
  subst hy
  exact log_analytics_plain.monitors (f := id) (R := fun _ => False) (fun _ _ => trivial)
    (fun _ => marking_fix_plain) (fun _ => rfl) fun _ h => h.elim

theorem review_marks {decision : PolicyDecision} :
    Marks [] (fun result y => FixedResult y result) (orc.review request decision) :=
  marks_transition (marks_before (f := id) (R := fun _ => True)
    (.invoke trivial fun _ _ _ _ => trivial) fun _ => offload_marks
    (marks_before (f := id) (R := fun _ => True)
      (within_plain (context_cache_plain fun _ _ _ _ _ => trivial)) fun _ =>
    .bind analyze_marks fun _ y hy => by
      subst hy
      exact conclude_marks))

theorem reject_policy_marks {decision : PolicyDecision} :
    Marks [] (fun result y => FixedResult y result) (orc.reject_policy request decision) :=
  marks_transition (mark_terminal_safe_plain (marks_plain (f := id) publish_diagnostics_plain
    fun _ => marks_plain (f := id) log_result_plain fun _ => .pure (fixedResult_nil _)))

theorem admission_marks :
    Marks [] (fun result y => FixedResult y result) (orc.admission request) :=
  marks_before (f := id) (R := fun _ => True) (.invoke trivial fun _ _ _ _ => trivial) fun _ =>
    .ite (fun _ => marks_before (f := id) (R := fun _ => True)
      (.invoke trivial fun _ _ _ _ => trivial) fun _ =>
      marks_before (f := id) (R := fun _ => True) (within_plain log_analytics_plain) fun _ =>
      .ite (fun _ => review_marks) fun _ => reject_policy_marks) fun _ =>
      mark_terminal_safe_plain (marks_plain (f := id) log_result_plain fun _ =>
        .pure (fixedResult_nil _))

theorem pipeline_marks :
    Marks [] (fun result y => FixedResult y result) (orc.pipeline request) := by
  refine .bind (W := fun _ y => y = []) (.invoke trivial (fun _ _ _ => rfl)
    fun _ _ _ fix h => absurd h List.not_mem_nil) fun outcome y hy => ?_
  subst hy
  have hassign : ∀ f : Locals → Locals, Marks [] (fun result y => FixedResult y result)
      (Proc.assign f >>= fun _ => orc.admission request) := fun f =>
    .bind (W := fun _ y => y = []) (.assign rfl) fun _ y hy => by
      subst hy
      exact admission_marks
  cases outcome with
  | none => exact hassign _
  | some outcome =>
    exact .ite (fun _ => marks_plain (f := id) log_analytics_plain fun _ =>
      marks_plain (f := id) publish_diagnostics_plain fun _ =>
      marks_plain (f := id) log_result_plain fun _ => .pure (fixedResult_nil _))
      fun _ => hassign _

/-- The result of the exception handler. -/
structure FailureResult (result : ReviewResult) : Prop where
  code : ∃ code ∈ ["LLM_TIMEOUT", "LLM_CONNECTION_ERROR", "LLM_RATE_LIMITED", "SYSTEM_FAILED"],
    result.result_code = .str code ∧ result.summary = .str (build_user_failure_summary code)

theorem record_failure_marks {state : ReviewState} {reason code : String}
    {V : Unit → List FixMark → Prop} {E : PyExc → List FixMark → Prop} (hx : V () x) :
    Proc.Monitors marking_fix (fun _ _ => True) x V E
      (record_failure request state reason code) := by
  refine .bind (W := fun _ y => y = x) (fun _ => rfl) fun l y hy => ?_
  subst hy
  refine .ite (fun _ => .bind (W := fun _ y' => y' = y) (.attempt (E := fun _ y' => y' = y)
    (.invoke trivial (fun _ _ _ => List.append_nil y) fun _ _ _ => List.append_nil y)
    fun _ _ hy' => .pure hy') fun _ y' hy' => ?_) fun _ => .pure hx
  subst hy'
  exact .assign hx

theorem mark_failure_marks {state : ReviewState} {reason code : String}
    {V : Unit → List FixMark → Prop} {E : PyExc → List FixMark → Prop} (hx : V () x) :
    Proc.Monitors marking_fix (fun _ _ => True) x V E
      (mark_failure request state reason code) := by
  refine .bind (W := fun _ y => y = x) (fun _ => rfl) fun l y hy => ?_
  subst hy
  refine .ite (fun _ => .attempt (E := fun _ y' => y' = y)
    (.invoke trivial (fun _ _ _ => ?_) fun _ _ _ => List.append_nil y) fun _ y' hy' => ?_)
    fun _ => .pure hx
  · have hsame : marking_fix y (.mark_terminal request.request_id state (.str reason)
      (.str code)) = fun _ => y := funext fun _ => List.append_nil y
    rw [hsame]
    exact hx
  · subst hy'
    exact .pure hx

/-- The exception handler leaves no mark. -/
theorem handle_failure_marks {error : PyExc} :
    Proc.Monitors marking_fix (fun _ _ => True) x (fun result y => y = x ∧ FailureResult result)
      (fun _ _ => False) (orc.handle_failure request error) := by
  have hclass := classify_failure_mem error
  unfold handle_failure
  generalize classify_failure error = c at hclass ⊢
  obtain ⟨state, status, code⟩ := c
  refine .bind (record_failure_marks (V := fun _ y => y = x) rfl) fun _ y hy => ?_
  subst hy
  refine .bind (mark_failure_marks (V := fun _ y' => y' = y) rfl) fun _ y' hy' => ?_
  subst hy'
  refine publish_diagnostics_plain.monitors_bind (f := id) (R := fun _ => False)
    (fun _ _ => trivial) (fun _ => marking_fix_plain) (fun _ h => h) fun _ => ?_
  refine log_result_plain.monitors_bind (f := id) (R := fun _ => False)
    (fun _ _ => trivial) (fun _ => marking_fix_plain) (fun _ h => h) fun _ => .pure ⟨rfl, code, ?_⟩
  refine ⟨?_, rfl, rfl⟩
  simp only [List.mem_cons, Prod.mk.injEq, List.not_mem_nil, or_false] at hclass
  rcases hclass with ⟨-, -, rfl⟩ | ⟨-, -, rfl⟩ | ⟨-, -, rfl⟩ | ⟨-, -, rfl⟩ <;> simp

end Reports

end Orchestrator

theorem broke_mem_marks {t : Trace} :
    (FixMark.broke ∈ t.filterMap fun ev => fix_mark ev.op ev.ans) ↔
      t.any quick_fix_breaks = true := by
  rw [List.mem_filterMap, List.any_eq_true]
  refine exists_congr fun ev => and_congr_right fun _ => ?_
  obtain ⟨s, o, a, s'⟩ := ev
  cases o with
  | publish_quick_fix result file findings patch =>
    cases a with
    | ok v => simp [fix_mark, quick_fix_breaks]
    | error e => cases hc : Orchestrator.quick_fix_catches e <;> simp [fix_mark, quick_fix_breaks, hc]
  | apply_patch patch file => cases a <;> simp [fix_mark, quick_fix_breaks]
  | _ => simp [fix_mark, quick_fix_breaks]

/-- How a run ends that got `answer` from the auto-fix: it reports the fix, or it failed there,
or it broke in the quick-fix channel afterwards. -/
inductive FixEnd (t : Trace) (result : ReviewResult) : Except PyExc AutoFixResult → Prop where
  | reported (fix : AutoFixResult) : t.any quick_fix_breaks = false →
      Reported fix result.result_code result.summary → FixEnd t result (.ok fix)
  | raised (e : PyExc) : Orchestrator.FailureResult result → FixEnd t result (.error e)
  | broke (fix : AutoFixResult) : t.any quick_fix_breaks = true →
      Orchestrator.FailureResult result → FixEnd t result (.ok fix)

theorem run_ends_fix {orc : Orchestrator} {request : ReviewRequest} {t : Trace}
    {result : ReviewResult} {l : Locals}
    (hp : Path (orc.run_once request {}) t (.ret (.ok result, l))) {s s' : Db} {patch : PyVal}
    {target_file : String} {answer : Except PyExc AutoFixResult}
    (hev : ⟨s, .apply_patch patch target_file, answer, s'⟩ ∈ t) : FixEnd t result answer := by
  have hmem : ∀ mark, fix_mark (.apply_patch patch target_file) answer = some mark →
      mark ∈ t.filterMap fun ev => fix_mark ev.op ev.ans := fun mark h =>
    List.mem_filterMap.mpr ⟨_, hev, h⟩
  rcases Proc.attempt_inv hp with ⟨_, heq, hbody⟩ | ⟨e, l₁, t₁, t₂, rfl, hbody, hhandler⟩
  · cases heq
    have hend := hbody.monitored (Orchestrator.pipeline_marks {})
    rw [watch_collecting, List.nil_append] at hend
    cases answer with
    | error e => exact absurd (hmem .raised rfl) hend.answered
    | ok fix =>
      refine .reported fix ?_ (hend.reported fix (hmem _ rfl))
      rw [← Bool.not_eq_true, ← broke_mem_marks]
      exact hend.unbroken
  · have hend := hbody.monitored (Orchestrator.pipeline_marks {})
    have hlast := hhandler.monitored (Orchestrator.handle_failure_marks (x :=
      watch marking_fix [] t₁) l₁)
    rw [watch_collecting, watch_collecting, List.nil_append] at hlast
    rw [watch_collecting, List.nil_append] at hend
    obtain ⟨hsame, hfailure⟩ := hlast
    cases answer with
    | error e => exact .raised e hfailure
    | ok fix =>
      refine .broke fix ?_ hfailure
      have hfixed := hmem _ rfl
      rw [List.filterMap_append, hsame] at hfixed
      rw [← broke_mem_marks, List.filterMap_append, hsame]
      exact hend fix hfixed

/-- The patch is in the working tree: `git apply` took effect and no checkout did. -/
def InTree (c : Commands) : Prop :=
  (∃ ev ∈ c, applies ev) ∧ ∀ ev ∈ c, checkouts ev → ev.post = ev.pre

def claims_rollback (summary : PyVal) : Bool :=
  match summary with
  | .str s => "[Auto-Fix Rolled Back]".toList.isPrefixOf s.toList
  | _ => false

/-- A text that neither begins with the claim nor is the beginning of it. -/
theorem headed_claims_nothing {cs : List Char} {s : String}
    (h : ¬"[Auto-Fix Rolled Back]".toList <+: cs) (h' : ¬cs <+: "[Auto-Fix Rolled Back]".toList) :
    claims_rollback (.str (String.ofList cs ++ s)) = false := by
  rw [claims_rollback, String.toList_append, ← Bool.not_eq_true, List.isPrefixOf_iff_prefix]
  intro hprefix
  have htext : (String.ofList cs).toList = cs := String.toList_ofList
  rw [htext] at hprefix
  exact (List.prefix_or_prefix_of_prefix hprefix (List.prefix_append cs _)).elim h h'

theorem text_claims_nothing {cs : List Char} (h : ¬"[Auto-Fix Rolled Back]".toList <+: cs)
    (h' : ¬cs <+: "[Auto-Fix Rolled Back]".toList) :
    claims_rollback (.str (String.ofList cs)) = false := by
  have happend := @headed_claims_nothing cs "" h h'
  rwa [String.append_empty] at happend

theorem fixed_claims_nothing (s : String) :
    claims_rollback (.str ("[Auto-Fixed] " ++ s)) = false :=
  headed_claims_nothing (by decide) (by decide)

theorem failure_claims_nothing (code : String) :
    claims_rollback (.str (Orchestrator.build_user_failure_summary code)) = false := by
  unfold Orchestrator.build_user_failure_summary
  split
  · exact headed_claims_nothing (by decide) (by decide)
  split
  · exact text_claims_nothing (by decide) (by decide)
  split
  · exact headed_claims_nothing (by decide) (by decide)
  · exact headed_claims_nothing (by decide) (by decide)

/-- The result of a run says what became of the patch. -/
structure Truthful (answer : Except PyExc AutoFixResult) (c : Commands) (result : ReviewResult) :
    Prop where
  rollback : result.result_code = .str "PATCH_ROLLBACK" ↔
    ∃ fix, answer = .ok fix ∧ fix.rolled_back = true
  applied : result.result_code = .str "PATCH_APPLIED" → InTree c ∧ ∀ ev ∈ c, ¬verify_fails ev
  proposed : result.result_code = .str "PATCH_PROPOSED" → ∀ ev ∈ c, ¬applies ev
  summary : claims_rollback result.summary = true → ¬InTree c

theorem truthful_failure {answer : Except PyExc AutoFixResult} {c : Commands}
    {result : ReviewResult} (h : Orchestrator.FailureResult result) :
    Truthful answer c result ↔ ∀ fix, answer = .ok fix → fix.rolled_back = false := by
  obtain ⟨code, hmem, hcode, hsummary⟩ := h.code
  have hne : ∀ other ∈ ["PATCH_ROLLBACK", "PATCH_APPLIED", "PATCH_PROPOSED"],
      result.result_code ≠ .str other := by
    intro other hother heq
    rw [hcode, PyVal.str.injEq] at heq
    subst heq
    simp only [List.mem_cons, List.not_mem_nil, or_false] at hmem hother
    rcases hmem with rfl | rfl | rfl | rfl <;> simp at hother
  constructor
  · intro ht fix hfix
    by_contra hr
    exact hne "PATCH_ROLLBACK" (by simp) (ht.rollback.mpr ⟨fix, hfix, by simpa using hr⟩)
  · intro hr
    refine ⟨iff_of_false (hne _ (by simp)) fun h => ?_, fun h => absurd h (hne _ (by simp)),
      fun h => absurd h (hne _ (by simp)), fun h => ?_⟩
    · obtain ⟨fix, hfix, hrolled⟩ := h
      rw [hr fix hfix] at hrolled
      cases hrolled
    · rw [hsummary, failure_claims_nothing] at h
      cases h

/-- The service raises in a run with these commands. -/
def FixRaises (patch : PyVal) (c : Commands) : Prop :=
  (∃ ev ∈ c, breaks ev.op ev.ans = true) ∨ (∀ s, patch ≠ .str s) ∧ patch.truthy = true

/-- Nothing happened to the patch that the run does not report. -/
structure Calm (svc : AutoFixService) (target_file : String) (t : Trace) (c : Commands) :
    Prop where
  rollback : (∃ ev ∈ c, verify_fails ev) → (svc.auto_rollback && target_file != "") = false
  calm : t.any quick_fix_breaks = true ∨ ∀ ev ∈ c, ¬verify_fails ev ∧ ¬escapes ev

theorem Patched.unverified {c : Commands} (h : Patched c false) : ∃ ev ∈ c, verify_fails ev := by
  by_contra hno
  have hv := h.verified.mpr fun ev hev hf => hno ⟨ev, hev, hf⟩
  cases hv

theorem Patched.in_tree {c : Commands} {verified : Bool} (h : Patched c verified) : InTree c :=
  ⟨h.applied, fun ev hev hco => absurd hco (h.calm ev hev).2⟩

section Reported

variable {svc : AutoFixService} {target_file : String} {s s' : Repo} {fix : AutoFixResult}
  {c : Commands} {t : Trace} {result : ReviewResult}

theorem reported_truthful_iff (hr : FixRun svc target_file s fix s' c)
    (hb : t.any quick_fix_breaks = false) (h : Reported fix result.result_code result.summary) :
    Truthful (.ok fix) c result ↔ Calm svc target_file t c := by
  have hrolled : (∃ f, (.ok fix : Except PyExc AutoFixResult) = .ok f ∧ f.rolled_back = true) ↔
      fix.rolled_back = true := by simp
  have hcalm : Calm svc target_file t c ↔ ∀ ev ∈ c, ¬verify_fails ev ∧ ¬escapes ev := by
    constructor
    · intro hc
      rcases hc.calm with hbreaks | hall
      · rw [hb] at hbreaks
        cases hbreaks
      · exact hall
    · exact fun hall => ⟨fun hf => (by
        obtain ⟨ev, hev, hv⟩ := hf
        exact absurd hv (hall ev hev).1), .inr hall⟩
  rw [hcalm]
  cases hr with
  | refused _ _ ha hno _ _ hq =>
    have hcode := h.unapplied ha
    refine iff_of_true ⟨?_, fun hc => ?_, fun _ ev hev => (hq ev hev).1, fun _ hin => ?_⟩
      fun ev hev => ⟨(hq ev hev).2.2, fun he => (hq ev hev).1 (escapes_applies he)⟩
    · rw [hrolled, hcode, hno]
      simp
    · rw [hcode] at hc
      simp at hc
    · obtain ⟨⟨ev, hev, happ⟩, -⟩ := hin
      exact (hq ev hev).1 happ
  | escaped _ _ ha _ _ hesc =>
    obtain ⟨ev, hev, he⟩ := hesc.escaped
    exact iff_of_false (fun ht => ht.proposed (h.unapplied ha) ev hev (escapes_applies he))
      fun hall => (hall ev hev).2 he
  | accepted _ _ ha hno hpass hp =>
    obtain ⟨hcode, summary, hsummary⟩ := h.kept ha hpass
    have hverified := hp.verified.mp rfl
    refine iff_of_true ⟨?_, fun _ => ⟨hp.in_tree, hverified⟩, fun hc => ?_, fun hc => ?_⟩
      fun ev hev => ⟨hverified ev hev, (hp.calm ev hev).1⟩
    · rw [hrolled, hcode, hno]
      simp
    · rw [hcode] at hc
      simp at hc
    · rw [hsummary, fixed_claims_nothing] at hc
      cases hc
  | kept _ _ ha hno hfail hp _ =>
    obtain ⟨ev, hev, hv⟩ := hp.unverified
    refine iff_of_false (fun ht => ?_) fun hall => (hall ev hev).1 hv
    have hback := hrolled.mp (ht.rollback.mp (h.failed ha hfail).1)
    rw [hno] at hback
    cases hback
  | restored s₁ _ t₁ a ha hyes _ hp _ _ =>
    obtain ⟨ev, hev, hv⟩ := hp.unverified
    refine iff_of_false (fun ht => ?_) fun hall => (hall ev (List.mem_append_left _ hev)).1 hv
    have hcode := ht.rollback.mpr (hrolled.mpr hyes)
    rw [h.unapplied ha] at hcode
    simp at hcode

theorem broke_truthful_iff (hr : FixRun svc target_file s fix s' c)
    (hb : t.any quick_fix_breaks = true) (h : Orchestrator.FailureResult result) :
    Truthful (.ok fix) c result ↔ Calm svc target_file t c := by
  have hrolled : (∀ f, (.ok fix : Except PyExc AutoFixResult) = .ok f → f.rolled_back = false) ↔
      fix.rolled_back = false := by simp
  rw [truthful_failure h, hrolled]
  cases hr with
  | refused _ _ _ hno _ _ hq =>
    refine iff_of_true hno ⟨fun hf => ?_, .inl hb⟩
    obtain ⟨ev, hev, hv⟩ := hf
    exact absurd hv (hq ev hev).2.2
  | escaped _ _ _ hno _ hesc =>
    refine iff_of_true hno ⟨fun hf => ?_, .inl hb⟩
    obtain ⟨ev, hev, hv⟩ := hf
    exact absurd hv (hesc.calm ev hev).2
  | accepted _ _ _ hno _ hp =>
    refine iff_of_true hno ⟨fun hf => ?_, .inl hb⟩
    obtain ⟨ev, hev, hv⟩ := hf
    exact absurd hv (hp.verified.mp rfl ev hev)
  | kept _ _ _ hno _ _ hoff => exact iff_of_true hno ⟨fun _ => hoff, .inl hb⟩
  | restored s₁ _ t₁ a _ hyes _ hp hon _ =>
    obtain ⟨ev, hev, hv⟩ := hp.unverified
    refine iff_of_false (by simp [hyes]) fun hc => ?_
    have hoff := hc.rollback ⟨ev, List.mem_append_left _ hev, hv⟩
    rw [hon] at hoff
    cases hoff

end Reported

/-- The result of a run that asked for an auto-fix is right about the patch exactly when the
service raised, or nothing happened that the run does not report. -/
theorem fix_reported_truly_iff {env : Env} {orc : Orchestrator} {request : ReviewRequest}
    {db db' s s' : Db} {t : Trace} {result : ReviewResult} {l : Locals} {patch : PyVal}
    {target_file : String} {answer : Except PyExc AutoFixResult}
    {patched : String → Tree → Option Tree} {svc : AutoFixService} {repo repo' : Repo}
    {c : Commands} {u : Unit}
    (hr : Steps env.step db (orc.run_once request {}) t db' (.ret (.ok result, l)))
    (hev : ⟨s, .apply_patch patch target_file, answer, s'⟩ ∈ t)
    (hfix : Steps (Repo.step patched) repo (svc.apply_patch patch target_file ()) c repo'
      (.ret (answer, u))) :
    Truthful answer c result ↔ FixRaises patch c ∨ Calm svc target_file t c := by
  have hraises := apply_patch_raises_iff hfix.path
  cases run_ends_fix hr.path hev with
  | raised e hfailure =>
    refine iff_of_true ((truthful_failure hfailure).mpr fun fix h => ?_)
      (.inl (hraises.mp ⟨e, rfl⟩))
    cases h
  | reported fix hb h =>
    have hno : ¬FixRaises patch c := fun h => by
      obtain ⟨e, he⟩ := hraises.mpr h
      cases he
    rw [or_iff_right hno]
    exact reported_truthful_iff (fix_run hfix) hb h
  | broke fix hb h =>
    have hno : ¬FixRaises patch c := fun h => by
      obtain ⟨e, he⟩ := hraises.mpr h
      cases he
    rw [or_iff_right hno]
    exact broke_truthful_iff (fix_run hfix) hb h

/-- An orchestrator with the L3 gate and the auto-fix. -/
def fixing : Orchestrator := { llm_review_gate := true, autofix_service := true }

/-- The L3 gate proposes a patch, and the auto-fix answers `fix`. -/
def proposing (fix : AutoFixResult) : (o : Op) → Ans o
  | .llm_review _ _ _ => .ok [("result_code", .str "PATCH_PROPOSED"),
      ("suggested_patch", .str "diff"), ("confidence_score", .float 1)]
  | .apply_patch _ _ => .ok fix
  | o => agreeable o

def fixRequest : ReviewRequest := { sampleRequest "req_1" "key" with target_file := "a.py" }

/-- `git apply` writes `a.py`, and the verification ends with `verify_code`. -/
def fix_sample (verify_code : Int) :
    Commands × Repo × Prog Command CommandAns (Except PyExc AutoFixResult × Unit) :=
  ({ verify_cmd := ["pytest"] } : AutoFixService).play (fun _ _ => some (two_files "new" "b"))
    verify_code "diff" "a.py" ⟨two_files "old" "b", two_files "old" "b"⟩

theorem fix_sample_steps (verify_code : Int) :
    Steps (Repo.step fun _ _ => some (two_files "new" "b"))
      ⟨two_files "old" "b", two_files "old" "b"⟩
      (({ verify_cmd := ["pytest"] } : AutoFixService).apply_patch (.str "diff") "a.py" ())
      (fix_sample verify_code).1 (fix_sample verify_code).2.1 (fix_sample verify_code).2.2 :=
  Prog.run_for_steps (run_git_step _ verify_code) 10 _ _

/-- The events of `fix_sample` when the verification succeeds. -/
theorem fix_sample_calm : Calm ({ verify_cmd := ["pytest"] } : AutoFixService) "a.py" []
    (fix_sample 0).1 := by
  have hall : ∀ ev ∈ (fix_sample 0).1, ¬verify_fails ev ∧ ¬escapes ev := by
    have hlist : (fix_sample 0).1 = [⟨_, .mkstemp, .ok (), _⟩, ⟨_, .write "diff", .ok (), _⟩,
        ⟨_, .apply_check "diff", .ok ⟨0, "", ""⟩, _⟩, ⟨_, .apply "diff", .ok ⟨0, "", ""⟩, _⟩,
        ⟨_, .unlink, .ok (), _⟩, ⟨_, .verify ["pytest"], .ok ⟨0, "", ""⟩, _⟩] := rfl
    rw [hlist]
    simp [verify_fails, escapes]
  refine ⟨fun h => ?_, .inr hall⟩
  obtain ⟨ev, hev, hv⟩ := h
  exact absurd hv (hall ev hev).1

theorem fixing_asks (fix : AutoFixResult) : ∃ s s',
    ⟨s, .apply_patch (.str "diff") "a.py", .ok fix, s'⟩ ∈
      (fixing.play (proposing fix) fixRequest {} 60).1 := by
  have hev : ∃ s s', (fixing.play (proposing fix) fixRequest {} 60).1[15]? =
      some ⟨s, .apply_patch (.str "diff") "a.py", .ok fix, s'⟩ := ⟨_, _, rfl⟩
  obtain ⟨s, s', hev⟩ := hev
  exact ⟨s, s', List.mem_of_getElem? hev⟩

theorem fix_reported_sample : ∃ fix result l u,
    (fix_sample 0).2.2 = .ret (.ok fix, u) ∧
    (fixing.play (proposing fix) fixRequest {} 60).2.2 = .ret (.ok result, l) ∧
    result.result_code = .str "PATCH_APPLIED" ∧ Truthful (.ok fix) (fix_sample 0).1 result := by
  have hcalm := fix_sample_calm
  have hfix : ∃ fix u, (fix_sample 0).2.2 = .ret (.ok fix, u) ∧
      ∃ result l, (fixing.play (proposing fix) fixRequest {} 60).2.2 = .ret (.ok result, l) ∧
        result.result_code = .str "PATCH_APPLIED" := ⟨_, _, rfl, _, _, rfl, rfl⟩
  obtain ⟨fix, u, hret, result, l, hend, hcode⟩ := hfix
  obtain ⟨s, s', hev⟩ := fixing_asks fix
  have hr := @play_steps anyone (proposing fix) (fun _ => trivial) fixing fixRequest {} 60
  have hfix := fix_sample_steps 0
  rw [hend] at hr
  rw [hret] at hfix
  refine ⟨fix, result, l, u, hret, hend, hcode,
    (fix_reported_truly_iff hr hev hfix).mpr (.inr ⟨hcalm.rollback, .inr ?_⟩)⟩
  rcases hcalm.calm with h | h
  · cases h
  · exact h

/-- A patch that is rolled back is still reported as proposed. -/
theorem rollback_reported_as_proposed : ∃ t db s s' result l c repo' fix u,
    Steps anyone.step {} (fixing.run_once fixRequest {}) t db (.ret (.ok result, l)) ∧
    ⟨s, .apply_patch (.str "diff") "a.py", .ok fix, s'⟩ ∈ t ∧
    Steps (Repo.step fun _ _ => some (two_files "new" "b"))
      ⟨two_files "old" "b", two_files "old" "b"⟩
      (({ verify_cmd := ["pytest"] } : AutoFixService).apply_patch (.str "diff") "a.py" ()) c repo'
      (.ret (.ok fix, u)) ∧
    fix.rolled_back = true ∧ result.result_code = .str "PATCH_PROPOSED" ∧
    ¬Truthful (.ok fix) c result := by
  have hfix : ∃ fix u, (fix_sample 1).2.2 = .ret (.ok fix, u) ∧ fix.rolled_back = true ∧
      ∃ result l, (fixing.play (proposing fix) fixRequest {} 60).2.2 = .ret (.ok result, l) ∧
        result.result_code = .str "PATCH_PROPOSED" := ⟨_, _, rfl, rfl, _, _, rfl, rfl⟩
  obtain ⟨fix, u, hret, hrolled, result, l, hend, hcode⟩ := hfix
  obtain ⟨s, s', hev⟩ := fixing_asks fix
  have hr := @play_steps anyone (proposing fix) (fun _ => trivial) fixing fixRequest {} 60
  have hfix := fix_sample_steps 1
  rw [hend] at hr
  rw [hret] at hfix
  refine ⟨_, _, s, s', result, l, _, _, fix, u, hr, hev, hfix, hrolled, hcode, fun h => ?_⟩
  have hback := h.rollback.mpr ⟨fix, rfl, hrolled⟩
  rw [hcode] at hback
  simp at hback

end Nitpicker
