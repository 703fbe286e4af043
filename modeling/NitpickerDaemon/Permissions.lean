import NitpickerDaemon.AutoFixReport

/-!
The permissions of the policy decision against the effects of a run: what has to be true of the
answers for every auto-fix and every remote hand-over to be permitted.
-/

set_option autoImplicit false

namespace Nitpicker

open Effect

/-- What a run has seen and done about its effects. -/
inductive EffectMark where
  | decided (decision : PolicyDecision)
  | offloads
  | submitted (diff : String)
  | proposed
  | applied

/-- An L3 dict whose patch is handed to the auto-fix. -/
def proposes_patch (llm_result : PyDict) : Bool :=
  (llm_result.getD "result_code" (.str "REVIEW_PASSED")).isStr "PATCH_PROPOSED" &&
    ((llm_result.get "suggested_patch").or (.str "")).truthy &&
    match Orchestrator.to_float (llm_result.get "confidence_score") with
    | some (.error _) => false
    | _ => true

def effect_mark (orc : Orchestrator) : (o : Op) → Ans o → Option EffectMark
  | .evaluate_request _, .ok decision => some (.decided decision)
  | .should_offload _ _, .ok true => some .offloads
  | .submit request, _ => some (.submitted request.masked_diff)
  | .llm_review _ _ _, .ok llm_result =>
    if orc.autofix_service && proposes_patch llm_result then some .proposed else none
  | .apply_patch _ _, _ => some .applied
  | _, _ => none

def EffectMark.decision : EffectMark → Option PolicyDecision
  | .decided decision => some decision
  | _ => none

/-- Every effect goes back to the answer that asks for it, after one decision. -/
structure Grounded (request : ReviewRequest) (y : List EffectMark) : Prop where
  one : y = [] ∨ ∃ decision, y.filterMap EffectMark.decision = [decision]
  applied : EffectMark.applied ∈ y ↔ EffectMark.proposed ∈ y
  submitted : (∃ diff, EffectMark.submitted diff ∈ y) ↔ EffectMark.offloads ∈ y
  diff : ∀ diff, EffectMark.submitted diff ∈ y → diff = request.diff_text

/-- The same for a run that has not ended: no effect without the answer that asks for it. -/
structure Accountable (request : ReviewRequest) (y : List EffectMark) : Prop where
  one : y = [] ∨ ∃ decision, y.filterMap EffectMark.decision = [decision]
  applied : EffectMark.applied ∈ y → EffectMark.proposed ∈ y
  submitted : ∀ diff, EffectMark.submitted diff ∈ y →
    EffectMark.offloads ∈ y ∧ diff = request.diff_text

theorem grounded_nil (request : ReviewRequest) : Grounded request [] :=
  ⟨.inl rfl, by simp, by simp, by simp⟩

theorem grounded_decided (request : ReviewRequest) (decision : PolicyDecision) :
    Grounded request [.decided decision] :=
  ⟨.inr ⟨decision, rfl⟩, by simp, by simp, by simp⟩

section Grounded

variable {request : ReviewRequest} {x : List EffectMark}

theorem Grounded.accountable (h : Grounded request x) : Accountable request x :=
  ⟨h.one, h.applied.mp, fun diff hd => ⟨h.submitted.mp ⟨diff, hd⟩, h.diff diff hd⟩⟩

theorem Grounded.offloads (h : Grounded request x) (hne : x ≠ []) :
    Accountable request (x ++ [.offloads]) := by
  refine ⟨.inr ?_, by simp [h.applied], fun diff hd => ⟨by simp, h.diff diff (by simpa using hd)⟩⟩
  obtain ⟨decision, hd⟩ := h.one.resolve_left hne
  exact ⟨decision, by simp [hd, EffectMark.decision]⟩

theorem Grounded.proposed (h : Grounded request x) (hne : x ≠ []) :
    Accountable request (x ++ [.proposed]) := by
  refine ⟨.inr ?_, by simp, fun diff hd => ?_⟩
  · obtain ⟨decision, hd⟩ := h.one.resolve_left hne
    exact ⟨decision, by simp [hd, EffectMark.decision]⟩
  · have hd := h.accountable.submitted diff (by simpa using hd)
    exact ⟨List.mem_append_left _ hd.1, hd.2⟩

theorem Grounded.offload (h : Grounded request x) (hne : x ≠ []) :
    Grounded request (x ++ [.offloads, .submitted request.diff_text]) := by
  refine ⟨.inr ?_, by simp [h.applied], by simp, fun diff hd => ?_⟩
  · obtain ⟨decision, hd⟩ := h.one.resolve_left hne
    exact ⟨decision, by simp [hd, EffectMark.decision]⟩
  · simp only [List.mem_append, List.mem_cons, EffectMark.submitted.injEq, reduceCtorEq,
      List.not_mem_nil, or_false, false_or] at hd
    rcases hd with hd | hd
    · exact h.diff diff hd
    · exact hd

theorem Grounded.apply (h : Grounded request x) (hne : x ≠ []) :
    Grounded request (x ++ [.proposed, .applied]) := by
  refine ⟨.inr ?_, by simp, by simp [h.submitted], fun diff hd => ?_⟩
  · obtain ⟨decision, hd⟩ := h.one.resolve_left hne
    exact ⟨decision, by simp [hd, EffectMark.decision]⟩
  · exact h.diff diff (by simpa using hd)

end Grounded

namespace Orchestrator

/-- A question that leaves no mark. -/
def Unmarked (orc : Orchestrator) (o : Op) : Prop := ∀ a, effect_mark orc o a = none

/-- The auto-fix stage hands the patch of this verdict to the service. -/
def applies_fix (orc : Orchestrator) (v : Verdict) : Bool :=
  v.result_code.isStr "PATCH_PROPOSED" && orc.autofix_service &&
    match orc.suggested_patch v with
    | .ok patch => patch.truthy
    | .error _ => false

section Tracks

variable {α β κ : Type} {orc : Orchestrator} {request : ReviewRequest} {context : ContextBundle}
  {f : Locals → κ} {x : List EffectMark}

theorem idle_unmarked {o : Op} (h : o.idle) : orc.Unmarked o := by
  cases o <;> first | exact fun _ => rfl | exact h.elim

theorem channel_unmarked {o : Op} (h : o.channel) : orc.Unmarked o := by
  cases o <;> first | exact fun _ => rfl | exact h.elim

theorem within_unmarked {R : PyExc → Prop} {m : Review α}
    (hm : Proc.Within (fun _ _ => True) Op.idle f R m) :
    Proc.Within (fun _ _ => True) orc.Unmarked f R m :=
  hm.mono (fun _ _ h => h) (fun _ => idle_unmarked) fun _ h => h

/-- A part of the pipeline from the marks `x` on. -/
abbrev Tracks (orc : Orchestrator) (request : ReviewRequest) (x : List EffectMark)
    (V : α → List EffectMark → Prop) (m : Review α) : Prop :=
  Proc.Monitors (collecting (effect_mark orc)) (fun y _ => Accountable request y) x V
    (fun _ y => Grounded request y) m

theorem tracks_unmarked {m : Review β} {k : β → Review α} {V : α → List EffectMark → Prop}
    (hx : Grounded request x) (hm : Proc.Within (fun _ _ => True) orc.Unmarked f (fun _ => True) m)
    (hk : ∀ b, orc.Tracks request x V (k b)) : orc.Tracks request x V (m >>= k) :=
  hm.monitors_bind (fun _ _ => hx.accountable) (fun _ a h => collecting_none (h a)) (fun _ _ => hx)
    hk

/-- The same for a part that raises nothing. -/
theorem tracks_idle {m : Review β} {k : β → Review α} {V : α → List EffectMark → Prop}
    (hx : Accountable request x)
    (hm : Proc.Within (fun _ _ => True) Op.idle id (fun _ => False) m)
    (hk : ∀ b, orc.Tracks request x V (k b)) : orc.Tracks request x V (m >>= k) :=
  (within_unmarked hm).monitors_bind (fun _ _ => hx) (fun _ a h => collecting_none (h a))
    (fun _ h => h.elim) hk

/-- A part that leaves no mark, at the end. -/
theorem tracks_end {m : Review α}
    (hx : Grounded request x)
    (hm : Proc.Within (fun _ _ => True) orc.Unmarked f (fun _ => True) m) :
    orc.Tracks request x (fun _ y => Grounded request y) m :=
  hm.monitors (fun _ _ => hx.accountable) (fun _ a h => collecting_none (h a)) (fun _ => hx)
    fun _ _ => hx

theorem transition_unmarked {from_state to_state : ReviewState} {reason code : String} :
    Proc.Within (fun _ _ => True) orc.Unmarked f (fun _ => True)
      (transition request.request_id from_state to_state reason code) :=
  .invoke (fun _ => rfl) fun _ _ _ _ => trivial

theorem mark_terminal_safe_unmarked {state : ReviewState} {reason : String} {code : PyVal}
    {R : PyExc → Prop} : Proc.Within (fun _ _ => True) orc.Unmarked f R
      (mark_terminal_safe request.request_id state reason code) :=
  best_effort_within (.invoke (fun _ => rfl) fun _ _ _ _ => trivial)

theorem deliver_unmarked {decisions : List AgentDecision} {v : Verdict} :
    Proc.Within (fun _ _ => True) orc.Unmarked id (fun _ => True) (orc.deliver request decisions v) :=
  .bind mark_terminal_safe_unmarked fun _ => .bind (within_unmarked log_analytics_idle) fun _ =>
    .bind (within_unmarked publish_diagnostics_idle) fun _ =>
    .bind ((publish_quick_fix_channel fun _ _ _ => trivial).mono (fun _ _ h => h)
      (fun _ => channel_unmarked) fun _ h => h) fun _ =>
    .bind (within_unmarked log_result_idle) fun _ => .pure _

theorem reject_policy_unmarked {decision : PolicyDecision} :
    Proc.Within (fun _ _ => True) orc.Unmarked (fun _ => ()) (fun _ => True)
      (orc.reject_policy request decision) :=
  .bind transition_unmarked fun _ => .bind (.assign fun _ => rfl) fun _ =>
    .bind mark_terminal_safe_unmarked fun _ => .bind (within_unmarked publish_diagnostics_idle)
      fun _ => .bind (within_unmarked log_result_idle) fun _ => .pure _

theorem reject_resources_unmarked :
    Proc.Within (fun _ _ => True) orc.Unmarked id (fun _ => True) (orc.reject_resources request) :=
  .bind mark_terminal_safe_unmarked fun _ => .bind (within_unmarked log_result_idle) fun _ => .pure _

theorem handle_duplicate_request_unmarked {state : Option String} :
    Proc.Within (fun _ _ => True) orc.Unmarked id (fun _ => True)
      (orc.handle_duplicate_request request state) :=
  handle_duplicate_request_channel.mono (fun _ _ h => h) (fun _ => channel_unmarked) fun _ h => h

/-- The remote hand-over is asked for exactly when the policy engine wants it. -/
theorem offload_tracks (hx : Grounded request x) (hne : x ≠ []) :
    orc.Tracks request x (fun _ y => Grounded request y ∧ y ≠ []) (orc.offload request context) := by
  have hdone := hx.offload hne
  have hsome : x ++ [EffectMark.offloads, .submitted request.diff_text] ≠ [] := by simp
  unfold offload
  refine .ite (fun _ => ?_) fun _ => .pure ⟨hx, hne⟩
  refine .bind (W := fun should_offload y => y = x ++ if should_offload then [.offloads] else [])
    (.invoke hx.accountable (fun a b ha => ?_) fun a e ha => ?_) fun should_offload y hy => ?_
  · obtain rfl : a = .ok b := ha
    cases b <;> simp [collecting, effect_mark]
  · obtain rfl : a = .error e := ha
    rw [collecting_none rfl]
    exact hx
  · cases should_offload with
    | false =>
      obtain rfl : y = x := by simpa using hy
      exact .pure ⟨hx, hne⟩
    | true =>
      have hsub : ∀ r a, r.masked_diff = request.diff_text → collecting (effect_mark orc) y
          (.submit r) a = x ++ [.offloads, .submitted request.diff_text] := by
        intro r a hr
        cases a <;> simp [hy, hr, collecting, effect_mark]
      refine .attempt (E := fun _ z => z = x ++ [.offloads, .submitted request.diff_text])
        (.bind (W := fun _ z => z = x ++ [.offloads, .submitted request.diff_text])
          (.invoke (hy ▸ hx.offloads hne) (fun a _ _ => hsub _ a rfl) fun a _ _ => hsub _ a rfl) fun _ z hz => ?_)
        fun _ z hz => .pure (hz ▸ ⟨hdone, hsome⟩)
      subst hz
      exact (within_unmarked log_analytics_idle).monitors (f := id) (R := fun _ => False)
        (fun _ _ => hdone.accountable) (fun _ a h => collecting_none (h a)) (fun _ => ⟨hdone, hsome⟩)
        fun _ h => h.elim

/-- The marks `y` of a verdict that may go to the auto-fix, from `x` on. -/
structure Pending (orc : Orchestrator) (x y : List EffectMark) (v : Verdict) : Prop where
  marks : y = x ++ if orc.applies_fix v then [.proposed] else []
  settled : v.consensus.status = .pass ∨ v.llm_result = none

theorem not_applies_fix {v : Verdict} (h : v.llm_result = none) : orc.applies_fix v = false := by
  unfold applies_fix suggested_patch
  cases orc.llm_review_gate <;> simp [h, PyVal.truthy]

theorem pending_none {v : Verdict} (h : v.llm_result = none) : Pending orc x x v :=
  ⟨by simp [not_applies_fix h], .inr h⟩

/-- What the L3 dict makes of a passing verdict. -/
theorem apply_l3_applies {d : PyDict} {v v' : Verdict} (h : apply_l3 d v = .ok v')
    (hgate : orc.llm_review_gate = true) :
    orc.applies_fix v' = (orc.autofix_service && proposes_patch d) := by
  unfold apply_l3 at h
  cases hf : to_float (d.get "confidence_score") with
  | none =>
    simp only [hf, Except.ok.injEq] at h
    subst h
    simp only [applies_fix, suggested_patch, hgate, proposes_patch, hf, if_true]
    cases orc.autofix_service <;> simp
  | some r =>
    cases r with
    | error e => simp [hf] at h
    | ok q =>
      simp only [hf, Except.ok.injEq] at h
      subst h
      simp only [applies_fix, suggested_patch, hgate, proposes_patch, hf, if_true]
      cases orc.autofix_service <;> simp

theorem apply_l3_raises {d : PyDict} {v : Verdict} {e : PyExc} (h : apply_l3 d v = .error e) :
    proposes_patch d = false := by
  unfold apply_l3 at h
  cases hf : to_float (d.get "confidence_score") with
  | none => simp [hf] at h
  | some r =>
    cases r with
    | ok q => simp [hf] at h
    | error e' => simp [proposes_patch, hf]

theorem Pending.accountable {y : List EffectMark} {v : Verdict} (h : Pending orc x y v)
    (hx : Grounded request x) (hne : x ≠ []) : Accountable request y := by
  rw [h.marks]
  split
  · exact hx.proposed hne
  · rw [List.append_nil]
    exact hx.accountable

theorem l3_stage_tracks {decisions : List AgentDecision} {v : Verdict}
    (hx : Grounded request x) (hne : x ≠ []) (hv : v.llm_result = none) :
    orc.Tracks request x (fun v' y => Pending orc x y v')
      (orc.l3_stage request context decisions v) := by
  have hacc := hx.accountable
  unfold l3_stage
  refine .ite (fun hc => ?_) fun _ => .pure (pending_none hv)
  refine tracks_idle hacc log_analytics_idle fun _ => tracks_idle hacc monotonic_idle fun _ =>
    tracks_idle hacc record_stage_event_idle fun _ => .bind
      (W := fun d y => y = x ++ if orc.autofix_service && proposes_patch d then [.proposed] else [])
      (.attempt (E := fun _ y => y = x) (.invoke hacc (fun a d ha => ?_) fun a e ha => ?_)
        fun e y hy => ?_) fun d y hy => ?_
  · obtain rfl : a = .ok d := ha
    cases h : orc.autofix_service && proposes_patch d <;> simp [collecting, effect_mark, h]
  · obtain rfl : a = .error e := ha
    exact collecting_none rfl
  · subst hy
    exact tracks_idle hacc monotonic_idle fun _ =>
      tracks_idle hacc record_stage_event_idle fun _ _ => hx
  · have hacc' : Accountable request y := by
      rw [hy]
      split
      · exact hx.proposed hne
      · rw [List.append_nil]
        exact hacc
    refine tracks_idle hacc' monotonic_idle fun _ => tracks_idle hacc' record_stage_event_idle
      fun _ => tracks_idle hacc' log_analytics_idle fun _ => .ofExcept (fun v' hv' => ?_) fun e he => ?_
    · refine ⟨?_, .inl ((apply_l3_status hv').trans hc.1)⟩
      rw [hy, apply_l3_applies hv' hc.2]
    · obtain rfl : y = x := by simpa [apply_l3_raises he] using hy
      exact hx

theorem patch_stage_tracks {v : Verdict} {y : List EffectMark}
    (hx : Grounded request x) (hv : Pending orc x y v) :
    orc.Tracks request y (fun v' z => Pending orc x z v') (orc.patch_stage request v) := by
  unfold patch_stage
  refine .ite (fun hpatch => ?_) fun _ => .pure hv
  have hnone : v.llm_result = none := by
    rcases hv.settled with h | h
    · rw [hpatch] at h
      cases h
    · exact h
  obtain rfl : y = x := by simpa [not_applies_fix hnone] using hv.marks
  have hrequired : Pending orc y y (orc.patch_required v) := pending_none hnone
  refine .ite (fun _ => tracks_unmarked hx (f := id) (.invoke (fun _ => rfl)
    fun _ _ _ _ => trivial) fun patch => ?_) fun _ => .pure hrequired
  cases patch with
  | none => exact .pure hrequired
  | some patch =>
    exact tracks_unmarked hx (f := id) (.invoke (fun _ => rfl) fun _ _ _ _ => trivial) fun report =>
      tracks_idle hx.accountable log_analytics_idle fun _ => .ite (fun _ => .pure (pending_none hnone))
        fun _ => .pure (pending_none hnone)

theorem autofix_stage_tracks {v : Verdict} {y : List EffectMark} (hx : Grounded request x)
    (hne : x ≠ []) (hv : Pending orc x y v) :
    orc.Tracks request y (fun _ z => Grounded request z) (orc.autofix_stage request v) := by
  have hkept : orc.applies_fix v = false → Grounded request y := fun h => by
    rw [hv.marks, h]
    simpa using hx
  unfold autofix_stage
  refine .ite (fun hc => .bind (W := fun patch z => z = y ∧ orc.suggested_patch v = .ok patch)
    (.ofExcept (fun patch hp => ⟨rfl, hp⟩) fun e he => hkept ?_) fun patch z hz => ?_) fun hc =>
      .pure (hkept ?_)
  · simp [applies_fix, he]
  · obtain ⟨rfl, hpatch⟩ := hz
    refine .ite (fun ht => ?_) fun ht => .pure (hkept ?_)
    · have hmarks : ∀ a, collecting (effect_mark orc) z (.apply_patch patch request.target_file) a =
          x ++ [.proposed, .applied] := by
        intro a
        have happlies : orc.applies_fix v = true := by simp [applies_fix, hc, hpatch, ht]
        cases a <;> simp [hv.marks, happlies, collecting, effect_mark]
      refine .bind (W := fun _ w => w = x ++ [.proposed, .applied])
        (.invoke (hv.accountable hx hne) (fun a _ _ => hmarks a) fun a _ _ => ?_) fun fix w hw => ?_
      · rw [hmarks]
        exact hx.apply hne
      · subst hw
        have hdone := hx.apply hne
        exact tracks_idle hdone.accountable log_analytics_idle fun _ => .pure hdone
    · simp [applies_fix, hpatch, ht]
  · simp only [applies_fix]
    by_cases hcode : v.result_code.isStr "PATCH_PROPOSED" = true
    · simp [show orc.autofix_service = false by simpa [hcode] using hc]
    · simp [hcode]

theorem tracks_transition {from_state to_state : ReviewState} {reason code : String}
    {k : Review α} {V : α → List EffectMark → Prop} (hx : Grounded request x)
    (hk : orc.Tracks request x V k) : orc.Tracks request x V (do
      transition request.request_id from_state to_state reason code
      Proc.assign fun l => { l with current_state := to_state }
      k) :=
  tracks_unmarked hx transition_unmarked (f := id) fun _ => tracks_unmarked hx (f := fun _ => ())
    (.assign fun _ => rfl) fun _ => hk

theorem conclude_tracks {decisions : List AgentDecision} (hx : Grounded request x) (hne : x ≠ []) :
    orc.Tracks request x (fun _ y => Grounded request y)
      (orc.conclude request context decisions) := by
  refine tracks_transition hx (tracks_unmarked hx (f := id) (.invoke (fun _ => rfl)
    fun _ _ _ _ => trivial) fun consensus => .bind (l3_stage_tracks hx hne rfl) fun v y hv =>
    .bind (patch_stage_tracks hx hv) fun v y hv => .bind (autofix_stage_tracks hx hne hv)
      fun v y hy => ?_)
  exact tracks_end hy deliver_unmarked

theorem analyze_tracks {decision : PolicyDecision} (hx : Grounded request x) (hne : x ≠ []) :
    orc.Tracks request x (fun _ y => Grounded request y ∧ y ≠ [])
      (orc.analyze request decision context) :=
  tracks_transition hx (tracks_idle hx.accountable monotonic_idle fun _ => tracks_unmarked hx (f := id)
    (run_agents_asks (fun _ => rfl) (fun _ _ => rfl) (fun _ _ => rfl) fun _ _ _ _ => trivial) fun _ =>
    tracks_idle hx.accountable monotonic_idle fun _ =>
    tracks_idle hx.accountable log_analytics_idle fun _ => .pure ⟨hx, hne⟩)

theorem review_tracks {decision : PolicyDecision} (hx : Grounded request x) (hne : x ≠ []) :
    orc.Tracks request x (fun _ y => Grounded request y) (orc.review request decision) := by
  refine tracks_transition hx (tracks_unmarked hx (f := id) (.invoke (fun _ => rfl)
    fun _ _ _ _ => trivial) fun context => .bind (offload_tracks hx hne) fun _ y hy => ?_)
  refine tracks_unmarked hy.1 (f := id) (within_unmarked (context_cache_idle fun _ _ _ _ _ =>
    trivial)) fun _ => .bind (analyze_tracks hy.1 hy.2) fun _ z hz => conclude_tracks hz.1 hz.2

theorem admission_tracks :
    orc.Tracks request [] (fun _ y => Grounded request y) (orc.admission request) := by
  have hnil := grounded_nil request
  refine tracks_unmarked hnil (f := id) (.invoke (fun _ => rfl) fun _ _ _ _ => trivial) fun ok =>
    .ite (fun _ => .bind (W := fun decision y => y = [.decided decision])
      (.invoke hnil.accountable (fun a decision ha => ?_) fun a e ha => ?_) fun decision y hy => ?_)
      fun _ => tracks_end hnil reject_resources_unmarked
  · obtain rfl : a = .ok decision := ha
    rfl
  · obtain rfl : a = .error e := ha
    exact hnil
  · subst hy
    have hx := grounded_decided request decision
    exact tracks_idle hx.accountable log_analytics_idle fun _ => .ite (fun _ => review_tracks hx (by simp))
      fun _ => tracks_end hx reject_policy_unmarked

theorem pipeline_tracks :
    orc.Tracks request [] (fun _ y => Grounded request y) (orc.pipeline request) := by
  have hnil := grounded_nil request
  refine tracks_unmarked hnil (f := id) (.invoke (fun _ => rfl) fun _ _ _ _ => trivial)
    fun outcome => ?_
  have hassign : ∀ g : Locals → Locals, orc.Tracks request [] (fun _ y => Grounded request y)
      (Proc.assign g >>= fun _ => orc.admission request) := fun g =>
    tracks_unmarked hnil (f := fun _ => ()) (.assign fun _ => rfl) fun _ => admission_tracks
  cases outcome with
  | none => exact hassign _
  | some outcome =>
    exact .ite (fun _ => tracks_end hnil handle_duplicate_request_unmarked) fun _ => hassign _

theorem run_once_tracks : Proc.Monitors (collecting (effect_mark orc))
    (fun y _ => Accountable request y) [] (fun _ y => Grounded request y) (fun _ _ => False) (orc.run_once request) := by
  refine .attempt pipeline_tracks fun e y hy => ?_
  have hhandler : Proc.Within (fun _ _ => True) orc.Unmarked (fun _ => ()) (fun _ => False)
      (orc.handle_failure request e) :=
    handle_failure_asks (fun _ _ _ => rfl) (fun _ _ => rfl) (fun _ _ _ _ _ _ => rfl)
      fun _ _ _ _ _ => rfl
  exact hhandler.monitors (fun _ _ => hy.accountable) (fun _ a h => collecting_none (h a)) (fun _ => hy)
    fun _ h => h.elim

end Tracks

end Orchestrator

/-- What the policy engine decided in a run. -/
def decisions (t : Trace) : List PolicyDecision :=
  t.filterMap fun ev => match ev.op, ev.ans with
    | .evaluate_request _, .ok decision => some decision
    | _, _ => none

/-- A decision of the default policy engine. -/
def DefaultDecision (decision : PolicyDecision) : Prop :=
  ∃ (engine : DefaultPolicyEngine) (stat : String → Option Nat) (request : ReviewRequest),
    decision = engine.evaluate_request stat request

/-- The effects of a run are permitted by its one decision; `redacted` tells the texts that may
leave the machine where redaction is required. -/
structure Enforced (redacted : String → Prop) (t : Trace) : Prop where
  apply : ∀ s patch file a s', ⟨s, .apply_patch patch file, a, s'⟩ ∈ t →
    ∃ decision, decisions t = [decision] ∧ decision.auto_apply_allowed = true
  submit : ∀ s request a s', ⟨s, .submit request, a, s'⟩ ∈ t →
    ∃ decision, decisions t = [decision] ∧ decision.offload_allowed = true ∧
      (decision.redaction_required = true → redacted request.masked_diff)
  default : (∀ decision ∈ decisions t, DefaultDecision decision) →
    ∀ s patch file a s', ⟨s, .apply_patch patch file, a, s'⟩ ∉ t

/-- The answers ask for permitted effects only. -/
structure Permitted (orc : Orchestrator) (request : ReviewRequest) (redacted : String → Prop)
    (t : Trace) : Prop where
  apply : orc.autofix_service = true → ∀ s r context findings llm_result s',
    ⟨s, .llm_review r context findings, .ok llm_result, s'⟩ ∈ t →
    proposes_patch llm_result = true → ∀ decision ∈ decisions t, decision.auto_apply_allowed = true
  submit : ∀ s r size s', ⟨s, .should_offload r size, .ok true, s'⟩ ∈ t →
    ∀ decision ∈ decisions t, decision.offload_allowed = true ∧
      (decision.redaction_required = true → redacted request.diff_text)

/-- `effect_mark` as a relation. -/
inductive Shows (orc : Orchestrator) : EffectMark → (o : Op) → Ans o → Prop where
  | decided (request : ReviewRequest) (decision : PolicyDecision) :
      Shows orc (.decided decision) (.evaluate_request request) (.ok decision)
  | offloads (request : ReviewRequest) (size : Nat) :
      Shows orc .offloads (.should_offload request size) (.ok true)
  | submitted (request : OffloadRequest) (a : Ans (.submit request)) :
      Shows orc (.submitted request.masked_diff) (.submit request) a
  | proposed (request : ReviewRequest) (context : ContextBundle) (findings : List PyDict)
      (llm_result : PyDict) : orc.autofix_service = true → proposes_patch llm_result = true →
      Shows orc .proposed (.llm_review request context findings) (.ok llm_result)
  | applied (patch : PyVal) (file : String) (a : Ans (.apply_patch patch file)) :
      Shows orc .applied (.apply_patch patch file) a

section Marks

variable {orc : Orchestrator} {t : Trace}

theorem shows_iff {m : EffectMark} {o : Op} {a : Ans o} :
    effect_mark orc o a = some m ↔ Shows orc m o a := by
  constructor
  · intro h
    cases o with
    | evaluate_request request =>
      cases a with
      | error e => cases h
      | ok decision =>
        cases h
        exact .decided request decision
    | should_offload request size =>
      cases a with
      | error e => cases h
      | ok b =>
        cases b <;> cases h
        exact .offloads request size
    | submit request =>
      cases h
      exact .submitted request a
    | llm_review request context findings =>
      cases a with
      | error e => cases h
      | ok d =>
        simp only [effect_mark, Option.ite_none_right_eq_some, Bool.and_eq_true,
          Option.some.injEq] at h
        obtain ⟨⟨hauto, hd⟩, rfl⟩ := h
        exact .proposed request context findings d hauto hd
    | apply_patch patch file =>
      cases h
      exact .applied patch file a
    | _ => cases h
  · intro h
    cases h with
    | proposed _ _ _ _ hauto hd => simp [effect_mark, hauto, hd]
    | _ => rfl

/-- The marks of a trace. -/
abbrev effects (orc : Orchestrator) (t : Trace) : List EffectMark :=
  t.filterMap fun ev => effect_mark orc ev.op ev.ans

theorem mem_effects {m : EffectMark} :
    m ∈ effects orc t ↔ ∃ s o a s', ⟨s, o, a, s'⟩ ∈ t ∧ Shows orc m o a := by
  rw [List.mem_filterMap]
  constructor
  · intro h
    obtain ⟨ev, hev, hm⟩ := h
    exact ⟨ev.pre, ev.op, ev.ans, ev.post, hev, shows_iff.mp hm⟩
  · intro h
    obtain ⟨s, o, a, s', hev, hm⟩ := h
    exact ⟨_, hev, shows_iff.mpr hm⟩

theorem applied_mem : EffectMark.applied ∈ effects orc t ↔
    ∃ s patch file a s', ⟨s, .apply_patch patch file, a, s'⟩ ∈ t := by
  rw [mem_effects]
  constructor
  · intro h
    obtain ⟨s, o, a, s', hev, hm⟩ := h
    cases hm
    exact ⟨s, _, _, _, s', hev⟩
  · intro h
    obtain ⟨s, patch, file, a, s', hev⟩ := h
    exact ⟨s, _, _, s', hev, .applied patch file a⟩

theorem proposed_mem : EffectMark.proposed ∈ effects orc t ↔ orc.autofix_service = true ∧
    ∃ s r context findings llm_result s', ⟨s, .llm_review r context findings, .ok llm_result, s'⟩ ∈ t ∧
      proposes_patch llm_result = true := by
  rw [mem_effects]
  constructor
  · intro h
    obtain ⟨s, o, a, s', hev, hm⟩ := h
    cases hm with
    | proposed r context findings d hauto hd =>
      exact ⟨hauto, s, r, context, findings, d, s', hev, hd⟩
  · intro h
    obtain ⟨hauto, s, r, context, findings, d, s', hev, hd⟩ := h
    exact ⟨s, _, _, s', hev, .proposed r context findings d hauto hd⟩

theorem submitted_mem {diff : String} : EffectMark.submitted diff ∈ effects orc t ↔
    ∃ s request a s', ⟨s, .submit request, a, s'⟩ ∈ t ∧ request.masked_diff = diff := by
  rw [mem_effects]
  constructor
  · intro h
    obtain ⟨s, o, a, s', hev, hm⟩ := h
    cases hm with
    | submitted request answer => exact ⟨s, request, answer, s', hev, rfl⟩
  · intro h
    obtain ⟨s, request, answer, s', hev, rfl⟩ := h
    exact ⟨s, _, _, s', hev, .submitted request answer⟩

theorem offloads_mem : EffectMark.offloads ∈ effects orc t ↔
    ∃ s r size s', ⟨s, .should_offload r size, .ok true, s'⟩ ∈ t := by
  rw [mem_effects]
  constructor
  · intro h
    obtain ⟨s, o, a, s', hev, hm⟩ := h
    cases hm with
    | offloads r size => exact ⟨s, r, size, s', hev⟩
  · intro h
    obtain ⟨s, r, size, s', hev⟩ := h
    exact ⟨s, _, _, s', hev, .offloads r size⟩

theorem decisions_effects : decisions t = (effects orc t).filterMap EffectMark.decision := by
  rw [decisions, List.filterMap_filterMap]
  congr 1
  funext ev
  obtain ⟨s, o, a, s'⟩ := ev
  cases o with
  | evaluate_request request => cases a <;> rfl
  | should_offload request size =>
    cases a with
    | error e => rfl
    | ok b => cases b <;> rfl
  | llm_review request context findings =>
    cases a with
    | error e => rfl
    | ok d =>
      cases h : orc.autofix_service && proposes_patch d <;>
        simp [effect_mark, h, EffectMark.decision]
  | _ => rfl

/-- The effects of a run that may have stopped anywhere. -/
theorem run_accountable {request : ReviewRequest} {p : Running}
    (hp : Path (orc.run_once request {}) t p) : Accountable request (effects orc t) := by
  have hend := hp.monitored (Orchestrator.run_once_tracks {})
  rw [watch_collecting, List.nil_append] at hend
  cases p with
  | ret r =>
    obtain ⟨e | result, l⟩ := r
    · exact hend.elim
    · exact Grounded.accountable hend
  | call o k => exact hend.1

theorem run_grounded {request : ReviewRequest} {r : Except PyExc ReviewResult × Locals}
    (hp : Path (orc.run_once request {}) t (.ret r)) : Grounded request (effects orc t) := by
  have hend := hp.monitored (Orchestrator.run_once_tracks {})
  rw [watch_collecting, List.nil_append] at hend
  obtain ⟨e | result, l⟩ := r
  · exact hend.elim
  · exact hend

theorem Accountable.decision {request : ReviewRequest} (h : Accountable request (effects orc t))
    {m : EffectMark} (hm : m ∈ effects orc t) : ∃ decision, decisions t = [decision] := by
  have hdecisions : decisions t = (effects orc t).filterMap EffectMark.decision :=
    decisions_effects
  rw [hdecisions]
  exact h.one.resolve_left (List.ne_nil_of_mem hm)

end Marks

theorem default_denies {decision : PolicyDecision} (h : DefaultDecision decision) :
    decision.auto_apply_allowed = false := by
  obtain ⟨engine, stat, request, rfl⟩ := h
  unfold DefaultPolicyEngine.evaluate_request
  split
  · split <;> rfl
  · rfl

/-- The policy decision of a run is enforced if the answers ask for permitted effects only, and,
once the run has ended, only then. -/
theorem policy_enforced_iff {env : Env} {orc : Orchestrator} {request : ReviewRequest}
    {db db' : Db} {t : Trace} {p : Running} (redacted : String → Prop)
    (hr : Steps env.step db (orc.run_once request {}) t db' p) :
    (Permitted orc request redacted t → Enforced redacted t) ∧
      ∀ r, p = .ret r → Enforced redacted t → Permitted orc request redacted t := by
  constructor
  · intro h
    have hacc := run_accountable hr.path
    have happly : ∀ s patch file a s', ⟨s, .apply_patch patch file, a, s'⟩ ∈ t →
        ∃ decision, decisions t = [decision] ∧ decision.auto_apply_allowed = true := by
      intro s patch file a s' hev
      have hmem : EffectMark.applied ∈ effects orc t := applied_mem.mpr ⟨s, patch, file, a, s', hev⟩
      obtain ⟨decision, hd⟩ := hacc.decision hmem
      obtain ⟨hauto, s₁, r, context, findings, d, s₁', hl3, hprop⟩ :=
        proposed_mem.mp (hacc.applied hmem)
      exact ⟨decision, hd, h.apply hauto _ _ _ _ _ _ hl3 hprop decision (by simp [hd])⟩
    refine ⟨happly, fun s sent a s' hev => ?_, fun hdefault s patch file a s' hev => ?_⟩
    · have hmem : EffectMark.submitted sent.masked_diff ∈ effects orc t :=
        submitted_mem.mpr ⟨s, sent, a, s', hev, rfl⟩
      obtain ⟨decision, hd⟩ := hacc.decision hmem
      obtain ⟨hoff, hdiff⟩ := hacc.submitted _ hmem
      obtain ⟨s₁, r, size, s₁', hask⟩ := offloads_mem.mp hoff
      rw [hdiff]
      exact ⟨decision, hd, h.submit _ _ _ _ hask decision (by simp [hd])⟩
    · obtain ⟨decision, hd, hallowed⟩ := happly s patch file a s' hev
      rw [default_denies (hdefault decision (by simp [hd]))] at hallowed
      cases hallowed
  · intro r hend h
    subst hend
    have hground := run_grounded hr.path
    refine ⟨fun hauto s r context findings d s' hl3 hprop decision hd => ?_,
      fun s r size s' hask decision hd => ?_⟩
    · have hmem : EffectMark.applied ∈ effects orc t := hground.applied.mpr
        (proposed_mem.mpr ⟨hauto, s, r, context, findings, d, s', hl3, hprop⟩)
      obtain ⟨s₁, patch, file, a, s₁', hev⟩ := applied_mem.mp hmem
      obtain ⟨only, honly, hallowed⟩ := h.apply _ _ _ _ _ hev
      obtain rfl : decision = only := by simpa [honly] using hd
      exact hallowed
    · obtain ⟨diff, hmem⟩ := hground.submitted.mpr (offloads_mem.mpr ⟨s, r, size, s', hask⟩)
      obtain ⟨s₁, sent, a, s₁', hev, hdiff⟩ := submitted_mem.mp hmem
      obtain ⟨only, honly, hallowed, hredacted⟩ := h.submit _ _ _ _ hev
      obtain rfl : decision = only := by simpa [honly] using hd
      rw [hdiff, hground.diff diff hmem] at hredacted
      exact ⟨hallowed, hredacted⟩

/-- A policy engine that wants to offload, over collaborators that propose and apply a patch. -/
def policy (permitted redaction : Bool) : (o : Op) → Ans o
  | .evaluate_request request => .ok {
      accepted := true, project_profile := request.project_profile, offload_allowed := permitted
      auto_apply_allowed := permitted, redaction_required := redaction }
  | .should_offload _ _ => .ok true
  | o => proposing { applied := true } o

def offloading : Orchestrator := { fixing with offload_gateway := true }

def secretRequest : ReviewRequest := { fixRequest with diff_text := "+key = AKIA0000" }

def redacted_keys (diff : String) : Prop := contains diff "AKIA" = false

theorem policy_enforced_sample : ∃ t db result l decision,
    Steps anyone.step {} (offloading.run_once secretRequest {}) t db (.ret (.ok result, l)) ∧
    decisions t = [decision] ∧ decision.auto_apply_allowed = true ∧
    effects offloading t = [.decided decision, .offloads, .submitted "+key = AKIA0000", .proposed,
      .applied] ∧ Enforced redacted_keys t := by
  have hr := @play_steps anyone (policy true false) (fun _ => trivial) offloading secretRequest {} 60
  have hd : decisions (offloading.play (policy true false) secretRequest {} 60).1 =
      [⟨true, "general", true, true, false, none, false, none⟩] := rfl
  refine ⟨_, _, _, _, _, hr, hd, rfl, rfl, (policy_enforced_iff _ hr).1 ⟨?_, ?_⟩⟩
  · intro _ _ _ _ _ _ _ _ _ decision hmem
    rw [hd, List.mem_singleton] at hmem
    rw [hmem]
  · intro _ _ _ _ _ decision hmem
    rw [hd, List.mem_singleton] at hmem
    rw [hmem]
    exact ⟨rfl, fun h => by cases h⟩

/-- A decision that permits nothing is ignored, and so is the refusal of the default engine. -/
theorem policy_ignored :
    (∃ t db result l decision,
      Steps anyone.step {} (offloading.run_once secretRequest {}) t db (.ret (.ok result, l)) ∧
      decisions t = [decision] ∧ decision.auto_apply_allowed = false ∧
      decision.offload_allowed = false ∧ decision.redaction_required = true ∧
      effects offloading t = [.decided decision, .offloads, .submitted "+key = AKIA0000",
        .proposed, .applied] ∧ ¬Enforced redacted_keys t) ∧
    ∃ t db result l s s' fix c repo u,
      Steps anyone.step {} (fixing.run_once fixRequest {}) t db (.ret (.ok result, l)) ∧
      decisions t = [({} : DefaultPolicyEngine).evaluate_request (fun _ => none) fixRequest] ∧
      ⟨s, .apply_patch (.str "diff") "a.py", .ok fix, s'⟩ ∈ t ∧
      Steps (Repo.step fun _ _ => some (two_files "new" "b"))
        ⟨two_files "old" "b", two_files "old" "b"⟩
        (({ verify_cmd := ["pytest"] } : AutoFixService).apply_patch (.str "diff") "a.py" ()) c repo
        (.ret (.ok fix, u)) ∧ repo.worktree "a.py" = some "new" := by
  constructor
  · have hr := @play_steps anyone (policy false true) (fun _ => trivial) offloading secretRequest
      {} 60
    have hd : decisions (offloading.play (policy false true) secretRequest {} 60).1 =
        [⟨true, "general", false, false, true, none, false, none⟩] := rfl
    have heffects : effects offloading (offloading.play (policy false true) secretRequest {} 60).1 =
      [.decided ⟨true, "general", false, false, true, none, false, none⟩, .offloads,
        .submitted "+key = AKIA0000", .proposed, .applied] := rfl
    refine ⟨_, _, _, _, _, hr, hd, rfl, rfl, rfl, heffects, fun h => ?_⟩
    obtain ⟨s, patch, file, a, s', hev⟩ := applied_mem.mp (by rw [heffects]; simp :
      EffectMark.applied ∈ effects offloading _)
    obtain ⟨decision, honly, hallowed⟩ := h.apply _ _ _ _ _ hev
    rw [hd, List.cons.injEq] at honly
    rw [← honly.1] at hallowed
    cases hallowed
  · have hfix : ∃ fix u, (fix_sample 0).2.2 = .ret (.ok fix, u) ∧
        (fix_sample 0).2.1.worktree "a.py" = some "new" ∧
        (∃ result l, (fixing.play (proposing fix) fixRequest {} 60).2.2 = .ret (.ok result, l)) ∧
        decisions (fixing.play (proposing fix) fixRequest {} 60).1 =
          [({} : DefaultPolicyEngine).evaluate_request (fun _ => none) fixRequest] :=
      ⟨_, _, rfl, rfl, ⟨_, _, rfl⟩, rfl⟩
    obtain ⟨fix, u, hret, htree, ⟨result, l, hend⟩, hd⟩ := hfix
    obtain ⟨s, s', hev⟩ := fixing_asks fix
    have hr := @play_steps anyone (proposing fix) (fun _ => trivial) fixing fixRequest {} 60
    have hfix := fix_sample_steps 0
    rw [hend] at hr
    rw [hret] at hfix
    exact ⟨_, _, result, l, s, s', fix, _, _, u, hr, hd, hev, hfix, htree⟩

end Nitpicker
