import NitpickerDaemon.Environment

/-!
What each stage of the pipeline may ask and raise. A stage leaves the locals of `run_once`
alone, so the exception handler sees the state of the last transition.
-/

set_option autoImplicit false

namespace Nitpicker

open Effect

/-- The silent questions other than running an agent. -/
def Op.background : Op → Prop
  | .agent_run _ _ _ => False
  | o => o.silent

theorem Op.background_silent {o : Op} (h : o.background) : o.silent := by
  cases o <;> first | exact h | exact h.elim

/-- The output channels: diagnostics, quick fixes, result log, analytics and stage events. -/
def Op.channel : Op → Prop
  | .publish_diagnostics _ _ => True
  | .publish_quick_fix _ _ _ _ => True
  | .log_result _ => True
  | .analytics_write _ => True
  | .append_event _ event_type _ => event_type = "review.stage"
  | _ => False

/-- The silent questions apart from agents, remote work, patches and quick fixes. -/
def Op.plain : Op → Prop
  | .agent_run _ _ _ => False
  | .submit _ => False
  | .apply_patch _ _ => False
  | .publish_quick_fix _ _ _ _ => False
  | o => o.silent

/-- The questions that decide nothing: output channels, clock and cache. -/
def Op.idle : Op → Prop
  | .get_or_create _ _ => True
  | .cache_hits => True
  | .publish_diagnostics _ _ => True
  | .log_result _ => True
  | .analytics_write _ => True
  | .append_event _ event_type _ => event_type = "review.stage"
  | .monotonic => True
  | _ => False

/-- The plain questions and the agents. -/
def Op.steady : Op → Prop
  | .agent_run _ _ _ => True
  | o => o.plain

theorem Op.idle_plain {o : Op} (h : o.idle) : o.plain := by
  cases o <;> first | exact h | exact h.elim

theorem Op.plain_background {o : Op} (h : o.plain) : o.background := by
  cases o <;> first | exact h | exact h.elim

theorem Op.plain_steady {o : Op} (h : o.plain) : o.steady := by
  cases o <;> first | exact h | exact h.elim

theorem Op.steady_silent {o : Op} (h : o.steady) : o.silent := by
  cases o <;> first | exact h | exact h.elim

theorem Op.channel_background {o : Op} (h : o.channel) : o.background := by
  cases o <;> first | exact h | exact h.elim

theorem Op.silent_lawful {o : Op} (h : o.silent) : o.lawful := by
  cases o <;> first | exact h | exact h.elim

namespace Orchestrator

section Stages

variable {κ : Type} {A : (o : Op) → Ans o → Prop} {C : Op → Prop} {f : Locals → κ}
  {R : PyExc → Prop} {orc : Orchestrator} {request : ReviewRequest} {context : ContextBundle}

theorem best_effort_within {m : Review Unit} (hm : Proc.Within A C f (fun _ => True) m) :
    Proc.Within A C f R (best_effort m) :=
  hm.attempt fun _ _ => .pure ()

theorem monotonic_asks (hC : C .monotonic) : Proc.Within A C f R monotonic :=
  .invoke hC fun _ _ _ h => by cases h

theorem record_stage_event_asks {request_id stage phase result_code : String} {details : PyDict}
    (hC : ∀ payload, C (.append_event request_id "review.stage" payload)) :
    Proc.Within A C f R
      (record_stage_event_best_effort request_id stage phase result_code details) :=
  best_effort_within (.invoke (hC _) fun _ _ _ _ => trivial)

theorem publish_diagnostics_asks {result : ReviewResult} {target_file : String}
    (hC : C (.publish_diagnostics result target_file)) :
    Proc.Within A C f R (orc.publish_diagnostics result target_file) :=
  .ite (fun _ => best_effort_within (.invoke hC fun _ _ _ _ => trivial)) fun _ => .pure ()

theorem log_result_asks {result : ReviewResult} (hC : C (.log_result result)) :
    Proc.Within A C f R (orc.log_result result) :=
  .ite (fun _ => best_effort_within (.invoke hC fun _ _ _ _ => trivial)) fun _ => .pure ()

theorem log_analytics_asks {request_id : String} {a : Analytics}
    (hC : ∀ payload, C (.analytics_write payload)) :
    Proc.Within A C f R (orc.log_analytics request_id a) :=
  .ite (fun _ => best_effort_within (.invoke (hC _) fun _ _ _ _ => trivial)) fun _ => .pure ()

theorem mark_terminal_safe_asks {request_id : String} {state : ReviewState} {reason : String}
    {code : PyVal} (hC : C (.mark_terminal request_id state (.str reason) code)) :
    Proc.Within A C f R (mark_terminal_safe request_id state reason code) :=
  best_effort_within (.invoke hC fun _ _ _ _ => trivial)

theorem transition_asks {request_id : String} {from_state to_state : ReviewState}
    {reason code : String}
    (hC : C (.transition_state request_id from_state to_state (.str reason) (.str code))) :
    Proc.Within A C f (fun _ => True) (transition request_id from_state to_state reason code) :=
  .invoke hC fun _ _ _ _ => trivial

theorem monotonic_idle : Proc.Within A Op.idle f R monotonic := monotonic_asks trivial

theorem record_stage_event_idle {request_id stage phase result_code : String}
    {details : PyDict} : Proc.Within A Op.idle f R
      (record_stage_event_best_effort request_id stage phase result_code details) :=
  record_stage_event_asks fun _ => rfl

theorem publish_diagnostics_idle {result : ReviewResult} {target_file : String} :
    Proc.Within A Op.idle f R (orc.publish_diagnostics result target_file) :=
  publish_diagnostics_asks trivial

theorem log_result_idle {result : ReviewResult} :
    Proc.Within A Op.idle f R (orc.log_result result) :=
  log_result_asks trivial

theorem log_analytics_idle {request_id : String} {a : Analytics} :
    Proc.Within A Op.idle f R (orc.log_analytics request_id a) :=
  log_analytics_asks fun _ => trivial

theorem within_of_idle {α : Type} {m : Review α} (h : Proc.Within A Op.idle f R m) :
    Proc.Within A Op.plain f R m :=
  h.mono (fun _ _ ha => ha) (fun _ => Op.idle_plain) fun _ he => he

theorem monotonic_plain : Proc.Within A Op.plain f R monotonic := within_of_idle monotonic_idle

theorem record_stage_event_plain {request_id stage phase result_code : String}
    {details : PyDict} : Proc.Within A Op.plain f R
      (record_stage_event_best_effort request_id stage phase result_code details) :=
  within_of_idle record_stage_event_idle

theorem publish_diagnostics_plain {result : ReviewResult} {target_file : String} :
    Proc.Within A Op.plain f R (orc.publish_diagnostics result target_file) :=
  within_of_idle publish_diagnostics_idle

theorem log_result_plain {result : ReviewResult} :
    Proc.Within A Op.plain f R (orc.log_result result) :=
  within_of_idle log_result_idle

theorem log_analytics_plain {request_id : String} {a : Analytics} :
    Proc.Within A Op.plain f R (orc.log_analytics request_id a) :=
  within_of_idle log_analytics_idle

theorem within_of_plain {α : Type} {m : Review α} (h : Proc.Within A Op.plain f R m) :
    Proc.Within A Op.background f R m :=
  h.mono (fun _ _ ha => ha) (fun _ => Op.plain_background) fun _ he => he

theorem monotonic_within : Proc.Within A Op.background f R monotonic :=
  within_of_plain monotonic_plain

theorem publish_diagnostics_channel {result : ReviewResult} {target_file : String} :
    Proc.Within A Op.channel f R (orc.publish_diagnostics result target_file) :=
  publish_diagnostics_asks trivial

theorem log_result_channel {result : ReviewResult} :
    Proc.Within A Op.channel f R (orc.log_result result) :=
  log_result_asks trivial

theorem log_analytics_channel {request_id : String} {a : Analytics} :
    Proc.Within A Op.channel f R (orc.log_analytics request_id a) :=
  log_analytics_asks fun _ => trivial

theorem handle_duplicate_request_channel {existing_state : Option String} :
    Proc.Within A Op.channel f R (orc.handle_duplicate_request request existing_state) :=
  .bind log_analytics_channel fun _ => .bind publish_diagnostics_channel fun _ =>
    .bind log_result_channel fun _ => .pure _

theorem within_of_channel {α : Type} {m : Review α} (h : Proc.Within A Op.channel f R m) :
    Proc.Within A Op.background f R m :=
  h.mono (fun _ _ ha => ha) (fun _ => Op.channel_background) fun _ he => he

theorem record_stage_event_within {request_id stage phase result_code : String}
    {details : PyDict} : Proc.Within A Op.background f R
      (record_stage_event_best_effort request_id stage phase result_code details) :=
  within_of_plain record_stage_event_plain

theorem publish_diagnostics_within {result : ReviewResult} {target_file : String} :
    Proc.Within A Op.background f R (orc.publish_diagnostics result target_file) :=
  within_of_plain publish_diagnostics_plain

theorem log_result_within {result : ReviewResult} :
    Proc.Within A Op.background f R (orc.log_result result) :=
  within_of_plain log_result_plain

theorem log_analytics_within {request_id : String} {a : Analytics} :
    Proc.Within A Op.background f R (orc.log_analytics request_id a) :=
  within_of_plain log_analytics_plain

/-- The quick-fix channel lets through what it does not catch. -/
theorem publish_quick_fix_asks {result : ReviewResult} {target_file : String}
    {findings : List PyDict} {patch : Option PatchProposal}
    (hC : C (.publish_quick_fix result target_file findings patch))
    (hq : ∀ e, A (.publish_quick_fix result target_file findings patch) (.error e) →
      quick_fix_catches e = false → R e) :
    Proc.Within A C f R (orc.publish_quick_fix result target_file findings patch) := by
  unfold publish_quick_fix
  split
  · refine Proc.Within.attempt (R := fun e =>
      A (.publish_quick_fix result target_file findings patch) (.error e)) ?_ fun e he => ?_
    · refine .invoke hC fun a e ha h => ?_
      obtain rfl : a = .error e := h
      exact ha
    · refine .ite (fun _ => .pure ()) fun hc => .raise (hq e he ?_)
      simpa using hc
  · exact .pure ()

theorem publish_quick_fix_channel {result : ReviewResult} {target_file : String}
    {findings : List PyDict} {patch : Option PatchProposal}
    (hq : ∀ e, A (.publish_quick_fix result target_file findings patch) (.error e) →
      quick_fix_catches e = false → R e) :
    Proc.Within A Op.channel f R
      (orc.publish_quick_fix result target_file findings patch) :=
  publish_quick_fix_asks trivial hq

theorem publish_quick_fix_within {result : ReviewResult} {target_file : String}
    {findings : List PyDict} {patch : Option PatchProposal}
    (hq : ∀ e, A (.publish_quick_fix result target_file findings patch) (.error e) →
      quick_fix_catches e = false → R e) :
    Proc.Within A Op.background f R
      (orc.publish_quick_fix result target_file findings patch) :=
  within_of_channel (publish_quick_fix_channel hq)

theorem handle_duplicate_request_within {existing_state : Option String} :
    Proc.Within A Op.background f R (orc.handle_duplicate_request request existing_state) :=
  within_of_channel handle_duplicate_request_channel

theorem offload_asks (hC : ∀ payload, C (.analytics_write payload))
    (hask : C (.should_offload request context.token_estimate)) (hsubmit : ∀ r, C (.submit r))
    (hs : ∀ e, A (.should_offload request context.token_estimate) (.error e) → R e) :
    Proc.Within A C f R (orc.offload request context) := by
  unfold offload
  refine .ite (fun _ => .bind (.invoke hask ?_) fun should_offload => ?_) fun _ => .pure ()
  · rintro a e ha rfl
    exact hs e ha
  · refine .ite (fun _ => best_effort_within (.bind (.invoke (hsubmit _) ?_) fun _ => ?_))
      fun _ => .pure ()
    · exact fun _ _ _ _ => trivial
    · exact log_analytics_asks hC

theorem offload_within
    (hs : ∀ e, A (.should_offload request context.token_estimate) (.error e) → R e) :
    Proc.Within A Op.background f R (orc.offload request context) :=
  offload_asks (fun _ => trivial) trivial (fun _ => trivial) hs

theorem context_cache_asks (hC : ∀ payload, C (.analytics_write payload))
    (hcreate : ∀ p c, C (.get_or_create p c)) (hhits : C .cache_hits)
    (hc : ∀ p c e, A (.get_or_create p c) (.error e) → cache_catches e = false → R e) :
    Proc.Within A C f R (orc.context_cache request context) := by
  unfold context_cache
  split
  · refine Proc.Within.attempt (R := fun e => ∃ p c, A (.get_or_create p c) (.error e))
      (.ite (fun _ => .bind (.invoke (hcreate _ _) ?_) fun _ => ?_) fun _ => .pure ())
      fun e he => ?_
    · intro a e ha h
      obtain rfl : a = .error e := h
      exact ⟨_, _, ha⟩
    · exact .bind (.invoke hhits fun _ _ _ h => by cases h) fun _ => log_analytics_asks hC
    · obtain ⟨p, c, ha⟩ := he
      refine .ite (fun _ => .pure ()) fun hcatch => .raise (hc p c e ha ?_)
      simpa using hcatch
  · exact .pure ()

theorem context_cache_idle
    (hc : ∀ p c e, A (.get_or_create p c) (.error e) → cache_catches e = false → R e) :
    Proc.Within A Op.idle f R (orc.context_cache request context) :=
  context_cache_asks (fun _ => trivial) (fun _ _ => trivial) trivial hc

theorem context_cache_plain
    (hc : ∀ p c e, A (.get_or_create p c) (.error e) → cache_catches e = false → R e) :
    Proc.Within A Op.plain f R (orc.context_cache request context) :=
  within_of_idle (context_cache_idle hc)

theorem context_cache_within
    (hc : ∀ p c e, A (.get_or_create p c) (.error e) → cache_catches e = false → R e) :
    Proc.Within A Op.background f R (orc.context_cache request context) :=
  within_of_plain (context_cache_plain hc)

theorem run_agent_asks (hclock : C .monotonic)
    (hevent : ∀ payload, C (.append_event request.request_id "review.stage" payload))
    {ordinal total : Nat} {agent : Agent} (hagent : C (.agent_run agent request context))
    (ha : ∀ e, A (.agent_run agent request context) (.error e) → R e) :
    Proc.Within A C f R (run_agent request context ordinal total agent) := by
  refine .bind (record_stage_event_asks hevent) fun _ => .bind (monotonic_asks hclock) fun _ =>
    .bind (.attempt (R := R) (.invoke hagent ?_) fun e he => ?_) fun _ =>
    .bind (monotonic_asks hclock) fun _ => .bind (record_stage_event_asks hevent) fun _ => .pure _
  · intro a e h heq
    obtain rfl : a = .error e := heq
    exact ha e h
  · exact .bind (monotonic_asks hclock) fun _ => .bind (record_stage_event_asks hevent) fun _ =>
      .raise he

theorem run_agents_asks (hclock : C .monotonic)
    (hevent : ∀ payload, C (.append_event request.request_id "review.stage" payload))
    (hagent : ∀ agent, C (.agent_run agent request context)) {total : Nat} {agents : List Agent}
    {ordinal : Nat}
    (ha : ∀ agent ∈ agents, ∀ e, A (.agent_run agent request context) (.error e) → R e) :
    Proc.Within A C f R (run_agents request context total ordinal agents) := by
  induction agents generalizing ordinal with
  | nil => exact .pure _
  | cons agent agents ih =>
    have hrest := fun a h => ha a (List.mem_cons_of_mem agent h)
    exact .bind (run_agent_asks hclock hevent (hagent agent) (ha agent (by simp))) fun _ =>
      .bind (ih hrest) fun _ => .pure _

theorem run_agents_steady {total : Nat} {agents : List Agent} {ordinal : Nat}
    (ha : ∀ agent ∈ agents, ∀ e, A (.agent_run agent request context) (.error e) → R e) :
    Proc.Within A Op.steady f R (run_agents request context total ordinal agents) :=
  run_agents_asks trivial (fun _ => rfl) (fun _ => trivial) ha

theorem run_agents_within {total : Nat} {agents : List Agent} {ordinal : Nat}
    (ha : ∀ agent ∈ agents, ∀ e, A (.agent_run agent request context) (.error e) → R e) :
    Proc.Within A Op.silent f R (run_agents request context total ordinal agents) :=
  (run_agents_steady ha).mono (fun _ _ h => h) (fun _ => Op.steady_silent) fun _ h => h

theorem apply_l3_error {d : PyDict} {v : Verdict} {e : PyExc} (h : apply_l3 d v = .error e) :
    e = overflowError := by
  unfold apply_l3 at h
  cases hf : to_float (d.get "confidence_score") with
  | none => simp [hf] at h
  | some r =>
    cases r with
    | ok q => simp [hf] at h
    | error e' =>
      simp only [hf, Except.error.injEq] at h
      subst h
      cases hd : d.get "confidence_score" with
      | int n =>
        rw [hd] at hf
        simp only [to_float, Option.some.injEq] at hf
        split at hf <;> cases hf
        rfl
      | _ =>
        rw [hd] at hf
        cases hf

theorem apply_l3_status {d : PyDict} {v v' : Verdict} (h : apply_l3 d v = .ok v') :
    v'.consensus.status = v.consensus.status := by
  unfold apply_l3 at h
  split at h
  · cases h
    rfl
  · cases h
  · cases h
    rfl

theorem l3_stage_asks (hC : ∀ payload, C (.analytics_write payload)) (hclock : C .monotonic)
    (hevent : ∀ payload, C (.append_event request.request_id "review.stage" payload))
    (hreview : ∀ findings, C (.llm_review request context findings))
    {decisions : List AgentDecision} {v : Verdict}
    (hl : ∀ findings e, A (.llm_review request context findings) (.error e) → R e)
    (ho : R overflowError) :
    Proc.Within A C f R (orc.l3_stage request context decisions v) := by
  unfold l3_stage
  refine .ite (fun _ => ?_) fun _ => .pure v
  refine .bind (log_analytics_asks hC) fun _ => .bind (monotonic_asks hclock) fun _ =>
    .bind (record_stage_event_asks hevent) fun _ =>
    .bind (.attempt (R := R) (.invoke (hreview _) ?_) fun e he => ?_) fun d =>
      .bind (monotonic_asks hclock) fun _ => .bind (record_stage_event_asks hevent) fun _ =>
      .bind (log_analytics_asks hC) fun _ => .ofExcept fun e he => ?_
  · intro a e ha heq
    obtain rfl : a = .error e := heq
    exact hl _ e ha
  · exact .bind (monotonic_asks hclock) fun _ => .bind (record_stage_event_asks hevent) fun _ =>
      .raise he
  · rw [apply_l3_error he]
    exact ho

theorem l3_stage_plain {decisions : List AgentDecision} {v : Verdict}
    (hl : ∀ findings e, A (.llm_review request context findings) (.error e) → R e)
    (ho : R overflowError) :
    Proc.Within A Op.plain f R (orc.l3_stage request context decisions v) :=
  l3_stage_asks (fun _ => trivial) trivial (fun _ => rfl) (fun _ => trivial) hl ho

theorem l3_stage_within {decisions : List AgentDecision} {v : Verdict}
    (hl : ∀ findings e, A (.llm_review request context findings) (.error e) → R e)
    (ho : R overflowError) :
    Proc.Within A Op.background f R (orc.l3_stage request context decisions v) :=
  within_of_plain (l3_stage_plain hl ho)

theorem patch_stage_asks (hC : ∀ payload, C (.analytics_write payload)) (hcreate : ∀ c, C (.create_patch request c))
    (hverify : ∀ p, C (.verify_patch request p)) {v : Verdict}
    (hp : ∀ c e, A (.create_patch request c) (.error e) → R e)
    (hv : ∀ p e, A (.verify_patch request p) (.error e) → R e) :
    Proc.Within A C f R (orc.patch_stage request v) := by
  unfold patch_stage
  refine .ite (fun _ => .ite (fun _ => .bind (.invoke (hcreate _) ?_) fun patch => ?_)
    fun _ => .pure _) fun _ => .pure v
  · rintro a e ha rfl
    exact hp _ e ha
  · cases patch with
    | none => exact .pure _
    | some patch =>
      refine .bind (.invoke (hverify _) ?_) fun report => .bind (log_analytics_asks hC) fun _ =>
        .ite (fun _ => .pure _) fun _ => .pure _
      rintro a e ha rfl
      exact hv _ e ha

theorem patch_stage_plain {v : Verdict}
    (hp : ∀ c e, A (.create_patch request c) (.error e) → R e)
    (hv : ∀ p e, A (.verify_patch request p) (.error e) → R e) :
    Proc.Within A Op.plain f R (orc.patch_stage request v) :=
  patch_stage_asks (fun _ => trivial) (fun _ => trivial) (fun _ => trivial) hp hv

theorem patch_stage_within {v : Verdict}
    (hp : ∀ c e, A (.create_patch request c) (.error e) → R e)
    (hv : ∀ p e, A (.verify_patch request p) (.error e) → R e) :
    Proc.Within A Op.background f R (orc.patch_stage request v) :=
  within_of_plain (patch_stage_plain hp hv)

theorem suggested_patch_error {v : Verdict} {e : PyExc} (h : orc.suggested_patch v = .error e) :
    e = unboundLocalError := by
  unfold suggested_patch at h
  split at h
  · split at h
    · cases h
      rfl
    · cases h
  · cases h

theorem autofix_stage_asks (hC : ∀ payload, C (.analytics_write payload))
    (happly : ∀ p, C (.apply_patch p request.target_file)) {v : Verdict}
    (ha : ∀ p e, A (.apply_patch p request.target_file) (.error e) → R e)
    (hu : R unboundLocalError) : Proc.Within A C f R (orc.autofix_stage request v) := by
  unfold autofix_stage
  refine .ite (fun _ => .bind (.ofExcept fun e he => ?_) fun patch => ?_) fun _ => .pure v
  · rw [suggested_patch_error he]
    exact hu
  · refine .ite (fun _ => .bind (.invoke (happly _) ?_) fun fix => ?_) fun _ => .pure v
    · rintro a e h rfl
      exact ha _ e h
    · exact .bind (log_analytics_asks hC) fun _ => .pure _

theorem autofix_stage_within {v : Verdict}
    (ha : ∀ p e, A (.apply_patch p request.target_file) (.error e) → R e)
    (hu : R unboundLocalError) :
    Proc.Within A Op.background f R (orc.autofix_stage request v) :=
  autofix_stage_asks (fun _ => trivial) (fun _ => trivial) ha hu

end Stages

end Orchestrator

end Nitpicker
