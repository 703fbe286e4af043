import NitpickerDaemon.ControllerRun

/-!
What a result says about the run that returned it: which agents ran, what they decided and
what the L3 gate answered.
-/

set_option autoImplicit false

namespace Nitpicker

open Effect

/-- The agent an event ran, with its answer. -/
def agent_run : Event Db Op Ans → Option (Agent × Except PyExc AgentDecision)
  | ⟨_, .agent_run agent _ _, a, _⟩ => some (agent, a)
  | _ => none

/-- The agents a run has run, in order. -/
def agent_runs (t : Trace) : List (Agent × Except PyExc AgentDecision) := t.filterMap agent_run

theorem agent_runs_append (t t' : Trace) : agent_runs (t ++ t') = agent_runs t ++ agent_runs t' := by
  simp [agent_runs]

theorem agent_runs_cons {ev : Event Db Op Ans} (h : agent_run ev = none) (t : Trace) :
    agent_runs (ev :: t) = agent_runs t := by simp [agent_runs, h]

/-- A question that runs no agent. -/
def Op.agentless : Op → Prop
  | .agent_run _ _ _ => False
  | _ => True

theorem Op.background_agentless {o : Op} (h : o.background) : o.agentless := by
  cases o <;> first | exact h | trivial

theorem agent_runs_nil {t : Trace} (h : ∀ ev ∈ t, ev.op.agentless) : agent_runs t = [] := by
  refine List.filterMap_eq_nil_iff.mpr fun ev hev => ?_
  have ho := h ev hev
  obtain ⟨s, o, a, s'⟩ := ev
  cases o <;> first | rfl | exact ho.elim

/-- Every agent returned a decision. -/
def AllRan (agents : List Agent) (decisions : List AgentDecision) (t : Trace) : Prop :=
  (agent_runs t).map Prod.fst = agents ∧ (agent_runs t).map Prod.snd = decisions.map .ok

/-- The L3 gate was called after the agents of `t` and its dict has `code`. -/
def GateAnswered (request : ReviewRequest) (decisions : List AgentDecision) (code : String)
    (t : Trace) : Prop :=
  ∃ t₁ s context d s' t₂, t = t₁ ++ ⟨s, .llm_review request context
      (Orchestrator.collect_findings decisions), .ok d, s'⟩ :: t₂ ∧
    agent_runs t₂ = [] ∧ d.getD "result_code" (.str "REVIEW_PASSED") = .str code

theorem GateAnswered.append_left {request : ReviewRequest} {decisions : List AgentDecision}
    {code : String} {t t' : Trace} (h : GateAnswered request decisions code t)
    (ht : agent_runs t' = []) : GateAnswered request decisions code (t ++ t') := by
  obtain ⟨t₁, s, context, d, s', t₂, rfl, h₂, hd⟩ := h
  refine ⟨t₁, s, context, d, s', t₂ ++ t', by simp, ?_, hd⟩
  rw [agent_runs_append, h₂, ht, List.append_nil]

theorem GateAnswered.append_right {request : ReviewRequest} {decisions : List AgentDecision}
    {code : String} {t t' : Trace} (h : GateAnswered request decisions code t') :
    GateAnswered request decisions code (t ++ t') := by
  obtain ⟨t₁, s, context, d, s', t₂, rfl, h₂, hd⟩ := h
  exact ⟨t ++ t₁, s, context, d, s', t₂, by simp, h₂, hd⟩

namespace Orchestrator

section Returns

variable {orc : Orchestrator} {request : ReviewRequest}
  {context : ContextBundle}

theorem agentless_returns {α κ : Type} {f : Locals → κ} {R : PyExc → Prop} {m : Review α}
    (hm : Proc.Within (fun _ _ => True) Op.agentless f R m) :
    Proc.Returns m fun _ t => agent_runs t = [] :=
  hm.returns.mono fun _ _ ht => agent_runs_nil ht

theorem background_returns {α : Type} {m : Review α}
    (hm : Proc.Within (fun _ _ => True) Op.background id (fun _ => True) m) :
    Proc.Returns m fun _ t => agent_runs t = [] :=
  agentless_returns (hm.mono (fun _ _ h => h) (fun _ => Op.background_agentless) fun _ h => h)

theorem run_agent_returns {ordinal total : Nat} {agent : Agent} :
    Proc.Returns (run_agent request context ordinal total agent) fun d t =>
      agent_runs t = [(agent, .ok d)] := by
  refine .bind (background_returns record_stage_event_within) fun _ t₁ h₁ =>
    .bind (background_returns monotonic_within) fun _ t₂ h₂ =>
    .bind (P := fun d t => agent_runs t = [(agent, .ok d)]) (.attempt (.invoke ?_) fun e t => ?_)
      fun d t₃ h₃ => .bind (background_returns monotonic_within) fun _ t₄ h₄ =>
    .bind (background_returns record_stage_event_within) fun _ t₅ h₅ => .pure ?_
  · rintro a d s s' rfl
    rfl
  · exact .bind (background_returns monotonic_within) fun _ _ _ =>
      .bind (background_returns record_stage_event_within) fun _ _ _ => .raise e
  · simp [agent_runs_append, h₁, h₂, h₃, h₄, h₅]

theorem run_agents_returns {total : Nat} {agents : List Agent} {ordinal : Nat} :
    Proc.Returns (run_agents request context total ordinal agents) fun ds t =>
      AllRan agents ds t := by
  induction agents generalizing ordinal with
  | nil => exact .pure ⟨rfl, rfl⟩
  | cons agent agents ih =>
    refine .bind run_agent_returns fun d t₁ h₁ => .bind ih fun ds t₂ h₂ => .pure ?_
    simp [AllRan, agent_runs_append, h₁, h₂.1, h₂.2]

/-- The verdict after the L3 stage. -/
theorem l3_stage_returns {decisions : List AgentDecision} {v : Verdict} :
    Proc.Returns (orc.l3_stage request context decisions v) fun v' t => agent_runs t = [] ∧
      ((v.consensus.status = .pass ∧ orc.llm_review_gate = true) →
        ∃ d, apply_l3 d v = .ok v' ∧ ∀ code, d.getD "result_code" (.str "REVIEW_PASSED") =
          .str code → GateAnswered request decisions code t) ∧
      (¬(v.consensus.status = .pass ∧ orc.llm_review_gate = true) → v' = v) := by
  unfold l3_stage
  refine .ite (fun hc => ?_) fun hn => .pure ⟨rfl, fun hc => absurd hc hn, fun _ => rfl⟩
  refine .bind (background_returns log_analytics_within) fun _ t₁ h₁ =>
    .bind (background_returns monotonic_within) fun _ t₂ h₂ =>
    .bind (background_returns record_stage_event_within) fun _ t₃ h₃ =>
    .bind (P := fun d t => ∃ s s', t = [⟨s, .llm_review request context
      (collect_findings decisions), .ok d, s'⟩]) (.attempt (.invoke ?_) fun e t => ?_)
      fun d t₄ h₄ => .bind (background_returns monotonic_within) fun _ t₅ h₅ =>
    .bind (background_returns record_stage_event_within) fun _ t₆ h₆ =>
    .bind (background_returns log_analytics_within) fun _ t₇ h₇ => .ofExcept fun v' hv => ?_
  · rintro a d s s' rfl
    exact ⟨s, s', rfl⟩
  · exact .bind (background_returns monotonic_within) fun _ _ _ =>
      .bind (background_returns record_stage_event_within) fun _ _ _ => .raise e
  · obtain ⟨s, s', rfl⟩ := h₄
    refine ⟨?_, fun _ => ⟨d, hv, fun code hcode => ?_⟩, fun hn => absurd hc hn⟩
    · simp only [agent_runs_append, h₁, h₂, h₃, List.nil_append, List.cons_append]
      rw [agent_runs_cons rfl]
      simp [agent_runs_append, h₅, h₆, h₇]
    · refine ⟨t₁ ++ t₂ ++ t₃, s, context, d, s', t₅ ++ t₆ ++ t₇, by simp, ?_, hcode⟩
      simp [agent_runs_append, h₅, h₆, h₇]

theorem patch_stage_returns {v : Verdict} :
    Proc.Returns (orc.patch_stage request v) fun v' t => agent_runs t = [] ∧
      (v' = v ∨ (v'.status ≠ .pass ∧ v'.result_code ∈
        [.str "PATCH_REQUIRED", .str "PATCH_PROPOSED", .str "PATCH_VERIFY_FAILED"])) := by
  unfold patch_stage
  refine .ite (fun _ => .ite (fun _ => ?_) fun _ => .pure ⟨rfl, .inr ?_⟩)
    fun _ => .pure ⟨rfl, .inl rfl⟩
  · refine .bind (agentless_returns (f := id) (R := fun _ => True)
      (.invoke trivial fun _ _ _ _ => trivial)) fun patch t₁ h₁ => ?_
    cases patch with
    | none => exact .pure ⟨by simp [h₁], .inr (by simp [patch_required])⟩
    | some patch =>
      refine .bind (agentless_returns (f := id) (R := fun _ => True)
        (.invoke trivial fun _ _ _ _ => trivial)) fun report t₂ h₂ =>
        .bind (background_returns log_analytics_within) fun _ t₃ h₃ => ?_
      refine .ite (fun _ => .pure ⟨?_, .inr ?_⟩) fun _ => .pure ⟨?_, .inr ?_⟩
      · simp [agent_runs_append, h₁, h₂, h₃]
      · simp
      · simp [agent_runs_append, h₁, h₂, h₃]
      · simp
  · simp [patch_required]

theorem autofix_stage_returns {v : Verdict} :
    Proc.Returns (orc.autofix_stage request v) fun v' t => agent_runs t = [] ∧
      (v' = v ∨ v.result_code = .str "PATCH_PROPOSED" ∧
        ((v'.status = .rejected ∧ v'.result_code = .str "PATCH_ROLLBACK") ∨
          (v'.status = v.status ∧ v'.result_code = .str "PATCH_APPLIED"))) := by
  unfold autofix_stage
  refine .ite (fun hc => ?_) fun _ => .pure ⟨rfl, .inl rfl⟩
  refine .bind (background_returns (.ofExcept fun _ _ => trivial)) fun patch t₁ h₁ => ?_
  refine .ite (fun _ => ?_) fun _ => .pure ⟨by simp [h₁], .inl rfl⟩
  refine .bind (agentless_returns (f := id) (R := fun _ => True)
    (.invoke trivial fun _ _ _ _ => trivial)) fun fix t₂ h₂ =>
    .bind (background_returns log_analytics_within) fun _ t₃ h₃ => .pure ⟨?_, ?_⟩
  · simp [agent_runs_append, h₁, h₂, h₃]
  · have hcode := PyVal.isStr_iff.mp hc.1
    unfold apply_fix
    split
    · split
      · exact .inr ⟨hcode, .inl ⟨rfl, rfl⟩⟩
      · exact .inr ⟨hcode, .inr ⟨rfl, rfl⟩⟩
    · exact .inl rfl

theorem apply_l3_ok {d : PyDict} {v v' : Verdict} (h : apply_l3 d v = .ok v') :
    v'.result_code = d.getD "result_code" (.str "REVIEW_PASSED") ∧
      (v'.status = .pass ↔ v'.result_code = .str "REVIEW_PASSED") := by
  have hstatus : ∀ code : PyVal, (if code.isStr "REVIEW_PASSED" = true then ReviewStatus.pass
      else .rejected) = .pass ↔ code = .str "REVIEW_PASSED" := by
    intro code
    rw [← PyVal.isStr_iff]
    split <;> simp_all
  unfold apply_l3 at h
  split at h
  · cases h
    exact ⟨rfl, hstatus _⟩
  · cases h
  · cases h
    exact ⟨rfl, hstatus _⟩

/-- What the verdict says about the consensus and the L3 gate, whose call is in `t`. -/
structure Verdict.Sound (orc : Orchestrator) (request : ReviewRequest)
    (decisions : List AgentDecision) (consensus : ConsensusResult) (t : Trace) (v : Verdict) :
    Prop where
  pass_iff : v.status = .pass ↔ v.result_code = .str "REVIEW_PASSED"
  passed : v.result_code = .str "REVIEW_PASSED" → consensus.status = .pass ∧
    (orc.llm_review_gate = true → GateAnswered request decisions "REVIEW_PASSED" t) ∧
    (orc.llm_review_gate = false → v.summary = consensus.summary)
  ignored : v.result_code = .str "DUPLICATE_REQUEST_IGNORED" →
    GateAnswered request decisions "DUPLICATE_REQUEST_IGNORED" t

section Sound

variable {decisions : List AgentDecision} {consensus : ConsensusResult} {t t' : Trace}
  {v : Verdict}

theorem Verdict.Sound.append (h : v.Sound orc request decisions consensus t)
    (ht : agent_runs t' = []) : v.Sound orc request decisions consensus (t ++ t') := by
  refine ⟨h.pass_iff, fun hp => ?_, fun hi => (h.ignored hi).append_left ht⟩
  obtain ⟨hc, hg, hs⟩ := h.passed hp
  exact ⟨hc, fun hgate => (hg hgate).append_left ht, hs⟩

/-- A verdict with a code of its own says nothing about either. -/
theorem Verdict.sound_of_code (hs : v.status ≠ .pass) (hp : v.result_code ≠ .str "REVIEW_PASSED")
    (hi : v.result_code ≠ .str "DUPLICATE_REQUEST_IGNORED") :
    v.Sound orc request decisions consensus t :=
  ⟨iff_of_false hs hp, fun h => absurd h hp, fun h => absurd h hi⟩

theorem first_verdict_sound (h : ¬(consensus.status = .pass ∧ orc.llm_review_gate = true)) :
    (first_verdict consensus).Sound orc request decisions consensus t := by
  by_cases hc : consensus.status = .pass
  · have hg : orc.llm_review_gate = false := by simpa [hc] using h
    refine ⟨?_, fun _ => ⟨hc, ?_, fun _ => rfl⟩, ?_⟩ <;> simp [first_verdict, hc, hg]
  · apply Verdict.sound_of_code <;> simp [first_verdict, hc]

theorem l3_stage_sound : Proc.Returns
    (orc.l3_stage request context decisions (first_verdict consensus)) fun v t =>
      agent_runs t = [] ∧ v.Sound orc request decisions consensus t := by
  refine l3_stage_returns.mono fun v t h => ⟨h.1, ?_⟩
  by_cases hc : consensus.status = .pass ∧ orc.llm_review_gate = true
  · obtain ⟨d, hd, hgate⟩ := h.2.1 hc
    obtain ⟨hcode, hiff⟩ := apply_l3_ok hd
    refine ⟨hiff, fun hp => ⟨hc.1, fun _ => hgate _ (hcode.symm.trans hp), fun hg => ?_⟩,
      fun hi => hgate _ (hcode.symm.trans hi)⟩
    rw [hc.2] at hg
    cases hg
  · rw [h.2.2 hc]
    exact first_verdict_sound hc

theorem patch_stage_sound (h : v.Sound orc request decisions consensus t) :
    Proc.Returns (orc.patch_stage request v) fun v' t' =>
      agent_runs t' = [] ∧ v'.Sound orc request decisions consensus (t ++ t') := by
  refine patch_stage_returns.mono fun v' t' h' => ⟨h'.1, ?_⟩
  rcases h'.2 with rfl | ⟨hs, hcode⟩
  · exact h.append h'.1
  · simp only [List.mem_cons, List.not_mem_nil, or_false] at hcode
    apply Verdict.sound_of_code hs <;> rcases hcode with hc | hc | hc <;> simp [hc]

theorem autofix_stage_sound (h : v.Sound orc request decisions consensus t) :
    Proc.Returns (orc.autofix_stage request v) fun v' t' =>
      agent_runs t' = [] ∧ v'.Sound orc request decisions consensus (t ++ t') := by
  refine autofix_stage_returns.mono fun v' t' h' => ⟨h'.1, ?_⟩
  rcases h'.2 with rfl | ⟨hcode, ⟨hs, hc⟩ | ⟨hs, hc⟩⟩
  · exact h.append h'.1
  · apply Verdict.sound_of_code <;> simp [hs, hc]
  · have hne : v.status ≠ .pass := fun hp => by
      have hpass := h.pass_iff.mp hp
      simp [hcode] at hpass
    apply Verdict.sound_of_code <;> simp [hs, hc, hne]

end Sound

theorem deliver_returns {decisions : List AgentDecision} {v : Verdict} :
    Proc.Returns (orc.deliver request decisions v) fun result t => agent_runs t = [] ∧
      result.status = v.status ∧ result.result_code = v.result_code ∧
      result.summary = v.summary := by
  refine .bind (agentless_returns (f := id) (R := fun _ => True)
    (best_effort_within (.invoke trivial fun _ _ _ _ => trivial))) fun _ t₁ h₁ =>
    .bind (background_returns log_analytics_within) fun _ t₂ h₂ =>
    .bind (background_returns publish_diagnostics_within) fun _ t₃ h₃ =>
    .bind (background_returns (publish_quick_fix_within fun _ _ _ => trivial)) fun _ t₄ h₄ =>
    .bind (background_returns log_result_within) fun _ t₅ h₅ => .pure ⟨?_, rfl, rfl, rfl⟩
  simp [agent_runs_append, h₁, h₂, h₃, h₄, h₅]

end Returns

end Orchestrator

/-- The consensus and the L3 gate behind a green result. -/
structure Judged (orc : Orchestrator) (request : ReviewRequest) (decisions : List AgentDecision)
    (consensus : ConsensusResult) (result : ReviewResult) (t : Trace) : Prop where
  decided : Answered t (.decide decisions) (.ok consensus)
  agreed : consensus.status = .pass
  gate : orc.llm_review_gate = true → GateAnswered request decisions "REVIEW_PASSED" t
  summary : orc.llm_review_gate = false → result.summary = consensus.summary

/-- Everything a green result stands on. -/
structure GreenLight (orc : Orchestrator) (request : ReviewRequest) (decision : PolicyDecision)
    (decisions : List AgentDecision) (consensus : ConsensusResult) (result : ReviewResult)
    (t : Trace) : Prop extends Judged orc request decisions consensus result t where
  admitted : Answered t (.allow_new_job request) (.ok true)
  evaluated : Answered t (.evaluate_request request) (.ok decision)
  accepted : decision.accepted = true
  all_ran : AllRan (orc.active_agents request decision) decisions t

/-- What the status and the code of a result say about its run. -/
structure Accounted (orc : Orchestrator) (request : ReviewRequest) (result : ReviewResult)
    (t : Trace) : Prop where
  pass_iff : result.status = .pass ↔ result.result_code = .str "REVIEW_PASSED"
  passed : result.result_code = .str "REVIEW_PASSED" → ∃ decision decisions consensus,
    GreenLight orc request decision decisions consensus result t
  ignored : result.result_code = .str "DUPLICATE_REQUEST_IGNORED" →
    ∃ decisions, GateAnswered request decisions "DUPLICATE_REQUEST_IGNORED" t

theorem AllRan.append_right {agents : List Agent} {decisions : List AgentDecision} {t t' : Trace}
    (h : AllRan agents decisions t') (ht : agent_runs t = []) :
    AllRan agents decisions (t ++ t') := by
  unfold AllRan
  rw [agent_runs_append, ht, List.nil_append]
  exact h

section Append

variable {orc : Orchestrator} {request : ReviewRequest} {result : ReviewResult} {t t' : Trace}

theorem Judged.append_right {decisions : List AgentDecision} {consensus : ConsensusResult}
    (h : Judged orc request decisions consensus result t') :
    Judged orc request decisions consensus result (t ++ t') :=
  ⟨h.decided.append_right, h.agreed, fun hg => (h.gate hg).append_right, h.summary⟩

theorem GreenLight.append_right {decision : PolicyDecision} {decisions : List AgentDecision}
    {consensus : ConsensusResult}
    (h : GreenLight orc request decision decisions consensus result t')
    (ht : agent_runs t = []) :
    GreenLight orc request decision decisions consensus result (t ++ t') :=
  ⟨h.toJudged.append_right, h.admitted.append_right, h.evaluated.append_right, h.accepted,
    h.all_ran.append_right ht⟩

theorem Accounted.append_right (h : Accounted orc request result t') (ht : agent_runs t = []) :
    Accounted orc request result (t ++ t') := by
  refine ⟨h.pass_iff, fun hp => ?_, fun hi => ?_⟩
  · obtain ⟨decision, decisions, consensus, hg⟩ := h.passed hp
    exact ⟨decision, decisions, consensus, hg.append_right ht⟩
  · obtain ⟨decisions, hg⟩ := h.ignored hi
    exact ⟨decisions, hg.append_right⟩

end Append

/-- A result whose code neither passes the review nor ignores it. -/
structure Refused (result : ReviewResult) : Prop where
  status : result.status ≠ .pass
  not_passed : result.result_code ≠ .str "REVIEW_PASSED"
  not_ignored : result.result_code ≠ .str "DUPLICATE_REQUEST_IGNORED"

theorem Refused.accounted {orc : Orchestrator} {request : ReviewRequest} {result : ReviewResult}
    (h : Refused result) (t : Trace) : Accounted orc request result t :=
  ⟨iff_of_false h.status h.not_passed, fun hp => absurd hp h.not_passed,
    fun hi => absurd hi h.not_ignored⟩

namespace Orchestrator

section Returns

variable {orc : Orchestrator} {request : ReviewRequest}
  {context : ContextBundle}

/-- A question that runs no agent, and its answer. -/
theorem ask_returns {α : Type} {o : Op} {f : Ans o → Except PyExc α} (ho : o.agentless) :
    Proc.Returns (Proc.invoke o f : Review α) fun v t =>
      agent_runs t = [] ∧ ∃ a, f a = .ok v ∧ Answered t o a := by
  refine .invoke fun a v s s' hv => ⟨?_, a, hv, s, s', by simp⟩
  cases o <;> first | rfl | exact ho.elim

theorem conclude_returns {decisions : List AgentDecision} :
    Proc.Returns (orc.conclude request context decisions) fun result t => agent_runs t = [] ∧
      (result.status = .pass ↔ result.result_code = .str "REVIEW_PASSED") ∧
      (result.result_code = .str "REVIEW_PASSED" →
        ∃ consensus, Judged orc request decisions consensus result t) ∧
      (result.result_code = .str "DUPLICATE_REQUEST_IGNORED" →
        GateAnswered request decisions "DUPLICATE_REQUEST_IGNORED" t) := by
  refine .bind (ask_returns trivial) fun _ t₁ h₁ =>
    .bind (P := fun _ t => agent_runs t = []) (.assign rfl) fun _ t₂ h₂ =>
    .bind (ask_returns trivial) fun consensus t₃ h₃ => .bind l3_stage_sound fun v t₄ h₄ =>
    .bind (patch_stage_sound h₄.2) fun v t₅ h₅ => .bind (autofix_stage_sound h₅.2)
      fun v t₆ h₆ => deliver_returns.mono fun result t₇ h₇ => ?_
  obtain ⟨hr₃, _, rfl, hdecided⟩ := h₃
  obtain ⟨hr₇, hstatus, hcode, hsummary⟩ := h₇
  have hsound := h₆.2.append hr₇
  have hgate : ∀ code, GateAnswered request decisions code (t₄ ++ t₅ ++ t₆ ++ t₇) →
      GateAnswered request decisions code (t₁ ++ (t₂ ++ (t₃ ++ (t₄ ++ (t₅ ++ (t₆ ++ t₇)))))) := by
    intro code hg
    have h := hg.append_right (t := t₁ ++ t₂ ++ t₃)
    simpa using h
  rw [hstatus, hcode]
  refine ⟨?_, hsound.pass_iff, fun hp => ⟨consensus, ?_⟩, fun hi => hgate _ (hsound.ignored hi)⟩
  · simp [agent_runs_append, h₁.1, h₂, hr₃, h₄.1, h₅.1, h₆.1, hr₇]
  · obtain ⟨hc, hg, hs⟩ := hsound.passed hp
    refine ⟨?_, hc, fun h => hgate _ (hg h), fun h => hsummary.trans (hs h)⟩
    exact (hdecided.append_left.append_right).append_right

theorem analyze_returns {decision : PolicyDecision} :
    Proc.Returns (orc.analyze request decision context) fun decisions t =>
      AllRan (orc.active_agents request decision) decisions t := by
  refine .bind (ask_returns trivial) fun _ t₁ h₁ =>
    .bind (P := fun _ t => agent_runs t = []) (.assign rfl) fun _ t₂ h₂ =>
    .bind (background_returns monotonic_within) fun _ t₃ h₃ =>
    .bind run_agents_returns fun decisions t₄ h₄ =>
    .bind (background_returns monotonic_within) fun _ t₅ h₅ =>
    .bind (background_returns log_analytics_within) fun _ t₆ h₆ => .pure ?_
  simpa [AllRan, agent_runs_append, h₁.1, h₂, h₃, h₅, h₆] using h₄

theorem review_returns {decision : PolicyDecision} :
    Proc.Returns (orc.review request decision) fun result t =>
      (result.status = .pass ↔ result.result_code = .str "REVIEW_PASSED") ∧
      (result.result_code = .str "REVIEW_PASSED" → ∃ decisions consensus,
        Judged orc request decisions consensus result t ∧
        AllRan (orc.active_agents request decision) decisions t) ∧
      (result.result_code = .str "DUPLICATE_REQUEST_IGNORED" →
        ∃ decisions, GateAnswered request decisions "DUPLICATE_REQUEST_IGNORED" t) := by
  refine .bind (ask_returns trivial) fun _ t₁ h₁ =>
    .bind (P := fun _ t => agent_runs t = []) (.assign rfl) fun _ t₂ h₂ =>
    .bind (ask_returns trivial) fun context t₃ h₃ =>
    .bind (background_returns (offload_within fun _ _ => trivial)) fun _ t₄ h₄ =>
    .bind (background_returns (context_cache_within fun _ _ _ _ _ => trivial)) fun _ t₅ h₅ =>
    .bind analyze_returns fun decisions t₆ h₆ => conclude_returns.mono fun result t₇ h₇ => ?_
  obtain ⟨hr₇, hiff, hpassed, hignored⟩ := h₇
  have hall : AllRan (orc.active_agents request decision) decisions
      (t₁ ++ (t₂ ++ (t₃ ++ (t₄ ++ (t₅ ++ (t₆ ++ t₇)))))) := by
    simpa [AllRan, agent_runs_append, h₁.1, h₂, h₃.1, h₄, h₅, hr₇] using h₆
  have hgate : ∀ code, GateAnswered request decisions code t₇ →
      GateAnswered request decisions code (t₁ ++ (t₂ ++ (t₃ ++ (t₄ ++ (t₅ ++ (t₆ ++ t₇)))))) := by
    intro code hg
    have h := hg.append_right (t := t₁ ++ t₂ ++ t₃ ++ t₄ ++ t₅ ++ t₆)
    simpa using h
  refine ⟨hiff, fun hp => ?_, fun hi => ⟨decisions, hgate _ (hignored hi)⟩⟩
  obtain ⟨consensus, hj⟩ := hpassed hp
  refine ⟨decisions, consensus, ⟨?_, hj.agreed, fun h => hgate _ (hj.gate h), hj.summary⟩, hall⟩
  have hd := hj.decided.append_right (t := t₁ ++ t₂ ++ t₃ ++ t₄ ++ t₅ ++ t₆)
  simpa using hd

theorem reject_resources_returns : Proc.Returns (orc.reject_resources request) fun result
    (_ : Trace) => Refused result :=
  .bind (.any _) fun _ _ _ => .bind (.any _) fun _ _ _ => .pure (by
    constructor <;> simp [build_result])

theorem reject_policy_returns {decision : PolicyDecision} :
    Proc.Returns (orc.reject_policy request decision) fun result (_ : Trace) => Refused result :=
  .bind (.any _) fun _ _ _ => .bind (.any _) fun _ _ _ => .bind (.any _) fun _ _ _ =>
    .bind (.any _) fun _ _ _ => .bind (.any _) fun _ _ _ => .pure (by
      constructor <;> simp [build_result])

theorem admission_returns : Proc.Returns (orc.admission request) fun result t =>
    Accounted orc request result t := by
  refine .bind (ask_returns trivial) fun allowed t₁ h₁ => ?_
  obtain ⟨hr₁, _, rfl, hadmitted⟩ := h₁
  refine .ite (fun hallowed => ?_) fun _ =>
    reject_resources_returns.mono fun result t h => h.accounted _
  refine .bind (ask_returns trivial) fun decision t₂ h₂ =>
    .bind (background_returns log_analytics_within) fun _ t₃ h₃ => ?_
  obtain ⟨hr₂, _, rfl, hevaluated⟩ := h₂
  refine .ite (fun haccepted => review_returns.mono fun result t₄ h₄ => ?_) fun _ =>
    reject_policy_returns.mono fun result t₄ h₄ => h₄.accounted _
  obtain ⟨hiff, hpassed, hignored⟩ := h₄
  have hprefix : agent_runs (t₁ ++ t₂ ++ t₃) = [] := by simp [agent_runs_append, hr₁, hr₂, h₃]
  have htrace : t₁ ++ (t₂ ++ (t₃ ++ t₄)) = t₁ ++ t₂ ++ t₃ ++ t₄ := by simp
  rw [htrace]
  refine ⟨hiff, fun hp => ?_, fun hi => ?_⟩
  · obtain ⟨decisions, consensus, hj, hall⟩ := hpassed hp
    have had : Answered (t₁ ++ t₂ ++ t₃ ++ t₄) (.allow_new_job request) (.ok true) :=
      hallowed ▸ hadmitted.append_left.append_left.append_left
    exact ⟨decision, decisions, consensus, hj.append_right, had,
      hevaluated.append_right.append_left.append_left, haccepted, hall.append_right hprefix⟩
  · obtain ⟨decisions, hg⟩ := hignored hi
    exact ⟨decisions, hg.append_right⟩

theorem handle_failure_returns {error : PyExc} :
    Proc.Returns (orc.handle_failure request error) fun result (_ : Trace) => Refused result := by
  have hclass := classify_failure_mem error
  unfold handle_failure
  generalize classify_failure error = c at hclass ⊢
  obtain ⟨state, status, code⟩ := c
  refine .bind (.any _) fun _ _ _ => .bind (.any _) fun _ _ _ => .bind (.any _) fun _ _ _ =>
    .bind (.any _) fun _ _ _ => .pure ?_
  simp only [List.mem_cons, Prod.mk.injEq, List.not_mem_nil, or_false] at hclass
  rcases hclass with ⟨-, rfl, rfl⟩ | ⟨-, rfl, rfl⟩ | ⟨-, rfl, rfl⟩ | ⟨-, rfl, rfl⟩ <;>
    constructor <;> simp [build_result]

theorem handle_duplicate_request_returns {state : Option String} :
    Proc.Returns (orc.handle_duplicate_request request state) fun result (_ : Trace) =>
      result.status = .ignored ∧ result.result_code = .str "DUPLICATE_REQUEST_IGNORED" :=
  .bind (.any _) fun _ _ _ => .bind (.any _) fun _ _ _ => .bind (.any _) fun _ _ _ =>
    .pure ⟨rfl, rfl⟩

end Returns

end Orchestrator

/-- What a whole run says of the result it returns. -/
structure RunAccount (orc : Orchestrator) (request : ReviewRequest) (result : ReviewResult)
    (t : Trace) : Prop where
  pass_iff : result.status = .pass ↔ result.result_code = .str "REVIEW_PASSED"
  passed : result.result_code = .str "REVIEW_PASSED" → was_created t = true ∧
    ∃ decision decisions consensus, GreenLight orc request decision decisions consensus result t
  ignored : result.result_code = .str "DUPLICATE_REQUEST_IGNORED" →
    (∃ state, Answered t (.create_request request) (.ok (some ⟨false, true, state⟩))) ∨
      was_created t = true ∧
        ∃ decisions, GateAnswered request decisions "DUPLICATE_REQUEST_IGNORED" t

section Account

variable {orc : Orchestrator} {request : ReviewRequest} {result : ReviewResult}

theorem Accounted.run {ev : Event Db Op Ans} {t : Trace} (h : Accounted orc request result t)
    (hc : was_created (ev :: t) = true) (ha : agent_run ev = none) :
    RunAccount orc request result (ev :: t) := by
  have h' := h.append_right (agent_runs_cons ha [])
  exact ⟨h'.pass_iff, fun hp => ⟨hc, h'.passed hp⟩, fun hi => .inr ⟨hc, h'.ignored hi⟩⟩

theorem Refused.run (h : Refused result) (t : Trace) : RunAccount orc request result t :=
  ⟨iff_of_false h.status h.not_passed, fun hp => absurd hp h.not_passed,
    fun hi => absurd hi h.not_ignored⟩

theorem rest_created_returns {state : Option String} :
    Proc.Returns (orc.rest request (.ok (some ⟨true, false, state⟩))) fun result t =>
      Accounted orc request result t := by
  refine .attempt ?_ fun e t => Orchestrator.handle_failure_returns.mono fun result t' h =>
    h.accounted _
  exact .bind (P := fun _ t => t = []) (.assign rfl) fun _ t ht =>
    Orchestrator.admission_returns.mono fun result t' h => by simpa [ht] using h

theorem rest_duplicate_returns {state : Option String} :
    Proc.Returns (orc.rest request (.ok (some ⟨false, true, state⟩))) fun result (_ : Trace) =>
      Refused result ∨ result.status = .ignored ∧
        result.result_code = .str "DUPLICATE_REQUEST_IGNORED" :=
  .attempt (Orchestrator.handle_duplicate_request_returns.mono fun _ _ h => .inr h)
    fun _ _ => Orchestrator.handle_failure_returns.mono fun _ _ h => .inl h

theorem run_account {env : Env} {l l' : Locals} {t : Trace}
    (hp : Path (orc.run_once request l) t (.ret (.ok result, l')))
    (hs : ∀ ev ∈ t, env.step ev.pre ev.op ev.ans ev.post) :
    RunAccount orc request result t := by
  rcases run_path_head hp with ⟨-, hend⟩ | ⟨s, a, s', t', rfl, hrest, hjob⟩
  · rw [Orchestrator.run_once_call] at hend
    cases hend
  · have hhead : was_created (⟨s, .create_request request, a, s'⟩ :: t') =
        creates ⟨s, .create_request request, a, s'⟩ := was_created_head hjob
    have hcr : Created s request a s' := Env.step_created (hs _ List.mem_cons_self)
    cases hcr with
    | raised e => exact (Orchestrator.handle_failure_returns l l' result t' hrest).run _
    | created _ _ _ _ _ _ => exact (rest_created_returns l l' result t' hrest).run hhead rfl
    | duplicate _ _ _ =>
      rcases rest_duplicate_returns l l' result t' hrest with h | ⟨hs, hc⟩
      · exact h.run _
      · refine ⟨by simp [hs, hc], by simp [hc], fun _ => .inl ⟨_, s, s', List.mem_cons_self⟩⟩

end Account

end Nitpicker
