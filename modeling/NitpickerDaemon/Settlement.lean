import NitpickerDaemon.RunState

/-!
The end of a run: the result it returns, the row it leaves and the terminal event it logs.
-/

set_option autoImplicit false

namespace Nitpicker

open Effect

/-- The row of a request and its last terminal event carry `state` and `result_code`. -/
structure Marked (request_id : String) (state : ReviewState) (result_code : PyVal) (db : Db) :
    Prop where
  row : db.state_of request_id = some state
  event : ∃ payload, db.terminal_event request_id = some payload ∧
    payload.lookup "state" = some (.str state.value) ∧
    payload.lookup "result_code" = some result_code

/-- The store agrees with a result in a terminal state. -/
def Settled (request_id : String) (result : ReviewResult) (db : Db) : Prop :=
  result.state.terminal = true ∧ Marked request_id result.state result.result_code db

theorem Marked.still {request_id : String} {state : ReviewState} {result_code : PyVal}
    {db db' : Db} (h : Marked request_id state result_code db) (hs : db.Still db') :
    Marked request_id state result_code db' := by
  refine ⟨?_, ?_⟩
  · rw [hs.state_of]
    exact h.row
  · rw [hs.terminal]
    exact h.event

/-- The event is no call of `mark_terminal` that raised. -/
def mark_succeeds : Event Db Op Ans → Bool
  | ⟨_, .mark_terminal _ _ _ _, .error _, _⟩ => false
  | _ => true

section Settles

variable {env : Env} {orc : Orchestrator} {request : ReviewRequest}

/-- Every mark that is made succeeds. -/
abbrev marking (env : Env) : Surroundings Db Op Ans :=
  restrict env.step fun ev => mark_succeeds ev = true

/-- The run from here ends settled, or raises with its request persisted. -/
abbrev Settles (env : Env) (request : ReviewRequest) (m : Review ReviewResult) (l : Locals)
    (s : Db) (t : Trace) : Prop :=
  Proc.wp (marking env) m (fun result _ s _ => Settled request.request_id result s)
    (fun _ l _ _ => l.request_persisted = true) l s t

/-- Background work after the terminal write. -/
theorem settles_after {α : Type} {state : ReviewState} {result_code : PyVal} {m : Review α}
    {k : α → Review ReviewResult} {l : Locals} {s : Db} {t : Trace}
    (hm : Proc.Within (fun _ _ => True) Op.background id (fun _ => l.request_persisted = true) m)
    (h : Marked request.request_id state result_code s)
    (hk : ∀ a s' t', Marked request.request_id state result_code s' →
      Settles env request (k a) l s' t') :
    Settles env request (m >>= k) l s t := by
  refine hm.wp_bind (I := fun s _ => Marked request.request_id state result_code s)
    (fun _ _ _ _ _ => trivial) (fun s t o a s' ho hs hI => ?_) h (fun a l' s' t' hl hI => ?_)
    fun e l' s' t' hl hI he => ?_
  · exact hI.still (Env.step_silent (Op.background_silent ho) hs.1)
  · obtain rfl : l' = l := hl
    exact hk a s' t' hI
  · obtain rfl : l' = l := hl
    exact he

/-- The terminal write. -/
theorem mark_settles {state : ReviewState} {reason : String} {result_code : PyVal}
    {k : Unit → Review ReviewResult} {l : Locals} {s : Db} {t : Trace}
    (hk : ∀ s' t', Marked request.request_id state result_code s' →
      Settles env request (k ()) l s' t') :
    Settles env request
      (Orchestrator.mark_terminal_safe request.request_id state reason result_code >>= k) l s t := by
  simp only [Settles, Orchestrator.mark_terminal_safe, Orchestrator.best_effort, Proc.wp_bind,
    Proc.wp_attempt, Proc.wp_invoke]
  rintro a s' ⟨hs, ha⟩
  rcases Env.step_mark hs with ⟨e, rfl, -⟩ | ⟨rfl, hmoved, -, hev⟩
  · cases ha
  · refine hk s' _ ⟨?_, _, hev, rfl, rfl⟩
    rw [hmoved, if_pos rfl]

/-- What comes before the terminal write may raise, but keeps the request persisted. -/
theorem settles_before {α : Type} {R : PyExc → Prop} {m : Review α}
    {k : α → Review ReviewResult} {l : Locals} {s : Db} {t : Trace}
    (hm : Proc.Within (fun _ _ => True) (Op.of_job request.request_id)
      (fun l => l.request_persisted) R m)
    (hl : l.request_persisted = true)
    (hk : ∀ a l' s' t', l'.request_persisted = true → Settles env request (k a) l' s' t') :
    Settles env request (m >>= k) l s t := by
  refine hm.wp_bind (I := fun _ _ => True) (fun _ _ _ _ _ => trivial)
    (fun _ _ _ _ _ _ _ _ => trivial) trivial (fun a l' s' t' hl' _ => ?_)
    fun e l' s' t' hl' _ _ => ?_
  · exact hk a l' s' t' (hl'.trans hl)
  · exact hl'.trans hl

theorem reject_resources_settles (l : Locals) (s : Db) (t : Trace) :
    Settles env request (orc.reject_resources request) l s t := by
  refine mark_settles fun s' t' h => ?_
  exact settles_after Orchestrator.log_result_within h fun _ s'' t'' h' => ⟨rfl, h'⟩

theorem reject_policy_settles {decision : PolicyDecision} {l : Locals}
    (hl : l.request_persisted = true) (s : Db) (t : Trace) :
    Settles env request (orc.reject_policy request decision) l s t := by
  refine settles_before (Orchestrator.transition_within (by decide)) hl fun _ l₁ s₁ t₁ h₁ => ?_
  refine settles_before (R := fun _ => True) (Orchestrator.assign_state_within fun _ _ => rfl) h₁
    fun _ l₂ s₂ t₂ h₂ => ?_
  refine mark_settles fun s₃ t₃ h₃ => ?_
  refine settles_after Orchestrator.publish_diagnostics_within h₃ fun _ s₄ t₄ h₄ => ?_
  exact settles_after Orchestrator.log_result_within h₄ fun _ s₅ t₅ h₅ => ⟨rfl, h₅⟩

theorem deliver_settles {decisions : List AgentDecision} {v : Orchestrator.Verdict} {l : Locals}
    (hl : l.request_persisted = true) (s : Db) (t : Trace) :
    Settles env request (orc.deliver request decisions v) l s t := by
  refine mark_settles fun s₁ t₁ h₁ => ?_
  refine settles_after Orchestrator.log_analytics_within h₁ fun _ s₂ t₂ h₂ => ?_
  refine settles_after Orchestrator.publish_diagnostics_within h₂ fun _ s₃ t₃ h₃ => ?_
  refine settles_after (Orchestrator.publish_quick_fix_within fun _ _ _ => hl) h₃
    fun _ s₄ t₄ h₄ => ?_
  exact settles_after Orchestrator.log_result_within h₄ fun _ s₅ t₅ h₅ => ⟨rfl, h₅⟩

theorem handle_failure_settles {error : PyExc} {l : Locals} (hl : l.request_persisted = true)
    (s : Db) (t : Trace) : Settles env request (orc.handle_failure request error) l s t := by
  have hclass := classify_failure_state error
  unfold Orchestrator.handle_failure
  generalize Orchestrator.classify_failure error = c at hclass ⊢
  obtain ⟨state, status, code⟩ := c
  obtain ⟨hrun, hterm⟩ := hclass
  refine settles_before (R := fun _ => True)
    (Orchestrator.record_failure_within (fun _ _ => rfl) hrun) hl fun _ l₁ s₁ t₁ h₁ => ?_
  simp only [Settles, Orchestrator.mark_failure, Proc.wp_bind, Proc.wp_locals, h₁, if_true]
  simp only [← Proc.wp_bind]
  refine mark_settles fun s₂ t₂ h₂ => ?_
  refine settles_after Orchestrator.publish_diagnostics_within h₂ fun _ s₃ t₃ h₃ => ?_
  exact settles_after Orchestrator.log_result_within h₃ fun _ s₄ t₄ h₄ => ⟨hterm, h₄⟩

theorem conclude_settles {context : ContextBundle} {decisions : List AgentDecision} {l : Locals}
    (hl : l.request_persisted = true) (s : Db) (t : Trace) :
    Settles env request (orc.conclude request context decisions) l s t := by
  have hany : ∀ {α : Type} {m : Review α}, Proc.Within (fun _ _ => True) Op.background
      (fun l : Locals => l.request_persisted) (fun _ => True) m →
      Proc.Within (fun _ _ => True) (Op.of_job request.request_id)
        (fun l : Locals => l.request_persisted) (fun _ => True) m :=
    Orchestrator.within_of_background
  refine settles_before (Orchestrator.transition_within (by decide)) hl fun _ l₁ s₁ t₁ h₁ => ?_
  refine settles_before (R := fun _ => True) (Orchestrator.assign_state_within fun _ _ => rfl) h₁
    fun _ l₂ s₂ t₂ h₂ => ?_
  refine settles_before (R := fun _ => True) (.invoke trivial fun _ _ _ _ => trivial) h₂
    fun consensus l₃ s₃ t₃ h₃ => ?_
  refine settles_before (hany (Orchestrator.l3_stage_within (fun _ _ _ => trivial) trivial)) h₃
    fun v l₄ s₄ t₄ h₄ => ?_
  refine settles_before (hany (Orchestrator.patch_stage_within (fun _ _ _ => trivial)
    fun _ _ _ => trivial)) h₄ fun v l₅ s₅ t₅ h₅ => ?_
  refine settles_before (hany (Orchestrator.autofix_stage_within (fun _ _ _ => trivial) trivial))
    h₅ fun v l₆ s₆ t₆ h₆ => ?_
  exact deliver_settles h₆ s₆ t₆

theorem review_settles {decision : PolicyDecision} {l : Locals} (hl : l.request_persisted = true)
    (s : Db) (t : Trace) : Settles env request (orc.review request decision) l s t := by
  refine settles_before (Orchestrator.transition_within (by decide)) hl fun _ l₁ s₁ t₁ h₁ => ?_
  refine settles_before (R := fun _ => True) (Orchestrator.assign_state_within fun _ _ => rfl) h₁
    fun _ l₂ s₂ t₂ h₂ => ?_
  refine settles_before (R := fun _ => True) (.invoke trivial fun _ _ _ _ => trivial) h₂
    fun context l₃ s₃ t₃ h₃ => ?_
  refine settles_before (Orchestrator.within_of_background (R := fun _ => True)
    (Orchestrator.offload_within fun _ _ => trivial)) h₃ fun _ l₄ s₄ t₄ h₄ => ?_
  refine settles_before (Orchestrator.within_of_background (R := fun _ => True)
    (Orchestrator.context_cache_within fun _ _ _ _ _ => trivial)) h₄ fun _ l₅ s₅ t₅ h₅ => ?_
  refine settles_before (Orchestrator.analyze_within fun _ _ => rfl) h₅
    fun decisions l₆ s₆ t₆ h₆ => ?_
  exact conclude_settles h₆ s₆ t₆

theorem admission_settles {l : Locals} (hl : l.request_persisted = true) (s : Db) (t : Trace) :
    Settles env request (orc.admission request) l s t := by
  refine settles_before (R := fun _ => True) (.invoke trivial fun _ _ _ _ => trivial) hl
    fun allowed l₁ s₁ t₁ h₁ => ?_
  cases allowed with
  | false => exact reject_resources_settles l₁ s₁ t₁
  | true =>
    refine settles_before (R := fun _ => True) (.invoke trivial fun _ _ _ _ => trivial) h₁
      fun decision l₂ s₂ t₂ h₂ => ?_
    refine settles_before (Orchestrator.within_of_background (R := fun _ => True)
      Orchestrator.log_analytics_within) h₂ fun _ l₃ s₃ t₃ h₃ => ?_
    by_cases hacc : decision.accepted = true
    · rw [if_pos hacc]
      exact review_settles h₃ s₃ t₃
    · rw [if_neg hacc]
      exact reject_policy_settles h₃ s₃ t₃

theorem rest_settles (db : Db) (state : Option String) :
    Settles env request (orc.rest request (.ok (some ⟨true, false, state⟩))) {} db [] := by
  refine (Proc.wp_attempt _ _).mpr ?_
  refine Proc.wp_mono (fun _ _ _ _ h => h) (fun e l s t h => handle_failure_settles h s t) ?_
  exact admission_settles (l := { request_persisted := true }) rfl db []

end Settles

/-- A whole run whose request was created and whose marks succeed ends settled. -/
theorem created_run_settles {orc : Orchestrator} {env : Env} {request : ReviewRequest}
    {db db' : Db} {t : Trace} {r : Except PyExc ReviewResult} {l : Locals}
    (hr : Steps env.step db (orc.run_once request {}) t db' (.ret (r, l)))
    (hc : was_created t = true) (hm : ∀ ev ∈ t, mark_succeeds ev = true) :
    ∃ result, r = .ok result ∧ Settled request.request_id result db' := by
  obtain ⟨result, rfl⟩ := run_ok hr
  rcases run_head hr with rfl | ⟨a, db₁, t', rfl, hcr, hrest, hjob⟩
  · cases hc
  · rw [was_created_head hjob] at hc
    cases hcr with
    | raised e => cases hc
    | duplicate _ _ _ => cases hc
    | created _ _ _ _ _ _ =>
      have hmark := hrest.restrict (P := fun ev => mark_succeeds ev = true) fun ev hev =>
        hm ev (by simp [hev])
      exact ⟨result, rfl, Proc.wp_sound (rest_settles db₁ _) hmark⟩

theorem Env.live {env : Env} (h : ∀ o, ∃ a, env.may o a) (db : Db) (o : Op) :
    ∃ a db', env.step db o a db' := by
  choose script hscript using h
  exact ⟨_, _, scripted_step hscript db o⟩

theorem run_once_settles {orc : Orchestrator} {env : Env} {request : ReviewRequest} {db : Db}
    (hmay : ∀ o, ∃ a, env.may o a) :
    (∀ t db' p, Steps env.step db (orc.run_once request {}) t db' p →
      ∃ t' db'' result l, Steps env.step db' p t' db'' (.ret (.ok result, l))) ∧
    ∀ t db' r l, Steps env.step db (orc.run_once request {}) t db' (.ret (r, l)) →
      was_created t = true → (∀ ev ∈ t, mark_succeeds ev = true) →
      ∃ result, r = .ok result ∧ Settled request.request_id result db' := by
  refine ⟨fun t db' p hr => ?_, fun t db' r l hr hc hm => created_run_settles hr hc hm⟩
  obtain ⟨t', db'', ⟨r, l⟩, hend⟩ := Steps.completes (Env.live hmay) db' p
  obtain ⟨result, rfl⟩ := run_ok (hr.trans hend)
  exact ⟨t', db'', result, l, hend⟩

theorem run_once_settles_sample : ∃ result, result.state = .DEGRADED ∧ Settled "req_1" result
    (({ llm_review_gate := true } : Orchestrator).play l3_times_out
      (sampleRequest "req_1" "idemp_1") {} 40).2.1 := by
  have hr := @play_steps anyone l3_times_out (fun _ => trivial) { llm_review_gate := true }
    (sampleRequest "req_1" "idemp_1") {} 40
  have hm : ∀ ev ∈ (({ llm_review_gate := true } : Orchestrator).play l3_times_out
      (sampleRequest "req_1" "idemp_1") {} 40).1, mark_succeeds ev = true := by
    rw [← List.all_eq_true]
    rfl
  obtain ⟨result, hok, hs⟩ := (run_once_settles fun o => ⟨l3_times_out o, trivial⟩).2
    _ _ _ _ hr rfl hm
  cases hok
  exact ⟨_, rfl, hs⟩

end Nitpicker
