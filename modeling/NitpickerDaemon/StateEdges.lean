import NitpickerDaemon.RunState

/-!
The state machine along a run: which state changes of the row are edges of
`ALLOWED_TRANSITIONS`, although the terminal write does not check them.
-/

set_option autoImplicit false

namespace Nitpicker

open Effect

/-- Every row whose state the event changed moved along an edge. -/
def FollowsEdge (ev : Event Db Op Ans) : Prop :=
  ∀ id state state', ev.pre.state_of id = some state → ev.post.state_of id = some state' →
    state ≠ state' → state' ∈ ALLOWED_TRANSITIONS state

theorem followsEdge_still {ev : Event Db Op Ans} (h : ev.pre.Still ev.post) : FollowsEdge ev := by
  intro id state state' hs hs' hne
  rw [h.state_of, hs] at hs'
  cases hs'
  exact absurd rfl hne

theorem followsEdge_moved {ev : Event Db Op Ans} {request_id : String} {to_state : ReviewState}
    (hm : ev.pre.Moved ev.post request_id to_state)
    (h : ∀ state, ev.pre.state_of request_id = some state →
      state = to_state ∨ to_state ∈ ALLOWED_TRANSITIONS state) : FollowsEdge ev := by
  intro id state state' hs hs' hne
  rw [hm id] at hs'
  by_cases hid : id = request_id
  · subst hid
    rw [if_pos rfl] at hs'
    cases hs'
    exact (h state hs).resolve_left hne
  · rw [if_neg hid, hs] at hs'
    cases hs'
    exact absurd rfl hne

/-- The failure handler maps `e` to `DEGRADED`. -/
def degrades (e : PyExc) : Bool := decide ((Orchestrator.classify_failure e).1 = .DEGRADED)

/-- The answers after which the row is moved without an edge: the request is refused for
resources, a failure that degrades comes while the row is `QUEUED` or `CONSENSUS_REACHED`,
or the quick-fix channel breaks after the delivery. -/
def derails : (o : Op) → Ans o → Bool
  | .allow_new_job _, .ok allowed => !allowed
  | .allow_new_job _, .error e => degrades e
  | .evaluate_request _, .error e => degrades e
  | .transition_state _ .QUEUED .CONTEXT_READY _ _, .error e => degrades e
  | .transition_state _ .QUEUED .PRECHECK_FAILED _ _, .error e => degrades e
  | .decide _, .error e => degrades e
  | .llm_review _ _ _, .error e => degrades e
  | .create_patch _ _, .error e => degrades e
  | .verify_patch _ _, .error e => degrades e
  | .apply_patch _ _, .error e => degrades e
  | .publish_quick_fix _ _ _ _, .error e => !Orchestrator.quick_fix_catches e
  | _, _ => false

theorem fallback_of_not_degrades {e : PyExc} (h : degrades e = false) :
    (Orchestrator.classify_failure e).1 = .FAILED := by
  have hmem := classify_failure_mem e
  simp only [degrades, decide_eq_false_iff_not] at h
  simp only [List.mem_cons, List.not_mem_nil, or_false] at hmem
  rcases hmem with hm | hm | hm | hm <;> simp_all

theorem failed_edge {e : PyExc} {state : ReviewState} (h : degrades e = false)
    (hs : state.terminal = false) :
    (Orchestrator.classify_failure e).1 ∈ ALLOWED_TRANSITIONS state := by
  rw [fallback_of_not_degrades h]
  exact can_transition_iff.mp (can_transition_failed hs)

/-- While the context is built and the agents run, every failure has its edge. -/
theorem fallback_edge (e : PyExc) {state : ReviewState}
    (hs : state = .CONTEXT_READY ∨ state = .ANALYZING) :
    (Orchestrator.classify_failure e).1 ∈ ALLOWED_TRANSITIONS state := by
  have hmem := classify_failure_mem e
  simp only [List.mem_cons, List.not_mem_nil, or_false] at hmem
  rcases hs with rfl | rfl <;> rcases hmem with hm | hm | hm | hm <;> rw [hm] <;> decide

/-- The failure `e` can be recorded along an edge from where the row is. -/
structure OnTrack (request : ReviewRequest) (e : PyExc) (l : Locals) (s : Db) : Prop where
  running : l.current_state.terminal = false
  row : s.state_of request.request_id = some l.current_state
  edge : (Orchestrator.classify_failure e).1 ∈ ALLOWED_TRANSITIONS l.current_state

abbrev Edges (t : Trace) : Prop := ∀ ev ∈ t, FollowsEdge ev

theorem Edges.snoc {t : Trace} {ev : Event Db Op Ans} (h : Edges t) (hev : FollowsEdge ev) :
    Edges (t ++ [ev]) := by
  intro e he
  simp only [List.mem_append, List.mem_singleton] at he
  rcases he with he | rfl
  · exact h e he
  · exact hev

section Tracks

variable {α : Type} {env : Env} {orc : Orchestrator} {request : ReviewRequest}
  {Q : α → Locals → Db → Trace → Prop} {l : Locals} {s : Db} {t : Trace}

abbrev tracking (env : Env) : Surroundings Db Op Ans :=
  restrict env.step fun ev => ev.pre.Consistent ∧ derails ev.op ev.ans = false

/-- From here all changes follow edges, and a failure finds its edge. -/
abbrev Tracks (env : Env) (request : ReviewRequest) (m : Review α)
    (Q : α → Locals → Db → Trace → Prop) (l : Locals) (s : Db) (t : Trace) : Prop :=
  Proc.wp (tracking env) m Q
    (fun e l s t => Edges t ∧ (l.request_persisted = true → OnTrack request e l s)) l s t

/-- Past a part of the pipeline that leaves the rows alone. -/
theorem tracks_quiet {β : Type} {R : PyExc → Prop} {m : Review β} {k : β → Review α}
    {state : ReviewState} (hm : Proc.Within (fun o a => derails o a = false) Op.silent id R m)
    (hs : s.state_of request.request_id = some state) (ht : Edges t)
    (hk : ∀ b s' t', s'.state_of request.request_id = some state → Edges t' →
      Tracks env request (k b) Q l s' t')
    (hR : ∀ e s', R e → s'.state_of request.request_id = some state → OnTrack request e l s') :
    Tracks env request (m >>= k) Q l s t := by
  refine hm.wp_bind
    (I := fun s t => s.state_of request.request_id = some state ∧ Edges t)
    (fun _ _ _ _ hs => hs.2.2) (fun s t o a s' ho hs hI => ?_) ⟨hs, ht⟩
    (fun b l' s' t' hl hI => ?_) fun e l' s' t' hl hI he => ?_
  · have hstill := Env.step_silent ho hs.1
    exact ⟨(hstill.state_of _).trans hI.1, hI.2.snoc (followsEdge_still hstill)⟩
  · obtain rfl : l' = l := hl
    exact hk b s' t' hI.1 hI.2
  · obtain rfl : l' = l := hl
    exact ⟨hI.2, fun _ => hR e s' he hI.1⟩

/-- Past a checked transition and the assignment that follows it. -/
theorem tracks_transition {from_state to_state : ReviewState} {reason code : String} {p : Bool}
    {k : Review α} (hopen : from_state.terminal = false)
    (hs : s.state_of request.request_id = some from_state) (ht : Edges t)
    (hR : ∀ e, derails (.transition_state request.request_id from_state to_state
      (.str reason) (.str code)) (.error e) = false →
      (Orchestrator.classify_failure e).1 ∈ ALLOWED_TRANSITIONS from_state)
    (hk : ∀ s' t', s'.state_of request.request_id = some to_state → Edges t' →
      Tracks env request k Q ⟨to_state, p⟩ s' t') :
    Tracks env request (do
      Orchestrator.transition request.request_id from_state to_state reason code
      Proc.assign fun l => { l with current_state := to_state }
      k) Q ⟨from_state, p⟩ s t := by
  simp only [Tracks, Orchestrator.transition, Proc.wp_bind, Proc.wp_invoke, Proc.wp_assign]
  rintro a s' ⟨hstep, hc, hd⟩
  rcases Env.step_transition hc hstep with ⟨e, rfl, rfl⟩ | ⟨rfl, hcan, hfrom, hm, -⟩
  · exact ⟨ht.snoc (followsEdge_still (.refl _)), fun _ => ⟨hopen, hs, hR e hd⟩⟩
  · refine hk s' _ ?_ (ht.snoc (followsEdge_moved hm fun state hst => .inr ?_))
    · rw [hm, if_pos rfl]
    · rw [hfrom] at hst
      cases hst
      exact can_transition_iff.mp hcan

/-- Past the unchecked terminal write. -/
theorem tracks_mark {state final_state : ReviewState} {reason : String} {code : PyVal}
    {k : Unit → Review α} (hs : s.state_of request.request_id = some state) (ht : Edges t)
    (hedge : state = final_state ∨ final_state ∈ ALLOWED_TRANSITIONS state)
    (hk : ∀ s' t', Edges t' → Tracks env request (k ()) Q l s' t') :
    Tracks env request
      (Orchestrator.mark_terminal_safe request.request_id final_state reason code >>= k)
      Q l s t := by
  simp only [Tracks, Orchestrator.mark_terminal_safe, Orchestrator.best_effort, Proc.wp_bind,
    Proc.wp_attempt, Proc.wp_invoke]
  rintro a s' ⟨hstep, -, -⟩
  rcases Env.step_mark hstep with ⟨e, rfl, rfl⟩ | ⟨rfl, hm, -, -⟩
  · exact hk _ _ (ht.snoc (followsEdge_still (.refl _)))
  · refine hk s' _ (ht.snoc (followsEdge_moved hm fun st hst => ?_))
    rw [hs] at hst
    cases hst
    exact hedge

/-- What leaves the rows alone and raises nothing may end the run. -/
theorem tracks_end {m : Review α}
    (hm : Proc.Within (fun o a => derails o a = false) Op.silent id (fun _ => False) m)
    (ht : Edges t) : Tracks env request m (fun _ _ _ t => Edges t) l s t := by
  refine Proc.wp_mono (fun _ _ _ _ h => h.2) (fun _ _ _ _ h => h.2.2.elim)
    (hm.wp (I := fun _ t => Edges t) (fun _ _ _ _ hs => hs.2.2) (fun s t o a s' ho hs hI => ?_) ht)
  exact hI.snoc (followsEdge_still (Env.step_silent ho hs.1))

theorem quiet {β : Type} {A : (o : Op) → Ans o → Prop} {R : PyExc → Prop} {m : Review β}
    (h : Proc.Within A Op.background id R m) : Proc.Within A Op.silent id R m :=
  h.mono (fun _ _ ha => ha) (fun _ => Op.background_silent) fun _ he => he

theorem deliver_tracks {decisions : List AgentDecision} {v : Orchestrator.Verdict}
    (hs : s.state_of request.request_id = some .CONSENSUS_REACHED) (ht : Edges t) :
    Tracks env request (orc.deliver request decisions v) (fun _ _ _ t => Edges t) l s t := by
  refine tracks_mark hs ht (.inr (by decide)) fun s₁ t₁ e₁ => tracks_end (quiet ?_) e₁
  refine .bind Orchestrator.log_analytics_within fun _ =>
    .bind Orchestrator.publish_diagnostics_within fun _ =>
    .bind (Orchestrator.publish_quick_fix_within fun e hd hc => ?_) fun _ =>
    .bind Orchestrator.log_result_within fun _ => .pure _
  simp [derails, hc] at hd

theorem unboundLocalError_fails : degrades Orchestrator.unboundLocalError = false := by
  simp only [degrades, Orchestrator.classify_failure, contains, String.toLower, String.toList_map]
  decide +kernel

theorem overflowError_fails : degrades Orchestrator.overflowError = false := by
  simp only [degrades, Orchestrator.classify_failure, contains, String.toLower, String.toList_map]
  decide

theorem conclude_tracks {context : ContextBundle} {decisions : List AgentDecision} {p : Bool}
    (hs : s.state_of request.request_id = some .ANALYZING) (ht : Edges t) :
    Tracks env request (orc.conclude request context decisions) (fun _ _ _ t => Edges t)
      ⟨.ANALYZING, p⟩ s t := by
  have hfail : ∀ e s', degrades e = false →
      s'.state_of request.request_id = some .CONSENSUS_REACHED →
      OnTrack request e ⟨.CONSENSUS_REACHED, p⟩ s' := fun e s' he h' =>
    ⟨rfl, h', failed_edge he rfl⟩
  refine tracks_transition rfl hs ht ?_ fun s₁ t₁ h₁ e₁ => ?_
  · exact fun e _ => fallback_edge e (.inr rfl)
  refine tracks_quiet (R := fun e => degrades e = false) (.invoke trivial ?_) h₁ e₁
    (fun consensus s₂ t₂ h₂ e₂ => ?_) hfail
  · rintro a e hd rfl
    exact hd
  refine tracks_quiet (quiet (Orchestrator.l3_stage_within (fun _ _ hd => hd)
    overflowError_fails)) h₂ e₂ (fun v s₃ t₃ h₃ e₃ => ?_) hfail
  refine tracks_quiet (quiet (Orchestrator.patch_stage_within (fun _ _ hd => hd)
    fun _ _ hd => hd)) h₃ e₃ (fun v s₄ t₄ h₄ e₄ => ?_) hfail
  refine tracks_quiet (quiet (Orchestrator.autofix_stage_within (fun _ _ hd => hd)
    unboundLocalError_fails)) h₄ e₄ (fun v s₅ t₅ h₅ e₅ => ?_) hfail
  exact deliver_tracks h₅ e₅

theorem analyze_tracks {decision : PolicyDecision} {context : ContextBundle} {p : Bool}
    (hs : s.state_of request.request_id = some .CONTEXT_READY) (ht : Edges t) :
    Tracks env request (orc.analyze request decision context)
      (fun _ l s t => l = ⟨.ANALYZING, p⟩ ∧
        s.state_of request.request_id = some .ANALYZING ∧ Edges t) ⟨.CONTEXT_READY, p⟩ s t := by
  have hfail : ∀ e s', True → s'.state_of request.request_id = some .ANALYZING →
      OnTrack request e ⟨.ANALYZING, p⟩ s' := fun e s' _ h' => ⟨rfl, h', fallback_edge e (.inr rfl)⟩
  refine tracks_transition rfl hs ht ?_ fun s₁ t₁ h₁ e₁ => ?_
  · exact fun e _ => fallback_edge e (.inl rfl)
  refine tracks_quiet (R := fun _ => True) (quiet Orchestrator.monotonic_within) h₁ e₁
    (fun _ s₂ t₂ h₂ e₂ => ?_) hfail
  refine tracks_quiet (Orchestrator.run_agents_within fun _ _ _ _ => trivial) h₂ e₂
    (fun decisions s₃ t₃ h₃ e₃ => ?_) hfail
  refine tracks_quiet (R := fun _ => True) (quiet Orchestrator.monotonic_within) h₃ e₃
    (fun _ s₄ t₄ h₄ e₄ => ?_) hfail
  exact tracks_quiet (R := fun _ => True) (quiet Orchestrator.log_analytics_within) h₄ e₄
    (fun _ s₅ t₅ h₅ e₅ => ⟨rfl, h₅, e₅⟩) hfail

theorem review_tracks {decision : PolicyDecision} {p : Bool}
    (hs : s.state_of request.request_id = some .QUEUED) (ht : Edges t) :
    Tracks env request (orc.review request decision) (fun _ _ _ t => Edges t) ⟨.QUEUED, p⟩ s t := by
  have hfail : ∀ e s', True → s'.state_of request.request_id = some .CONTEXT_READY →
      OnTrack request e ⟨.CONTEXT_READY, p⟩ s' := fun e s' _ h' =>
    ⟨rfl, h', fallback_edge e (.inl rfl)⟩
  refine tracks_transition rfl hs ht ?_ fun s₁ t₁ h₁ e₁ => ?_
  · exact fun e hd => failed_edge hd rfl
  refine tracks_quiet (R := fun _ => True) (.invoke trivial fun _ _ _ _ => trivial) h₁ e₁
    (fun context s₂ t₂ h₂ e₂ => ?_) hfail
  refine tracks_quiet (quiet (Orchestrator.offload_within fun _ _ => trivial)) h₂ e₂
    (fun _ s₃ t₃ h₃ e₃ => ?_) hfail
  refine tracks_quiet (quiet (Orchestrator.context_cache_within fun _ _ _ _ _ => trivial)) h₃ e₃
    (fun _ s₄ t₄ h₄ e₄ => ?_) hfail
  rw [Tracks, Proc.wp_bind]
  refine Proc.wp_mono (fun decisions l' s₅ t₅ h => ?_) (fun _ _ _ _ h => h) (analyze_tracks h₄ e₄)
  obtain ⟨rfl, h₅, e₅⟩ := h
  exact conclude_tracks h₅ e₅

theorem reject_policy_tracks {decision : PolicyDecision} {p : Bool}
    (hs : s.state_of request.request_id = some .QUEUED) (ht : Edges t) :
    Tracks env request (orc.reject_policy request decision) (fun _ _ _ t => Edges t)
      ⟨.QUEUED, p⟩ s t := by
  refine tracks_transition rfl hs ht ?_ fun s₁ t₁ h₁ e₁ => ?_
  · exact fun e hd => failed_edge hd rfl
  refine tracks_mark h₁ e₁ (.inl rfl) fun s₂ t₂ e₂ => tracks_end (quiet ?_) e₂
  exact .bind Orchestrator.publish_diagnostics_within fun _ =>
    .bind Orchestrator.log_result_within fun _ => .pure _

theorem admission_tracks {p : Bool} (hs : s.state_of request.request_id = some .QUEUED)
    (ht : Edges t) :
    Tracks env request (orc.admission request) (fun _ _ _ t => Edges t) ⟨.QUEUED, p⟩ s t := by
  have hfail : ∀ e s', degrades e = false →
      s'.state_of request.request_id = some .QUEUED →
      OnTrack request e ⟨.QUEUED, p⟩ s' := fun e s' he h' => ⟨rfl, h', failed_edge he rfl⟩
  simp only [Tracks, Orchestrator.admission, Proc.wp_bind, Proc.wp_invoke]
  rintro a s₁ ⟨hstep, hc, hd⟩
  have hstill : s.Still s₁ := by
    refine Env.step_silent ?_ hstep
    trivial
  have h₁ := (hstill.state_of request.request_id).trans hs
  have e₁ : Edges (t ++ [⟨s, .allow_new_job request, a, s₁⟩]) :=
    ht.snoc (followsEdge_still hstill)
  cases a with
  | error e => exact ⟨e₁, fun _ => hfail e s₁ hd h₁⟩
  | ok allowed =>
    obtain rfl : allowed = true := by simpa [derails] using hd
    refine tracks_quiet (R := fun e => degrades e = false) (.invoke trivial ?_) h₁ e₁
      (fun decision s₂ t₂ h₂ e₂ => ?_) hfail
    · rintro a e hd rfl
      exact hd
    refine tracks_quiet (R := fun _ => False) (quiet Orchestrator.log_analytics_within) h₂ e₂
      (fun _ s₃ t₃ h₃ e₃ => ?_) fun _ _ he => he.elim
    by_cases hacc : decision.accepted = true
    · rw [if_pos hacc]
      exact review_tracks h₃ e₃
    · rw [if_neg hacc]
      exact reject_policy_tracks h₃ e₃

/-- The checked transition of the handler leaves an edge, or nothing, for the terminal write. -/
theorem record_failure_tracks {error : PyExc} {reason code : String} (ht : Edges t)
    (h : l.request_persisted = true → OnTrack request error l s) :
    Tracks env request (Orchestrator.record_failure request
      (Orchestrator.classify_failure error).1 reason code)
      (fun _ l' s' t' => Edges t' ∧ (l'.request_persisted = true → ∃ state,
        s'.state_of request.request_id = some state ∧
        (state = (Orchestrator.classify_failure error).1 ∨
          (Orchestrator.classify_failure error).1 ∈ ALLOWED_TRANSITIONS state))) l s t := by
  simp only [Tracks, Orchestrator.record_failure, Proc.wp_bind, Proc.wp_locals]
  split
  · rename_i hcond
    simp only [Bool.and_eq_true] at hcond
    obtain ⟨hrun, hrow, hedge⟩ := h hcond.1.1
    simp only [Orchestrator.record_failure_transition_best_effort, Orchestrator.best_effort,
      Orchestrator.transition, Proc.wp_bind, Proc.wp_attempt, Proc.wp_invoke]
    rintro a s' ⟨hstep, hc, -⟩
    rcases Env.step_transition hc hstep with ⟨e, rfl, rfl⟩ | ⟨rfl, -, hfrom, hm, -⟩
    · exact ⟨ht.snoc (followsEdge_still (.refl _)), fun _ => ⟨_, hrow, .inr hedge⟩⟩
    · refine ⟨ht.snoc (followsEdge_moved hm fun state hst => ?_), fun _ => ⟨_, ?_, .inl rfl⟩⟩
      · rw [hfrom] at hst
        cases hst
        exact .inr hedge
      · rw [hm, if_pos rfl]
  · exact ⟨ht, fun hp => ⟨_, (h hp).row, .inr (h hp).edge⟩⟩

theorem mark_failure_tracks {final_state : ReviewState} {reason code : String}
    {k : Unit → Review α} (ht : Edges t)
    (h : l.request_persisted = true → ∃ state, s.state_of request.request_id = some state ∧
      (state = final_state ∨ final_state ∈ ALLOWED_TRANSITIONS state))
    (hk : ∀ s' t', Edges t' → Tracks env request (k ()) Q l s' t') :
    Tracks env request (Orchestrator.mark_failure request final_state reason code >>= k) Q l s t := by
  simp only [Tracks, Orchestrator.mark_failure, Proc.wp_bind, Proc.wp_locals]
  split
  · rename_i hp
    obtain ⟨state, hs, hedge⟩ := h hp
    exact (Proc.wp_bind _ _).mp (tracks_mark hs ht hedge hk)
  · exact hk s t ht

/-- The failure handler moves the row only along the edge it was left. -/
theorem handle_failure_tracks {error : PyExc} (ht : Edges t)
    (h : l.request_persisted = true → OnTrack request error l s) :
    Tracks env request (orc.handle_failure request error) (fun _ _ _ t => Edges t) l s t := by
  refine (Proc.wp_bind _ _).mpr ?_
  refine Proc.wp_mono (fun _ l₁ s₁ t₁ h₁ => ?_) (fun _ _ _ _ h => h)
    (record_failure_tracks ht h)
  refine mark_failure_tracks h₁.1 h₁.2 fun s₂ t₂ e₂ => tracks_end (quiet ?_) e₂
  exact .bind Orchestrator.publish_diagnostics_within fun _ =>
    .bind Orchestrator.log_result_within fun _ => .pure _

/-- What is left of a run after `create_request`, whatever it answered. -/
theorem rest_tracks {request : ReviewRequest} {db : Db}
    {a : Except PyExc (Option JobCreationOutcome)} (h : Created db request a s) :
    Proc.wp (tracking env) (orc.rest request a) (fun _ _ _ t => Edges t)
      (fun _ _ _ t => Edges t) {} s [] := by
  have hnil : Edges [] := fun ev hev => by cases hev
  have hbad : ∀ e l s t, Edges t ∧ (l.request_persisted = true → OnTrack request e l s) →
      Edges t := fun _ _ _ _ h => h.1
  cases h with
  | raised e =>
    exact Proc.wp_mono (fun _ _ _ _ h => h) hbad
      (handle_failure_tracks hnil fun hp => by cases hp)
  | duplicate _ hstill _ =>
    refine (Proc.wp_attempt _ _).mpr ?_
    have hdup : ∀ state, Tracks env request (orc.handle_duplicate_request request state)
        (fun _ _ _ t => Edges t) {} s [] := fun state =>
      tracks_end (quiet Orchestrator.handle_duplicate_request_within) hnil
    refine Proc.wp_mono (fun _ _ _ _ h => h) (fun e l s t h => ?_) (hdup _)
    exact Proc.wp_mono (fun _ _ _ _ h => h) hbad (handle_failure_tracks h.1 h.2)
  | created _ _ _ _ _ hm =>
    refine (Proc.wp_attempt _ _).mpr ?_
    have hs : s.state_of request.request_id = some .QUEUED := by rw [hm, if_pos rfl]
    refine Proc.wp_mono (fun _ _ _ _ h => h) (fun e l s t h => ?_)
      (admission_tracks (p := true) hs hnil)
    exact Proc.wp_mono (fun _ _ _ _ h => h) hbad (handle_failure_tracks h.1 h.2)

end Tracks

theorem created_edge {db db₁ : Db} {request : ReviewRequest}
    {a : Except PyExc (Option JobCreationOutcome)} (h : Created db request a db₁) :
    FollowsEdge ⟨db, .create_request request, a, db₁⟩ := by
  cases h with
  | raised e => exact followsEdge_still (.refl _)
  | duplicate _ hstill _ => exact followsEdge_still hstill
  | created _ _ hid _ _ hm =>
    refine followsEdge_moved hm fun state hst => ?_
    have hnone : db.state_of request.request_id = none :=
      Db.state_of_none.mpr fun row hrow heq => hid ⟨row, hrow, heq⟩
    rw [hnone] at hst
    cases hst

theorem whole_run_follows_edges {orc : Orchestrator} {env : Env} {request : ReviewRequest}
    {db db' : Db} {t : Trace} {r : Except PyExc ReviewResult × Locals} (hc : db.Consistent)
    (hr : Steps env.step db (orc.run_once request {}) t db' (.ret r))
    (hd : ∀ ev ∈ t, derails ev.op ev.ans = false) : ∀ ev ∈ t, FollowsEdge ev := by
  rcases run_head hr with rfl | ⟨a, db₁, t', rfl, hcr, hrest, hjob⟩
  · simp
  · have hcons := run_consistent hc hr
    have htrack := hrest.restrict
      (P := fun ev => ev.pre.Consistent ∧ derails ev.op ev.ans = false)
      fun ev hev => ⟨hcons ev (by simp [hev]), hd ev (by simp [hev])⟩
    obtain ⟨r, l⟩ := r
    have hedges : Edges t' := by
      have h := Proc.wp_sound (@rest_tracks env orc db₁ request db a hcr) htrack
      cases r <;> exact h
    intro ev hev
    rcases List.mem_cons.mp hev with rfl | hev
    · exact created_edge hcr
    · exact hedges ev hev

/-- Answers with which any run can be finished without derailing. -/
def harmless : (o : Op) → Ans o
  | .create_request _ => .error Orchestrator.overflowError
  | .transition_state _ _ _ _ _ => .error Orchestrator.overflowError
  | .mark_terminal _ _ _ _ => .error Orchestrator.overflowError
  | .append_event _ _ _ => .error Orchestrator.overflowError
  | .allow_new_job _ => .ok true
  | .evaluate_request _ => .error Orchestrator.overflowError
  | .decide _ => .error Orchestrator.overflowError
  | .llm_review _ _ _ => .error Orchestrator.overflowError
  | .create_patch _ _ => .ok none
  | .verify_patch _ _ => .error Orchestrator.overflowError
  | .apply_patch _ _ => .ok {}
  | o => agreeable o

theorem harmless_derails (o : Op) : derails o (harmless o) = false := by
  have hf := overflowError_fails
  cases o with
  | transition_state request_id from_state to_state reason result_code =>
    cases from_state <;> cases to_state <;> first | rfl | exact hf
  | evaluate_request request => exact hf
  | decide decisions => exact hf
  | llm_review request context findings => exact hf
  | verify_patch request patch => exact hf
  | _ => rfl

/-- Anyone, over a job store that may fail. -/
def faulty : Env where
  may := fun _ _ => True
  store_faults := True

theorem step_faulty {env : Env} (db : Db) (o : Op) (a : Ans o) (db' : Db)
    (h : env.step db o a db') : faulty.step db o a db' := by
  have hfault : ∀ {α : Type} {a : Except PyExc α}, env.fault db a db' → faulty.fault db a db' :=
    fun h => ⟨trivial, h.2⟩
  cases o with
  | create_request request => exact h.imp id hfault
  | transition_state request_id from_state to_state reason result_code => exact h.imp id hfault
  | mark_terminal request_id state reason result_code => exact h.imp id hfault
  | append_event request_id event_type payload => exact h.imp id hfault
  | _ => exact ⟨trivial, h.2⟩

theorem harmless_step (db : Db) (o : Op) : faulty.step db o (harmless o) db := by
  cases o with
  | create_request request => exact .inr ⟨trivial, rfl, _, rfl⟩
  | transition_state request_id from_state to_state reason result_code =>
    exact .inr ⟨trivial, rfl, _, rfl⟩
  | mark_terminal request_id state reason result_code => exact .inr ⟨trivial, rfl, _, rfl⟩
  | append_event request_id event_type payload => exact .inr ⟨trivial, rfl, _, rfl⟩
  | _ => exact ⟨trivial, rfl⟩

theorem state_changes_follow_edges {orc : Orchestrator} {env : Env} {request : ReviewRequest}
    {db db' : Db} {t : Trace} {p : Running}
    (hdb : db.Reachable) (hr : Steps env.step db (orc.run_once request {}) t db' p)
    (hd : ∀ ev ∈ t, derails ev.op ev.ans = false) : ∀ ev ∈ t, FollowsEdge ev := by
  have hlive : ∀ db o, ∃ a db',
      restrict faulty.step (fun ev => derails ev.op ev.ans = false) db o a db' := fun db o =>
    ⟨_, _, harmless_step db o, harmless_derails o⟩
  obtain ⟨t', db'', r, hend⟩ := Steps.completes hlive db' p
  have hwhole := (hr.mono step_faulty).trans (hend.mono fun _ _ _ _ h => h.1)
  have hall : ∀ ev ∈ t ++ t', derails ev.op ev.ans = false := by
    intro ev hev
    rcases List.mem_append.mp hev with hev | hev
    · exact hd ev hev
    · exact (hend.event ev hev).2
  have hedges := whole_run_follows_edges hdb.consistent hwhole hall
  exact fun ev hev => hedges ev (by simp [hev])

theorem state_changes_follow_sample : ∃ t db' result l,
    Steps anyone.step {} (({} : Orchestrator).run_once (sampleRequest "req_1" "idemp_1") {})
      t db' (.ret (.ok result, l)) ∧ result.state = .DELIVERED ∧ ∀ ev ∈ t, FollowsEdge ev := by
  have hr := @play_steps anyone agreeable (fun _ => trivial) {} (sampleRequest "req_1" "idemp_1")
    {} 40
  refine ⟨_, _, _, _, hr, rfl, state_changes_follow_edges Db.reachable_empty hr ?_⟩
  have hall : (({} : Orchestrator).play agreeable (sampleRequest "req_1" "idemp_1") {} 40).1.all
      (fun ev => !derails ev.op ev.ans) = true := rfl
  simpa using hall

def no_resources : (o : Op) → Ans o
  | .allow_new_job _ => .ok false
  | o => agreeable o

/-- A request refused for resources goes from `QUEUED` straight to `DEGRADED`. -/
theorem rejection_leaves_edges : ∃ t db' p,
    Steps anyone.step {} (({} : Orchestrator).run_once (sampleRequest "req_1" "idemp_1") {})
      t db' p ∧ ∃ ev ∈ t, ¬FollowsEdge ev := by
  refine ⟨_, _, _, @play_steps anyone no_resources (fun _ => trivial) {} _ {} 40,
    _, List.mem_cons_of_mem _ (List.mem_cons_of_mem _ List.mem_cons_self), fun h => ?_⟩
  have hedge := h "req_1" .QUEUED .DEGRADED rfl rfl (by decide)
  exact absurd hedge (by decide)

end Nitpicker
