import NitpickerDaemon.ControllerStages

/-!
A whole run of the orchestrator, or one that stops anywhere: which questions it asks, and
what its trace says about the row of its request.
-/

set_option autoImplicit false

namespace Nitpicker

open Effect

/-- The states `transition_state` is asked for. -/
def run_states : List ReviewState :=
  [.PRECHECK_FAILED, .CONTEXT_READY, .ANALYZING, .CONSENSUS_REACHED, .DEGRADED, .FAILED]

/-- The questions of a run after `create_request`. -/
def Op.of_job (id : String) : Op → Prop
  | .create_request _ => False
  | .transition_state request_id _ to_state _ _ => request_id = id ∧ to_state ∈ run_states
  | .mark_terminal request_id state _ _ => request_id = id ∧ state.terminal = true
  | .append_event _ event_type _ => event_type = "review.stage"
  | _ => True

/-- The questions of a run for `request`. -/
def Op.of_run (request : ReviewRequest) : Op → Prop
  | .create_request r => r = request
  | o => o.of_job request.request_id

theorem Op.silent_of_job {id : String} {o : Op} (h : o.silent) : o.of_job id := by
  cases o <;> first | exact h | exact h.elim

theorem Op.of_job_of_run {request : ReviewRequest} {o : Op} (h : o.of_job request.request_id) :
    o.of_run request := by
  cases o <;> first | exact h | exact h.elim

theorem Op.of_run_lawful {request : ReviewRequest} {o : Op} (h : o.of_run request) :
    o.lawful := by
  cases o <;> first | exact h | trivial

theorem classify_failure_mem (e : PyExc) : Orchestrator.classify_failure e ∈ [
    (ReviewState.DEGRADED, ReviewStatus.degraded, "LLM_TIMEOUT"),
    (.DEGRADED, .degraded, "LLM_CONNECTION_ERROR"),
    (.DEGRADED, .degraded, "LLM_RATE_LIMITED"), (.FAILED, .failed, "SYSTEM_FAILED")] := by
  simp only [Orchestrator.classify_failure]
  split
  · simp
  split
  · simp
  split
  · simp
  split
  · simp
  split <;> simp

theorem classify_failure_state (e : PyExc) :
    (Orchestrator.classify_failure e).1 ∈ run_states ∧
      (Orchestrator.classify_failure e).1.terminal = true := by
  have h := classify_failure_mem e
  simp only [List.mem_cons, List.not_mem_nil, or_false] at h
  rcases h with h | h | h | h <;> rw [h] <;> decide

namespace Orchestrator

section Whole

variable {κ : Type} {A : (o : Op) → Ans o → Prop} {f : Locals → κ} {R : PyExc → Prop}
  {orc : Orchestrator} {request : ReviewRequest}

theorem within_of_background {α : Type} {m : Review α}
    (h : Proc.Within A Op.background f R m) : Proc.Within A (Op.of_job request.request_id) f R m :=
  h.mono (fun _ _ ha => ha) (fun _ ho => Op.silent_of_job (Op.background_silent ho))
    fun _ he => he

theorem transition_within {from_state to_state : ReviewState} {reason result_code : String}
    (h : to_state ∈ run_states) : Proc.Within A (Op.of_job request.request_id) f (fun _ => True)
      (transition request.request_id from_state to_state reason result_code) :=
  .invoke ⟨rfl, h⟩ fun _ _ _ _ => trivial

theorem mark_terminal_within {state : ReviewState} {reason : String} {result_code : PyVal}
    (h : state.terminal = true) : Proc.Within A (Op.of_job request.request_id) f R
      (mark_terminal_safe request.request_id state reason result_code) :=
  best_effort_within (.invoke ⟨rfl, h⟩ fun _ _ _ _ => trivial)

theorem reject_resources_within :
    Proc.Within A (Op.of_job request.request_id) f R (orc.reject_resources request) :=
  .bind (mark_terminal_within rfl) fun _ =>
    .bind (within_of_background log_result_within) fun _ => .pure _

theorem deliver_within {decisions : List AgentDecision} {v : Verdict} :
    Proc.Within A (Op.of_job request.request_id) f (fun _ => True) (orc.deliver request decisions v) :=
  .bind (mark_terminal_within rfl) fun _ =>
    .bind (within_of_background log_analytics_within) fun _ =>
    .bind (within_of_background publish_diagnostics_within) fun _ =>
    .bind (within_of_background (publish_quick_fix_within fun _ _ _ => trivial)) fun _ =>
    .bind (within_of_background log_result_within) fun _ => .pure _

variable (hf : ∀ l state, f { l with current_state := state } = f l)

include hf

theorem assign_state_within {state : ReviewState} :
    Proc.Within A (Op.of_job request.request_id) f R
      (Proc.assign fun l => { l with current_state := state }) :=
  .assign fun l => hf l state

theorem reject_policy_within {decision : PolicyDecision} :
    Proc.Within A (Op.of_job request.request_id) f (fun _ => True) (orc.reject_policy request decision) :=
  .bind (transition_within (by decide)) fun _ =>
    .bind (assign_state_within hf) fun _ =>
    .bind (mark_terminal_within rfl) fun _ =>
    .bind (within_of_background publish_diagnostics_within) fun _ =>
    .bind (within_of_background log_result_within) fun _ => .pure _

theorem conclude_within {context : ContextBundle} {decisions : List AgentDecision} :
    Proc.Within A (Op.of_job request.request_id) f (fun _ => True)
      (orc.conclude request context decisions) :=
  .bind (transition_within (by decide)) fun _ =>
    .bind (assign_state_within hf) fun _ =>
    .bind (.invoke trivial fun _ _ _ _ => trivial) fun _ =>
    .bind (within_of_background (l3_stage_within (fun _ _ _ => trivial) trivial)) fun _ =>
    .bind (within_of_background (patch_stage_within (fun _ _ _ => trivial)
      fun _ _ _ => trivial)) fun _ =>
    .bind (within_of_background (autofix_stage_within (fun _ _ _ => trivial) trivial))
      fun _ => deliver_within

theorem analyze_within {decision : PolicyDecision} {context : ContextBundle} :
    Proc.Within A (Op.of_job request.request_id) f (fun _ => True)
      (orc.analyze request decision context) :=
  .bind (transition_within (by decide)) fun _ =>
    .bind (assign_state_within hf) fun _ =>
    .bind (within_of_background monotonic_within) fun _ =>
    .bind ((run_agents_within fun _ _ _ _ => trivial).mono (fun _ _ h => h)
      (fun _ => Op.silent_of_job) fun _ h => h) fun _ =>
    .bind (within_of_background monotonic_within) fun _ =>
    .bind (within_of_background log_analytics_within) fun _ => .pure _

theorem review_within {decision : PolicyDecision} :
    Proc.Within A (Op.of_job request.request_id) f (fun _ => True) (orc.review request decision) :=
  .bind (transition_within (by decide)) fun _ =>
    .bind (assign_state_within hf) fun _ =>
    .bind (.invoke trivial fun _ _ _ _ => trivial) fun _ =>
    .bind (within_of_background (offload_within fun _ _ => trivial)) fun _ =>
    .bind (within_of_background (context_cache_within fun _ _ _ _ _ => trivial)) fun _ =>
    .bind (analyze_within hf) fun _ => conclude_within hf

theorem admission_within :
    Proc.Within A (Op.of_job request.request_id) f (fun _ => True) (orc.admission request) :=
  .bind (.invoke trivial fun _ _ _ _ => trivial) fun _ =>
    .ite (fun _ => .bind (.invoke trivial fun _ _ _ _ => trivial) fun _ =>
      .bind (within_of_background log_analytics_within) fun _ =>
        .ite (fun _ => review_within hf) fun _ => reject_policy_within hf)
      fun _ => reject_resources_within

theorem record_failure_within {state : ReviewState} {reason code : String}
    (h : state ∈ run_states) : Proc.Within A (Op.of_job request.request_id) f R
      (record_failure request state reason code) :=
  .bind .locals fun _ => .ite (fun _ => .bind (best_effort_within (transition_within h))
    fun _ => assign_state_within hf) fun _ => .pure ()

omit hf in
theorem mark_failure_within {state : ReviewState} {reason code : String}
    (h : state.terminal = true) : Proc.Within A (Op.of_job request.request_id) f R
      (mark_failure request state reason code) :=
  .bind .locals fun _ => .ite (fun _ => mark_terminal_within h) fun _ => .pure ()

theorem handle_failure_within {error : PyExc} :
    Proc.Within A (Op.of_job request.request_id) f R (orc.handle_failure request error) := by
  obtain ⟨hrun, hterm⟩ := classify_failure_state error
  exact .bind (record_failure_within hf hrun) fun _ => .bind (mark_failure_within hterm) fun _ =>
    .bind (within_of_background publish_diagnostics_within) fun _ =>
    .bind (within_of_background log_result_within) fun _ => .pure _

omit hf in
theorem handle_failure_asks {C : Op → Prop} (hdiagnostics : ∀ r file, C (.publish_diagnostics r file))
    (hlog : ∀ r, C (.log_result r)) (htransition : ∀ id s s' r c, C (.transition_state id s s' r c))
    (hmark : ∀ id s r c, C (.mark_terminal id s r c)) {error : PyExc} :
    Proc.Within A C (fun _ => ()) R (orc.handle_failure request error) := by
  refine .bind (.bind .locals fun _ => .ite (fun _ => .bind (best_effort_within (.invoke
      (htransition _ _ _ _ _) fun _ _ _ _ => trivial)) fun _ => .assign fun _ => rfl)
      fun _ => .pure ()) fun _ => .bind (.bind .locals fun _ => .ite (fun _ =>
        best_effort_within (.invoke (hmark _ _ _ _) fun _ _ _ _ => trivial)) fun _ => .pure ())
      fun _ => .bind (publish_diagnostics_asks (hdiagnostics _ _)) fun _ =>
      .bind (log_result_asks (hlog _)) fun _ => .pure _

end Whole

theorem after_create_within {A : (o : Op) → Ans o → Prop} {orc : Orchestrator}
    {request : ReviewRequest} {outcome : Option JobCreationOutcome} :
    Proc.Within A (Op.of_job request.request_id) (fun _ => ()) (fun _ => True)
      (orc.after_create request outcome) := by
  cases outcome with
  | none => exact .bind (.assign fun _ => rfl) fun _ => admission_within fun _ _ => rfl
  | some outcome =>
    refine .ite (fun _ => within_of_background handle_duplicate_request_within) fun _ => ?_
    exact .bind (.assign fun _ => rfl) fun _ => admission_within fun _ _ => rfl

/-- What is left of `run_once` when `create_request` has answered. -/
def rest (orc : Orchestrator) (request : ReviewRequest) :
    Except PyExc (Option JobCreationOutcome) → Review ReviewResult
  | .ok outcome => Proc.attempt (orc.after_create request outcome) (orc.handle_failure request)
  | .error e => orc.handle_failure request e

theorem run_once_call (orc : Orchestrator) (request : ReviewRequest) (l : Locals) :
    orc.run_once request l = .call (.create_request request) fun a => orc.rest request a l := by
  refine (Proc.attempt_invoke_bind _ _ _ _ l).trans ?_
  congr 1
  funext a
  cases a with
  | ok outcome => rfl
  | error e => rfl

theorem rest_within {A : (o : Op) → Ans o → Prop} {orc : Orchestrator} {request : ReviewRequest}
    {a : Except PyExc (Option JobCreationOutcome)} :
    Proc.Within A (Op.of_job request.request_id) (fun _ => ()) (fun _ => False)
      (orc.rest request a) := by
  cases a with
  | error e => exact handle_failure_within fun _ _ => rfl
  | ok outcome => exact after_create_within.attempt fun _ _ => handle_failure_within fun _ _ => rfl

/-- `run_once` raises nothing, and asks only the questions of its own request. -/
theorem run_once_within {A : (o : Op) → Ans o → Prop} {orc : Orchestrator}
    {request : ReviewRequest} : Proc.Within A (Op.of_run request) (fun _ => ()) (fun _ => False)
      (orc.run_once request) := by
  intro l
  rw [run_once_call]
  exact ⟨rfl, fun a _ => (rest_within l).mono (fun _ _ h => h) (fun _ => Op.of_job_of_run)
    fun _ h => h⟩

end Orchestrator

theorem run_ok {δ : Surroundings Db Op Ans} {orc : Orchestrator} {request : ReviewRequest}
    {db db' : Db} {l l' : Locals} {t : Trace} {r : Except PyExc ReviewResult}
    (hr : Steps δ db (orc.run_once request l) t db' (.ret (r, l'))) :
    ∃ result, r = .ok result := by
  have hw : Proc.Within (fun _ _ => True) (Op.of_run request) (fun _ => ()) (fun _ => False)
    (orc.run_once request) := Orchestrator.run_once_within
  have hv := hr.value (hw l) (fun _ _ _ _ _ => trivial) rfl
  cases r with
  | ok result => exact ⟨result, rfl⟩
  | error e => exact (hv.2 e rfl).elim

/-- The first question on the path of a run is `create_request`. -/
theorem run_path_head {orc : Orchestrator} {request : ReviewRequest} {l : Locals} {t : Trace}
    {p : Running}
    (hp : Path (orc.run_once request l) t p) :
    (t = [] ∧ p = orc.run_once request l) ∨ ∃ s a s' t',
      t = ⟨s, .create_request request, a, s'⟩ :: t' ∧ Path (orc.rest request a l) t' p ∧
      ∀ ev ∈ t', ev.op.of_job request.request_id := by
  rw [Orchestrator.run_once_call] at hp ⊢
  cases hp with
  | refl => exact .inl ⟨rfl, rfl⟩
  | @call s s' _ _ a t' _ hk =>
    have hw : Proc.Within (fun _ _ => True) (Op.of_job request.request_id) (fun _ => ())
      (fun _ => False) (orc.rest request a) := Orchestrator.rest_within
    exact .inr ⟨s, a, s', t', rfl, hk, (hk.within (hw l) fun _ _ => trivial).1⟩

/-- A run asks `create_request` first and then only the questions of its job. -/
theorem run_head {orc : Orchestrator} {env : Env} {request : ReviewRequest} {db db' : Db}
    {l : Locals} {t : Trace} {p : Running}
    (hr : Steps env.step db (orc.run_once request l) t db' p) :
    t = [] ∨ ∃ a db₁ t', t = ⟨db, .create_request request, a, db₁⟩ :: t' ∧
      Created db request a db₁ ∧ Steps env.step db₁ (orc.rest request a l) t' db' p ∧
      ∀ ev ∈ t', ev.op.of_job request.request_id := by
  rw [Orchestrator.run_once_call] at hr
  cases hr with
  | refl => exact .inl rfl
  | @call _ db₁ _ _ _ a t' _ hs hk =>
    have hw : Proc.Within (fun _ _ => True) (Op.of_job request.request_id) (fun _ => ())
      (fun _ => False) (orc.rest request a) := Orchestrator.rest_within
    have hi := hk.invariant (I := fun _ => True) (hw l) (fun _ _ _ _ _ => trivial)
      (fun _ _ _ _ _ _ _ => trivial) trivial
    exact .inr ⟨a, db₁, t', rfl, Env.step_created hs, hk, fun ev hev => (hi.2 ev hev).1⟩

theorem creates_of_job {id : String} {ev : Event Db Op Ans} (h : ev.op.of_job id) :
    creates ev = false := by
  obtain ⟨s, o, a, s'⟩ := ev
  cases o <;> first | rfl | exact h.elim

theorem was_created_head {id : String} {ev : Event Db Op Ans} {t : Trace}
    (h : ∀ e ∈ t, e.op.of_job id) : was_created (ev :: t) = creates ev := by
  have ht : t.any creates = false := by
    rw [List.any_eq_false]
    intro e he
    rw [creates_of_job (h e he)]
    decide
  simp [was_created, ht]

/-- A run from `db` whose collaborators follow `script`, stopped after `n` answers. -/
def Orchestrator.play (orc : Orchestrator) (script : (o : Op) → Ans o) (request : ReviewRequest)
    (db : Db) (n : Nat) : Trace × Db × Running :=
  (orc.run_once request {}).run_for (scripted script) n db

theorem play_steps {env : Env} {script : (o : Op) → Ans o} (h : ∀ o, env.may o (script o))
    (orc : Orchestrator) (request : ReviewRequest) (db : Db) (n : Nat) :
    Steps env.step db (orc.run_once request {}) (orc.play script request db n).1
      (orc.play script request db n).2.1 (orc.play script request db n).2.2 :=
  Prog.run_for_steps (scripted_step h) n _ db

/-- Collaborators that follow a script. -/
def scripting (script : (o : Op) → Ans o) : Env where
  may o a := a = script o

/-- The L3 review runs into a timeout. -/
def l3_times_out : (o : Op) → Ans o
  | .llm_review _ _ _ => .error ⟨"TimeoutError", [.timeoutError], "timed out"⟩
  | o => agreeable o

def asks_l3 (ev : Event Db Op Ans) : Bool :=
  match ev.op with
  | .llm_review _ _ _ => true
  | _ => false

end Nitpicker
