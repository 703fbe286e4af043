import NitpickerDaemon.Effect.Lockstep
import NitpickerDaemon.Interference

/-!
Two runs of one request whose output channels behave differently: the published diagnostics,
quick fixes, logs, analytics and stage events must not change the verdict or the store.
-/

set_option autoImplicit false

namespace Nitpicker

open Effect

/-- The lifecycle events of a request: their types and payloads. -/
def Db.lifecycle_of (db : Db) (request_id : String) : List (String × PyDict) :=
  ((db.events_of request_id).filter (·.event_type ∈ lifecycle)).map fun e =>
    (e.event_type, e.payload_json.loads)

/-- The lifecycle event that the store logs with an answer. -/
def logged : Event Db Op Ans → Option (String × PyDict)
  | ⟨_, .create_request _, .ok (some ⟨true, _, _⟩), _⟩ =>
    some ("review.request", [("state", .str ReviewState.QUEUED.value)])
  | ⟨_, .transition_state _ from_state to_state reason result_code, .ok _, _⟩ =>
    some ("review.state_changed", [("from", .str from_state.value), ("to", .str to_state.value),
      ("reason", reason), ("result_code", result_code)])
  | ⟨_, .mark_terminal _ state reason result_code, .ok _, _⟩ =>
    some ("review.terminal", [("state", .str state.value), ("reason", reason),
      ("result_code", result_code)])
  | _ => none

section Log

variable {db db' : Db} {now request_id event_type : String} {payload : JsonText}

theorem Db.lifecycle_of_log (h : event_type ∈ lifecycle) (id : String) :
    (db.log now request_id event_type payload).lifecycle_of id = db.lifecycle_of id ++
      if id = request_id then [(event_type, payload.loads)] else [] := by
  rw [Db.lifecycle_of, Db.events_of_log]
  by_cases hid : request_id = id
  · simp [hid, Db.lifecycle_of, List.filter_append, h]
  · simp [hid, Ne.symm hid, Db.lifecycle_of]

theorem Db.lifecycle_of_note (h : event_type ∉ lifecycle) (id : String) :
    (db.log now request_id event_type payload).lifecycle_of id = db.lifecycle_of id := by
  rw [Db.lifecycle_of, Db.events_of_log]
  by_cases hid : request_id = id
  · simp [hid, Db.lifecycle_of, List.filter_append, h]
  · simp [hid, Db.lifecycle_of]

theorem Db.lifecycle_of_insert (row : RequestRow) (id : String) :
    (db.insert row).lifecycle_of id = db.lifecycle_of id := rfl

theorem Db.lifecycle_of_set_state (state : ReviewState) (where_ : RequestRow → Bool)
    (id : String) : (db.set_state now state where_).lifecycle_of id = db.lifecycle_of id := rfl

theorem lifecycle_unchanged (request : ReviewRequest) (id : String) : db.lifecycle_of id =
    db.lifecycle_of id ++ if id = request.request_id then [] else [] := by simp

theorem Env.step_logged {env : Env} {request : ReviewRequest} {o : Op} {a : Ans o}
    (ho : o.of_run request) (hs : env.step db o a db') (id : String) :
    db'.lifecycle_of id = db.lifecycle_of id ++
      if id = request.request_id then (logged ⟨db, o, a, db'⟩).toList else [] := by
  cases o with
  | create_request r =>
    obtain rfl : r = request := ho
    rcases hs with ⟨now, res, hr, rfl⟩ | ⟨-, rfl, e, rfl⟩
    · cases create_request_cases hr with
      | raised e _ => exact lifecycle_unchanged r id
      | created metadata_json row payload _ _ _ hp =>
        rw [Db.lifecycle_of_log (by decide), Db.lifecycle_of_insert, hp]
        rfl
      | duplicate metadata_json existing payload _ _ _ =>
        rw [Db.lifecycle_of_note (by decide)]
        exact lifecycle_unchanged r id
      | swallowed metadata_json _ _ _ => exact lifecycle_unchanged r id
    · exact lifecycle_unchanged r id
  | transition_state request_id from_state to_state reason result_code =>
    obtain ⟨rfl, -⟩ := ho
    rcases hs with ⟨now, hr⟩ | ⟨-, rfl, e, rfl⟩
    · cases transition_state_cases hr with
      | invalid e _ => exact lifecycle_unchanged request id
      | mismatch e _ => exact lifecycle_unchanged request id
      | unserializable e _ => exact lifecycle_unchanged request id
      | changed row payload _ _ _ _ hp =>
        rw [Db.lifecycle_of_log (by decide), Db.lifecycle_of_set_state, hp]
        rfl
    · exact lifecycle_unchanged request id
  | mark_terminal request_id state reason result_code =>
    obtain ⟨rfl, -⟩ := ho
    rcases hs with ⟨now, hr⟩ | ⟨-, rfl, e, rfl⟩
    · cases mark_terminal_cases hr with
      | missing e _ => exact lifecycle_unchanged request id
      | unserializable e _ => exact lifecycle_unchanged request id
      | marked row payload _ hid hp =>
        rw [Db.lifecycle_of_log (by decide), Db.lifecycle_of_set_state, hp]
        rfl
    · exact lifecycle_unchanged request id
  | append_event request_id event_type payload =>
    obtain rfl : event_type = "review.stage" := ho
    rcases hs with ⟨now, hr⟩ | ⟨-, rfl, e, rfl⟩
    · cases append_event_cases hr with
      | unserializable e _ => exact lifecycle_unchanged request id
      | appended payload_json _ =>
        rw [Db.lifecycle_of_note (by decide)]
        exact lifecycle_unchanged request id
    · exact lifecycle_unchanged request id
  | _ =>
    obtain ⟨-, rfl⟩ := hs
    exact lifecycle_unchanged request id

/-- A run adds to the lifecycle of its own request what its trace says. -/
theorem run_logged {orc : Orchestrator} {env : Env} {request : ReviewRequest} {l : Locals}
    {t : Trace} {p : Running} (hr : Steps env.step db (orc.run_once request l) t db' p)
    (id : String) : db'.lifecycle_of id = db.lifecycle_of id ++
      if id = request.request_id then t.filterMap logged else [] := by
  have hw : Proc.Within (fun _ _ => True) (Op.of_run request) (fun _ => ()) (fun _ => False)
      (orc.run_once request) := Orchestrator.run_once_within
  have hk := hr.keeps (I := fun s t => s.lifecycle_of id = db.lifecycle_of id ++
      if id = request.request_id then t.filterMap logged else []) (hw l) (fun _ _ _ _ _ => trivial)
    (fun s t o a s' ho hs h => ?_) (t := []) (by simp)
  · simpa using hk
  · rw [Env.step_logged ho hs id, h]
    by_cases hid : id = request.request_id
    · have hlast : [(⟨s, o, a, s'⟩ : Event Db Op Ans)].filterMap logged =
          (logged ⟨s, o, a, s'⟩).toList := by
        cases h : logged ⟨s, o, a, s'⟩ <;> simp [h]
      simp [hid, List.filterMap_append, hlast]
    · simp [hid]

end Log

/-- Both runs got the same answer, or the call returned in the first and raised in the second. -/
def MayRaise (a a' : Except PyExc Unit) : Prop := a' = a ∨ a = .ok () ∧ ∃ e, a' = .error e

/-- Two runs whose answers differ only in output calls that raise in the second. -/
def Differs : (o : Op) → Ans o → Ans o → Prop
  | .publish_diagnostics _ _, a, a' => MayRaise a a'
  | .publish_quick_fix _ _ _ _, a, a' => MayRaise a a'
  | .log_result _, a, a' => MayRaise a a'
  | .analytics_write _, a, a' => MayRaise a a'
  | .append_event _ event_type _, a, a' =>
    if event_type = "review.stage" then MayRaise a a' else a' = a
  | _, a, a' => a' = a

/-- A quick fix that raises what its channel does not catch. -/
def quick_fix_breaks : Event Db Op Ans → Bool
  | ⟨_, .publish_quick_fix _ _ _ _, .error e, _⟩ => !Orchestrator.quick_fix_catches e
  | _ => false

/-- The differences that the run does not hear. -/
def Unheard : (o : Op) → Ans o → Ans o → Prop
  | .publish_quick_fix _ _ _ _, a, a' =>
    a' = a ∨ a = .ok () ∧ ∃ e, Orchestrator.quick_fix_catches e = true ∧ a' = .error e
  | o, a, a' => Differs o a a'

/-- The difference that breaks the second run. -/
def Broken : (o : Op) → Ans o → Ans o → Prop
  | .publish_quick_fix _ _ _ _, a, a' =>
    a = .ok () ∧ ∃ e, Orchestrator.quick_fix_catches e = false ∧ a' = .error e
  | _, _, _ => False

theorem differs_cases (o : Op) (a a' : Ans o) (h : Differs o a a') :
    Unheard o a a' ∨ Broken o a a' := by
  cases o with
  | publish_quick_fix result file findings patch =>
    rcases h with h | ⟨ha, e, he⟩
    · exact .inl (.inl h)
    · cases hc : Orchestrator.quick_fix_catches e with
      | true => exact .inl (.inr ⟨ha, e, hc, he⟩)
      | false => exact .inr ⟨ha, e, hc, he⟩
  | _ => exact .inl h

namespace Orchestrator

section Deaf

variable {orc : Orchestrator} {request : ReviewRequest} {context : ContextBundle}

/-- The differences between two runs do not change what the procedure does. -/
abbrev Deaf {α : Type} (m : Review α) : Prop := Proc.Deaf Unheard Broken m

theorem transition_deaf {request_id : String} {from_state to_state : ReviewState}
    {reason code : String} : Deaf (transition request_id from_state to_state reason code) :=
  .invoke (fun _ _ h => h.symm) fun _ _ h => h

theorem mark_terminal_safe_deaf {request_id : String} {state : ReviewState} {reason : String}
    {code : PyVal} : Deaf (mark_terminal_safe request_id state reason code) :=
  Proc.Deaf.silenced fun _ _ h => h

theorem record_failure_transition_deaf {request_id : String} {from_state to_state : ReviewState}
    {reason code : String} : Deaf (record_failure_transition_best_effort request_id from_state
      to_state reason code) :=
  Proc.Deaf.silenced fun _ _ h => h

theorem record_stage_event_deaf {request_id stage phase code : String} {details : PyDict} :
    Deaf (record_stage_event_best_effort request_id stage phase code details) :=
  Proc.Deaf.silenced fun _ _ h => h

theorem monotonic_deaf : Deaf monotonic := .invoke (fun _ _ h => h.symm) fun _ _ h => h

theorem publish_diagnostics_deaf {result : ReviewResult} {target_file : String} :
    Deaf (orc.publish_diagnostics result target_file) :=
  .ite (fun _ => Proc.Deaf.silenced fun _ _ h => h) fun _ => .pure ()

theorem log_result_deaf {result : ReviewResult} : Deaf (orc.log_result result) :=
  .ite (fun _ => Proc.Deaf.silenced fun _ _ h => h) fun _ => .pure ()

theorem log_analytics_deaf {request_id : String} {a : Analytics} :
    Deaf (orc.log_analytics request_id a) :=
  .ite (fun _ => Proc.Deaf.silenced fun _ _ h => h) fun _ => .pure ()

theorem handle_duplicate_request_deaf {state : Option String} :
    Deaf (orc.handle_duplicate_request request state) :=
  .bind log_analytics_deaf fun _ => .bind publish_diagnostics_deaf fun _ =>
    .bind log_result_deaf fun _ => .pure _

theorem reject_resources_deaf : Deaf (orc.reject_resources request) :=
  .bind mark_terminal_safe_deaf fun _ => .bind log_result_deaf fun _ => .pure _

theorem reject_policy_deaf {decision : PolicyDecision} :
    Deaf (orc.reject_policy request decision) :=
  .bind transition_deaf fun _ => .bind .assign fun _ => .bind mark_terminal_safe_deaf fun _ =>
    .bind publish_diagnostics_deaf fun _ => .bind log_result_deaf fun _ => .pure _

theorem offload_deaf : Deaf (orc.offload request context) :=
  .ite (fun _ => .bind (.invoke (fun _ _ h => h.symm) fun _ _ h => h) fun _ =>
    .ite (fun _ => Proc.Deaf.attempt (.bind (.invoke (fun _ _ h => h.symm) fun _ _ h => h)
      fun _ => log_analytics_deaf) fun _ => .pure ()) fun _ => .pure ()) fun _ => .pure ()

theorem context_cache_deaf : Deaf (orc.context_cache request context) :=
  .ite (fun _ => Proc.Deaf.attempt (.ite (fun _ =>
    .bind (.invoke (fun _ _ h => h.symm) fun _ _ h => h) fun _ =>
    .bind (.invoke (fun _ _ h => h.symm) fun _ _ h => h) fun _ => log_analytics_deaf)
    fun _ => .pure ()) fun e => .ite (fun _ => .pure ()) fun _ => .raise e) fun _ => .pure ()

theorem run_agent_deaf {ordinal total : Nat} {agent : Agent} :
    Deaf (run_agent request context ordinal total agent) :=
  .bind record_stage_event_deaf fun _ => .bind monotonic_deaf fun _ =>
    .bind (Proc.Deaf.attempt (.invoke (fun _ _ h => h.symm) fun _ _ h => h) fun e =>
      .bind monotonic_deaf fun _ => .bind record_stage_event_deaf fun _ => .raise e) fun _ =>
    .bind monotonic_deaf fun _ => .bind record_stage_event_deaf fun _ => .pure _

theorem run_agents_deaf {total : Nat} {agents : List Agent} {ordinal : Nat} :
    Deaf (run_agents request context total ordinal agents) := by
  induction agents generalizing ordinal with
  | nil => exact .pure _
  | cons agent agents ih => exact .bind run_agent_deaf fun _ => .bind ih fun _ => .pure _

theorem l3_stage_deaf {decisions : List AgentDecision} {v : Verdict} :
    Deaf (orc.l3_stage request context decisions v) :=
  .ite (fun _ => .bind log_analytics_deaf fun _ => .bind monotonic_deaf fun _ =>
    .bind record_stage_event_deaf fun _ =>
    .bind (Proc.Deaf.attempt (.invoke (fun _ _ h => h.symm) fun _ _ h => h) fun e =>
      .bind monotonic_deaf fun _ => .bind record_stage_event_deaf fun _ => .raise e) fun _ =>
    .bind monotonic_deaf fun _ => .bind record_stage_event_deaf fun _ =>
    .bind log_analytics_deaf fun _ => .ofExcept _) fun _ => .pure _

theorem patch_stage_deaf {v : Verdict} : Deaf (orc.patch_stage request v) := by
  refine .ite (fun _ => .ite (fun _ => .bind (.invoke (fun _ _ h => h.symm) fun _ _ h => h)
    fun patch => ?_) fun _ => .pure _) fun _ => .pure _
  cases patch with
  | none => exact .pure _
  | some patch =>
    exact .bind (.invoke (fun _ _ h => h.symm) fun _ _ h => h) fun _ =>
      .bind log_analytics_deaf fun _ => .ite (fun _ => .pure _) fun _ => .pure _

theorem autofix_stage_deaf {v : Verdict} : Deaf (orc.autofix_stage request v) :=
  .ite (fun _ => .bind (.ofExcept _) fun _ => .ite (fun _ =>
    .bind (.invoke (fun _ _ h => h.symm) fun _ _ h => h) fun _ =>
    .bind log_analytics_deaf fun _ => .pure _) fun _ => .pure _) fun _ => .pure _

theorem analyze_deaf {decision : PolicyDecision} :
    Deaf (orc.analyze request decision context) :=
  .bind transition_deaf fun _ => .bind .assign fun _ => .bind monotonic_deaf fun _ =>
    .bind run_agents_deaf fun _ => .bind monotonic_deaf fun _ =>
    .bind log_analytics_deaf fun _ => .pure _

theorem record_failure_deaf {state : ReviewState} {reason code : String} :
    Deaf (record_failure request state reason code) :=
  .bind .locals fun _ => .ite (fun _ => .bind record_failure_transition_deaf fun _ => .assign)
    fun _ => .pure ()

theorem mark_failure_deaf {state : ReviewState} {reason code : String} :
    Deaf (mark_failure request state reason code) :=
  .bind .locals fun _ => .ite (fun _ => mark_terminal_safe_deaf) fun _ => .pure ()

theorem handle_failure_deaf {error : PyExc} : Deaf (orc.handle_failure request error) :=
  .bind record_failure_deaf fun _ => .bind mark_failure_deaf fun _ =>
    .bind publish_diagnostics_deaf fun _ => .bind log_result_deaf fun _ => .pure _

end Deaf

section Forks

variable {orc : Orchestrator} {request : ReviewRequest} {context : ContextBundle}

/-- The procedure does not hear the differences, except that a broken quick fix turns a
delivered result into an exception. -/
abbrev Delivers (m : Review ReviewResult) : Prop :=
  Proc.Forks Unheard Broken (fun r => ∃ result, r = .ok result ∧ result.state = .DELIVERED)
    (fun r => ∃ e, r = .error e) m

theorem publish_quick_fix_bind {result : ReviewResult} {target_file : String}
    {findings : List PyDict} {patch : Option PatchProposal} {k : Review ReviewResult} {l : Locals}
    (h : orc.feedback_service = true) :
    (orc.publish_quick_fix result target_file findings patch >>= fun _ => k) l =
      .call (.publish_quick_fix result target_file findings patch) fun a => match a with
        | .ok _ => k l
        | .error e => if quick_fix_catches e then k l else .ret (.error e, l) := by
  unfold publish_quick_fix
  rw [if_pos h]
  refine congrArg (Prog.call _) (funext fun a => ?_)
  cases a with
  | ok v => rfl
  | error e =>
    show ((if quick_fix_catches e = true then pure () else Proc.raise e : Review Unit) >>= fun _ =>
      k) l = if quick_fix_catches e = true then k l else .ret (.error e, l)
    cases quick_fix_catches e <;> rfl

theorem publish_delivers {result : ReviewResult} {target_file : String} {findings : List PyDict}
    {patch : Option PatchProposal} (hs : result.state = .DELIVERED) :
    Delivers (do
      orc.publish_quick_fix result target_file findings patch
      orc.log_result result
      pure result) := by
  intro l
  have hdeaf : Deaf (orc.log_result result >>= fun _ => pure result) :=
    .bind log_result_deaf fun _ => .pure _
  have hrest := (hdeaf l).mono (T := fun r => ∃ result, r.1 = .ok result ∧
    result.state = .DELIVERED) (U := fun r => ∃ e, r.1 = .error e) (fun _ h => h.elim)
    fun _ h => h.elim
  have hend : ((orc.log_result result >>= fun _ => pure result : Review ReviewResult) l).Within
      (fun _ _ => True) (fun _ => True) fun r => ∃ result, r.1 = .ok result ∧
        result.state = .DELIVERED := by
    have hasks : Proc.Asks (fun _ _ => True) (fun _ => True) (fun r => r.state = .DELIVERED)
        (fun _ => False) (orc.log_result result >>= fun _ => pure result) :=
      .bind ((log_result_within (f := id)).mono (fun _ _ h => h) (fun _ _ => trivial)
        fun _ h => h).asks fun _ _ => .pure hs
    refine (hasks l).mono (fun _ _ h => h) (fun _ h => h) fun r hr => ?_
    obtain ⟨e | a, l'⟩ := r
    · exact hr.elim
    · exact ⟨a, rfl, hr⟩
  cases hf : orc.feedback_service with
  | false =>
    unfold publish_quick_fix
    rw [hf]
    exact hrest
  | true =>
    rw [publish_quick_fix_bind hf]
    refine ⟨fun a a' h => ?_, fun a a' h => ?_, fun a => ?_⟩
    · rcases h with rfl | ⟨rfl, e, hc, rfl⟩
      · rfl
      · simp only [hc, if_true]
    · obtain ⟨rfl, e, hc, rfl⟩ := h
      simp only [hc]
      exact ⟨hend, e, rfl⟩
    · cases a with
      | ok v => exact hrest
      | error e =>
        cases hc : quick_fix_catches e with
        | true =>
          simp only [hc, if_true]
          exact hrest
        | false =>
          simp only [hc]
          trivial

theorem deliver_delivers {decisions : List AgentDecision} {v : Verdict} :
    Delivers (orc.deliver request decisions v) :=
  .bind mark_terminal_safe_deaf fun _ => .bind log_analytics_deaf fun _ =>
    .bind publish_diagnostics_deaf fun _ => publish_delivers rfl

theorem conclude_delivers {decisions : List AgentDecision} :
    Delivers (orc.conclude request context decisions) :=
  .bind transition_deaf fun _ => .bind .assign fun _ =>
    .bind (.invoke (fun _ _ h => h.symm) fun _ _ h => h) fun _ => .bind l3_stage_deaf fun _ =>
    .bind patch_stage_deaf fun _ => .bind autofix_stage_deaf fun _ => deliver_delivers

theorem review_delivers {decision : PolicyDecision} : Delivers (orc.review request decision) :=
  .bind transition_deaf fun _ => .bind .assign fun _ =>
    .bind (.invoke (fun _ _ h => h.symm) fun _ _ h => h) fun _ => .bind offload_deaf fun _ =>
    .bind context_cache_deaf fun _ => .bind analyze_deaf fun _ => conclude_delivers

theorem Deaf.delivers {m : Review ReviewResult} (h : Deaf m) : Delivers m :=
  fun l => (h l).mono (fun _ h => h.elim) fun _ h => h.elim

theorem admission_delivers : Delivers (orc.admission request) :=
  .bind (.invoke (fun _ _ h => h.symm) fun _ _ h => h) fun _ => .ite (fun _ =>
    .bind (.invoke (fun _ _ h => h.symm) fun _ _ h => h) fun _ => .bind log_analytics_deaf fun _ =>
      .ite (fun _ => review_delivers) fun _ => reject_policy_deaf.delivers) fun _ =>
    reject_resources_deaf.delivers

theorem pipeline_delivers : Delivers (orc.pipeline request) := by
  refine .bind (.invoke (fun _ _ h => h.symm) fun _ _ h => h) fun outcome => ?_
  cases outcome with
  | none => exact .bind .assign fun _ => admission_delivers
  | some outcome =>
    exact .ite (fun _ => handle_duplicate_request_deaf.delivers) fun _ =>
      .bind .assign fun _ => admission_delivers

theorem handle_failure_undelivered {error : PyExc} :
    Proc.Asks (fun _ _ => True) (fun _ => True) (fun r => r.state ≠ .DELIVERED) (fun _ => False)
      (orc.handle_failure request error) := by
  have hclass := classify_failure_mem error
  have hquiet : ∀ {α : Type} {m : Review α}, Proc.Within (fun _ _ => True)
      (Op.of_job request.request_id) (fun _ => ()) (fun _ => False) m →
      Proc.Asks (fun _ _ => True) (fun _ => True) (fun _ => True) (fun _ => False) m := fun h =>
    (h.mono (fun _ _ h => h) (fun _ _ => trivial) fun _ h => h).asks
  obtain ⟨hrun, hterm⟩ := classify_failure_state error
  unfold handle_failure
  generalize classify_failure error = c at hclass hrun hterm ⊢
  obtain ⟨state, status, code⟩ := c
  refine .bind (hquiet (record_failure_within (fun _ _ => rfl) hrun)) fun _ _ =>
    .bind (hquiet (mark_failure_within hterm)) fun _ _ =>
    .bind (hquiet (within_of_background publish_diagnostics_within)) fun _ _ =>
    .bind (hquiet (within_of_background log_result_within)) fun _ _ => .pure ?_
  simp only [List.mem_cons, Prod.mk.injEq, List.not_mem_nil, or_false] at hclass
  rcases hclass with ⟨rfl, -, -⟩ | ⟨rfl, -, -⟩ | ⟨rfl, -, -⟩ | ⟨rfl, -, -⟩ <;> simp [build_result]

theorem run_once_forks : Proc.Forks Unheard Broken
    (fun r => ∃ result : ReviewResult, r = .ok result ∧ result.state = .DELIVERED)
    (fun r => ∃ result : ReviewResult, r = .ok result ∧ result.state ≠ .DELIVERED)
    (orc.run_once request) :=
  .attempt pipeline_delivers (fun _ => handle_failure_deaf) fun _ => handle_failure_undelivered

end Forks

end Orchestrator

/-- The same result, the same states of the rows and the same lifecycle events. -/
structure SameOutcome (r r' : Except PyExc ReviewResult) (db db' : Db) : Prop where
  result : r = r'
  states : ∀ id, db.state_of id = db'.state_of id
  lifecycle : ∀ id, db.lifecycle_of id = db'.lifecycle_of id

theorem filterMap_matched {β : Type} {E : (o : Op) → Ans o → Ans o → Prop}
    {f : Event Db Op Ans → Option β} (hf : ∀ ev ev', Matched E ev ev' → f ev = f ev') {t t' : Trace}
    (h : List.Forall₂ (Matched E) t t') : t.filterMap f = t'.filterMap f := by
  induction h with
  | nil => rfl
  | cons hm _ ih => rw [List.filterMap_cons, List.filterMap_cons, hf _ _ hm, ih]

theorem logged_states (o : Op) (a : Ans o) (s s' r r' : Db) :
    logged ⟨s, o, a, s'⟩ = logged ⟨r, o, a, r'⟩ := by
  cases o with
  | create_request request =>
    cases a with
    | error e => rfl
    | ok outcome =>
      cases outcome with
      | none => rfl
      | some outcome =>
        obtain ⟨created, duplicate, state⟩ := outcome
        cases created <;> rfl
  | transition_state id from_state to_state reason code => cases a <;> rfl
  | mark_terminal id state reason code => cases a <;> rfl
  | _ => rfl

theorem unheard_written {ev ev' : Event Db Op Ans} (h : Matched Unheard ev ev') :
    written ev = written ev' ∧ logged ev = logged ev' := by
  cases h with
  | @mk o a a' s r s' r' hu =>
    cases o with
    | create_request request =>
      obtain rfl : a' = a := hu
      exact ⟨written_states _ _ _ _ _ _, logged_states _ _ _ _ _ _⟩
    | transition_state id from_state to_state reason code =>
      obtain rfl : a' = a := hu
      exact ⟨written_states _ _ _ _ _ _, logged_states _ _ _ _ _ _⟩
    | mark_terminal id state reason code =>
      obtain rfl : a' = a := hu
      exact ⟨written_states _ _ _ _ _ _, logged_states _ _ _ _ _ _⟩
    | _ => exact ⟨rfl, rfl⟩

/-- Two runs with the same writes leave the same lifecycle behind. -/
theorem same_outcome {orc : Orchestrator} {env env' : Env} {request : ReviewRequest}
    {db db₁ db₂ : Db} {t t' : Trace} {r : Except PyExc ReviewResult} {l : Locals}
    (hc : db.Consistent)
    (hr : Steps env.step db (orc.run_once request {}) t db₁ (.ret (r, l)))
    (hr' : Steps env'.step db (orc.run_once request {}) t' db₂ (.ret (r, l)))
    (h : List.Forall₂ (Matched Unheard) t t') : SameOutcome r r db₁ db₂ := by
  have hrec : recorded t = recorded t' := by
    rw [recorded, recorded, filterMap_matched (fun _ _ hm => (unheard_written hm).1) h]
  have hlog := filterMap_matched (fun _ _ hm => (unheard_written hm).2) h
  refine ⟨rfl, fun id => ?_, fun id => ?_⟩
  · rw [(run_state hc hr).states, (run_state hc hr').states, hrec]
  · rw [run_logged hr, run_logged hr', hlog]

theorem broken_breaks {ev ev' : Event Db Op Ans} (h : Matched Broken ev ev') :
    quick_fix_breaks ev = false ∧ quick_fix_breaks ev' = true := by
  cases h with
  | @mk o a a' s r s' r' hb =>
    cases o with
    | publish_quick_fix result file findings patch =>
      obtain ⟨rfl, e, he, rfl⟩ := hb
      exact ⟨rfl, by simp [quick_fix_breaks, he]⟩
    | _ => exact hb.elim

theorem unheard_breaks {ev ev' : Event Db Op Ans} (h : Matched Unheard ev ev')
    (hb : quick_fix_breaks ev' = true) : quick_fix_breaks ev = true := by
  cases h with
  | @mk o a a' s r s' r' hu =>
    cases o with
    | publish_quick_fix result file findings patch =>
      rcases hu with rfl | ⟨rfl, e, he, rfl⟩
      · cases a' with
        | ok v => cases hb
        | error e => exact hb
      · simp [quick_fix_breaks, he] at hb
    | _ => cases hb

/-- Two runs that differ only in output calls that raise in the second have the same outcome
exactly when no quick fix breaks the second run alone. -/
theorem outcome_same_iff {orc : Orchestrator} {env env' : Env} {request : ReviewRequest}
    {db db₁ db₂ : Db} {t t' : Trace} {r r' : Except PyExc ReviewResult} {l l' : Locals}
    (hc : db.Consistent)
    (hr : Steps env.step db (orc.run_once request {}) t db₁ (.ret (r, l)))
    (hr' : Steps env'.step db (orc.run_once request {}) t' db₂ (.ret (r', l')))
    (hd : Paired Differs t t') :
    SameOutcome r r' db₁ db₂ ↔
      ∀ (n : Nat) (ev ev' : Event Db Op Ans), t[n]? = some ev → t'[n]? = some ev' →
        quick_fix_breaks ev' = true → quick_fix_breaks ev = true := by
  rcases Path.lockstep (Orchestrator.run_once_forks {}) differs_cases hr.path hr'.path hd with
    ⟨heq, hm⟩ | ⟨⟨result, hok, hs⟩, ⟨result', hok', hs'⟩, u, u', ev, ev', v, v', ht, ht', hlen, hb⟩
  · cases heq
    refine iff_of_true (same_outcome hc hr hr' hm) fun n ev ev' hn hn' hbreak => ?_
    obtain ⟨hlt, rfl⟩ := List.getElem?_eq_some_iff.mp hn
    obtain ⟨hlt', rfl⟩ := List.getElem?_eq_some_iff.mp hn'
    exact unheard_breaks ((List.forall₂_iff_get.mp hm).2 n hlt hlt') hbreak
  · obtain ⟨hret, hbreak⟩ := broken_breaks hb
    refine iff_of_false (fun h => ?_) fun h => ?_
    · have hsame := h.result
      simp only at hok hok'
      rw [hok, hok', Except.ok.injEq] at hsame
      rw [hsame] at hs
      exact hs' hs
    · have hn : t[u.length]? = some ev := by simp [ht]
      have hn' : t'[u.length]? = some ev' := by simp [ht', hlen]
      have hcontra := h _ ev ev' hn hn' hbreak
      rw [hret] at hcontra
      cases hcontra

theorem differs_refl (o : Op) (a : Ans o) : Differs o a a := by
  cases o with
  | append_event id event_type payload =>
    show if event_type = "review.stage" then MayRaise a a else a = a
    split
    · exact .inl rfl
    · rfl
  | _ => first | exact .inl rfl | exact rfl

theorem scripted_paired {script script' : (o : Op) → Ans o}
    (h : ∀ o, Differs o (script o) (script' o)) (orc : Orchestrator) (request : ReviewRequest)
    (db : Db) (n : Nat) : Paired Differs (orc.play script request db n).1
      (orc.play script' request db n).1 := by
  refine Prog.run_for_paired (fun s o => ?_) n _ _ db
  cases o <;> first | exact ⟨differs_refl _ _, rfl⟩ | exact ⟨h _, rfl⟩

/-- Everything goes well until the quick fix raises `e`. -/
def quick_fix_raises (e : PyExc) : (o : Op) → Ans o
  | .publish_quick_fix _ _ _ _ => .error e
  | o => agreeable o

theorem quick_fix_raises_differs (e : PyExc) (o : Op) :
    Differs o (agreeable o) (quick_fix_raises e o) := by
  cases o with
  | publish_quick_fix result file findings patch => exact .inr ⟨rfl, e, rfl⟩
  | _ => exact differs_refl _ _

theorem outcome_same_sample : ∃ r l r' l',
    (({} : Orchestrator).play agreeable (sampleRequest "req_1" "key") {} 40).2.2 = .ret (r, l) ∧
    (({} : Orchestrator).play (quick_fix_raises (valueError "no path")) (sampleRequest "req_1" "key")
      {} 40).2.2 = .ret (r', l') ∧
    SameOutcome r r' (({} : Orchestrator).play agreeable (sampleRequest "req_1" "key") {} 40).2.1
      (({} : Orchestrator).play (quick_fix_raises (valueError "no path"))
        (sampleRequest "req_1" "key") {} 40).2.1 := by
  have hr := @play_steps anyone agreeable (fun _ => trivial) {} (sampleRequest "req_1" "key") {} 40
  have hr' := @play_steps anyone (quick_fix_raises (valueError "no path")) (fun _ => trivial) {}
    (sampleRequest "req_1" "key") {} 40
  refine ⟨_, _, _, _, rfl, rfl, (outcome_same_iff Db.consistent_empty hr hr'
    (scripted_paired (quick_fix_raises_differs _) _ _ _ _)).mpr fun n ev ev' _ hn hb => ?_⟩
  have hall : (({} : Orchestrator).play (quick_fix_raises (valueError "no path"))
      (sampleRequest "req_1" "key") {} 40).1.all (fun ev => !quick_fix_breaks ev) = true := rfl
  have hev := List.all_eq_true.mp hall ev' (List.mem_of_getElem? hn)
  simp [hb] at hev

/-- The exception handler once the exception is classified. -/
theorem Orchestrator.handle_failure_classified {orc : Orchestrator} {request : ReviewRequest}
    {e : PyExc} {state : ReviewState} {status : ReviewStatus} {code : String}
    (h : classify_failure e = (state, status, code)) : orc.handle_failure request e = (do
      record_failure request state ("pipeline exception: " ++ e.message) code
      mark_failure request state ("pipeline exception: " ++ e.message) code
      let result := build_result request state status (.str (build_user_failure_summary code)) 0
        (.str code)
      orc.publish_diagnostics result request.target_file
      orc.log_result result
      pure result) := by
  unfold handle_failure
  rw [h]

def editorError : PyExc := ⟨"RuntimeError", [.runtimeError], "no editor"⟩

theorem editorError_classified :
    Orchestrator.classify_failure editorError = (.FAILED, .failed, "SYSTEM_FAILED") := by
  simp only [Orchestrator.classify_failure, contains, String.toLower, String.toList_map]
  decide

/-- A `RuntimeError` of the quick-fix channel turns a delivered pass into a failure. -/
theorem quick_fix_overrules_verdict : ∃ t t' db₁ db₂ result result' l l',
    Steps anyone.step {} (({} : Orchestrator).run_once (sampleRequest "req_1" "key") {}) t db₁
      (.ret (.ok result, l)) ∧
    Steps anyone.step {} (({} : Orchestrator).run_once (sampleRequest "req_1" "key") {}) t' db₂
      (.ret (.ok result', l')) ∧
    Paired Differs t t' ∧ result.result_code = .str "REVIEW_PASSED" ∧
    result'.result_code = .str "SYSTEM_FAILED" ∧ db₁.state_of "req_1" = some .DELIVERED ∧
    db₂.state_of "req_1" = some .FAILED ∧ ¬SameOutcome (.ok result) (.ok result') db₁ db₂ := by
  have hr := @play_steps anyone agreeable (fun _ => trivial) {} (sampleRequest "req_1" "key") {}
    (13 + 10)
  have hr' := @play_steps anyone (quick_fix_raises editorError) (fun _ => trivial) {}
    (sampleRequest "req_1" "key") {} (13 + 10)
  have hpair := scripted_paired (quick_fix_raises_differs editorError) {}
    (sampleRequest "req_1" "key") {} (13 + 10)
  -- the thirteenth answer is the exception, which leaves the handler to run
  have hend : (({} : Orchestrator).play (quick_fix_raises editorError)
      (sampleRequest "req_1" "key") {} 13).2.2 = ({} : Orchestrator).handle_failure
        (sampleRequest "req_1" "key") editorError ⟨.CONSENSUS_REACHED, true⟩ := rfl
  have hlast := Prog.run_for_add (scripted (quick_fix_raises editorError)) 13 10
    (({} : Orchestrator).run_once (sampleRequest "req_1" "key") {}) {}
  unfold Orchestrator.play at hend
  rw [hend, Orchestrator.handle_failure_classified editorError_classified] at hlast
  unfold Orchestrator.play at hr'
  rw [hlast] at hr'
  refine ⟨_, _, _, _, _, _, _, _, hr, hr', hpair, rfl, rfl, rfl, rfl, fun h => ?_⟩
  have hstate := h.states "req_1"
  cases hstate

end Nitpicker
