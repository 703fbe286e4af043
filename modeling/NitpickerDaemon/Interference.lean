import NitpickerDaemon.Effect.Monitor
import NitpickerDaemon.Duplicates

/-!
Calls that overlap do not interfere: one call for a key gets past the duplicate check, a row
is written only by the call that created it, and the checked transitions of the pipeline
find the state they expect.
-/

set_option autoImplicit false

namespace Nitpicker

open Effect

/-- Call number `i` is `c`, and it went on to the resource check. -/
def History.Proceeded (w : History) (i : Nat) (c : Call) : Prop :=
  (∃ p, w.jobs[i]? = some (c, p)) ∧ ∃ ev ∈ w.trace i, ev.op = .allow_new_job c.request

/-- Call number `i` is `c`, still inside its `try`, where it asks `o` next. -/
def History.PipelineAsks (w : History) (i : Nat) (c : Call) (o : Op) : Prop :=
  (∃ p, w.jobs[i]? = some (c, p)) ∧
    ∃ k, Path (c.orc.pipeline c.request {}) (w.trace i) (.call o k)

theorem History.Proceeded.created {w : History} (hw : w.Reached) {i : Nat} {c : Call}
    (h : w.Proceeded i c) : w.Created i c := by
  obtain ⟨⟨p, hi⟩, ev, hev, hop⟩ := h
  refine ⟨⟨p, hi⟩, ?_⟩
  by_contra hn
  have hnil : w.trace i ≠ [] := List.ne_nil_of_mem hev
  have htail := (uncreated_silent (hw.path hi) (hw.event hi) (Bool.eq_false_iff.mpr hn) hnil).2.1
  rcases run_path_head (hw.path hi) with ⟨ht, -⟩ | ⟨s, a, s', t', ht, -, -⟩
  · exact hnil ht
  · rw [ht] at hev htail
    rcases List.mem_cons.mp hev with rfl | hmem
    · cases hop
    · have hch := htail ev hmem
      rw [hop] at hch
      exact hch

/-- Two calls that created rows of one key are one call. -/
theorem History.Inv.keys_apart {w : History} (h : w.Inv) {i j : Nat} {c d : Call}
    (hc : w.Created i c) (hd : w.Created j d)
    (hkey : c.request.idempotency_key = d.request.idempotency_key) : i = j := by
  obtain ⟨row, hrow, hreq⟩ := List.mem_map.mp (h.created i c hc).1
  obtain ⟨row', hrow', hreq'⟩ := List.mem_map.mp (h.created j d hd).1
  have hk : row.idempotency_key = row'.idempotency_key := by
    have hl : row.idempotency_key = c.request.idempotency_key := by rw [← hreq]; rfl
    have hr : row'.idempotency_key = d.request.idempotency_key := by rw [← hreq']; rfl
    rw [hl, hr, hkey]
  have hrows : row = row' := List.inj_on_of_nodup_map h.consistent.idempotency_keys hrow hrow' hk
  subst hrows
  exact h.apart i j c d hc hd (by rw [← hreq, ← hreq'])

/-- An event of a run changes at most the state of the run's own row, to what it writes. -/
theorem Env.step_state {env : Env} {request : ReviewRequest} {ev : Event Db Op Ans}
    (hc : ev.pre.Consistent) (ho : ev.op.of_run request)
    (hs : env.step ev.pre ev.op ev.ans ev.post) (id : String) :
    ev.post.state_of id = if id = request.request_id then
      (written ev).or (ev.pre.state_of id) else ev.pre.state_of id := by
  have h := ((RunState.start request hc).step ho hs).states id
  have hrec : recorded [ev] = written ev := by
    rw [← List.nil_append [ev], recorded_snoc, recorded_nil, Option.or_none]
  rw [List.nil_append, hrec] at h
  exact h

theorem changed_by_creator {w : History} (hw : w.Reached) {i : Nat} {ev : Event Db Op Ans}
    (hev : (i, ev) ∈ w.log) {id : String} (hch : ev.post.state_of id ≠ ev.pre.state_of id) :
    ∃ c, w.Created i c ∧ c.request.request_id = id := by
  obtain ⟨c, p, hi, hs⟩ := hw.started _ hev
  have hmem : ev ∈ w.trace i := Pool.mem_trace.mpr hev
  obtain ⟨l₁, l₂, hlog⟩ := List.append_of_mem hev
  obtain ⟨w₁, hw₁, -, hst, -⟩ := hw.moment hlog
  have hcons : ev.pre.Consistent := hst ▸ (History.Reached.inv hw₁).consistent
  have hrun : Proc.Within (fun _ _ => True) (Op.of_run c.request) (fun _ => ()) (fun _ => False)
    (c.orc.run_once c.request) := Orchestrator.run_once_within
  have hof := ((hw.path hi).within (hrun {}) fun _ _ => trivial).1 ev hmem
  have hstate := Env.step_state hcons hof hs id
  have hid : id = c.request.request_id := by
    by_contra hne
    rw [if_neg hne] at hstate
    exact hch hstate
  refine ⟨c, ⟨⟨p, hi⟩, ?_⟩, hid.symm⟩
  by_contra hn
  have hnone := (uncreated_silent (hw.path hi) (hw.event hi) (Bool.eq_false_iff.mpr hn)
    (List.ne_nil_of_mem hmem)).1 ev hmem
  rw [if_pos hid, hnone, Option.none_or] at hstate
  exact hch hstate

/-- The state a run has recorded, as a monitor of its answers. -/
def recording (x : Option ReviewState) (o : Op) (a : Ans o) : Option ReviewState :=
  (written ⟨{}, o, a, {}⟩).or x

/-- A checked transition starts at the recorded state and can be stored. -/
def checked (request : ReviewRequest) (x : Option ReviewState) : Op → Prop
  | .transition_state request_id from_state to_state reason result_code =>
    request_id = request.request_id ∧ x = some from_state ∧
      can_transition from_state to_state = true ∧ (∃ r, reason = .str r) ∧
      ∃ code, result_code = .str code
  | _ => True

theorem written_states (o : Op) (a : Ans o) (s s' r r' : Db) :
    written ⟨s, o, a, s'⟩ = written ⟨r, o, a, r'⟩ := by
  cases o with
  | create_request request =>
    cases a with
    | error e => rfl
    | ok outcome =>
      cases outcome with
      | none => rfl
      | some outcome =>
        obtain ⟨created, duplicate, state⟩ := outcome
        cases created <;> rfl
  | transition_state id from_state to_state reason code => cases a <;> rfl
  | mark_terminal id state reason code => cases a <;> rfl
  | _ => rfl

theorem watch_recording (x : Option ReviewState) (t : Trace) :
    watch recording x t = (recorded t).or x := by
  induction t generalizing x with
  | nil => rfl
  | cons ev t ih =>
    have hw : watch recording x (ev :: t) = watch recording ((written ev).or x) t := by
      simp only [watch, List.foldl_cons, recording]
      rw [written_states ev.op ev.ans {} {} ev.pre ev.post]
    have hrec : recorded [ev] = written ev := by
      rw [← List.nil_append [ev], recorded_snoc, recorded_nil, Option.or_none]
    rw [hw, ih, ← List.singleton_append, recorded_append, hrec, Option.or_assoc]

namespace Orchestrator

section Checked

variable {α : Type} {orc : Orchestrator} {request : ReviewRequest} {context : ContextBundle}
  {x : Option ReviewState}

/-- From the recorded state `x`, the procedure asks only checked questions. -/
abbrev Checks (request : ReviewRequest) (x : Option ReviewState)
    (V : α → Option ReviewState → Prop) (m : Review α) : Prop :=
  Proc.Monitors recording (checked request) x V (fun _ _ => True) m

theorem silent_checked {o : Op} (h : o.silent) : checked request x o := by
  cases o <;> first | exact h.elim | trivial

theorem recording_silent {o : Op} (a : Ans o) (h : o.silent) : recording x o a = x := by
  rw [recording, written_silent h, Option.none_or]

theorem checks_silent {β κ : Type} {f : Locals → κ} {R : PyExc → Prop} {m : Review β}
    {k : β → Review α} {V : α → Option ReviewState → Prop}
    (hm : Proc.Within (fun _ _ => True) Op.silent f R m) (hk : ∀ b, Checks request x V (k b)) :
    Checks request x V (m >>= k) :=
  hm.monitors_bind (fun _ => silent_checked) (fun _ => recording_silent) (fun _ _ => trivial) hk

theorem checks_background {β : Type} {m : Review β} {k : β → Review α}
    {V : α → Option ReviewState → Prop}
    (hm : Proc.Within (fun _ _ => True) Op.background id (fun _ => True) m)
    (hk : ∀ b, Checks request x V (k b)) : Checks request x V (m >>= k) :=
  checks_silent (hm.mono (fun _ _ h => h) (fun _ => Op.background_silent) fun _ h => h) hk

theorem checks_transition {from_state to_state : ReviewState} {reason code : String}
    {k : Review α} {V : α → Option ReviewState → Prop}
    (hcan : can_transition from_state to_state = true) (hk : Checks request (some to_state) V k) :
    Checks request (some from_state) V (do
      transition request.request_id from_state to_state reason code
      Proc.assign fun l => { l with current_state := to_state }
      k) := by
  refine .bind (W := fun _ y => y = some to_state) (.invoke ?_ ?_ fun _ _ _ => trivial)
    fun _ y hy => ?_
  · exact ⟨rfl, rfl, hcan, ⟨reason, rfl⟩, code, rfl⟩
  · intro a v ha
    obtain rfl : a = .ok v := ha
    rfl
  · subst hy
    exact .bind (.assign (V := fun _ y => y = some to_state) rfl) fun _ y hy => by
      subst hy
      exact hk

/-- After the terminal write the pipeline makes no checked transition. -/
theorem checks_end {κ : Type} {f : Locals → κ} {R : PyExc → Prop} {m : Review α}
    (hm : Proc.Within (fun _ _ => True) Op.background f R m) :
    Checks request x (fun _ _ => True) m := by
  have hs := hm.mono (fun _ _ h => h) (fun _ => Op.background_silent) fun _ h => h
  exact hs.monitors (fun _ => silent_checked) (fun _ => recording_silent) (fun _ => trivial)
    fun _ _ => trivial

theorem checks_mark {state : ReviewState} {reason : String} {code : PyVal}
    {k : Unit → Review α} (hk : ∀ y, Checks request y (fun _ _ => True) (k ())) :
    Checks request x (fun _ _ => True) (mark_terminal_safe request.request_id state reason code >>= k) :=
  .bind (W := fun _ _ => True) (.attempt (E := fun _ _ => True)
    (.invoke trivial (fun _ _ _ => trivial) fun _ _ _ => trivial) fun _ _ _ => .pure trivial)
    fun _ y _ => hk y

theorem deliver_checks {decisions : List AgentDecision} {v : Verdict} :
    Checks request x (fun _ _ => True) (orc.deliver request decisions v) :=
  checks_mark fun _ => checks_end (f := id) (.bind log_analytics_within fun _ =>
    .bind publish_diagnostics_within fun _ =>
    .bind (publish_quick_fix_within (R := fun _ => True) fun _ _ _ => trivial) fun _ =>
    .bind log_result_within fun _ => .pure _)

theorem conclude_checks {decisions : List AgentDecision} :
    Checks request (some .ANALYZING) (fun _ _ => True) (orc.conclude request context decisions) :=
  checks_transition rfl (checks_background (.invoke trivial fun _ _ _ _ => trivial) fun _ =>
    checks_background (l3_stage_within (fun _ _ _ => trivial) trivial) fun _ =>
    checks_background (patch_stage_within (fun _ _ _ => trivial) fun _ _ _ => trivial) fun _ =>
    checks_background (autofix_stage_within (fun _ _ _ => trivial) trivial) fun _ =>
    deliver_checks)

theorem analyze_checks {decision : PolicyDecision} :
    Checks request (some .CONTEXT_READY) (fun _ y => y = some .ANALYZING)
      (orc.analyze request decision context) :=
  checks_transition rfl (checks_background monotonic_within fun _ =>
    checks_silent (f := id) (run_agents_within (R := fun _ => True) fun _ _ _ _ => trivial)
      fun _ => checks_background monotonic_within fun _ =>
    checks_background log_analytics_within fun _ => .pure rfl)

theorem review_checks {decision : PolicyDecision} :
    Checks request (some .QUEUED) (fun _ _ => True) (orc.review request decision) :=
  checks_transition rfl (checks_background (.invoke trivial fun _ _ _ _ => trivial) fun _ =>
    checks_background (offload_within fun _ _ => trivial) fun _ =>
    checks_background (context_cache_within fun _ _ _ _ _ => trivial) fun _ =>
    .bind analyze_checks fun _ y hy => by
      subst hy
      exact conclude_checks)

theorem reject_policy_checks {decision : PolicyDecision} :
    Checks request (some .QUEUED) (fun _ _ => True) (orc.reject_policy request decision) :=
  checks_transition rfl (checks_mark fun _ => checks_end (f := id) (R := fun _ => True)
    (.bind publish_diagnostics_within fun _ => .bind log_result_within fun _ => .pure _))

theorem admission_checks :
    Checks request (some .QUEUED) (fun _ _ => True) (orc.admission request) :=
  checks_background (.invoke trivial fun _ _ _ _ => trivial) fun _ =>
    .ite (fun _ => checks_background (.invoke trivial fun _ _ _ _ => trivial) fun _ =>
      checks_background log_analytics_within fun _ =>
        .ite (fun _ => review_checks) fun _ => reject_policy_checks) fun _ =>
      checks_mark fun _ => checks_end (f := id) (R := fun _ => True)
        (.bind log_result_within fun _ => .pure _)

end Checked

theorem pipeline_run {orc : Orchestrator} {request : ReviewRequest} {t : Trace} {o : Op}
    {k : Ans o → Running} (h : Path (orc.pipeline request {}) t (.call o k)) :
    ∃ k', Path (orc.run_once request {}) t (.call o k') :=
  ⟨_, h.bind _⟩

/-- The pipeline of a run that created its request asks only checked transitions. -/
theorem pipeline_checked {env : Env} {orc : Orchestrator} {request : ReviewRequest} {t : Trace}
    {o : Op} {k : Ans o → Running} (h : Path (orc.pipeline request {}) t (.call o k))
    (hs : ∀ ev ∈ t, env.step ev.pre ev.op ev.ans ev.post) (hc : was_created t = true) :
    checked request (recorded t) o := by
  cases h with
  | refl => cases hc
  | @call s s' _ _ a t' _ hrest =>
    have hcr : Created s request a s' := Env.step_created (hs _ List.mem_cons_self)
    have hstep : Path (orc.pipeline request {}) (⟨s, .create_request request, a, s'⟩ :: t')
        (.call o k) := .call hrest
    have hjob := run_path_head (pipeline_run hstep).choose_spec
    rcases hjob with ⟨hnil, -⟩ | ⟨_, _, _, _, heq, -, hjob⟩
    · cases hnil
    · cases heq
      rw [was_created_head hjob] at hc
      cases hcr with
      | raised e => cases hc
      | duplicate _ _ _ => cases hc
      | created _ _ _ _ _ _ =>
        have hchecks : Checks request (some .QUEUED) (fun _ _ => True)
            (orc.after_create request (some ⟨true, false, some ReviewState.QUEUED.value⟩)) :=
          .bind (.assign (V := fun _ y => y = some .QUEUED) rfl) fun _ y hy => by
            subst hy
            exact admission_checks
        have hend := hrest.monitored (hchecks {})
        rw [watch_recording] at hend
        rw [← List.singleton_append, recorded_append]
        exact hend.1

end Orchestrator

/-- The store accepts a transition from the state of the row along an edge. -/
theorem transition_state_accepts {db : Db} {request_id reason code : String}
    {from_state to_state : ReviewState} (hcan : can_transition from_state to_state = true)
    (hstate : db.state_of request_id = some from_state) (now : String) :
    (transition_state now request_id from_state to_state (.str reason) (.str code) db).1 =
      .ok () := by
  cases hr : transition_state now request_id from_state to_state (.str reason) (.str code) db with
  | mk r db' =>
    cases transition_state_cases hr with
    | changed row payload _ _ _ _ _ => rfl
    | invalid e hno =>
      rw [hcan] at hno
      cases hno
    | mismatch e hno =>
      obtain ⟨row, hrow, hst⟩ := Option.map_eq_some_iff.mp hstate
      obtain ⟨hmem, hid⟩ := Db.find_request_some hrow
      exact absurd hst (hno row hmem hid)
    | unserializable e hno =>
      have hok : PyDict.dumps [("from", .str from_state.value), ("to", .str to_state.value),
          ("reason", .str reason), ("result_code", .str code)] = .ok ⟨_, rfl⟩ :=
        PyDict.dumps_of_serializable rfl
      rw [hok] at hno
      cases hno

theorem pipeline_transition_accepted {w : History} (hw : w.Reached) {i : Nat} {c : Call}
    {request_id : String} {from_state to_state : ReviewState} {reason code : PyVal}
    (h : w.PipelineAsks i c (.transition_state request_id from_state to_state reason code))
    (now : String) :
    (transition_state now request_id from_state to_state reason code w.state).1 = .ok () := by
  obtain ⟨⟨p, hi⟩, k, hpath⟩ := h
  obtain ⟨k', hrun⟩ := Orchestrator.pipeline_run hpath
  have hevents := hw.event hi
  rcases next_question hrun hevents with ⟨-, hop⟩ | ⟨-, hsilent⟩
  · cases hop
  · have hcreated : was_created (w.trace i) = true := by
      by_contra hn
      exact hsilent (Bool.eq_false_iff.mpr hn)
    obtain ⟨rfl, hrec, hcan, ⟨r, rfl⟩, s, rfl⟩ :=
      Orchestrator.pipeline_checked hpath hevents hcreated
    have hstate := ((History.Reached.inv hw).created i c ⟨⟨p, hi⟩, hcreated⟩).2
    exact transition_state_accepts hcan (hstate.trans hrec) now

/-- Calls of `run_once` over one store do not interfere, however they overlap. -/
theorem calls_do_not_interfere {w : History} (hw : w.Reached) :
    (∀ i j c d, w.Proceeded i c → w.Proceeded j d →
      c.request.idempotency_key = d.request.idempotency_key → i = j) ∧
    (∀ i ev id, (i, ev) ∈ w.log → ev.post.state_of id ≠ ev.pre.state_of id →
      ∃ c, w.Created i c ∧ c.request.request_id = id ∧
        ∀ j d, w.Created j d → d.request.request_id = id → j = i) ∧
    ∀ i c request_id from_state to_state reason code,
      w.PipelineAsks i c (.transition_state request_id from_state to_state reason code) →
      ∀ now, (transition_state now request_id from_state to_state reason code w.state).1 =
        .ok () := by
  have hinv := History.Reached.inv hw
  refine ⟨fun i j c d hc hd hkey => ?_, fun i ev id hev hch => ?_, fun i c id f g r s h => ?_⟩
  · exact hinv.keys_apart (hc.created hw) (hd.created hw) hkey
  · obtain ⟨c, hc, hid⟩ := changed_by_creator hw hev hch
    exact ⟨c, hc, hid, fun j d hd hdid => hinv.apart j i d c hd hc (hdid.trans hid.symm)⟩
  · exact pipeline_transition_accepted hw h

/-- Two calls for one key, answered in turn. -/
def overlapped : History :=
  Pool.schedule (fun _ => scripted agreeable) (fun c : Call => c.orc.run_once c.request {}) {}
    [⟨{}, anyone, sampleRequest "req_1" "key"⟩, ⟨{}, anyone, sampleRequest "req_2" "key"⟩]
    [0, 1, 0, 1, 0, 1]

theorem overlapped_one_proceeds :
    ¬overlapped.Proceeded 1 ⟨{}, anyone, sampleRequest "req_2" "key"⟩ := by
  intro h
  have hreached : overlapped.Reached := by
    refine Pool.schedule_reachable (fun c hc => scripted_step fun _ => ?_) _
    simp only [List.mem_cons, List.not_mem_nil, or_false] at hc
    rcases hc with rfl | rfl <;> trivial
  have hfirst : overlapped.Proceeded 0 ⟨{}, anyone, sampleRequest "req_1" "key"⟩ :=
    ⟨⟨_, rfl⟩, _, List.mem_of_getElem? (i := 1) rfl, rfl⟩
  have heq := (calls_do_not_interfere hreached).1 0 1 _ _ hfirst h rfl
  cases heq

end Nitpicker
