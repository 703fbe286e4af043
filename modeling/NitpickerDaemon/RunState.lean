import NitpickerDaemon.ControllerRun

/-!
The row of a request against the trace of its run: at every moment the row holds the last
state the run recorded, and no other row has moved.
-/

set_option autoImplicit false

namespace Nitpicker

open Effect

/-- What a run for `request` from `db` has done to the store when its trace is `t`. -/
structure RunState (request : ReviewRequest) (db s : Db) (t : Trace) : Prop where
  consistent : s.Consistent
  states : ∀ id, s.state_of id =
    if id = request.request_id then (recorded t).or (db.state_of id) else db.state_of id
  requests : s.requests = db.requests ++ if was_created t then [request] else []
  written : ∀ state, recorded t = some state →
    state = .QUEUED ∨ state.terminal = true ∨ state ∈ run_states

theorem RunState.start (request : ReviewRequest) {db : Db} (h : db.Consistent) :
    RunState request db db [] := by
  refine ⟨h, fun id => ?_, by simp [was_created], by simp [recorded_nil]⟩
  simp [recorded_nil]

section Step

variable {request : ReviewRequest} {db s s' : Db} {t : Trace} {o : Op} {a : Ans o}

theorem was_created_snoc (t : Trace) (ev : Event Db Op Ans) :
    was_created (t ++ [ev]) = (was_created t || creates ev) := by simp [was_created]

/-- An event that writes no state leaves the description as it was. -/
theorem RunState.still (h : RunState request db s t) (hc : s'.Consistent)
    (hs : ∀ id, s'.state_of id = s.state_of id) (hq : s'.requests = s.requests)
    (hw : Nitpicker.written ⟨s, o, a, s'⟩ = none) (hn : creates ⟨s, o, a, s'⟩ = false) :
    RunState request db s' (t ++ [⟨s, o, a, s'⟩]) := by
  have hr : recorded (t ++ [⟨s, o, a, s'⟩]) = recorded t := by rw [recorded_snoc, hw, Option.none_or]
  refine ⟨hc, fun id => ?_, ?_, ?_⟩
  · rw [hs, hr]
    exact h.states id
  · rw [hq, was_created_snoc, hn, Bool.or_false]
    exact h.requests
  · rw [hr]
    exact h.written

theorem RunState.moved (h : RunState request db s t) (hc : s'.Consistent) {state : ReviewState}
    (hm : s.Moved s' request.request_id state)
    (hq : s'.requests = db.requests ++ if was_created (t ++ [⟨s, o, a, s'⟩]) then [request] else [])
    (hw : Nitpicker.written ⟨s, o, a, s'⟩ = some state)
    (hr : state = .QUEUED ∨ state.terminal = true ∨ state ∈ run_states) :
    RunState request db s' (t ++ [⟨s, o, a, s'⟩]) := by
  have hrec : recorded (t ++ [⟨s, o, a, s'⟩]) = some state := by
    rw [recorded_snoc, hw, Option.some_or]
  refine ⟨hc, fun id => ?_, hq, ?_⟩
  · rw [hm id, hrec]
    by_cases hid : id = request.request_id
    · simp [hid]
    · simp [hid, h.states]
  · intro st hst
    rw [hrec] at hst
    cases hst
    exact hr

theorem mem_requests_stored {r : ReviewRequest} (h : r ∈ s.requests) : s.IdStored r.request_id := by
  obtain ⟨row, hrow, rfl⟩ := List.mem_map.mp h
  exact ⟨row, hrow, rfl⟩

theorem RunState.step {env : Env} (h : RunState request db s t) (ho : o.of_run request)
    (hs : env.step s o a s') : RunState request db s' (t ++ [⟨s, o, a, s'⟩]) := by
  have hc : s'.Consistent := h.consistent.step (Env.step_db (Op.of_run_lawful ho) hs)
  cases o with
  | create_request r =>
    obtain rfl : r = request := ho
    cases Env.step_created hs with
    | raised e => exact h.still hc (fun _ => rfl) rfl rfl rfl
    | created _ hk hi hn hq hm =>
      refine h.moved hc hm ?_ rfl (.inl rfl)
      have hfresh : was_created t = false := by
        by_contra hcr
        simp only [Bool.not_eq_false] at hcr
        refine hi (mem_requests_stored (r := r) ?_)
        rw [h.requests, hcr]
        simp
      rw [was_created_snoc, hq, h.requests, hfresh]
      simp [creates]
    | duplicate _ hst _ => exact h.still hc hst.state_of hst.requests rfl rfl
  | transition_state request_id from_state to_state reason result_code =>
    obtain ⟨rfl, hto⟩ := ho
    rcases Env.step_transition h.consistent hs with ⟨e, rfl, rfl⟩ | ⟨rfl, hcan, hfrom, hm, hq⟩
    · exact h.still hc (fun _ => rfl) rfl rfl rfl
    · refine h.moved hc hm ?_ rfl (.inr (.inr hto))
      rw [was_created_snoc, hq, h.requests]
      simp [creates]
  | mark_terminal request_id state reason result_code =>
    obtain ⟨rfl, hterm⟩ := ho
    rcases Env.step_mark hs with ⟨e, rfl, rfl⟩ | ⟨rfl, hm, hq, _⟩
    · exact h.still hc (fun _ => rfl) rfl rfl rfl
    · refine h.moved hc hm ?_ rfl (.inr (.inl hterm))
      rw [was_created_snoc, hq, h.requests]
      simp [creates]
  | append_event request_id event_type payload =>
    have hst : s.Still s' := by
      refine Env.step_silent ?_ hs
      exact ho
    exact h.still hc hst.state_of hst.requests rfl rfl
  | _ =>
    have hst : s.Still s' := by
      refine Env.step_silent ?_ hs
      trivial
    exact h.still hc hst.state_of hst.requests rfl rfl

end Step

/-- The state a trace recorded last, found in the trace. -/
theorem recorded_split {t : Trace} {state : ReviewState} : recorded t = some state ↔
    ∃ t₁ ev t₂, t = t₁ ++ ev :: t₂ ∧ written ev = some state ∧ ∀ e ∈ t₂, written e = none := by
  induction t using List.reverseRecOn with
  | nil => simp [recorded_nil]
  | append_singleton t ev ih =>
    rw [recorded_snoc]
    cases hw : written ev with
    | some st =>
      rw [Option.some_or]
      constructor
      · intro h
        exact ⟨t, ev, [], rfl, hw.trans h, by simp⟩
      · rintro ⟨t₁, e, t₂, heq, he, hnone⟩
        rcases append_singleton_split heq with ⟨-, rfl, -⟩ | ⟨t₃, rfl, -⟩
        · exact hw.symm.trans he
        · have hn := hnone ev (by simp)
          rw [hw] at hn
          cases hn
    | none =>
      rw [Option.none_or, ih]
      constructor
      · rintro ⟨t₁, e, t₂, rfl, he, hnone⟩
        refine ⟨t₁, e, t₂ ++ [ev], by simp, he, fun e' he' => ?_⟩
        simp only [List.mem_append, List.mem_singleton] at he'
        rcases he' with he' | rfl
        · exact hnone e' he'
        · exact hw
      · rintro ⟨t₁, e, t₂, heq, he, hnone⟩
        rcases append_singleton_split heq with ⟨-, rfl, -⟩ | ⟨t₃, rfl, rfl⟩
        · rw [hw] at he
          cases he
        · exact ⟨t₁, e, t₃, rfl, he, fun e' he' => hnone e' (by simp [he'])⟩

/-- At every point where the run can stop, the store is as the trace says. -/
theorem run_state {orc : Orchestrator} {env : Env} {request : ReviewRequest} {db db' : Db}
    {l : Locals} {t : Trace} {p : Running}
    (hc : db.Consistent) (hr : Steps env.step db (orc.run_once request l) t db' p) :
    RunState request db db' t := by
  have hw : Proc.Within (fun _ _ => True) (Op.of_run request) (fun _ => ()) (fun _ => False)
      (orc.run_once request) := Orchestrator.run_once_within
  have hk := hr.keeps (I := fun s t => RunState request db s t) (hw l) (fun _ _ _ _ _ => trivial)
    (fun s t o a s' ho hs h => h.step ho hs) (t := []) (RunState.start request hc)
  simpa using hk

theorem run_consistent {orc : Orchestrator} {env : Env} {request : ReviewRequest} {db db' : Db}
    {l : Locals} {t : Trace} {p : Running}
    (hc : db.Consistent) (hr : Steps env.step db (orc.run_once request l) t db' p) :
    ∀ ev ∈ t, ev.pre.Consistent := by
  have hw : Proc.Within (fun _ _ => True) (Op.of_run request) (fun _ => ()) (fun _ => False)
      (orc.run_once request) := Orchestrator.run_once_within
  have hi := hr.invariant (I := Db.Consistent) (hw l) (fun _ _ _ _ _ => trivial)
    (fun s o a s' ho hs h => h.step (Env.step_db (Op.of_run_lawful ho) hs)) hc
  exact fun ev hev => (hi.2 ev hev).2.1

theorem Db.Consistent.list_recoverable {db : Db} (hc : db.Consistent) :
    list_recoverable_jobs db =
      (db.review_requests.filter (·.state ∈ recoverable)).map (·.request) := by
  rw [list_recoverable_jobs, ← List.filterMap_eq_map]
  refine List.filterMap_congr fun row hrow => ?_
  have hmem := (List.mem_filter.mp hrow).1
  simp [get_request, hc.find_request hmem]

theorem Db.Consistent.state_of {db : Db} (hc : db.Consistent) {row : RequestRow}
    (h : row ∈ db.review_requests) : db.state_of row.request_id = some row.state := by
  simp [Db.state_of, hc.find_request h]

theorem Db.Consistent.mem_recoverable {db : Db} (hc : db.Consistent) {request : ReviewRequest}
    (h : request ∈ db.requests) : request ∈ list_recoverable_jobs db ↔
      ∃ state, db.state_of request.request_id = some state ∧ state ∈ recoverable := by
  obtain ⟨row, hrow, rfl⟩ := List.mem_map.mp h
  have hid : row.request.request_id = row.request_id := rfl
  rw [hc.list_recoverable, hid, hc.state_of hrow]
  constructor
  · intro hm
    obtain ⟨row', hrow', hreq⟩ := List.mem_map.mp hm
    obtain ⟨hmem, hst⟩ := List.mem_filter.mp hrow'
    have hsame : row'.request_id = row.request_id := congrArg ReviewRequest.request_id hreq
    obtain rfl := hc.row_unique hmem hrow hsame
    exact ⟨row'.state, rfl, by simpa using hst⟩
  · rintro ⟨state, hst, hmem⟩
    cases hst
    exact List.mem_map.mpr ⟨row, List.mem_filter.mpr ⟨hrow, by simpa using hmem⟩, rfl⟩

end Nitpicker
