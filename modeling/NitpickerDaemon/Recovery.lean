import NitpickerDaemon.RunState

/-!
Crash recovery: what `list_recoverable_jobs` finds of a run that stopped half way.
-/

set_option autoImplicit false

namespace Nitpicker

open Effect

/-- The run stopped after it wrote `CONSENSUS_REACHED` and before its next state write. -/
def StopsAfterConsensus (t : Trace) : Prop :=
  ∃ t₁ ev t₂, t = t₁ ++ ev :: t₂ ∧ written ev = some .CONSENSUS_REACHED ∧
    ∀ e ∈ t₂, written e = none

/-- `request` is over, or will be found by the recovery scan. -/
def Recovered (db : Db) (request : ReviewRequest) : Prop :=
  (∃ state, db.state_of request.request_id = some state ∧ state.terminal = true) ∨
    request ∈ list_recoverable_jobs db

/-- The recovery scan finds exactly the requests whose review is not over. -/
def ScanComplete (db : Db) : Prop :=
  ∀ request, request ∈ list_recoverable_jobs db ↔
    ∃ row ∈ db.review_requests, row.request = request ∧ row.state.terminal = false

theorem recoverable_or_terminal {state : ReviewState}
    (h : state = .QUEUED ∨ state.terminal = true ∨ state ∈ run_states) :
    (state.terminal = true ∨ state ∈ recoverable) ↔ state ≠ .CONSENSUS_REACHED := by
  cases state <;> simp_all [ReviewState.terminal, recoverable, run_states]

theorem recovered_iff {db s : Db} {request : ReviewRequest} {t : Trace}
    (h : RunState request db s t) (hc : was_created t = true) (hw : recorded t ≠ none) :
    Recovered s request ↔ ¬StopsAfterConsensus t := by
  have hmem : request ∈ s.requests := by
    rw [h.requests, hc]
    simp
  obtain ⟨state, hrec⟩ := Option.ne_none_iff_exists'.mp hw
  have hst : s.state_of request.request_id = some state := by
    rw [h.states, if_pos rfl, hrec, Option.some_or]
  have hstop : StopsAfterConsensus t ↔ state = .CONSENSUS_REACHED := by
    rw [StopsAfterConsensus, ← recorded_split, hrec, Option.some.injEq]
  rw [Recovered, h.consistent.mem_recoverable hmem, hst, hstop]
  simp only [Option.some.injEq, exists_eq_left']
  exact recoverable_or_terminal (h.written state hrec)

/-- A created request has a recorded state. -/
theorem recorded_of_created {t : Trace} (h : was_created t = true) : recorded t ≠ none := by
  induction t using List.reverseRecOn with
  | nil => simp [was_created] at h
  | append_singleton t ev ih =>
    rw [recorded_snoc]
    rw [was_created_snoc, Bool.or_eq_true] at h
    rcases h with h | h
    · cases hw : written ev with
      | none => simpa using ih h
      | some state => simp
    · have hw : written ev = some .QUEUED := by
        unfold creates at h
        split at h
        · rfl
        · cases h
      simp [hw]

theorem mem_scan {db : Db} (hc : db.Consistent) {request : ReviewRequest} :
    request ∈ list_recoverable_jobs db ↔
      ∃ row ∈ db.review_requests, row.request = request ∧ row.state ∈ recoverable := by
  rw [hc.list_recoverable]
  simp only [List.mem_map, List.mem_filter, decide_eq_true_eq]
  constructor
  · rintro ⟨row, ⟨hrow, hst⟩, hreq⟩
    exact ⟨row, hrow, hreq, hst⟩
  · rintro ⟨row, hrow, hreq, hst⟩
    exact ⟨row, ⟨hrow, hst⟩, hreq⟩

theorem scan_complete_iff {db : Db} (hc : db.Consistent) : ScanComplete db ↔
    ∀ row ∈ db.review_requests, row.state ≠ .CONSENSUS_REACHED ∧ row.state ≠ .VERIFIED := by
  constructor
  · intro h row hrow
    by_contra hst
    have hopen : row.state.terminal = false := by
      cases hs : row.state <;> simp_all [ReviewState.terminal]
    have hmem := (h row.request).mpr ⟨row, hrow, rfl, hopen⟩
    obtain ⟨row', hrow', hreq, hrec⟩ := (mem_scan hc).mp hmem
    have hsame : row'.request_id = row.request_id := congrArg ReviewRequest.request_id hreq
    obtain rfl := hc.row_unique hrow' hrow hsame
    cases hs : row'.state <;> simp_all [recoverable]
  · intro h request
    rw [mem_scan hc]
    have hst : ∀ row ∈ db.review_requests,
        row.state ∈ recoverable ↔ row.state.terminal = false := by
      intro row hrow
      have hne := h row hrow
      cases hs : row.state <;> simp_all [recoverable, ReviewState.terminal]
    constructor
    · rintro ⟨row, hrow, hreq, hrec⟩
      exact ⟨row, hrow, hreq, (hst row hrow).mp hrec⟩
    · rintro ⟨row, hrow, hreq, hopen⟩
      exact ⟨row, hrow, hreq, (hst row hrow).mpr hopen⟩

theorem recovery_complete_iff {orc : Orchestrator} {env : Env} {request : ReviewRequest}
    {db db' : Db} {t : Trace} {p : Running}
    (hdb : db.Reachable) (hr : Steps env.step db (orc.run_once request {}) t db' p)
    (hc : was_created t = true) :
    (Recovered db' request ↔ ¬StopsAfterConsensus t) ∧
    (ScanComplete db' ↔ ∀ row ∈ db'.review_requests,
      row.state ≠ .CONSENSUS_REACHED ∧ row.state ≠ .VERIFIED) := by
  have hs := run_state hdb.consistent hr
  exact ⟨recovered_iff hs hc (recorded_of_created hc), scan_complete_iff hs.consistent⟩

theorem recovery_complete_sample :
    Recovered (({} : Orchestrator).play agreeable (sampleRequest "req_1" "idemp_1") {} 4).2.1
      (sampleRequest "req_1" "idemp_1") := by
  have hr := @play_steps anyone agreeable (fun _ => trivial) {}
    (sampleRequest "req_1" "idemp_1") {} 4
  have h := recovery_complete_iff Db.reachable_empty hr rfl
  refine h.1.mpr fun hstop => ?_
  have hrec := recorded_split.mpr hstop
  cases hrec

/-- Stopped after the transition to `CONSENSUS_REACHED`, the request is lost. -/
theorem consensus_not_recovered : ∃ t db' p,
    Steps anyone.step {} (({} : Orchestrator).run_once (sampleRequest "req_1" "idemp_1") {})
      t db' p ∧ was_created t = true ∧ ¬Recovered db' (sampleRequest "req_1" "idemp_1") := by
  have hr := @play_steps anyone agreeable (fun _ => trivial) {}
    (sampleRequest "req_1" "idemp_1") {} 9
  refine ⟨_, _, _, hr, rfl, ?_⟩
  rintro (⟨state, hst, hterm⟩ | hmem)
  · cases hst
    cases hterm
  · have hnil : list_recoverable_jobs (({} : Orchestrator).play agreeable
      (sampleRequest "req_1" "idemp_1") {} 9).2.1 = [] := rfl
    rw [hnil] at hmem
    cases hmem

end Nitpicker
