import NitpickerDaemon.Duplicates
import NitpickerDaemon.StateEdges

/-!
Retrying a review: when the duplicate answer stands for a review that is under way or done.
-/

set_option autoImplicit false

namespace Nitpicker

open Effect

/-- The row of the key belongs to a review that was delivered, that failed its precheck, or
that another call still has in progress. -/
def History.KeyInUse (w : History) (i : Nat) (key : String) : Prop :=
  ∃ row ∈ w.state.review_requests, row.idempotency_key = key ∧
    (row.state = .DELIVERED ∨ row.state = .PRECHECK_FAILED ∨
      (row.state.terminal = false ∧
        ∃ j d, j ≠ i ∧ w.Created j d ∧ d.request = row.request ∧ w.InProgress j))

/-- The duplicate answer of call `i` is right: the key was in use when it was checked, or the
call reviewed the change itself and the key is in use by its own delivery. -/
def History.Justified (w : History) (i : Nat) (c : Call) : Prop :=
  (∃ w₁ : History, w.CheckedAt i w₁ ∧ w₁.KeyInUse i c.request.idempotency_key) ∨
    (w.Created i c ∧ w.KeyInUse i c.request.idempotency_key)

/-- When the key is not stored, the id is unused and nothing is null; no earlier call of the
key has failed; and no terminal write of the call itself raised. -/
structure History.Retryable (w : History) (i : Nat) (c : Call) : Prop where
  stored : ∀ w₁ : History, w.CheckedAt i w₁ → w₁.state.KeyStored c.request.idempotency_key ∨
    (¬w₁.state.IdStored c.request.request_id ∧ ¬c.request.HasNull)
  unfailing : ∀ w₁ : History, w.CheckedAt i w₁ → ∀ j d (p : Running), j ≠ i →
    w₁.jobs[j]? = some (d, p) → d.request.idempotency_key = c.request.idempotency_key →
    d.orc.Unfailing (w₁.trace j)
  marked : ∀ ev ∈ w.trace i, mark_succeeds ev = true

theorem unfailing_marks {orc : Orchestrator} {t : Trace} (h : orc.Unfailing t) :
    ∀ ev ∈ t, mark_succeeds ev = true := by
  intro ev hev
  have hf := h ev hev
  obtain ⟨s, o, a, s'⟩ := ev
  cases o <;> try rfl
  cases a with
  | error e => cases hf
  | ok u => rfl

/-- The row of a call in which nothing has failed. -/
theorem unfailing_row {w : History} (hw : w.Reached) {j : Nat} {d : Call} {state : ReviewState}
    (hd : w.Created j d) (hu : d.orc.Unfailing (w.trace j))
    (hr : recorded (w.trace j) = some state) :
    state = .DELIVERED ∨ state = .PRECHECK_FAILED ∨
      (state.terminal = false ∧ w.InProgress j) := by
  obtain ⟨p, hp⟩ := hd.call
  have hpath := hw.path hp
  have hevents := hw.event hp
  obtain ⟨state', hr', hnd, hnf⟩ := unfailing_recorded hpath hevents hd.created hu
  rw [hr] at hr'
  cases hr'
  cases hterm : state.terminal with
  | true => cases state <;> simp_all [ReviewState.terminal]
  | false =>
    refine .inr (.inr ⟨rfl, ?_⟩)
    cases p with
    | call o k => exact ⟨d, o, k, hp⟩
    | ret r =>
      obtain ⟨r, l⟩ := r
      obtain ⟨result, rfl⟩ := returned_ok hpath
      have hrec := created_recorded hpath hevents hd.created (.inl hu)
      have hstate := hrec.row (unfailing_marks hu)
      rw [hr] at hstate
      cases hstate
      rw [hrec.terminal] at hterm
      cases hterm

theorem duplicate_means_in_use {w : History} (hw : w.Reached) {i : Nat} {c : Call}
    (h : w.AnsweredDuplicate i c) (hcond : w.Retryable i c) : w.Justified i c := by
  rcases answered_duplicate_cases hw h with ⟨w₁, hat, hreason⟩ | ⟨hc, hgate⟩
  · obtain ⟨row, hrow, hkey⟩ := key_stored hreason (hcond.stored w₁ hat)
    obtain ⟨j, d, hd, hreq, hrec⟩ := hat.reached.inv.row_of hrow
    have hij := hat.other hw h hd
    obtain ⟨p, hp⟩ := hd.call
    have hdkey : d.request.idempotency_key = c.request.idempotency_key := by
      rw [hreq]
      exact hkey
    refine .inl ⟨w₁, hat, row, hrow, hkey, ?_⟩
    have hrow' := unfailing_row hat.reached hd (hcond.unfailing w₁ hat j d p hij hp hdkey) hrec
    rcases hrow' with hs | hs | ⟨hs, hprog⟩
    · exact .inl hs
    · exact .inr (.inl hs)
    · exact .inr (.inr ⟨hs, j, d, hij, hd, hreq, hprog⟩)
  · obtain ⟨result, l, hi, hcode⟩ := h
    have hn : ¬Refused result := fun hr => hr.not_ignored hcode
    have hrec := created_recorded (hw.path hi) (hw.event hi) hc.created (.inr hn)
    have hstate := hrec.row hcond.marked
    rw [hrec.ignored hcode] at hstate
    obtain ⟨hmem, hrow⟩ := hw.inv.created i c hc
    obtain ⟨row, hrow', hreq⟩ := List.mem_map.mp hmem
    refine .inr ⟨hc, row, hrow', congrArg ReviewRequest.idempotency_key hreq, .inl ?_⟩
    have hid : row.request_id = c.request.request_id := congrArg ReviewRequest.request_id hreq
    have hof := hw.inv.consistent.state_of hrow'
    rw [hid, hrow, hstate] at hof
    exact (Option.some.inj hof).symm

/-- A call from the command line with collaborators that may answer anything. -/
def cliCall : Call where
  orc := {}
  env := anyone
  request := builtRequest "cli" "active_intent" "workspace"

theorem duplicate_in_use_sample :
    (two_calls cliCall cliCall agreeable agreeable).Justified 1 cliCall := by
  refine duplicate_means_in_use (two_calls_reached (fun _ => trivial) fun _ => trivial)
    ⟨_, _, rfl, rfl⟩ ⟨?_, ?_, ?_⟩
  · intro w₁ hat
    have hany := hat.pre (f := fun db => db.review_requests.any fun row =>
      decide (row.idempotency_key = cliCall.request.idempotency_key)) rfl
    obtain ⟨row, hrow, hkey⟩ := List.any_eq_true.mp hany
    exact .inl ⟨row, hrow, of_decide_eq_true hkey⟩
  · intro w₁ hat j d p _ hj _ ev hev
    obtain ⟨p', hp'⟩ := hat.calls j d p hj
    have hall : (two_calls cliCall cliCall agreeable agreeable).log.all
        (fun e => !cliCall.orc.fails e.2.op e.2.ans) = true := rfl
    have hev' := List.all_eq_true.mp hall _ (hat.earlier hev)
    rcases two_calls_mem hp' with rfl | rfl <;> simpa using hev'
  · rw [← List.all_eq_true]
    rfl

/-- A call refused for resources leaves a row that answers every later call as a duplicate. -/
theorem refused_review_not_retried :
    Adapter.cli.build_request sampleSha256 (fileEvent "cli" "a.py" "+x") = .ok cliCall.request ∧
    ∃ w : History, w.Reached ∧ w.AnsweredDuplicate 1 cliCall ∧ ¬w.Justified 1 cliCall := by
  refine ⟨rfl, two_calls cliCall cliCall no_resources agreeable,
    two_calls_reached (fun _ => trivial) (fun _ => trivial), ⟨_, _, rfl, rfl⟩, fun h => ?_⟩
  rcases h with ⟨w₁, hat, row, hrow, -, hstate⟩ | ⟨hc, -⟩
  · have hall := hat.pre (f := fun db => db.review_requests.all fun row =>
      decide (row.state = .DEGRADED)) rfl
    have hdegraded : row.state = .DEGRADED := of_decide_eq_true (List.all_eq_true.mp hall row hrow)
    rw [hdegraded] at hstate
    rcases hstate with hs | hs | ⟨hs, -⟩ <;> cases hs
  · have hcr := hc.created
    cases hcr

end Nitpicker
