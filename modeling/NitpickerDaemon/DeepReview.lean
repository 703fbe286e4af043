import NitpickerDaemon.Duplicates

/-!
Shallow and deep reviews of one change: which earlier run stands behind the duplicate
answer to a request.
-/

set_option autoImplicit false

namespace Nitpicker

open Effect

/-- The policy engine is the default one. -/
def Env.DefaultPolicy (env : Env) (engine : DefaultPolicyEngine) : Prop :=
  ∀ request a, env.may (.evaluate_request request) a →
    ∃ stat, a = .ok (engine.evaluate_request stat request)

theorem allowed_agents_none {engine : DefaultPolicyEngine} {stat : String → Option Nat}
    {request : ReviewRequest} (h : request.trigger_intent ≠ some "passive_save") :
    (engine.evaluate_request stat request).allowed_agents = none := by
  have hp : (request.trigger_intent == some "passive_save") = false := by simp [h]
  unfold DefaultPolicyEngine.evaluate_request
  rw [hp]
  split
  · split <;> rfl
  · rfl

/-- The agents of the run were started. -/
def AnalysisStarted (c : Call) (t : Trace) : Prop :=
  Answered t (.transition_state c.request.request_id .CONTEXT_READY .ANALYZING
    (.str "agents start") (.str "AGENTS_STARTED")) (.ok ())

/-- The run was accepted without an allow-list and has started all its agents. -/
def RanInFull (c : Call) (t : Trace) : Prop :=
  ∃ decision, Answered t (.evaluate_request c.request) (.ok decision) ∧
    decision.accepted = true ∧ decision.allowed_agents = none ∧
    c.orc.active_agents c.request decision = c.orc.all_agents c.request ∧ AnalysisStarted c t

/-- The answers with which the policy engine accepts the request. -/
def Accepts (request : ReviewRequest) : (o : Op) → Ans o → Prop
  | .evaluate_request r, .ok decision => r = request ∧ decision.accepted = true
  | _, _ => False

/-- A question that starts no analysis. -/
def Op.unstarted : Op → Prop
  | .transition_state _ _ to_state _ _ => to_state ≠ .ANALYZING
  | _ => True

theorem Op.silent_unstarted {o : Op} (h : o.silent) : o.unstarted := by
  cases o <;> first | exact h.elim | trivial

namespace Orchestrator

section Unaccepted

variable {orc : Orchestrator} {request : ReviewRequest}

/-- While the request is not accepted, `m` starts no analysis. -/
abbrev Waits {α : Type} (request : ReviewRequest) (m : Review α) : Prop :=
  Proc.Asks (fun o a => ¬Accepts request o a) Op.unstarted (fun _ => True) (fun _ => True) m

theorem background_waits {α : Type} {m : Review α}
    (hm : Proc.Within (fun o a => ¬Accepts request o a) Op.background id (fun _ => True) m) :
    Waits request m :=
  (hm.mono (fun _ _ h => h) (fun _ ho => Op.silent_unstarted (Op.background_silent ho))
    fun _ h => h).asks

theorem invoke_waits {α : Type} {o : Op} {f : Ans o → Except PyExc α} (h : o.unstarted) :
    Waits request (Proc.invoke o f) :=
  .invoke h (fun _ _ _ _ => trivial) fun _ _ _ _ => trivial

theorem best_effort_waits {m : Review Unit} (h : Waits request m) : Waits request (best_effort m) :=
  h.attempt fun _ _ => .pure trivial

theorem transition_waits {request_id : String} {from_state to_state : ReviewState}
    {reason result_code : String} (h : to_state ≠ .ANALYZING) :
    Waits request (transition request_id from_state to_state reason result_code) :=
  invoke_waits (o := .transition_state _ _ _ _ _) h

theorem assign_waits {f : Locals → Locals} : Waits request (Proc.assign f) := fun _ => trivial

theorem mark_waits {request_id : String} {state : ReviewState} {reason : String}
    {result_code : PyVal} : Waits request (mark_terminal_safe request_id state reason result_code) :=
  best_effort_waits (invoke_waits trivial)

theorem reject_policy_waits {decision : PolicyDecision} :
    Waits request (orc.reject_policy request decision) :=
  .bind (transition_waits (by decide)) fun _ _ => .bind assign_waits fun _ _ =>
    .bind mark_waits fun _ _ => .bind (background_waits publish_diagnostics_within) fun _ _ =>
    .bind (background_waits log_result_within) fun _ _ => .pure trivial

theorem admission_waits : Waits request (orc.admission request) := by
  refine .bind (invoke_waits trivial) fun allowed _ => .ite (fun _ => ?_) fun _ =>
    .bind mark_waits fun _ _ => .bind (background_waits log_result_within) fun _ _ => .pure trivial
  refine .bind (W := fun decision => decision.accepted = false)
    (.invoke trivial (fun a decision ha hok => ?_) fun _ _ _ _ => trivial) fun decision hd =>
    .bind (background_waits log_analytics_within) fun _ _ =>
      .ite (fun hacc => ?_) fun _ => reject_policy_waits
  · obtain rfl : a = .ok decision := hok
    exact Bool.eq_false_iff.mpr fun hacc => ha ⟨rfl, hacc⟩
  · rw [hd] at hacc
    cases hacc

theorem handle_failure_waits {error : PyExc} : Waits request (orc.handle_failure request error) := by
  have hclass := classify_failure_state error
  unfold handle_failure
  generalize classify_failure error = c at hclass ⊢
  obtain ⟨state, status, code⟩ := c
  have hstate : state ≠ .ANALYZING := by
    intro heq
    rw [heq] at hclass
    cases hclass.2
  refine .bind (W := fun _ => True) ?_ fun _ _ => .bind (W := fun _ => True) ?_ fun _ _ =>
    .bind (background_waits publish_diagnostics_within) fun _ _ =>
    .bind (background_waits log_result_within) fun _ _ => .pure trivial
  · exact .bind (W := fun _ => True) (fun _ => trivial) fun l _ => .ite
      (fun _ => .bind (best_effort_waits (transition_waits hstate)) fun _ _ => assign_waits)
      fun _ => .pure trivial
  · exact .bind (W := fun _ => True) (fun _ => trivial) fun l _ =>
      .ite (fun _ => mark_waits) fun _ => .pure trivial

theorem run_once_waits : Waits request (orc.run_once request) := by
  refine .attempt (.bind (invoke_waits trivial) fun outcome _ => ?_)
    fun _ _ => handle_failure_waits
  cases outcome with
  | none => exact .bind assign_waits fun _ _ => admission_waits
  | some outcome =>
    exact .ite (fun _ => background_waits handle_duplicate_request_within) fun _ =>
      .bind assign_waits fun _ _ => admission_waits

end Unaccepted

end Orchestrator

/-- A run whose analysis has started was accepted. -/
theorem analysis_accepted {c : Call} {t : Trace} {p : Running}
    (hp : Path (c.orc.run_once c.request {}) t p) (h : AnalysisStarted c t) :
    ∃ decision, Answered t (.evaluate_request c.request) (.ok decision) ∧
      decision.accepted = true := by
  by_contra hn
  have hwaits : ∀ ev ∈ t, ¬Accepts c.request ev.op ev.ans := by
    intro ev hev hacc
    obtain ⟨s, o, a, s'⟩ := ev
    cases o with
    | evaluate_request r =>
      cases a with
      | error e => exact hacc
      | ok decision =>
        obtain ⟨rfl, hd⟩ := hacc
        exact hn ⟨decision, ⟨s, s', hev⟩, hd⟩
    | _ => exact hacc
  obtain ⟨s, s', hmem⟩ := h
  have hop := (hp.within (Orchestrator.run_once_waits {}) hwaits).1 _ hmem
  exact hop rfl

theorem active_agents_all {orc : Orchestrator} {request : ReviewRequest}
    {decision : PolicyDecision} (h : decision.allowed_agents = none) :
    orc.active_agents request decision = orc.all_agents request := by
  refine List.filter_eq_self.mpr fun agent _ => ?_
  simp [Orchestrator.allowed, h]

/-- An analysed run of a request that is no passive save ran in full. -/
theorem ran_in_full {c : Call} {engine : DefaultPolicyEngine} {t : Trace} {p : Running}
    (hpolicy : c.env.DefaultPolicy engine) (hp : Path (c.orc.run_once c.request {}) t p)
    (hs : ∀ ev ∈ t, c.env.step ev.pre ev.op ev.ans ev.post)
    (hintent : c.request.trigger_intent ≠ some "passive_save") (h : AnalysisStarted c t) :
    RanInFull c t := by
  obtain ⟨decision, hans, hacc⟩ := analysis_accepted hp h
  obtain ⟨s, s', hmem⟩ := hans
  have hstep := hs _ hmem
  obtain ⟨stat, hstat⟩ := hpolicy c.request _ hstep.1
  have hnone : decision.allowed_agents = none := by
    rw [Except.ok.inj hstat]
    exact allowed_agents_none hintent
  exact ⟨decision, ⟨s, s', hmem⟩, hacc, hnone, active_agents_all hnone, h⟩

/-- When call `i` was checked, an earlier run of the same file and diff had run in full. -/
def History.DeepReviewed (w : History) (i : Nat) (c : Call) : Prop :=
  ∃ (w₁ : History) (j : Nat) (d : Call) (p : Running), w.CheckedAt i w₁ ∧ j ≠ i ∧
    w₁.jobs[j]? = some (d, p) ∧ d.request.target_file = c.request.target_file ∧
    d.request.diff_text = c.request.diff_text ∧ RanInFull d (w₁.trace j)

/-- The call that stored the key was no passive save, reviewed the same file and diff and has
started its agents; a key that is not stored comes with an unused id and nothing null; and
the call's own L3 gate does not answer with the code of a duplicate. -/
structure History.DeepFirst (w : History) (i : Nat) (c : Call) : Prop where
  stored : ∀ w₁ : History, w.CheckedAt i w₁ → w₁.state.KeyStored c.request.idempotency_key ∨
    (¬w₁.state.IdStored c.request.request_id ∧ ¬c.request.HasNull)
  deep : ∀ w₁ : History, w.CheckedAt i w₁ → ∀ j d, w₁.Created j d →
    d.request.idempotency_key = c.request.idempotency_key →
    d.request.trigger_intent ≠ some "passive_save" ∧
      d.request.target_file = c.request.target_file ∧
      d.request.diff_text = c.request.diff_text ∧ AnalysisStarted d (w₁.trace j)
  gate : ∀ decisions,
    ¬GateAnswered c.request decisions "DUPLICATE_REQUEST_IGNORED" (w.trace i)

theorem duplicate_means_deep_review {w : History} (hw : w.Reached)
    (hpolicy : ∀ (j : Nat) (d : Call) (p : Running), w.jobs[j]? = some (d, p) →
      ∃ engine, d.env.DefaultPolicy engine) {i : Nat} {c : Call}
    (h : w.AnsweredDuplicate i c) (hcond : w.DeepFirst i c) : w.DeepReviewed i c := by
  rcases answered_duplicate_cases hw h with ⟨w₁, hat, hreason⟩ | ⟨-, decisions, hgate⟩
  · obtain ⟨row, hrow, hkey⟩ := key_stored hreason (hcond.stored w₁ hat)
    obtain ⟨j, d, hd, hreq, -⟩ := hat.reached.inv.row_of hrow
    have hij := hat.other hw h hd
    have hdkey : d.request.idempotency_key = c.request.idempotency_key := by
      rw [hreq]
      exact hkey
    obtain ⟨hintent, hfile, hdiff, hstarted⟩ := hcond.deep w₁ hat j d hd hdkey
    obtain ⟨p, hp⟩ := hd.call
    obtain ⟨p', hp'⟩ := hat.calls j d p hp
    obtain ⟨engine, hengine⟩ := hpolicy j d p' hp'
    exact ⟨w₁, j, d, p, hat, hij, hp, hfile, hdiff,
      ran_in_full hengine (hat.reached.path hp) (hat.reached.event hp) hintent hstarted⟩
  · exact absurd hgate (hcond.gate decisions)

/-- Anyone, with the default policy engine. -/
def default_policy : Env where
  may := fun o a => match o with
    | .evaluate_request request =>
      ∃ stat, a = .ok (({} : DefaultPolicyEngine).evaluate_request stat request)
    | _ => True

theorem agreeable_default_policy (o : Op) : default_policy.may o (agreeable o) := by
  cases o <;> first | trivial | exact ⟨_, rfl⟩

def policyCall (request : ReviewRequest) : Call where
  orc := {}
  env := default_policy
  request := request

/-- Saving the file in the editor and committing it: the same change through two adapters. -/
def saveRequest : ReviewRequest := builtRequest "lsp" "passive_save" "workspace"

def commitRequest : ReviewRequest := builtRequest "git_hook" "active_intent" "HEAD"

theorem two_policy_calls {r₁ r₂ : ReviewRequest} {j : Nat} {d : Call} {p : Running}
    (h : (two_calls (policyCall r₁) (policyCall r₂) agreeable agreeable).jobs[j]? = some (d, p)) :
    ∃ engine, d.env.DefaultPolicy engine := by
  rcases two_calls_mem h with rfl | rfl <;> exact ⟨{}, fun _ _ ha => ha⟩

theorem duplicate_deep_sample :
    (two_calls (policyCall commitRequest) (policyCall commitRequest) agreeable
      agreeable).DeepReviewed 1 (policyCall commitRequest) := by
  refine duplicate_means_deep_review (two_calls_reached agreeable_default_policy
    agreeable_default_policy) (fun _ _ _ => two_policy_calls) ⟨_, _, rfl, rfl⟩ ⟨?_, ?_, ?_⟩
  · intro w₁ hat
    have hany := hat.pre (f := fun db => db.review_requests.any fun row =>
      decide (row.idempotency_key = commitRequest.idempotency_key)) rfl
    obtain ⟨row, hrow, hkey⟩ := List.any_eq_true.mp hany
    exact .inl ⟨row, hrow, of_decide_eq_true hkey⟩
  · intro w₁ hat j d hd _
    obtain ⟨p, hp⟩ := hd.call
    obtain ⟨p', hp'⟩ := hat.calls j d p hp
    have hstarted : AnalysisStarted (policyCall commitRequest)
        ((policyCall commitRequest).orc.play agreeable commitRequest {} 60).1 :=
      ⟨_, _, .tail _ (.tail _ (.tail _ (.tail _ (.tail _ (.head _)))))⟩
    obtain ⟨s, s', hmem⟩ := hstarted
    have hj : j = 0 := by
      have hlt := (List.getElem?_eq_some_iff.mp hp').1
      have hne := hat.other (two_calls_reached agreeable_default_policy agreeable_default_policy)
        ⟨_, _, rfl, rfl⟩ hd
      have hlen : (two_calls (policyCall commitRequest) (policyCall commitRequest) agreeable
        agreeable).jobs.length = 2 := rfl
      omega
    subst hj
    rcases two_calls_mem hp' with rfl | rfl <;>
      exact ⟨by decide, rfl, rfl, s, s', two_calls_earlier hat hmem⟩
  · intro decisions hgate
    obtain ⟨t₁, s, context, answer, s', t₂, htrace, -⟩ := hgate
    have hall : (two_calls (policyCall commitRequest) (policyCall commitRequest) agreeable
        agreeable).log.all (fun e => !asks_l3 e.2) = true := rfl
    have hmem := Pool.mem_trace.mp (htrace ▸ List.mem_append_right t₁ List.mem_cons_self)
    have hfalse := List.all_eq_true.mp hall _ hmem
    cases hfalse

/-- A saved file is committed: the commit is answered as a duplicate of the shallow review. -/
theorem save_suppresses_commit :
    Adapter.lsp.build_request sampleSha256 (fileEvent "lsp" "a.py" "+x") = .ok saveRequest ∧
    Adapter.git_hook.build_request sampleSha256 (fileEvent "git_hook" "a.py" "+x") =
      .ok commitRequest ∧
    ∃ w : History, w.Reached ∧ w.AnsweredDuplicate 1 (policyCall commitRequest) ∧
      ¬w.DeepReviewed 1 (policyCall commitRequest) := by
  refine ⟨rfl, rfl, two_calls (policyCall saveRequest) (policyCall commitRequest) agreeable
    agreeable, two_calls_reached agreeable_default_policy agreeable_default_policy,
    ⟨_, _, rfl, rfl⟩, fun h => ?_⟩
  obtain ⟨w₁, j, d, p, hat, -, -, -, -, decision, ⟨s, s', hmem⟩, -, hnone, -⟩ := h
  have hall : (two_calls (policyCall saveRequest) (policyCall commitRequest) agreeable
      agreeable).log.all (fun e => match e.2.op, e.2.ans with
        | .evaluate_request _, .ok decision => decision.allowed_agents.isSome
        | _, _ => true) = true := rfl
  have hsome := List.all_eq_true.mp hall _ (hat.earlier hmem)
  simp [hnone] at hsome

end Nitpicker
