import NitpickerDaemon.ContextCache
import NitpickerDaemon.ControllerRun

/-!
What a run spends on remote services when a file was only saved: the remote context cache, the
L3 review and the offload gateway.
-/

set_option autoImplicit false

namespace Nitpicker

open Effect

/-- What a run spends, and the answers that lead to it. -/
inductive SpendMark where
  | context (context : ContextBundle)
  | offloads (request : ReviewRequest)
  | submitted
  | cached (system_prompt : PyVal) (static_ctx : String)
  | passed
  | reviewed

def spend_mark : (o : Op) → Ans o → Option SpendMark
  | .build_context _, .ok context => some (.context context)
  | .should_offload _ _, .ok false => none
  | .should_offload request _, _ => some (.offloads request)
  | .submit _, _ => some .submitted
  | .get_or_create system_prompt static_ctx, _ => some (.cached system_prompt static_ctx)
  | .decide _, .ok consensus => if consensus.status = .pass then some .passed else none
  | .llm_review _ _ _, _ => some .reviewed
  | _, _ => none

/-- The prompt of a context, as the cache step reads it. -/
def cache_prompt (context : ContextBundle) : PyVal :=
  context.metadata.getD "system_prompt" (.str "")

/-- The text of a context that goes into a remote cache. -/
def cache_static (context : ContextBundle) : String :=
  "\n".intercalate ((context.tiers.lookup "tier2").getD [] ++ (context.tiers.lookup "tier3").getD [])

/-- The context has something to cache. -/
def caches (context : ContextBundle) : Bool :=
  (cache_prompt context).truthy || cache_static context != ""

/-- Everything spent goes back to an answer. -/
structure Owed (orc : Orchestrator) (request : ReviewRequest) (y : List SpendMark) : Prop where
  offloads : ∀ r, SpendMark.offloads r ∈ y → r = request
  submitted : SpendMark.submitted ∈ y → SpendMark.offloads request ∈ y
  cached : ∀ p s, SpendMark.cached p s ∈ y → orc.context_cache_manager = true ∧
    ∃ context, SpendMark.context context ∈ y ∧ caches context = true ∧
      p = cache_prompt context ∧ s = cache_static context
  reviewed : SpendMark.reviewed ∈ y → orc.llm_review_gate = true ∧ SpendMark.passed ∈ y

/-- Every answer that leads to it has been paid for, unless the offload came in between. -/
structure Paid (orc : Orchestrator) (request : ReviewRequest) (y : List SpendMark) : Prop
    extends Owed orc request y where
  context : SpendMark.offloads request ∉ y → orc.context_cache_manager = true →
    ∀ context, SpendMark.context context ∈ y → caches context = true →
      SpendMark.cached (cache_prompt context) (cache_static context) ∈ y
  passed : SpendMark.passed ∈ y → orc.llm_review_gate = true → SpendMark.reviewed ∈ y

theorem paid_nil (orc : Orchestrator) (request : ReviewRequest) : Paid orc request [] where
  offloads := by simp
  submitted := by simp
  cached := by simp
  reviewed := by simp
  context := by simp
  passed := by simp

section Paid

variable {orc : Orchestrator} {request : ReviewRequest} {x : List SpendMark}

/-- A passing consensus. -/
theorem Paid.passes (hx : Paid orc request x) : Owed orc request (x ++ [.passed]) where
  offloads r hr := hx.offloads r (by simpa using hr)
  submitted h := by simpa using hx.submitted (by simpa using h)
  cached p s h := by
    obtain ⟨hm, c, hc, hrest⟩ := hx.cached p s (by simpa using h)
    exact ⟨hm, c, by simp [hc], hrest⟩
  reviewed h := by
    obtain ⟨hgate, -⟩ := hx.reviewed (by simpa using h)
    exact ⟨hgate, by simp⟩

theorem Paid.ungated (hx : Paid orc request x) (hgate : orc.llm_review_gate = false) :
    Paid orc request (x ++ [.passed]) where
  toOwed := hx.passes
  context hoff hm c hc hcache := by
    have hcached := hx.context (by simpa using hoff) hm c (by simpa using hc) hcache
    simp [hcached]
  passed _ h := by
    rw [hgate] at h
    cases h

theorem Paid.reviews (hx : Paid orc request x) (hgate : orc.llm_review_gate = true) :
    Paid orc request (x ++ [.passed, .reviewed]) where
  offloads r hr := hx.offloads r (by simpa using hr)
  submitted h := by simpa using hx.submitted (by simpa using h)
  cached p s h := by
    obtain ⟨hm, c, hc, hrest⟩ := hx.cached p s (by simpa using h)
    exact ⟨hm, c, by simp [hc], hrest⟩
  reviewed _ := ⟨hgate, by simp⟩
  context hoff hm c hc hcache := by
    have hcached := hx.context (by simpa using hoff) hm c (by simpa using hc) hcache
    simp [hcached]
  passed _ _ := by simp

end Paid

namespace Orchestrator

section Spends

variable {α β κ : Type} {orc : Orchestrator} {request : ReviewRequest} {context : ContextBundle}
  {f : Locals → κ} {x : List SpendMark}

/-- A question that spends nothing. -/
def Gratis (o : Op) : Prop := ∀ a, spend_mark o a = none

/-- A part of the pipeline from the marks `x` on. -/
abbrev Spends (orc : Orchestrator) (request : ReviewRequest) (x : List SpendMark)
    (V : α → List SpendMark → Prop) (m : Review α) : Prop :=
  Proc.Monitors (collecting spend_mark) (fun y _ => Owed orc request y) x V
    (fun _ y => Paid orc request y) m

theorem spends_gratis {m : Review β} {k : β → Review α} {V : α → List SpendMark → Prop}
    {R : PyExc → Prop} (hx : Owed orc request x) (hm : Proc.Within (fun _ _ => True) Gratis f R m)
    (hR : ∀ e, R e → Paid orc request x) (hk : ∀ b, orc.Spends request x V (k b)) :
    orc.Spends request x V (m >>= k) :=
  hm.monitors_bind (fun _ _ => hx) (fun _ a h => collecting_none (h a)) hR hk

/-- A part that may raise, when all is paid for. -/
theorem spends_paid {m : Review β} {k : β → Review α} {V : α → List SpendMark → Prop}
    (hx : Paid orc request x) (hm : Proc.Within (fun _ _ => True) Gratis f (fun _ => True) m)
    (hk : ∀ b, orc.Spends request x V (k b)) : orc.Spends request x V (m >>= k) :=
  spends_gratis hx.toOwed hm (fun _ _ => hx) hk

theorem spends_end {m : Review α} (hx : Paid orc request x)
    (hm : Proc.Within (fun _ _ => True) Gratis f (fun _ => True) m) :
    orc.Spends request x (fun _ y => Paid orc request y) m :=
  hm.monitors (fun _ _ => hx.toOwed) (fun _ a h => collecting_none (h a)) (fun _ => hx)
    fun _ _ => hx

theorem spends_transition {from_state to_state : ReviewState} {reason code : String}
    {k : Review α} {V : α → List SpendMark → Prop} (hx : Paid orc request x)
    (hk : orc.Spends request x V k) : orc.Spends request x V (do
      transition request.request_id from_state to_state reason code
      Proc.assign fun l => { l with current_state := to_state }
      k) :=
  spends_paid hx (f := id) (transition_asks fun _ => rfl) fun _ =>
    spends_paid hx (f := fun _ => ()) (.assign fun _ => rfl) fun _ => hk

theorem log_gratis {a : Analytics} {R : PyExc → Prop} :
    Proc.Within (fun _ _ => True) Gratis f R (orc.log_analytics request.request_id a) :=
  log_analytics_asks fun _ _ => rfl

/-- The marks once the context was built and the offload came back. -/
inductive Offloaded (request : ReviewRequest) (context : ContextBundle) : List SpendMark → Prop where
  | kept : Offloaded request context [.context context]
  | sent : Offloaded request context [.context context, .offloads request, .submitted]

theorem Offloaded.owed {y : List SpendMark} (h : Offloaded request context y) :
    Owed orc request y := by
  cases h with
  | kept => constructor <;> simp
  | sent => constructor <;> simp

theorem offload_spends : orc.Spends request [.context context]
    (fun _ y => Offloaded request context y) (orc.offload request context) := by
  have hkept : Owed orc request [.context context] := Offloaded.kept.owed
  have hasked : Paid orc request [.context context, .offloads request] := by
    constructor
    · constructor <;> simp
    · simp
    · simp
  unfold offload
  refine .ite (fun _ => ?_) fun _ => .pure .kept
  refine .bind (W := fun should_offload y => y =
      [.context context] ++ if should_offload then [.offloads request] else [])
    (.invoke hkept (fun a b ha => ?_) fun a e ha => ?_) fun should_offload y hy => ?_
  · obtain rfl : a = .ok b := ha
    cases b <;> simp [collecting, spend_mark]
  · obtain rfl : a = .error e := ha
    exact hasked
  · subst hy
    cases should_offload with
    | false => exact .pure .kept
    | true =>
      have hsent : Owed orc request [.context context, .offloads request, .submitted] :=
        Offloaded.sent.owed
      refine .attempt (E := fun _ y => y = [.context context, .offloads request, .submitted])
        (.bind (W := fun _ y => y = [.context context, .offloads request, .submitted])
          (.invoke hasked.toOwed (fun _ _ _ => rfl) fun _ _ _ => rfl) fun _ y hy => ?_)
        fun _ y hy => .pure (hy ▸ .sent)
      subst hy
      exact log_gratis.monitors (f := id) (R := fun _ => False) (fun _ _ => hsent)
        (fun _ a h => collecting_none (h a)) (fun _ => .sent) fun _ h => h.elim

/-- The cache step pays for what the context asks for. -/
theorem Offloaded.paid {y : List SpendMark} (h : Offloaded request context y) :
    Paid orc request (y ++ if orc.context_cache_manager && caches context then
      [.cached (cache_prompt context) (cache_static context)] else []) := by
  cases hm : orc.context_cache_manager <;> cases hc : caches context <;> cases h <;>
    constructor <;> first | (constructor <;> simp [hm, hc]) | simp [hm, hc]

theorem context_cache_spends {y : List SpendMark} (h : Offloaded request context y) :
    orc.Spends request y (fun _ z => Paid orc request z) (orc.context_cache request context) := by
  have hpaid : Paid orc request (y ++ if orc.context_cache_manager && caches context then
      [.cached (cache_prompt context) (cache_static context)] else []) := h.paid
  have hcache : orc.context_cache request context =
      if orc.context_cache_manager then
        Proc.attempt (if caches context then do
            let _ ← Proc.invoke (.get_or_create (cache_prompt context) (cache_static context)) id
            let hits ← Proc.invoke .cache_hits .ok
            orc.log_analytics request.request_id {
              event_type := "context_cache", status := if hits > 0 then "hit" else "miss"
              agent_name := "context_cache_manager" }
          else pure ()) fun e => if cache_catches e then pure () else Proc.raise e
      else pure () := rfl
  rw [hcache]
  refine .ite (fun hm => .attempt (E := fun _ z => Paid orc request z) (.ite (fun hc => ?_)
    fun hc => .pure ?_) fun e z hz => .ite (fun _ => .pure hz) fun _ => .raise hz) fun hm => .pure ?_
  · simp only [hm, hc, Bool.and_self, if_true] at hpaid
    refine .bind (W := fun _ z => z = y ++ [.cached (cache_prompt context) (cache_static context)])
      (.invoke h.owed (fun _ _ _ => rfl) fun _ _ _ => hpaid) fun _ z hz => ?_
    subst hz
    exact spends_paid hpaid (f := id) (.invoke (fun _ => rfl) fun _ _ _ _ => trivial) fun _ =>
      spends_end hpaid (f := id) log_gratis
  · simpa [hm, hc] using hpaid
  · simpa [hm] using hpaid

theorem l3_stage_spends {decisions : List AgentDecision} {v : Verdict}
    (hx : Paid orc request x) : orc.Spends request
      (x ++ if v.consensus.status = .pass then [.passed] else []) (fun _ y => Paid orc request y)
      (orc.l3_stage request context decisions v) := by
  have hevent : ∀ {f : Locals → Locals} {stage phase code : String} {details : PyDict}
      {R : PyExc → Prop}, Proc.Within (fun _ _ => True) Gratis f R
        (record_stage_event_best_effort request.request_id stage phase code details) :=
    record_stage_event_asks fun _ _ => rfl
  have hclock : ∀ {f : Locals → Locals} {R : PyExc → Prop},
      Proc.Within (fun _ _ => True) Gratis f R monotonic := monotonic_asks fun _ => rfl
  unfold l3_stage
  refine .ite (fun hc => ?_) fun hc => .pure ?_
  · rw [if_pos hc.1]
    have howed := hx.passes
    have hpaid := hx.reviews hc.2
    refine spends_gratis howed (f := id) (R := fun _ => False) log_gratis (fun _ h => h.elim)
      fun _ => spends_gratis howed (f := id) (R := fun _ => False) hclock (fun _ h => h.elim)
      fun _ => spends_gratis howed (f := id) (R := fun _ => False) hevent (fun _ h => h.elim)
      fun _ => .bind (W := fun _ y => y = x ++ [.passed, .reviewed])
        (.attempt (E := fun _ y => y = x ++ [.passed, .reviewed])
          (.invoke howed (fun _ _ _ => ?_) fun _ _ _ => ?_) fun e y hy => ?_) fun d y hy => ?_
    · simp [collecting, spend_mark]
    · simp [collecting, spend_mark]
    · subst hy
      exact spends_paid hpaid (f := id) hclock fun _ => spends_paid hpaid (f := id) hevent fun _ =>
        .raise hpaid
    · subst hy
      exact spends_paid hpaid (f := id) hclock fun _ => spends_paid hpaid (f := id) hevent fun _ =>
        spends_paid hpaid (f := id) log_gratis fun _ =>
        .ofExcept (fun _ _ => hpaid) fun _ _ => hpaid
  · split
    · rename_i hpass
      exact hx.ungated (by simpa [hpass] using hc)
    · simpa using hx

theorem deliver_gratis {decisions : List AgentDecision} {v : Verdict} :
    Proc.Within (fun _ _ => True) Gratis id (fun _ => True) (orc.deliver request decisions v) :=
  .bind (mark_terminal_safe_asks fun _ => rfl) fun _ => .bind log_gratis fun _ =>
    .bind (publish_diagnostics_asks fun _ => rfl) fun _ =>
    .bind (publish_quick_fix_asks (fun _ => rfl) fun _ _ _ => trivial) fun _ =>
    .bind (log_result_asks fun _ => rfl) fun _ => .pure _

theorem conclude_spends {decisions : List AgentDecision} (hx : Paid orc request x) :
    orc.Spends request x (fun _ y => Paid orc request y)
      (orc.conclude request context decisions) := by
  refine spends_transition hx (.bind
    (W := fun consensus y => y = x ++ if consensus.status = .pass then [.passed] else [])
    (.invoke hx.toOwed (fun a consensus ha => ?_) fun a e ha => ?_) fun consensus y hy => ?_)
  · obtain rfl : a = .ok consensus := ha
    by_cases hpass : consensus.status = .pass <;> simp [collecting, spend_mark, hpass]
  · obtain rfl : a = .error e := ha
    rw [collecting_none rfl]
    exact hx
  · subst hy
    refine .bind (@l3_stage_spends _ _ _ _ _ (first_verdict consensus) hx) fun v y hy => ?_
    exact spends_paid hy (f := id) (patch_stage_asks (fun _ _ => rfl) (fun _ _ => rfl)
      (fun _ _ => rfl) (fun _ _ _ => trivial) fun _ _ _ => trivial) fun _ =>
      spends_paid hy (f := id) (autofix_stage_asks (fun _ _ => rfl) (fun _ _ => rfl)
        (fun _ _ _ => trivial) trivial) fun _ => spends_end hy deliver_gratis

theorem analyze_gratis {decision : PolicyDecision} :
    Proc.Within (fun _ _ => True) Gratis (fun _ => ()) (fun _ => True)
      (orc.analyze request decision context) :=
  .bind (transition_asks fun _ => rfl) fun _ => .bind (.assign fun _ => rfl) fun _ =>
    .bind (monotonic_asks fun _ => rfl) fun _ => .bind (run_agents_asks (fun _ => rfl)
      (fun _ _ => rfl) (fun _ _ => rfl) fun _ _ _ _ => trivial) fun _ =>
    .bind (monotonic_asks fun _ => rfl) fun _ => .bind log_gratis fun _ => .pure _

theorem review_spends {decision : PolicyDecision} :
    orc.Spends request [] (fun _ y => Paid orc request y) (orc.review request decision) := by
  have hnil := paid_nil orc request
  refine spends_transition hnil (.bind (W := fun context y => y = [.context context])
    (.invoke hnil.toOwed (fun a context ha => ?_) fun a e ha => ?_) fun context y hy => ?_)
  · obtain rfl : a = .ok context := ha
    rfl
  · obtain rfl : a = .error e := ha
    exact hnil
  · subst hy
    exact .bind offload_spends fun _ y hy => .bind (context_cache_spends hy) fun _ z hz =>
      spends_paid hz analyze_gratis fun _ => conclude_spends hz

theorem admission_spends :
    orc.Spends request [] (fun _ y => Paid orc request y) (orc.admission request) := by
  have hnil := paid_nil orc request
  have hreject : ∀ {decision : PolicyDecision}, Proc.Within (fun _ _ => True) Gratis (fun _ => ())
      (fun _ => True) (orc.reject_policy request decision) :=
    .bind (transition_asks fun _ => rfl) fun _ => .bind (.assign fun _ => rfl) fun _ =>
      .bind (mark_terminal_safe_asks fun _ => rfl) fun _ =>
      .bind (publish_diagnostics_asks fun _ => rfl) fun _ =>
      .bind (log_result_asks fun _ => rfl) fun _ => .pure _
  exact spends_paid hnil (f := id) (.invoke (fun _ => rfl) fun _ _ _ _ => trivial) fun _ =>
    .ite (fun _ => spends_paid hnil (f := id) (.invoke (fun _ => rfl) fun _ _ _ _ => trivial)
      fun _ => spends_paid hnil (f := id) log_gratis fun _ =>
        .ite (fun _ => review_spends) fun _ => spends_end hnil hreject)
      fun _ => spends_end hnil (f := id) (.bind (mark_terminal_safe_asks fun _ => rfl) fun _ =>
        .bind (log_result_asks fun _ => rfl) fun _ => .pure _)

theorem pipeline_spends :
    orc.Spends request [] (fun _ y => Paid orc request y) (orc.pipeline request) := by
  have hnil := paid_nil orc request
  have hassign : ∀ g : Locals → Locals, orc.Spends request [] (fun _ y => Paid orc request y)
      (Proc.assign g >>= fun _ => orc.admission request) := fun g =>
    spends_paid hnil (f := fun _ => ()) (.assign fun _ => rfl) fun _ => admission_spends
  refine spends_paid hnil (f := id) (.invoke (fun _ => rfl) fun _ _ _ _ => trivial)
    fun outcome => ?_
  cases outcome with
  | none => exact hassign _
  | some outcome =>
    exact .ite (fun _ => spends_end hnil (f := id) (.bind log_gratis fun _ =>
      .bind (publish_diagnostics_asks fun _ => rfl) fun _ =>
      .bind (log_result_asks fun _ => rfl) fun _ => .pure _)) fun _ => hassign _

theorem run_once_spends : Proc.Monitors (collecting spend_mark) (fun y _ => Owed orc request y) []
    (fun _ y => Paid orc request y) (fun _ _ => False) (orc.run_once request) := by
  refine .attempt pipeline_spends fun e y hy => ?_
  have hhandler : Proc.Within (fun _ _ => True) Gratis (fun _ => ()) (fun _ => False)
      (orc.handle_failure request e) :=
    handle_failure_asks (fun _ _ _ => rfl) (fun _ _ => rfl) (fun _ _ _ _ _ _ => rfl)
      fun _ _ _ _ _ => rfl
  exact hhandler.monitors (fun _ _ => hy.toOwed) (fun _ a h => collecting_none (h a))
    (fun _ => hy) fun _ h => h.elim

end Spends

end Orchestrator

/-- `spend_mark` as a relation. -/
inductive Spending : SpendMark → (o : Op) → Ans o → Prop where
  | context (request : ReviewRequest) (context : ContextBundle) :
      Spending (.context context) (.build_context request) (.ok context)
  | offloads (request : ReviewRequest) (size : Nat) (a : Ans (.should_offload request size)) :
      a ≠ .ok false → Spending (.offloads request) (.should_offload request size) a
  | submitted (sent : OffloadRequest) (a : Ans (.submit sent)) : Spending .submitted (.submit sent) a
  | cached (system_prompt : PyVal) (static_ctx : String)
      (a : Ans (.get_or_create system_prompt static_ctx)) :
      Spending (.cached system_prompt static_ctx) (.get_or_create system_prompt static_ctx) a
  | passed (decisions : List AgentDecision) (consensus : ConsensusResult) :
      consensus.status = .pass → Spending .passed (.decide decisions) (.ok consensus)
  | reviewed (request : ReviewRequest) (context : ContextBundle) (findings : List PyDict)
      (a : Ans (.llm_review request context findings)) :
      Spending .reviewed (.llm_review request context findings) a

theorem spending_iff {m : SpendMark} {o : Op} {a : Ans o} :
    spend_mark o a = some m ↔ Spending m o a := by
  constructor
  · intro h
    cases o with
    | build_context request =>
      cases a with
      | error e => cases h
      | ok context =>
        cases h
        exact .context request context
    | should_offload request size =>
      cases a with
      | error e =>
        cases h
        exact .offloads request size _ (by simp)
      | ok b =>
        cases b <;> cases h
        exact .offloads request size _ (by simp)
    | submit sent =>
      cases h
      exact .submitted sent a
    | get_or_create system_prompt static_ctx =>
      cases h
      exact .cached system_prompt static_ctx a
    | decide decisions =>
      cases a with
      | error e => cases h
      | ok consensus =>
        simp only [spend_mark, Option.ite_none_right_eq_some, Option.some.injEq] at h
        obtain ⟨hpass, rfl⟩ := h
        exact .passed decisions consensus hpass
    | llm_review request context findings =>
      cases h
      exact .reviewed request context findings a
    | _ => cases h
  · intro h
    cases h with
    | offloads request size a ha =>
      cases a with
      | error e => rfl
      | ok b =>
        cases b
        · exact absurd rfl ha
        · rfl
    | passed decisions consensus hpass => simp [spend_mark, hpass]
    | _ => rfl

/-- The marks of a trace. -/
abbrev spent (t : Trace) : List SpendMark := t.filterMap fun ev => spend_mark ev.op ev.ans

section Spent

variable {t : Trace}

theorem mem_spent {m : SpendMark} :
    m ∈ spent t ↔ ∃ o a, Answered t o a ∧ Spending m o a := by
  rw [List.mem_filterMap]
  constructor
  · intro h
    obtain ⟨⟨s, o, a, s'⟩, hev, hm⟩ := h
    exact ⟨o, a, ⟨s, s', hev⟩, spending_iff.mp hm⟩
  · intro h
    obtain ⟨o, a, ⟨s, s', hev⟩, hm⟩ := h
    exact ⟨_, hev, spending_iff.mpr hm⟩

theorem context_spent {context : ContextBundle} : SpendMark.context context ∈ spent t ↔
    ∃ request, Answered t (.build_context request) (.ok context) := by
  rw [mem_spent]
  constructor
  · intro h
    obtain ⟨o, a, ha, hm⟩ := h
    cases hm with
    | context request context => exact ⟨request, ha⟩
  · intro h
    obtain ⟨request, ha⟩ := h
    exact ⟨_, _, ha, .context request context⟩

theorem passed_spent : SpendMark.passed ∈ spent t ↔ ∃ decisions consensus,
    Answered t (.decide decisions) (.ok consensus) ∧ consensus.status = .pass := by
  rw [mem_spent]
  constructor
  · intro h
    obtain ⟨o, a, ha, hm⟩ := h
    cases hm with
    | passed decisions consensus hpass => exact ⟨decisions, consensus, ha, hpass⟩
  · intro h
    obtain ⟨decisions, consensus, ha, hpass⟩ := h
    exact ⟨_, _, ha, .passed decisions consensus hpass⟩

theorem cached_spent {system_prompt : PyVal} {static_ctx : String} :
    SpendMark.cached system_prompt static_ctx ∈ spent t ↔
      ∃ a, Answered t (.get_or_create system_prompt static_ctx) a := by
  rw [mem_spent]
  constructor
  · intro h
    obtain ⟨o, a, ha, hm⟩ := h
    cases hm with
    | cached _ _ a => exact ⟨a, ha⟩
  · intro h
    obtain ⟨a, ha⟩ := h
    exact ⟨_, _, ha, .cached _ _ a⟩

theorem reviewed_spent : SpendMark.reviewed ∈ spent t ↔
    ∃ request context findings a, Answered t (.llm_review request context findings) a := by
  rw [mem_spent]
  constructor
  · intro h
    obtain ⟨o, a, ha, hm⟩ := h
    cases hm with
    | reviewed request context findings a => exact ⟨request, context, findings, a, ha⟩
  · intro h
    obtain ⟨request, context, findings, a, ha⟩ := h
    exact ⟨_, _, ha, .reviewed request context findings a⟩

/-- The marks of a run that may have stopped anywhere. -/
theorem run_owed {orc : Orchestrator} {request : ReviewRequest} {p : Running}
    (hp : Path (orc.run_once request {}) t p) : Owed orc request (spent t) := by
  have hend := hp.monitored (Orchestrator.run_once_spends {})
  rw [watch_collecting, List.nil_append] at hend
  cases p with
  | ret r =>
    obtain ⟨e | result, l⟩ := r
    · exact hend.elim
    · exact hend.toOwed
  | call o k => exact hend.1

theorem run_paid {orc : Orchestrator} {request : ReviewRequest}
    {r : Except PyExc ReviewResult × Locals} (hp : Path (orc.run_once request {}) t (.ret r)) :
    Paid orc request (spent t) := by
  have hend := hp.monitored (Orchestrator.run_once_spends {})
  rw [watch_collecting, List.nil_append] at hend
  obtain ⟨e | result, l⟩ := r
  · exact hend.elim
  · exact hend

end Spent

/-- The policy engine answers `should_offload` as the default one does. -/
def Env.DefaultOffload (env : Env) : Prop := ∀ request size a,
  env.may (.should_offload request size) a → a = .ok (DefaultPolicyEngine.should_offload request size)

/-- The manager answers the run from the state `stored`, by the calls `calls`. -/
def ContextCacheManager.Serves (manager : ContextCacheManager) (stored : CacheState)
    (calls : CacheCalls) (t : Trace) : Prop :=
  ∀ system_prompt static_ctx a, Answered t (.get_or_create system_prompt static_ctx) a →
    ∃ self', Path (manager.get_or_create system_prompt static_ctx stored) calls (.ret (a, self'))

/-- No remote cache is created, no L3 review is made and nothing is offloaded. -/
structure CostsNothing (calls : CacheCalls) (t : Trace) : Prop where
  cache : ∀ system_prompt static_ctx a, Answered t (.get_or_create system_prompt static_ctx) a →
    ¬ContextCacheManager.Creates calls
  review : ∀ request context findings a, ¬Answered t (.llm_review request context findings) a
  offload : ∀ sent a, ¬Answered t (.submit sent) a

/-- What the context asks to be cached is cached already, and no passing consensus meets a
gate. -/
structure Free (orc : Orchestrator) (manager : ContextCacheManager) (stored : CacheState)
    (calls : CacheCalls) (t : Trace) : Prop where
  cache : orc.context_cache_manager = true → ∀ request context,
    Answered t (.build_context request) (.ok context) → caches context = true →
    manager.Live stored (cache_prompt context) (cache_static context) calls
  review : orc.llm_review_gate = true → ∀ decisions consensus,
    Answered t (.decide decisions) (.ok consensus) → consensus.status ≠ .pass

/-- A passive save is never offloaded. -/
theorem passive_stays {env : Env} {orc : Orchestrator} {request : ReviewRequest} {db db' : Db}
    {t : Trace} {p : Running} (hr : Steps env.step db (orc.run_once request {}) t db' p)
    (hpassive : request.trigger_intent = some "passive_save") (hengine : env.DefaultOffload) :
    SpendMark.offloads request ∉ spent t := by
  intro h
  obtain ⟨o, a, ⟨s, s', hev⟩, hm⟩ := mem_spent.mp h
  cases hm with
  | offloads _ size a ha =>
    have hstep := hr.event _ hev
    have hanswer := hengine request size _ hstep.1
    simp [DefaultPolicyEngine.should_offload, hpassive] at hanswer
    exact ha hanswer

/-- The run of a passive save under the default engine costs nothing if its context is cached
already and its consensus meets no gate, and, once the run has ended, only then. -/
theorem costs_nothing_iff {env : Env} {orc : Orchestrator} {request : ReviewRequest}
    {db db' : Db} {t : Trace} {p : Running} {manager : ContextCacheManager} {stored : CacheState}
    {calls : CacheCalls} (hr : Steps env.step db (orc.run_once request {}) t db' p)
    (hpassive : request.trigger_intent = some "passive_save") (hengine : env.DefaultOffload)
    (hserves : manager.Serves stored calls t) :
    (Free orc manager stored calls t → CostsNothing calls t) ∧
      ∀ r, p = .ret r → CostsNothing calls t → Free orc manager stored calls t := by
  have hstays := passive_stays hr hpassive hengine
  have howed := run_owed hr.path
  constructor
  · intro h
    constructor
    · intro system_prompt static_ctx a ha
      obtain ⟨hm, context, hcontext, hcaches, rfl, rfl⟩ :=
        howed.cached _ _ (cached_spent.mpr ⟨a, ha⟩)
      obtain ⟨built, hbuilt⟩ := context_spent.mp hcontext
      have hlive := h.cache hm built context hbuilt hcaches
      obtain ⟨self', hcall⟩ := hserves _ _ a ha
      rw [ContextCacheManager.get_or_create_creates_iff hcall]
      exact not_not_intro hlive
    · intro reviewed context findings a ha
      obtain ⟨hgate, hpassed⟩ := howed.reviewed (reviewed_spent.mpr ⟨_, _, _, a, ha⟩)
      obtain ⟨decisions, consensus, hdecide, hpass⟩ := passed_spent.mp hpassed
      exact h.review hgate decisions consensus hdecide hpass
    · intro sent a ha
      exact hstays (howed.submitted (mem_spent.mpr ⟨_, _, ha, .submitted sent a⟩))
  · intro r hend h
    subst hend
    have hpaid := run_paid hr.path
    constructor
    · intro hm built context hbuilt hcaches
      have hcached := hpaid.context hstays hm context (context_spent.mpr ⟨built, hbuilt⟩) hcaches
      obtain ⟨a, ha⟩ := cached_spent.mp hcached
      obtain ⟨self', hcall⟩ := hserves _ _ a ha
      have hnone := h.cache _ _ a ha
      rw [ContextCacheManager.get_or_create_creates_iff hcall] at hnone
      exact not_not.mp hnone
    · intro hgate decisions consensus hdecide hpass
      have hpassed := passed_spent.mpr ⟨decisions, consensus, hdecide, hpass⟩
      obtain ⟨reviewed, context, findings, a, ha⟩ := reviewed_spent.mp (hpaid.passed hpassed hgate)
      exact h.review reviewed context findings a ha

/-- A context with one text to cache, and agents that agree on `status`. -/
def saved (status : ConsensusStatus) : (o : Op) → Ans o
  | .build_context request =>
    .ok ⟨request.request_id, "", 0, [("tier2", ["def total(prices): ..."])], []⟩
  | .get_or_create _ _ => .ok "cache_1"
  | .decide _ => .ok ⟨status, .str "", 1, [], []⟩
  | o => agreeable o

def savedRequest : ReviewRequest :=
  { sampleRequest "req_1" "key" with trigger_intent := some "passive_save" }

def caching : Orchestrator :=
  { context_cache_manager := true, llm_review_gate := true, offload_gateway := true }

/-- The digest is that of the text that `saved` has to cache. -/
def sampleDigest : String := "2ba15d751898be45a33f62a4b0cd230466d5d3069b5681eab21e26b0b6b2d669"

def sampleManager : ContextCacheManager where
  provider_name := "mock"
  sha256 _ := sampleDigest
  format _ := ""

/-- A manager with a live entry for the text. -/
def stocked : CacheState :=
  { store := [(sampleDigest, ⟨"cache_1", sampleDigest, "mock", 3600⟩)] }

theorem saved_serves {status : ConsensusStatus} {stored : CacheState} {calls : CacheCalls}
    {t : Trace} {db : Db} {p : Running}
    (hr : Steps (scripting (saved status)).step {} (caching.run_once savedRequest {}) t db p)
    (hcached : ∀ prompt text, SpendMark.cached prompt text ∈ spent t →
      prompt = .str "" ∧ text = "def total(prices): ...")
    (hcall : ∃ self', Path (sampleManager.get_or_create (.str "") "def total(prices): ..." stored)
      calls (.ret (.ok "cache_1", self'))) : sampleManager.Serves stored calls t := by
  intro prompt text a ha
  obtain ⟨rfl, rfl⟩ := hcached prompt text (cached_spent.mpr ⟨a, ha⟩)
  obtain ⟨s, s', hev⟩ := ha
  obtain rfl : a = .ok "cache_1" := (hr.event _ hev).1
  exact hcall

theorem saved_engine (status : ConsensusStatus) : (scripting (saved status)).DefaultOffload :=
  fun _ _ _ h => h

def savedContext : ContextBundle :=
  ⟨"req_1", "", 0, [("tier2", ["def total(prices): ..."])], []⟩

theorem saved_live : sampleManager.Live stocked (cache_prompt savedContext)
    (cache_static savedContext) [⟨(), .time, 0, ()⟩] := by
  have hlookup : stocked.store.lookup (sampleManager.hash (cache_prompt savedContext)
      (cache_static savedContext)) = some ⟨"cache_1", sampleDigest, "mock", 3600⟩ := by
    simp [stocked, sampleManager, ContextCacheManager.hash]
  exact ⟨_, 0, [], hlookup, rfl, by norm_num⟩

/-- A save that the agents reject, of a text that is cached. -/
theorem costs_nothing_sample : ∃ t db result l,
    Steps (scripting (saved .reject)).step {} (caching.run_once savedRequest {}) t db
      (.ret (.ok result, l)) ∧
    spent t = [.context savedContext, .cached (.str "") "def total(prices): ..."] ∧
    CostsNothing [⟨(), .time, 0, ()⟩] t := by
  have hr := @play_steps (scripting (saved .reject)) (saved .reject) (fun _ => rfl) caching
    savedRequest {} 60
  have hspent : spent (caching.play (saved .reject) savedRequest {} 60).1 =
      [.context savedContext, .cached (.str "") "def total(prices): ..."] := rfl
  have hserves := @saved_serves .reject stocked [⟨(), .time, 0, ()⟩] _ _ _ hr (by simp [hspent])
    ⟨_, .call (.refl _)⟩
  refine ⟨_, _, _, _, hr, hspent,
    (costs_nothing_iff hr rfl (saved_engine .reject) hserves).1 ⟨?_, ?_⟩⟩
  · intro _ request context hbuilt _
    have hmem : SpendMark.context context ∈ spent _ := context_spent.mpr ⟨request, hbuilt⟩
    rw [hspent] at hmem
    obtain rfl : context = savedContext := by simpa using hmem
    exact saved_live
  · intro _ decisions consensus hdecide hpass
    have hmem := passed_spent.mpr ⟨decisions, consensus, hdecide, hpass⟩
    rw [hspent] at hmem
    simp at hmem

/-- A save that the agents pass goes to the L3 review, and its context into a new remote cache. -/
theorem save_costs : ∃ t db result l calls,
    Steps (scripting (saved .pass)).step {} (caching.run_once savedRequest {}) t db
      (.ret (.ok result, l)) ∧
    savedRequest.trigger_intent = some "passive_save" ∧ sampleManager.Serves {} calls t ∧
    (∃ prompt text a, Answered t (.get_or_create prompt text) a) ∧
    ContextCacheManager.Creates calls ∧
    (∃ request context findings a, Answered t (.llm_review request context findings) a) ∧
    ¬CostsNothing calls t := by
  have hr := @play_steps (scripting (saved .pass)) (saved .pass) (fun _ => rfl) caching
    savedRequest {} 60
  have hspent : spent (caching.play (saved .pass) savedRequest {} 60).1 =
      [.context savedContext, .cached (.str "") "def total(prices): ...", .passed, .reviewed] := rfl
  have hserves := @saved_serves .pass {} [⟨(), .create_context_cache (.str "")
    "def total(prices): ..." 3600, .ok "cache_1", ()⟩, ⟨(), .time, 0, ()⟩] _ _ _ hr
    (by simp [hspent]) ⟨_, .call (.call (.refl _))⟩
  obtain ⟨a, ha⟩ := cached_spent.mp (by rw [hspent]; simp :
    SpendMark.cached (.str "") "def total(prices): ..." ∈ spent _)
  have hl3 := reviewed_spent.mp (by rw [hspent]; simp : SpendMark.reviewed ∈ spent _)
  refine ⟨_, _, _, _, _, hr, rfl, hserves, ⟨_, _, a, ha⟩, rfl, hl3, fun h => ?_⟩
  obtain ⟨request, context, findings, a, ha⟩ := hl3
  exact h.review request context findings a ha

end Nitpicker
