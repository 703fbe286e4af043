import NitpickerDaemon.ContextService
import NitpickerDaemon.LlmReviewGate

/-!
The analytics log: the rows the logger stores, and which of them a run of the orchestrator writes.
-/

set_option autoImplicit false

namespace Nitpicker

open Effect

/-- What the database makes of a value: its text in a `VARCHAR` column, where NULL is `none`, and
`int(value)`. -/
structure Database where
  py : Python
  varchar : PyVal → Option String
  int : PyVal → Except PyExc Int
  varchar_of_str : ∀ s, varchar (.str s) = some s
  int_of_int : ∀ n, int (.int n) = .ok n

/-- A row of `review_events`, without the sequence number and the JSON of its payload. -/
structure ReviewEvent where
  recorded_at : String
  request_id : Option String
  event_type : Option String
  status : Option String
  result_code : Option String
  confidence : Rat
  latency_ms : Rat
  token_input : Int
  token_output : Int
  cost_usd : Rat
  agent_name : Option String
  findings_cnt : Int

namespace DuckDbLogger

/-- `_normalise`, with the row it becomes. -/
def normalise (db : Database) (recorded_at : String) (payload : PyDict) :
    Except PyExc ReviewEvent := do
  let confidence ← db.py.float (payload.getD "confidence_score" (.float 0))
  let latency_ms ← db.py.float (payload.getD "latency_ms" (.float 0))
  let token_input ← db.int (payload.getD "token_input" (.int 0))
  let token_output ← db.int (payload.getD "token_output" (.int 0))
  let cost_usd ← db.py.float (payload.getD "cost_usd" (.float 0))
  let findings_cnt ← db.int (payload.getD "findings_cnt" (.int 0))
  return {
    recorded_at := recorded_at
    request_id := db.varchar (payload.getD "request_id" (.str ""))
    event_type := db.varchar (payload.getD "event_type" (payload.getD "type" (.str "unknown")))
    status := db.varchar (payload.getD "status" (.str ""))
    result_code := db.varchar (payload.getD "result_code" (.str ""))
    confidence := confidence
    latency_ms := latency_ms
    token_input := token_input
    token_output := token_output
    cost_usd := cost_usd
    agent_name := db.varchar (payload.getD "agent_name" (.str ""))
    findings_cnt := findings_cnt }

def write (db : Database) (recorded_at : String) (payload : PyDict) (table : List ReviewEvent) :
    Except PyExc (List ReviewEvent) :=
  (normalise db recorded_at payload).map fun row => table ++ [row]

end DuckDbLogger

namespace Orchestrator

/-- The dict that `log_analytics` writes. -/
def Analytics.payload (a : Analytics) (request_id : String) : PyDict :=
  [("request_id", .str request_id), ("event_type", .str a.event_type), ("status", .str a.status),
    ("agent_name", .str a.agent_name), ("latency_ms", .float a.latency_ms),
    ("findings_cnt", .int a.findings_cnt), ("result_code", a.result_code),
    ("confidence_score", .float a.confidence)]

section Payload

variable (a : Analytics) (request_id : String)

@[simp] theorem payload_event_type :
    PyDict.get (a.payload request_id) "event_type" = .str a.event_type := rfl

@[simp] theorem payload_result_code :
    PyDict.get (a.payload request_id) "result_code" = a.result_code := rfl

theorem normalise_payload (db : Database) (recorded_at : String) :
    DuckDbLogger.normalise db recorded_at (a.payload request_id) = .ok {
      recorded_at := recorded_at
      request_id := db.varchar (.str request_id)
      event_type := db.varchar (.str a.event_type)
      status := db.varchar (.str a.status)
      result_code := db.varchar a.result_code
      confidence := a.confidence
      latency_ms := a.latency_ms
      token_input := 0
      token_output := 0
      cost_usd := 0
      agent_name := db.varchar (.str a.agent_name)
      findings_cnt := a.findings_cnt } := by
  have hcount : db.int (PyDict.getD (a.payload request_id) "findings_cnt" (.int 0)) =
      .ok (a.findings_cnt : Int) := db.int_of_int _
  have hinput : db.int (PyDict.getD (a.payload request_id) "token_input" (.int 0)) = .ok 0 :=
    db.int_of_int 0
  have houtput : db.int (PyDict.getD (a.payload request_id) "token_output" (.int 0)) = .ok 0 :=
    db.int_of_int 0
  rw [DuckDbLogger.normalise, hcount, hinput, houtput]
  rfl

end Payload

/-- An event that reports no end of a pipeline, and the agents' event only without a name. -/
structure Analytics.Ordinary (a : Analytics) : Prop where
  event_type : a.event_type ≠ "pipeline_complete"
  agent_name : a.event_type = "agents_run" → a.agent_name = ""

end Orchestrator

/-- What the report makes of the answers of a run: a pipeline is complete, or its last channel
raised an exception that nothing catches. -/
inductive Mark where
  | completed (code : PyVal)
  | broken

def mark : (o : Op) → Ans o → Option Mark
  | .analytics_write payload, _ =>
    if (payload.get "event_type").isStr "pipeline_complete" then
      some (.completed (payload.get "result_code"))
    else none
  | .publish_quick_fix _ _ _ _, .error e =>
    if Orchestrator.quick_fix_catches e then none else some .broken
  | _, _ => none

/-- Every payload is one of `log_analytics`, and names no agent when the agents have run. -/
def Op.tidy : Op → Prop
  | .analytics_write payload => ∃ (a : Orchestrator.Analytics) (request_id : String),
      payload = a.payload request_id ∧ (a.event_type = "agents_run" → a.agent_name = "")
  | _ => True

/-- The questions that never bear a mark. -/
def Op.unmarked : Op → Prop
  | .analytics_write payload => ∃ (a : Orchestrator.Analytics) (request_id : String),
      payload = a.payload request_id ∧ a.Ordinary
  | .publish_quick_fix _ _ _ _ => False
  | _ => True

theorem Op.unmarked_tidy {o : Op} (h : o.unmarked) : o.tidy := by
  cases o with
  | analytics_write payload =>
    obtain ⟨a, request_id, rfl, ha⟩ := h
    exact ⟨a, request_id, rfl, ha.agent_name⟩
  | _ => trivial

theorem mark_unmarked {o : Op} {a : Ans o} (h : o.unmarked) : mark o a = none := by
  cases o with
  | analytics_write payload =>
    obtain ⟨b, request_id, rfl, hb⟩ := h
    have hname : (PyVal.str b.event_type).isStr "pipeline_complete" = false := by
      simpa [PyVal.isStr] using hb.event_type
    simp [mark, hname]
  | publish_quick_fix => exact h.elim
  | _ => rfl

namespace Orchestrator

section Parts

variable {α β : Type} {orc : Orchestrator} {request : ReviewRequest} {context : ContextBundle}

/-- A part of a run that bears no mark. -/
abbrev MarkFree (m : Review α) : Prop :=
  Proc.Within (fun _ _ => True) Op.unmarked (fun _ => ()) (fun _ => True) m

/-- A part of a run after the marks `x`, with what it returns and raises. -/
abbrev Tallies (x : List Mark) (V : α → List Mark → Prop) (E : PyExc → List Mark → Prop)
    (m : Review α) : Prop :=
  Proc.Monitors (collecting mark) (fun _ o => o.tidy) x V E m

section Parts

variable {x : List Mark} {V : α → List Mark → Prop} {E : PyExc → List Mark → Prop}
  {R : PyExc → Prop}

theorem marks_mark_free {m : Review β} {k : β → Review α}
    (hm : Proc.Within (fun _ _ => True) Op.unmarked (fun _ => ()) R m) (hE : ∀ e, R e → E e x)
    (hk : ∀ b, Tallies x V E (k b)) : Tallies x V E (m >>= k) :=
  hm.monitors_bind (fun _ => Op.unmarked_tidy) (fun _ _ h => collecting_none (mark_unmarked h))
    hE hk

theorem marks_end {m : Review α}
    (hm : Proc.Within (fun _ _ => True) Op.unmarked (fun _ => ()) R m) (hV : ∀ a, V a x)
    (hE : ∀ e, R e → E e x) : Tallies x V E m :=
  hm.monitors (fun _ => Op.unmarked_tidy) (fun _ _ h => collecting_none (mark_unmarked h)) hV hE

end Parts

theorem log_analytics_mark_free {a : Analytics} (h : a.Ordinary) {request_id : String} :
    MarkFree (orc.log_analytics request_id a) :=
  .ite (fun _ => best_effort_within (.invoke ⟨a, request_id, rfl, h⟩ fun _ _ _ _ => trivial))
    fun _ => .pure ()

theorem offload_mark_free : MarkFree (orc.offload request context) := by
  unfold offload
  refine .ite (fun _ => .bind (.invoke trivial fun _ _ _ _ => trivial) fun should_offload => ?_)
    fun _ => .pure ()
  exact .ite (fun _ => best_effort_within (.bind (.invoke trivial fun _ _ _ _ => trivial) fun _ =>
    log_analytics_mark_free ⟨by simp, by simp⟩)) fun _ => .pure ()

theorem context_cache_mark_free : MarkFree (orc.context_cache request context) := by
  unfold context_cache
  refine .ite (fun _ => .attempt (R := fun _ => True) (.ite (fun _ => .bind
    (.invoke trivial fun _ _ _ _ => trivial) fun _ => .bind
      (.invoke trivial fun _ _ _ _ => trivial) fun _ => ?_) fun _ => .pure ()) fun e _ =>
    .ite (fun _ => .pure ()) fun _ => .raise trivial) fun _ => .pure ()
  exact log_analytics_mark_free ⟨by simp, by simp⟩

theorem analyze_mark_free {decision : PolicyDecision} :
    MarkFree (orc.analyze request decision context) :=
  .bind (transition_asks trivial) fun _ => .bind (.assign fun _ => rfl) fun _ =>
    .bind (monotonic_asks trivial) fun _ => .bind (run_agents_asks trivial
      (fun _ => trivial) (fun _ => trivial) fun _ _ _ _ => trivial) fun _ =>
    .bind (monotonic_asks trivial) fun _ =>
    .bind (log_analytics_mark_free ⟨by simp, fun _ => rfl⟩) fun _ => .pure _

/-- What a stage returns keeps a status that is not the duplicate's, and nothing is marked. -/
abbrev Keeps (m : Review Verdict) : Prop :=
  Tallies [] (fun v y => v.status ≠ .ignored ∧ y = []) (fun _ y => y = []) m

theorem keeps_mark_free {m : Review β} {k : β → Review Verdict} (hm : MarkFree m)
    (hk : ∀ b, Keeps (k b)) : Keeps (m >>= k) := marks_mark_free hm (fun _ _ => rfl) hk

theorem first_verdict_status {consensus : ConsensusResult} :
    (first_verdict consensus).status ≠ .ignored := by
  unfold first_verdict
  dsimp only
  split <;> simp

theorem l3_stage_keeps {decisions : List AgentDecision} {v : Verdict} (hv : v.status ≠ .ignored) :
    Keeps (orc.l3_stage request context decisions v) := by
  unfold l3_stage
  refine .ite (fun _ => ?_) fun _ => .pure ⟨hv, rfl⟩
  refine keeps_mark_free (log_analytics_mark_free ⟨by simp, by simp⟩) fun _ =>
    keeps_mark_free (monotonic_asks trivial) fun _ =>
    keeps_mark_free (record_stage_event_asks fun _ => trivial) fun _ =>
    keeps_mark_free (.attempt (R := fun _ => True) (.invoke trivial fun _ _ _ _ => trivial)
      fun _ _ => .bind (monotonic_asks trivial) fun _ =>
        .bind (record_stage_event_asks fun _ => trivial) fun _ => .raise trivial) fun d =>
    keeps_mark_free (monotonic_asks trivial) fun _ =>
    keeps_mark_free (record_stage_event_asks fun _ => trivial) fun _ =>
    keeps_mark_free (log_analytics_mark_free ⟨by simp, by simp⟩) fun _ =>
    .ofExcept (fun v' hv' => ⟨?_, rfl⟩) fun _ _ => rfl
  have hstatus : ∀ code : PyVal, (if code.isStr "REVIEW_PASSED" then ReviewStatus.pass
      else .rejected) ≠ .ignored := by
    intro code
    split <;> simp
  unfold apply_l3 at hv'
  split at hv'
  · cases hv'
    exact hstatus _
  · cases hv'
  · cases hv'
    exact hstatus _

theorem patch_stage_keeps {v : Verdict} (hv : v.status ≠ .ignored) :
    Keeps (orc.patch_stage request v) := by
  unfold patch_stage
  refine .ite (fun _ => .ite (fun _ => ?_) fun _ => .pure ⟨by simp [patch_required], rfl⟩)
    fun _ => .pure ⟨hv, rfl⟩
  refine keeps_mark_free (.invoke trivial fun _ _ _ _ => trivial) fun patch => ?_
  cases patch with
  | none => exact .pure ⟨by simp [patch_required], rfl⟩
  | some patch =>
    exact keeps_mark_free (.invoke trivial fun _ _ _ _ => trivial) fun report =>
      keeps_mark_free (log_analytics_mark_free ⟨by simp, by simp⟩) fun _ =>
      .ite (fun _ => .pure ⟨by simp, rfl⟩) fun _ => .pure ⟨by simp, rfl⟩

theorem autofix_stage_keeps {v : Verdict} (hv : v.status ≠ .ignored) :
    Keeps (orc.autofix_stage request v) := by
  unfold autofix_stage
  refine .ite (fun _ => keeps_mark_free (.ofExcept fun _ _ => trivial) fun patch => ?_)
    fun _ => .pure ⟨hv, rfl⟩
  refine .ite (fun _ => keeps_mark_free (.invoke trivial fun _ _ _ _ => trivial) fun fix =>
    keeps_mark_free (log_analytics_mark_free ⟨by simp, by simp⟩) fun _ => .pure ⟨?_, rfl⟩)
    fun _ => .pure ⟨hv, rfl⟩
  unfold apply_fix
  split
  · split
    · simp
    · exact hv
  · exact hv

theorem log_analytics_completes (hlog : orc.analytics_logger = true) {a : Analytics}
    (ha : a.event_type = "pipeline_complete") {request_id : String} :
    Tallies [] (fun _ y => y = [.completed a.result_code]) (fun _ _ => False)
      (orc.log_analytics request_id a) := by
  have hmark : ∀ r : Except PyExc Unit, collecting mark []
      (.analytics_write (a.payload request_id)) r = [.completed a.result_code] := by
    intro r
    simp [collecting, mark, ha, PyVal.isStr]
  have htidy : Op.tidy (.analytics_write (a.payload request_id)) :=
    ⟨a, request_id, rfl, fun h => by simp [ha] at h⟩
  unfold log_analytics
  rw [if_pos hlog]
  exact .attempt (E := fun _ y => y = [Mark.completed a.result_code])
    (.invoke htidy (fun r _ _ => hmark r) fun r _ _ => hmark r) fun _ _ hy => .pure hy

theorem publish_quick_fix_accounts {result : ReviewResult} {target_file : String}
    {findings : List PyDict} {patch : Option PatchProposal} {x : List Mark} :
    Tallies x (fun _ y => y = x) (fun _ y => .broken ∈ y)
      (orc.publish_quick_fix result target_file findings patch) := by
  unfold publish_quick_fix
  refine .ite (fun _ => ?_) fun _ => .pure rfl
  refine .attempt (E := fun e y => (quick_fix_catches e = true ∧ y = x) ∨
    (quick_fix_catches e = false ∧ .broken ∈ y)) (.invoke trivial (fun r v hr => ?_)
      fun r e hr => ?_) fun e y he => .ite (fun hcatch => ?_) fun hcatch => ?_
  · obtain rfl : r = .ok v := hr
    exact collecting_none rfl
  · obtain rfl : r = .error e := hr
    cases hcatch : quick_fix_catches e with
    | true => exact .inl ⟨rfl, collecting_none (by simp [mark, hcatch])⟩
    | false => exact .inr ⟨rfl, by simp [collecting, mark, hcatch]⟩
  · rcases he with ⟨-, rfl⟩ | ⟨hnot, -⟩
    · exact .pure rfl
    · rw [hcatch] at hnot
      cases hnot
  · rcases he with ⟨hcaught, -⟩ | ⟨-, hbroken⟩
    · exact absurd hcaught hcatch
    · exact .raise hbroken

end Parts

end Orchestrator

/-- A result of a pipeline that came to its end; an ignored duplicate has the same state. -/
def ReviewResult.Delivered (result : ReviewResult) : Prop :=
  result.state = .DELIVERED ∧ result.status ≠ .ignored

instance (result : ReviewResult) : Decidable result.Delivered :=
  inferInstanceAs (Decidable (_ ∧ _))

/-- What the marks of a run say about its result. -/
def TalliedWith (result : ReviewResult) (y : List Mark) : Prop :=
  .broken ∈ y ∨ y = if result.Delivered then [.completed result.result_code] else []

namespace Orchestrator

section Parts

variable {orc : Orchestrator} {request : ReviewRequest} {context : ContextBundle}

theorem deliver_accounts (hlog : orc.analytics_logger = true) {decisions : List AgentDecision}
    {v : Verdict} (hv : v.status ≠ .ignored) :
    Tallies [] TalliedWith (fun _ y => .broken ∈ y) (orc.deliver request decisions v) := by
  refine marks_mark_free (R := fun _ => False) (mark_terminal_safe_asks trivial)
    (fun _ h => h.elim) fun _ => ?_
  refine ((log_analytics_completes hlog rfl).mono (fun _ _ h => h) fun _ _ h => h.elim).then
    fun _ => ?_
  refine marks_mark_free (R := fun _ => False) (publish_diagnostics_asks trivial)
    (fun _ h => h.elim) fun _ => ?_
  refine publish_quick_fix_accounts.then fun _ => ?_
  refine marks_mark_free (R := fun _ => False) (log_result_asks trivial) (fun _ h => h.elim)
    fun _ => .pure (.inr ?_)
  have hdelivered : (build_result request .DELIVERED v.status v.summary
      v.consensus.confidence_score v.result_code).Delivered := ⟨rfl, hv⟩
  rw [if_pos hdelivered]
  rfl

theorem tallied_nil {result : ReviewResult} (h : ¬result.Delivered) : TalliedWith result [] :=
  .inr (by rw [if_neg h])

/-- The marks that an exception leaves. -/
def Raised (y : List Mark) : Prop := y = [] ∨ .broken ∈ y

/-- A part of the pipeline that starts without marks. -/
abbrev Accounts (m : Review ReviewResult) : Prop := Tallies [] TalliedWith (fun _ y => Raised y) m

theorem accounts_mark_free {β : Type} {m : Review β} {k : β → Review ReviewResult}
    (hm : MarkFree m) (hk : ∀ b, Accounts (k b)) : Accounts (m >>= k) :=
  marks_mark_free hm (fun _ _ => .inl rfl) hk

theorem accounts_kept {m : Review Verdict} {k : Verdict → Review ReviewResult} (hm : Keeps m)
    (hk : ∀ v, v.status ≠ .ignored → Accounts (k v)) : Accounts (m >>= k) := by
  refine (hm.mono (fun _ _ h => h) fun _ _ h => .inl h).bind fun v y hy => ?_
  obtain ⟨hv, rfl⟩ := hy
  exact hk v hv

theorem conclude_accounts (hlog : orc.analytics_logger = true) {decisions : List AgentDecision} :
    Accounts (orc.conclude request context decisions) :=
  accounts_mark_free (transition_asks trivial) fun _ => accounts_mark_free (.assign fun _ => rfl)
    fun _ => accounts_mark_free (.invoke trivial fun _ _ _ _ => trivial) fun _ =>
    accounts_kept (l3_stage_keeps first_verdict_status) fun _ h₁ =>
    accounts_kept (patch_stage_keeps h₁) fun _ h₂ =>
    accounts_kept (autofix_stage_keeps h₂) fun _ h₃ =>
    (deliver_accounts hlog h₃).mono (fun _ _ h => h) fun _ _ h => .inr h

theorem review_accounts (hlog : orc.analytics_logger = true) {decision : PolicyDecision} :
    Accounts (orc.review request decision) :=
  accounts_mark_free (transition_asks trivial) fun _ => accounts_mark_free (.assign fun _ => rfl)
    fun _ => accounts_mark_free (.invoke trivial fun _ _ _ _ => trivial) fun _ =>
    accounts_mark_free offload_mark_free fun _ => accounts_mark_free context_cache_mark_free fun _ =>
    accounts_mark_free analyze_mark_free fun _ => conclude_accounts hlog

theorem admission_accounts (hlog : orc.analytics_logger = true) :
    Accounts (orc.admission request) := by
  refine accounts_mark_free (.invoke trivial fun _ _ _ _ => trivial) fun _ => .ite (fun _ => ?_)
    fun _ => ?_
  · refine accounts_mark_free (.invoke trivial fun _ _ _ _ => trivial) fun decision =>
      accounts_mark_free (log_analytics_mark_free ⟨by simp, by simp⟩) fun _ =>
      .ite (fun _ => review_accounts hlog) fun _ => ?_
    exact accounts_mark_free (transition_asks trivial) fun _ =>
      accounts_mark_free (.assign fun _ => rfl) fun _ =>
      accounts_mark_free (mark_terminal_safe_asks trivial) fun _ =>
      accounts_mark_free (publish_diagnostics_asks trivial) fun _ =>
      accounts_mark_free (log_result_asks trivial) fun _ => .pure (tallied_nil (by
        simp [ReviewResult.Delivered, build_result]))
  · exact accounts_mark_free (mark_terminal_safe_asks trivial) fun _ =>
      accounts_mark_free (log_result_asks trivial) fun _ => .pure (tallied_nil (by
        simp [ReviewResult.Delivered, build_result]))

theorem after_create_accounts (hlog : orc.analytics_logger = true)
    {outcome : Option JobCreationOutcome} : Accounts (orc.after_create request outcome) := by
  have hassign : ∀ g : Locals → Locals,
      Accounts (Proc.assign g >>= fun _ => orc.admission request) := fun g =>
    accounts_mark_free (.assign fun _ => rfl) fun _ => admission_accounts hlog
  cases outcome with
  | none => exact hassign _
  | some outcome =>
    refine .ite (fun _ => ?_) fun _ => hassign _
    exact accounts_mark_free (log_analytics_mark_free ⟨by simp, by simp⟩) fun _ =>
      accounts_mark_free (publish_diagnostics_asks trivial) fun _ =>
      accounts_mark_free (log_result_asks trivial) fun _ => .pure
        (tallied_nil fun h => h.2 rfl)

theorem handle_failure_accounts {error : PyExc} {x : List Mark} (hx : Raised x) :
    Tallies x TalliedWith (fun _ _ => True) (orc.handle_failure request error) := by
  have hstate := classify_failure_mem error
  unfold handle_failure
  generalize classify_failure error = c at hstate ⊢
  obtain ⟨state, status, code⟩ := c
  have hnot : ∀ summary confidence, ¬(build_result request state status summary confidence
      (.str code)).Delivered := by
    intro summary confidence h
    obtain rfl : state = .DELIVERED := h.1
    simp at hstate
  refine marks_mark_free (R := fun _ => True) (.bind .locals fun _ => .ite (fun _ =>
      .bind (best_effort_within (transition_asks trivial)) fun _ => .assign fun _ => rfl)
      fun _ => .pure ()) (fun _ _ => trivial) fun _ =>
    marks_mark_free (R := fun _ => True) (.bind .locals fun _ => .ite (fun _ =>
      mark_terminal_safe_asks trivial) fun _ => .pure ()) (fun _ _ => trivial) fun _ =>
    marks_mark_free (R := fun _ => True) (publish_diagnostics_asks trivial) (fun _ _ => trivial)
      fun _ => marks_mark_free (R := fun _ => True) (log_result_asks trivial) (fun _ _ => trivial)
      fun _ => .pure ?_
  rcases hx with rfl | hbroken
  · exact tallied_nil (hnot _ _)
  · exact .inl hbroken

theorem run_once_accounts (hlog : orc.analytics_logger = true) :
    Tallies [] TalliedWith (fun _ _ => True) (orc.run_once request) :=
  .attempt (accounts_mark_free (.invoke trivial fun _ _ _ _ => trivial) fun _ =>
    after_create_accounts hlog) fun _ _ hy => handle_failure_accounts hy

end Parts

end Orchestrator

end Nitpicker
