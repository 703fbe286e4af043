import NitpickerDaemon.Analytics
import NitpickerDaemon.Data.Grouping
import NitpickerDaemon.Text.Html
import NitpickerDaemon.Text.Numeral

/-!
The review report: what its statistics say about the runs behind the analytics log, and its page.
-/

set_option autoImplicit false

namespace Nitpicker

open Effect Grouping

/-- The payloads that a run hands to the analytics log. -/
def payloads (t : Trace) : List PyDict := t.filterMap fun ev => match ev.op with
  | .analytics_write payload => some payload
  | _ => none

/-- A finished run with an analytics log that stores everything; no channel breaks it off. -/
structure LoggedRun where
  orc : Orchestrator
  request : ReviewRequest
  trace : Trace
  result : ReviewResult
  locals : Locals
  path : Path (orc.run_once request {}) trace (.ret (.ok result, locals))
  logger : orc.analytics_logger = true
  stored : ∀ payload a, Answered trace (.analytics_write payload) a → a = .ok ()
  channel : ∀ result target_file findings patch e,
    Answered trace (.publish_quick_fix result target_file findings patch) (.error e) →
    Orchestrator.quick_fix_catches e = true

/-- The code of the end of a pipeline, when the payload reports one. -/
def completion (payload : PyDict) : Option PyVal :=
  if (payload.get "event_type").isStr "pipeline_complete" then some (payload.get "result_code")
  else none

def Mark.code : Mark → Option PyVal
  | .completed code => some code
  | .broken => none

theorem completions_eq (t : Trace) : (payloads t).filterMap completion =
    (t.filterMap fun ev => mark ev.op ev.ans).filterMap Mark.code := by
  rw [payloads, List.filterMap_filterMap, List.filterMap_filterMap]
  refine List.filterMap_congr fun ev _ => ?_
  obtain ⟨s, o, a, s'⟩ := ev
  cases o with
  | analytics_write payload =>
    have hmark : mark (.analytics_write payload) a = (completion payload).map Mark.completed := by
      simp only [mark, completion]
      split <;> rfl
    simp only [hmark, Option.bind_some]
    cases completion payload <;> rfl
  | publish_quick_fix result target_file findings patch =>
    cases a with
    | ok u => rfl
    | error e =>
      simp only [mark]
      split <;> rfl
  | _ => rfl

namespace LoggedRun

variable (run : LoggedRun)

/-- A delivered run reports its end once and with its code, any other run never. -/
theorem completions : (payloads run.trace).filterMap completion =
    if run.result.Delivered then [run.result.result_code] else [] := by
  have hmarked := run.path.monitored (Orchestrator.run_once_accounts run.logger {})
  rw [watch_collecting, List.nil_append] at hmarked
  have hmarks : TalliedWith run.result (run.trace.filterMap fun ev => mark ev.op ev.ans) := hmarked
  rw [completions_eq]
  rcases hmarks with hbroken | heq
  · obtain ⟨⟨s, o, a, s'⟩, hev, hmark⟩ := List.mem_filterMap.mp hbroken
    cases o with
    | publish_quick_fix result target_file findings patch =>
      cases a with
      | ok u => cases hmark
      | error e =>
        have hcaught := run.channel result target_file findings patch e ⟨s, s', hev⟩
        simp [mark, hcaught] at hmark
    | analytics_write payload =>
      simp only [mark] at hmark
      split at hmark <;> cases hmark
    | _ => cases hmark
  · rw [heq]
    split <;> rfl

/-- Every payload is one of `log_analytics`, and the agents' event names no agent. -/
theorem payload_tidy {payload : PyDict} (h : payload ∈ payloads run.trace) :
    (Op.analytics_write payload).tidy := by
  obtain ⟨⟨s, o, a, s'⟩, hev, hpayload⟩ := List.mem_filterMap.mp h
  obtain ⟨before, after, htrace⟩ := List.append_of_mem hev
  have hat := run.path.monitored_at (Orchestrator.run_once_accounts run.logger {}) htrace
  cases o with
  | analytics_write p =>
    cases hpayload
    exact hat
  | _ => cases hpayload

end LoggedRun

namespace DuckDbLogger

/-- The table after writes at these times. -/
def write_all (db : Database) (writes : List (String × PyDict)) : Except PyExc (List ReviewEvent) :=
  writes.foldlM (fun table (recorded_at, payload) => write db recorded_at payload table) []

/-- The row of a payload of `log_analytics`. -/
def event_of (db : Database) (recorded_at : String) (a : Orchestrator.Analytics)
    (request_id : String) : ReviewEvent where
  recorded_at := recorded_at
  request_id := some request_id
  event_type := some a.event_type
  status := some a.status
  result_code := db.varchar a.result_code
  confidence := a.confidence
  latency_ms := a.latency_ms
  token_input := 0
  token_output := 0
  cost_usd := 0
  agent_name := some a.agent_name
  findings_cnt := a.findings_cnt

theorem write_payload (db : Database) (recorded_at : String) (a : Orchestrator.Analytics)
    (request_id : String) (table : List ReviewEvent) :
    write db recorded_at (a.payload request_id) table =
      .ok (table ++ [event_of db recorded_at a request_id]) := by
  rw [write, Orchestrator.normalise_payload]
  simp only [db.varchar_of_str]
  rfl

end DuckDbLogger

/-- The row that a write of this payload at this time adds. -/
def RowOf (db : Database) (write : String × PyDict) (row : ReviewEvent) : Prop :=
  ∃ (a : Orchestrator.Analytics) (request_id : String), write.2 = a.payload request_id ∧
    (a.event_type = "agents_run" → a.agent_name = "") ∧
    row = DuckDbLogger.event_of db write.1 a request_id

theorem write_all_rows {db : Database} {writes : List (String × PyDict)}
    (h : ∀ write ∈ writes, (Op.analytics_write write.2).tidy) :
    ∃ rows, DuckDbLogger.write_all db writes = .ok rows ∧ List.Forall₂ (RowOf db) writes rows := by
  have hafter : ∀ table : List ReviewEvent, ∃ rows,
      writes.foldlM (fun table (recorded_at, payload) =>
        DuckDbLogger.write db recorded_at payload table) table = .ok (table ++ rows) ∧
      List.Forall₂ (RowOf db) writes rows := by
    induction writes with
    | nil => exact fun table => ⟨[], by simp [pure, Except.pure], .nil⟩
    | cons write writes ih =>
      intro table
      rw [List.forall_mem_cons] at h
      obtain ⟨recorded_at, payload⟩ := write
      obtain ⟨⟨a, request_id, rfl, hname⟩, hrest⟩ := h
      obtain ⟨rows, hrows, hall⟩ :=
        ih hrest (table ++ [DuckDbLogger.event_of db recorded_at a request_id])
      refine ⟨DuckDbLogger.event_of db recorded_at a request_id :: rows, ?_,
        .cons ⟨a, request_id, rfl, hname, rfl⟩ hall⟩
      simp only [List.foldlM_cons, DuckDbLogger.write_payload]
      simpa [bind, Except.bind] using hrows
  obtain ⟨rows, hrows, hall⟩ := hafter []
  exact ⟨rows, hrows, hall⟩

namespace ReportGenerator

/-- `WHERE event_type = 'pipeline_complete'` -/
def completed (table : List ReviewEvent) : List ReviewEvent :=
  table.filter (·.event_type = some "pipeline_complete")

/-- `AND result_code != 'REVIEW_PASSED'`, which no NULL meets -/
def not_passed (code : Option String) : Bool := code.any (· ≠ "REVIEW_PASSED")

/-- `WHERE event_type = 'agents_run' AND agent_name != ''` -/
def agent_events (table : List ReviewEvent) : List ReviewEvent :=
  table.filter fun row => row.event_type = some "agents_run" ∧ row.agent_name.any (· ≠ "")

/-- The answers to the queries of `summary_stats`, without the averages. -/
structure SummaryStats where
  total_events : Nat
  unique_requests : Nat
  results : List (Option String × Nat)
  agent_stats : List (Option String × Nat)
  top_rejected : List ReviewEvent
  l3_count : Nat

/-- What the queries may answer on a table; the order of groups of one size is left open. -/
structure Summarises (table : List ReviewEvent) (stats : SummaryStats) : Prop where
  total_events : stats.total_events = table.length
  unique_requests : stats.unique_requests = (table.filterMap (·.request_id)).dedup.length
  results : GroupCounts (·.result_code) (completed table) stats.results
  agent_stats : GroupCounts (·.agent_name) (agent_events table) stats.agent_stats
  top_rejected : FirstBy (·.recorded_at) 10 ((completed table).filter (not_passed ·.result_code))
    stats.top_rejected
  l3_count : stats.l3_count = table.countP (·.event_type = some "l3_review_complete")

/-- One of the answers. -/
def summary_stats (table : List ReviewEvent) : SummaryStats where
  total_events := table.length
  unique_requests := (table.filterMap (·.request_id)).dedup.length
  results := group_counts (·.result_code) (completed table)
  agent_stats := group_counts (·.agent_name) (agent_events table)
  top_rejected := (((completed table).filter (not_passed ·.result_code)).mergeSort
    fun a b => decide (b.recorded_at ≤ a.recorded_at)).take 10
  l3_count := table.countP (·.event_type = some "l3_review_complete")

theorem summary_stats_summarises (table : List ReviewEvent) : Summarises table (summary_stats table) :=
  ⟨rfl, rfl, group_counts_spec _ _, group_counts_spec _ _, firstBy_mergeSort _ _ _, rfl⟩

end ReportGenerator

open ReportGenerator

theorem completed_codes {db : Database} {writes : List (String × PyDict)} {rows : List ReviewEvent}
    (h : List.Forall₂ (RowOf db) writes rows) :
    (completed rows).map (·.result_code) =
      (writes.filterMap fun write => completion write.2).map db.varchar := by
  induction h with
  | nil => rfl
  | @cons write row writes rows hrow _ ih =>
    obtain ⟨a, request_id, hpayload, -, rfl⟩ := hrow
    have hcompletion : completion write.2 =
        if a.event_type = "pipeline_complete" then some a.result_code else none := by
      rw [hpayload, completion, Orchestrator.payload_event_type, Orchestrator.payload_result_code]
      simp [PyVal.isStr]
    rw [completed, List.filter_cons, ← completed, List.filterMap_cons, hcompletion]
    by_cases hname : a.event_type = "pipeline_complete"
    · simp [DuckDbLogger.event_of, hname, ih]
    · simp [DuckDbLogger.event_of, hname, ih]

theorem agent_events_nil {db : Database} {writes : List (String × PyDict)}
    {rows : List ReviewEvent} (h : List.Forall₂ (RowOf db) writes rows) : agent_events rows = [] := by
  induction h with
  | nil => rfl
  | @cons write row writes rows hrow _ ih =>
    obtain ⟨a, request_id, -, hname, rfl⟩ := hrow
    rw [agent_events, List.filter_cons, ← agent_events, ih]
    have hno : ¬(a.event_type = "agents_run" ∧ a.agent_name ≠ "") := fun hc => hc.2 (hname hc.1)
    simp only [DuckDbLogger.event_of, Option.some.injEq, Option.any_some, decide_eq_true_eq]
    rw [if_neg (by simpa using hno)]

section Runs

variable {db : Database} {runs : List LoggedRun} {writes : List (String × PyDict)}
  {table : List ReviewEvent}

/-- The completed rows of a table have the codes of the delivered runs, whatever order the writes
of the runs came in. -/
theorem completed_codes_perm
    (hwrites : (writes.map Prod.snd).Perm (runs.flatMap fun run => payloads run.trace))
    (hrows : List.Forall₂ (RowOf db) writes table) :
    ((completed table).map (·.result_code)).Perm
      ((runs.filter (·.result.Delivered)).map fun run => db.varchar run.result.result_code) := by
  have hcodes : (runs.flatMap fun run => payloads run.trace).filterMap completion =
      (runs.filter (·.result.Delivered)).map (·.result.result_code) := by
    clear hwrites
    induction runs with
    | nil => rfl
    | cons run runs ih =>
      rw [List.flatMap_cons, List.filterMap_append, run.completions, ih, List.filter_cons]
      by_cases hd : run.result.Delivered <;> simp [hd]
  have hperm := (hwrites.filterMap completion).map db.varchar
  rw [hcodes, List.filterMap_map, List.map_map] at hperm
  rw [completed_codes hrows]
  exact hperm

theorem payloads_tidy
    (hwrites : (writes.map Prod.snd).Perm (runs.flatMap fun run => payloads run.trace)) :
    ∀ write ∈ writes, (Op.analytics_write write.2).tidy := by
  intro write hwrite
  have hmem := hwrites.mem_iff.mp (List.mem_map_of_mem hwrite)
  obtain ⟨run, -, hpayload⟩ := List.mem_flatMap.mp hmem
  exact run.payload_tidy hpayload

/-- The report counts each code as often as a run was delivered with it, and names no agents. -/
theorem report_counts_deliveries {stats : SummaryStats}
    (hwrites : (writes.map Prod.snd).Perm (runs.flatMap fun run => payloads run.trace))
    (htable : DuckDbLogger.write_all db writes = .ok table) (hstats : Summarises table stats) :
    (∀ code n, (code, n) ∈ stats.results ↔ 0 < n ∧
      n = runs.countP fun run => run.result.Delivered ∧ db.varchar run.result.result_code = code) ∧
    (stats.results.map Prod.snd).sum = runs.countP (·.result.Delivered) ∧
    stats.total_events = (runs.map fun run => (payloads run.trace).length).sum ∧
    stats.agent_stats = [] ∧
    stats.top_rejected.length = min 10 (runs.countP fun run =>
      run.result.Delivered ∧ not_passed (db.varchar run.result.result_code)) := by
  obtain ⟨rows, hwritten, hrows⟩ := @write_all_rows db _ (payloads_tidy hwrites)
  obtain rfl : table = rows := Except.ok.inj (htable.symm.trans hwritten)
  have hperm := completed_codes_perm hwrites hrows
  have hcount : ∀ p : Option String → Bool, (completed table).countP (p ·.result_code) =
      runs.countP fun run => run.result.Delivered ∧ p (db.varchar run.result.result_code) := by
    intro p
    have hcodes := hperm.countP_eq p
    rw [List.countP_map, List.countP_map, List.countP_filter] at hcodes
    rw [Function.comp_def] at hcodes
    rw [hcodes]
    refine List.countP_congr fun run _ => ?_
    simp [and_comm]
  refine ⟨fun code n => ?_, ?_, ?_, ?_, ?_⟩
  · rw [hstats.results.mem_iff, hcount (fun c => decide (c = code)), and_comm]
    simp
  · have hlength := hperm.length_eq
    rw [List.length_map, List.length_map, ← List.countP_eq_length_filter] at hlength
    rw [hstats.results.sum, hlength]
  · have hlength := hwrites.length_eq
    rw [List.length_map, List.length_flatMap] at hlength
    rw [hstats.total_events, ← hrows.length_eq, hlength]
  · have hagents := hstats.agent_stats
    rw [agent_events_nil hrows] at hagents
    exact hagents.eq_nil
  · rw [hstats.top_rejected.length, ← List.countP_eq_length_filter, hcount]

end Runs

def loggingOrchestrator : Orchestrator where
  analytics_logger := true

/-- A run that passes, with everything it logs. -/
def passingRun : LoggedRun where
  orc := loggingOrchestrator
  request := sampleRequest "req_1" "idemp_1"
  trace := (loggingOrchestrator.play agreeable (sampleRequest "req_1" "idemp_1") {} 60).1
  result := Orchestrator.build_result (sampleRequest "req_1" "idemp_1") .DELIVERED .pass
    (.str "에이전트 결정 없음 — 기본 pass") (1 / 2) (.str "REVIEW_PASSED")
  locals := ⟨.CONSENSUS_REACHED, true⟩
  path := (@play_steps (scripting agreeable) _ (fun _ => rfl) loggingOrchestrator
    (sampleRequest "req_1" "idemp_1") {} 60).path
  logger := rfl
  stored := by
    rintro payload a ⟨s, s', hev⟩
    have hr := @play_steps (scripting agreeable) _ (fun _ => rfl) loggingOrchestrator
      (sampleRequest "req_1" "idemp_1") {} 60
    exact (hr.event _ hev).1
  channel := by
    rintro result target_file findings patch e ⟨s, s', hev⟩
    have hr := @play_steps (scripting agreeable) _ (fun _ => rfl) loggingOrchestrator
      (sampleRequest "req_1" "idemp_1") {} 60
    have ha : Except.error e = Except.ok () := (hr.event _ hev).1
    cases ha

def sampleDatabase : Database where
  py := ⟨fun _ => "", fun _ => "", fun _ => .ok 0, fun _ => .ok .none⟩
  varchar := fun value => match value with
    | .str s => some s
    | _ => none
  int := fun value => match value with
    | .int n => .ok n
    | _ => .error (typeError "int() argument")
  varchar_of_str := fun _ => rfl
  int_of_int := fun _ => rfl

theorem report_counts_sample : ∃ table,
    DuckDbLogger.write_all sampleDatabase ((payloads passingRun.trace).map ("t", ·)) = .ok table ∧
    (some "REVIEW_PASSED", 1) ∈ (summary_stats table).results := by
  have hwrites : (((payloads passingRun.trace).map fun payload => ("t", payload)).map Prod.snd).Perm
      ([passingRun].flatMap fun run => payloads run.trace) := by simp [Function.comp_def]
  obtain ⟨table, htable, -⟩ := @write_all_rows sampleDatabase _ (payloads_tidy hwrites)
  have hcounts := (report_counts_deliveries hwrites htable (summary_stats_summarises table)).1
  exact ⟨table, htable, (hcounts _ _).mpr ⟨by decide, rfl⟩⟩

end Nitpicker
