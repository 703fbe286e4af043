import NitpickerDaemon.ContextService

/-!
The log of review results and the provider that searches it for past reviews of a file. A record
has no field for its file, and the search goes by what occurs in the texts of the record.
-/

set_option autoImplicit false

namespace Nitpicker

section Newest

variable {α : Type} {p q : α → Bool}

/-- `p` and `q` agree on every entry until `n` entries with `q` were met. -/
def Agrees (p q : α → Bool) : Nat → List α → Prop
  | 0, _ => True
  | _, [] => True
  | n + 1, x :: xs => p x = q x ∧ Agrees p q (if q x then n else n + 1) xs

theorem take_filter_eq_iff (n : Nat) (xs : List α) :
    (xs.filter p).take n = (xs.filter q).take n ↔ Agrees p q n xs := by
  induction xs generalizing n with
  | nil => cases n <;> simp [Agrees]
  | cons x xs ih =>
    cases n with
    | zero => simp [Agrees]
    | succ n =>
      -- an entry that only one of the two keeps is the first of one list and not in the other
      have hhead : ∀ {p q : α → Bool}, p x = true → q x = false →
          ((x :: xs).filter p).take (n + 1) ≠ ((x :: xs).filter q).take (n + 1) := by
        intro p q hp hq heq
        have hmem : x ∈ ((x :: xs).filter q).take (n + 1) := by
          rw [← heq]
          simp [hp]
        have hkept := (List.mem_filter.mp (List.mem_of_mem_take hmem)).2
        rw [hq] at hkept
        cases hkept
      cases hp : p x <;> cases hq : q x
      · simp [Agrees, hp, hq, ih]
      · simpa [Agrees, hp, hq] using (hhead hq hp).symm
      · simpa [Agrees, hp, hq] using hhead hp hq
      · simp [Agrees, hp, hq, ih]

end Newest

/-- The record of `log_result`. -/
def result_record (now : String) (result : ReviewResult) : PyDict := [
  ("timestamp", .str now),
  ("request_id", .str result.request_id),
  ("state", .str result.state.value),
  ("status", .str result.status.value),
  ("result_code", result.result_code),
  ("summary", result.summary),
  ("confidence_score", .float result.confidence_score),
  ("patch_hash", match result.patch_hash with
    | none => .none
    | some patch_hash => .str patch_hash),
  ("verification_result", match result.verification_result with
    | none => .none
    | some report => .dict report)]

/-- A review that was logged: its file, the time, and the result. -/
structure LoggedReview where
  target_file : String
  now : String
  result : ReviewResult

def LoggedReview.record (review : LoggedReview) : PyDict := result_record review.now review.result

/-- `ArtifactPublisher.log_result` over `JsonlReviewLogger.log_result`: one more line, or none
when `json.dumps` raises. -/
def log_result (log : List JsonText) (review : LoggedReview) : List JsonText :=
  match review.record.dumps with
  | .ok line => log ++ [line]
  | .error _ => log

/-- The lines of the log after some reviews. -/
def review_log (reviews : List LoggedReview) : List JsonText := reviews.foldl log_result []

/-- The reviews that have a line. -/
def logged_reviews (reviews : List LoggedReview) : List LoggedReview :=
  reviews.filter fun review => (PyVal.dict review.record).unserializable.isNone

theorem review_log_loads (reviews : List LoggedReview) :
    (review_log reviews).map JsonText.loads = (logged_reviews reviews).map LoggedReview.record := by
  induction reviews using List.reverseRecOn with
  | nil => rfl
  | append_singleton reviews review ih =>
    rw [review_log, List.foldl_append, logged_reviews, List.filter_append, List.map_append,
      ← logged_reviews, ← ih]
    simp only [List.foldl_cons, List.foldl_nil, log_result]
    cases hs : (PyVal.dict review.record).unserializable with
    | none => simp [PyDict.dumps_of_serializable hs, review_log, hs]
    | some name =>
      have hdumps : ∃ e, review.record.dumps = .error e := by
        unfold PyDict.dumps
        split
        · exact ⟨_, rfl⟩
        · rename_i hn
          rw [hs] at hn
          cases hn
      obtain ⟨e, he⟩ := hdumps
      simp [he, review_log, hs]

/-- `str.lower`, which knows all of Unicode. -/
structure Lower where
  lower : String → String
  lower_empty : lower "" = ""

/-- `s.lower().replace("\\", "/")` -/
def folded (l : Lower) (s : String) : String :=
  String.ofList ((l.lower s).toList.map fun c => if c = '\\' then '/' else c)

structure HistoryProvider where
  limit : Nat := 5
  limit_pos : 0 < limit := by decide

namespace HistoryProvider

def MAX_SCAN_LINES : Nat := 2000

def meaningful (record : PyDict) : Bool :=
  ["pass", "rejected", "degraded", "failed"].any
    (PyDict.getD record "status" (.str "")).isStr

/-- `_matches_target` -/
def matches_target (py : Python) (lower : Lower) (record : PyDict)
    (target_lower : String) : Bool :=
  if target_lower = "" then false
  else
    let field := fun d key => folded lower (py.str (PyDict.getD d key (.str "")))
    contains (field record "request_id") target_lower ||
      contains (field record "summary") target_lower ||
      match PyDict.getD record "payload" (.dict []) with
      | .dict payload =>
        let payload_target := field payload "target_file"
        payload_target != "" && contains payload_target target_lower
      | _ => false

/-- The loop of `_search` over lines that `read` gives the record of. -/
def search_from {α : Type} (provider : HistoryProvider) (py : Python) (lower : Lower)
    (read : α → PyDict) (target_lower : String) : List α → List α → List α
  | results, [] => results
  | results, line :: lines =>
    if matches_target py lower (read line) target_lower && meaningful (read line) then
      let results := results ++ [line]
      if provider.limit ≤ results.length then results
      else search_from provider py lower read target_lower results lines
    else search_from provider py lower read target_lower results lines

/-- The last lines, the newest one first. -/
def recent {α : Type} (lines : List α) : List α :=
  (lines.drop (lines.length - MAX_SCAN_LINES)).reverse

def search {α : Type} (provider : HistoryProvider) (py : Python) (lower : Lower)
    (read : α → PyDict) (lines : List α) (target_file : String) : List α :=
  provider.search_from py lower read (folded lower target_file) [] (recent lines)

/-- At most 200 characters or entries of a summary; what has no length, or can be neither cut
nor continued, raises. -/
def truncated_summary (py : Python) : PyVal → Except PyExc String
  | .str s => .ok (if 200 < s.length then String.ofList (s.toList.take 200) ++ "..." else s)
  | .list xs =>
    if 200 < xs.length then .error (typeError "can only concatenate list (not \"str\") to list")
    else .ok (py.str (.list xs))
  | .dict kvs =>
    if 200 < kvs.length then .error (typeError "unhashable type: 'slice'")
    else .ok (py.str (.dict kvs))
  | v => .error (typeError ("object of type '" ++ v.type_name ++ "' has no len()"))

/-- `value[:19]` of the time stamp, as it is printed. -/
def date_part (py : Python) (value : PyVal) : Except PyExc String :=
  (value.slice_to 19).map py.str

/-- `float(n)` of an integer raises from here on. -/
def FLOAT_BOUND : Nat := 2 ^ 1024 - 2 ^ 970

/-- `format(confidence, ".1f")`, with `fixed` for a number. -/
def confidence_text (fixed : Rat → String) : PyVal → Except PyExc String
  | .float q => .ok (fixed q)
  | .int n =>
    if FLOAT_BOUND ≤ n.natAbs then
      .error ⟨"OverflowError", [], "int too large to convert to float"⟩
    else .ok (fixed n)
  | .bool b => .ok (fixed (if b then 1 else 0))
  | .str _ => .error (valueError "Unknown format code 'f' for object of type 'str'")
  | v => .error (typeError ("unsupported format string passed to " ++ v.type_name ++
      ".__format__"))

def format_entry (py : Python) (fixed : Rat → String) (i : Nat) (record : PyDict) :
    Except PyExc (List String) := do
  let timestamp ← date_part py (PyDict.getD record "timestamp" (.str ""))
  let result_code := PyDict.getD record "result_code" (.str "")
  let confidence ← confidence_text fixed (PyDict.getD record "confidence_score" (.int 0))
  let truncated ← truncated_summary py (PyDict.getD record "summary" (.str "(no summary)"))
  let line := "  [" ++ toString i ++ "] " ++ timestamp ++ " | " ++
    py.str (PyDict.getD record "status" (.str "?")) ++
    (if result_code.truthy then " (" ++ py.str result_code ++ ")" else "") ++
    " | confidence=" ++ confidence
  pure [line, "      " ++ truncated]

def format_from (py : Python) (fixed : Rat → String) :
    Nat → List PyDict → Except PyExc (List String)
  | _, [] => .ok []
  | i, record :: records => do
    let entry ← format_entry py fixed i record
    let entries ← format_from py fixed (i + 1) records
    pure (entry ++ entries)

/-- `_format_entries` -/
def format_entries (py : Python) (fixed : Rat → String) (records : List PyDict)
    (target_file : String) : Except PyExc (List String) := do
  let entries ← format_from py fixed 1 records
  pure (("Past reviews for " ++ target_file ++ " (" ++ toString records.length ++ " found):") ::
    entries)

/-- `log` is `none` when there is no log file. -/
def collect (provider : HistoryProvider) (py : Python) (lower : Lower)
    (fixed : Rat → String) (log : Option (List JsonText)) (request : ReviewRequest) :
    Except PyExc ContextFragment :=
  match log with
  | none => .ok {
      tier := "tier4", entries := []
      metadata := [("source", .str "history"), ("reason", .str "no_log")] }
  | some lines =>
    let target := request.target_file
    let found := (provider.search py lower JsonText.loads lines target).map JsonText.loads
    let metadata := [("source", .str "history"), ("target_file", .str target),
      ("matches", .int found.length)]
    if found.isEmpty then .ok { tier := "tier4", entries := [], metadata := metadata }
    else do
      let entries ← format_entries py fixed found target
      pure { tier := "tier4", entries := entries, metadata := metadata }

end HistoryProvider

namespace HistoryProvider

section Search

variable {α : Type} {provider : HistoryProvider} {py : Python} {lower : Lower}
  {fixed : Rat → String} {read : α → PyDict} {target_file target_lower : String}

/-- What the loop keeps. -/
def kept (py : Python) (lower : Lower) (target_lower : String) (record : PyDict) :
    Bool := matches_target py lower record target_lower && meaningful record

theorem search_from_eq {results lines : List α} (h : results.length < provider.limit) :
    provider.search_from py lower read target_lower results lines =
      results ++ (lines.filter fun line => kept py lower target_lower (read line)).take
        (provider.limit - results.length) := by
  induction lines generalizing results with
  | nil => simp [search_from]
  | cons line lines ih =>
    simp only [search_from]
    by_cases hk : kept py lower target_lower (read line) = true
    · rw [List.filter_cons_of_pos (p := fun line => kept py lower target_lower (read line)) hk]
      rw [kept] at hk
      rw [if_pos hk]
      obtain ⟨n, hn⟩ : ∃ n, provider.limit - results.length = n + 1 :=
        ⟨provider.limit - results.length - 1, by omega⟩
      rw [hn, List.take_succ_cons]
      split
      · rename_i hfull
        rw [List.length_append, List.length_singleton] at hfull
        have hzero : n = 0 := by omega
        rw [hzero, List.take_zero]
      · rename_i hroom
        rw [ih (by omega), List.length_append, List.length_singleton]
        have hrest : provider.limit - (results.length + 1) = n := by omega
        rw [hrest, List.append_assoc, List.singleton_append]
    · rw [List.filter_cons_of_neg (p := fun line => kept py lower target_lower (read line)) hk]
      rw [kept] at hk
      rw [if_neg hk]
      exact ih h

theorem search_eq (lines : List α) : provider.search py lower read lines target_file =
    ((recent lines).filter fun line => kept py lower (folded lower target_file)
      (read line)).take provider.limit := by
  have hroom : ([] : List α).length < provider.limit := provider.limit_pos
  rw [search, search_from_eq hroom, List.nil_append, List.length_nil, Nat.sub_zero]

theorem map_recent {β : Type} (f : α → β) (lines : List α) :
    (recent lines).map f = recent (lines.map f) := by
  simp [recent]

/-- The search sees of a line only its record. -/
theorem map_search (lines : List α) :
    (provider.search py lower read lines target_file).map read =
      provider.search py lower id (lines.map read) target_file := by
  rw [search_eq, search_eq, ← map_recent, List.map_take, List.filter_map]
  rfl

theorem search_reviews (reviews : List LoggedReview) :
    (provider.search py lower JsonText.loads (review_log reviews) target_file).map
        JsonText.loads =
      (provider.search py lower LoggedReview.record (logged_reviews reviews) target_file).map
        LoggedReview.record := by
  rw [map_search, map_search, review_log_loads]

end Search

/-- `f` occurs in the request id or in the summary of the result, both folded. -/
def Mentioned (py : Python) (lower : Lower) (f : String) (result : ReviewResult) :
    Prop :=
  folded lower f ≠ "" ∧ (contains (folded lower result.request_id) (folded lower f) = true ∨
    contains (folded lower (py.str result.summary)) (folded lower f) = true)

instance (py : Python) (lower : Lower) (f : String) (result : ReviewResult) :
    Decidable (Mentioned py lower f result) := inferInstanceAs (Decidable (_ ∧ _))

/-- A status that the search reports. -/
def Reviewed (result : ReviewResult) : Prop :=
  result.status ∈ [.pass, .rejected, .degraded, .failed]

instance (result : ReviewResult) : Decidable (Reviewed result) :=
  inferInstanceAs (Decidable (_ ∈ _))

theorem kept_record {py : Python} {lower : Lower} {f : String}
    (review : LoggedReview) : kept py lower (folded lower f) review.record =
      decide (Mentioned py lower f review.result ∧ Reviewed review.result) := by
  have hmatches : matches_target py lower review.record (folded lower f) =
      decide (Mentioned py lower f review.result) := by
    by_cases hempty : folded lower f = ""
    · simp [matches_target, Mentioned, hempty]
    · have hnone : folded lower "" = "" := by simp [folded, lower.lower_empty]
      simp [matches_target, Mentioned, hempty, hnone, LoggedReview.record, result_record,
        PyDict.getD, List.lookup, Python.str]
  have hmeaningful : meaningful review.record = decide (Reviewed review.result) := by
    have hstatus : PyDict.getD review.record "status" (.str "") =
      .str review.result.status.value := rfl
    rw [Bool.eq_iff_iff, decide_eq_true_iff, meaningful, hstatus]
    unfold Reviewed
    cases review.result.status <;> decide
  rw [kept, hmatches, hmeaningful]
  simp

/-- A summary that can be cut at 200. -/
def Showable : PyVal → Prop
  | .str _ => True
  | .list xs => xs.length ≤ 200
  | .dict kvs => kvs.length ≤ 200
  | _ => False

theorem truncated_ok_iff {py : Python} {v : PyVal} :
    (∃ s, truncated_summary py v = .ok s) ↔ Showable v := by
  cases v with
  | list xs =>
    simp only [truncated_summary, Showable]
    split <;> simp_all
  | dict kvs =>
    simp only [truncated_summary, Showable]
    split <;> simp_all
  | _ => simp [truncated_summary, Showable]

/-- A time stamp that can be cut at 19. -/
def Sliceable : PyVal → Prop
  | .str _ => True
  | .list _ => True
  | _ => False

theorem date_ok_iff {py : Python} {v : PyVal} : (∃ s, date_part py v = .ok s) ↔ Sliceable v := by
  cases v <;> simp [date_part, PyVal.slice_to, Sliceable, Except.map]

/-- A confidence that can be printed as a number. -/
def Numeric : PyVal → Prop
  | .float _ => True
  | .int n => n.natAbs < FLOAT_BOUND
  | .bool _ => True
  | _ => False

theorem confidence_ok_iff {fixed : Rat → String} {v : PyVal} :
    (∃ s, confidence_text fixed v = .ok s) ↔ Numeric v := by
  cases v with
  | int n =>
    simp only [confidence_text, Numeric]
    split
    · simp_all
    · simp_all
  | _ => simp [confidence_text, Numeric]

/-- A record whose time, confidence and summary are of the types that are printed. -/
structure Formattable (record : PyDict) : Prop where
  timestamp : Sliceable (PyDict.getD record "timestamp" (.str ""))
  confidence : Numeric (PyDict.getD record "confidence_score" (.int 0))
  summary : Showable (PyDict.getD record "summary" (.str "(no summary)"))

theorem format_entry_ok_iff {py : Python} {fixed : Rat → String} {i : Nat} {record : PyDict} :
    (∃ entry, format_entry py fixed i record = .ok entry) ↔ Formattable record := by
  have hparts : Formattable record ↔
      (∃ s, date_part py (PyDict.getD record "timestamp" (.str "")) = .ok s) ∧
      (∃ s, confidence_text fixed (PyDict.getD record "confidence_score" (.int 0)) = .ok s) ∧
      ∃ s, truncated_summary py (PyDict.getD record "summary" (.str "(no summary)")) = .ok s := by
    rw [date_ok_iff, confidence_ok_iff, truncated_ok_iff]
    exact ⟨fun h => ⟨h.timestamp, h.confidence, h.summary⟩, fun h => ⟨h.1, h.2.1, h.2.2⟩⟩
  rw [hparts]
  unfold format_entry
  cases date_part py (PyDict.getD record "timestamp" (.str "")) with
  | error e => simp [bind, Except.bind]
  | ok timestamp =>
    cases confidence_text fixed (PyDict.getD record "confidence_score" (.int 0)) with
    | error e => simp [bind, Except.bind]
    | ok confidence =>
      cases truncated_summary py (PyDict.getD record "summary" (.str "(no summary)")) with
      | error e => simp [bind, Except.bind]
      | ok truncated => simp [bind, Except.bind, pure, Except.pure]

theorem formattable_record (review : LoggedReview) :
    Formattable review.record ↔ Showable review.result.summary :=
  ⟨fun h => h.summary, fun h => ⟨trivial, trivial, h⟩⟩

theorem format_from_ok_iff {py : Python} {fixed : Rat → String} {i : Nat}
    (records : List PyDict) : (∃ entries, format_from py fixed i records = .ok entries) ↔
      ∀ record ∈ records, Formattable record := by
  induction records generalizing i with
  | nil => simp [format_from]
  | cons record records ih =>
    rw [List.forall_mem_cons, ← @format_entry_ok_iff py fixed i, ← ih (i := i + 1), format_from]
    cases format_entry py fixed i record with
    | error e => simp [bind, Except.bind]
    | ok entry =>
      cases format_from py fixed (i + 1) records with
      | error e => simp [bind, Except.bind]
      | ok entries => simp [bind, Except.bind, pure, Except.pure]

/-- What `collect` makes of the records that the search found. -/
def report (py : Python) (fixed : Rat → String) (target : String) (found : List PyDict) :
    Except PyExc ContextFragment :=
  let metadata := [("source", .str "history"), ("target_file", .str target),
    ("matches", .int found.length)]
  if found.isEmpty then .ok { tier := "tier4", entries := [], metadata := metadata }
  else do
    let entries ← format_entries py fixed found target
    pure { tier := "tier4", entries := entries, metadata := metadata }

theorem report_ok_iff {py : Python} {fixed : Rat → String} {target : String}
    {found : List PyDict} : (∃ fragment, report py fixed target found = .ok fragment) ↔
      ∀ record ∈ found, Formattable record := by
  rw [← @format_from_ok_iff py fixed 1]
  cases found with
  | nil => simp [report, format_from]
  | cons record found =>
    simp only [report, List.isEmpty_cons, Bool.false_eq_true, if_false, format_entries]
    cases format_from py fixed 1 (record :: found) with
    | error e => simp [bind, Except.bind]
    | ok entries => simp [bind, Except.bind, pure, Except.pure]

theorem collect_some (provider : HistoryProvider) (py : Python) (lower : Lower)
    (fixed : Rat → String) (lines : List JsonText) (request : ReviewRequest) :
    provider.collect py lower fixed (some lines) request =
      report py fixed request.target_file
        ((provider.search py lower JsonText.loads lines request.target_file).map
          JsonText.loads) := rfl

/-- The provider answers just when it can show the summary of each review it found. -/
theorem collect_ok_iff {provider : HistoryProvider} {py : Python} {lower : Lower}
    {fixed : Rat → String} {reviews : List LoggedReview} {request : ReviewRequest} :
    (∃ fragment, provider.collect py lower fixed (some (review_log reviews)) request =
        .ok fragment) ↔
      ∀ review ∈ provider.search py lower LoggedReview.record (logged_reviews reviews)
        request.target_file, Showable review.result.summary := by
  rw [collect_some, search_reviews, report_ok_iff]
  simp [formattable_record]

/-- The newest reviews of `f` that a search can report, among the last lines. -/
def newest (provider : HistoryProvider) (f : String) (reviews : List LoggedReview) :
    List LoggedReview :=
  ((recent reviews).filter fun review => review.target_file = f ∧ Reviewed review.result).take
    provider.limit

/-- The provider returns the newest reviews of the file of the request, and nothing else. -/
def Recalled (provider : HistoryProvider) (py : Python) (lower : Lower)
    (fixed : Rat → String) (reviews : List LoggedReview) (request : ReviewRequest) : Prop :=
  provider.search py lower LoggedReview.record (logged_reviews reviews) request.target_file =
      provider.newest request.target_file (logged_reviews reviews) ∧
    ∃ fragment, provider.collect py lower fixed (some (review_log reviews)) request = .ok fragment

/-- Past reviews of a file are found again just when, from the newest line back to the last one
needed, exactly its own results mention it, and their summaries can be shown. -/
theorem recalled_iff {provider : HistoryProvider} {py : Python} {lower : Lower}
    {fixed : Rat → String} {reviews : List LoggedReview} {request : ReviewRequest} :
    Recalled provider py lower fixed reviews request ↔
      Agrees (fun review => decide (Mentioned py lower request.target_file review.result ∧
          Reviewed review.result))
        (fun review => decide (review.target_file = request.target_file ∧
          Reviewed review.result)) provider.limit (recent (logged_reviews reviews)) ∧
      ∀ review ∈ provider.newest request.target_file (logged_reviews reviews),
        Showable review.result.summary := by
  have hsearch : provider.search py lower LoggedReview.record (logged_reviews reviews)
      request.target_file = ((recent (logged_reviews reviews)).filter fun review =>
        decide (Mentioned py lower request.target_file review.result ∧
          Reviewed review.result)).take provider.limit := by
    simp only [search_eq, kept_record]
  rw [Recalled, collect_ok_iff, ← take_filter_eq_iff, hsearch]
  constructor
  · rintro ⟨heq, hall⟩
    rw [heq] at hall
    exact ⟨heq, hall⟩
  · rintro ⟨heq, hall⟩
    refine ⟨heq, ?_⟩
    rw [heq]
    exact hall

end HistoryProvider

/-- A Python that is asked for nothing but `str` of strings. -/
def textPython : Python where
  format := fun _ => ""
  repr := fun _ => ""
  float_of_text := fun s => .error (valueError s)
  loads := fun s => .error (valueError s)

/-- `str.lower` on texts without capitals. -/
def sampleLower : Lower := ⟨id, rfl⟩

def passedReview (target_file request_id summary : String) : LoggedReview where
  target_file := target_file
  now := "2026-01-01T00:00:00+00:00"
  result := {
    request_id := request_id
    state := .DELIVERED
    status := .pass
    summary := .str summary
    confidence_score := 1
    result_code := .str "REVIEW_PASSED"
    reviewer := .str "" }

/-- A review of `a.py`, then one of `b.py` whose summary speaks of `a.py`. -/
def mixedReviews : List LoggedReview :=
  [passedReview "a.py" "req_1" "ok", passedReview "b.py" "req_2" "same as a.py"]

/-- For `a.py` the provider returns the review of `b.py` alone. -/
theorem foreign_review_recalled :
    (({} : HistoryProvider).search textPython sampleLower LoggedReview.record
      (logged_reviews mixedReviews) "a.py").map (·.target_file) = ["b.py"] ∧
    (({} : HistoryProvider).newest "a.py" (logged_reviews mixedReviews)).map (·.target_file) =
      ["a.py"] ∧
    ∀ request : ReviewRequest, request.target_file = "a.py" →
      ¬HistoryProvider.Recalled {} textPython sampleLower (fun _ => "") mixedReviews request := by
  have hfound : (({} : HistoryProvider).search textPython sampleLower LoggedReview.record
      (logged_reviews mixedReviews) "a.py").map (·.target_file) = ["b.py"] := by decide +kernel
  have hnewest : (({} : HistoryProvider).newest "a.py" (logged_reviews mixedReviews)).map
      (·.target_file) = ["a.py"] := by decide +kernel
  refine ⟨hfound, hnewest, fun request hrequest h => ?_⟩
  have hsame := h.1
  rw [hrequest] at hsame
  rw [hsame, hnewest] at hfound
  simp at hfound

end Nitpicker
