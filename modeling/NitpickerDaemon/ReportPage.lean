import NitpickerDaemon.Data.Traverse
import NitpickerDaemon.ReviewReport

/-!
The page of the review report: whatever the analytics log holds, its two tables are read back.
-/

set_option autoImplicit false

namespace Nitpicker

open Text Text.Html Traverse

namespace ReportGenerator

/-- `html.escape(value)` for a text or `None` -/
def h : Option String → Except PyExc String
  | some s => .ok (String.ofList (escape s.toList))
  | none => .error (attributeError .none "replace")

def result_row (code : Option String) (cnt : Nat) : Except PyExc String := do
  let color := if code = some "REVIEW_PASSED" then "#36a64f" else "#dc3545"
  return "<tr><td style=\"color:" ++ color ++ ";font-weight:bold\">" ++ (← h code) ++ "</td><td>" ++
    toString cnt ++ "</td></tr>\n"

def rejected_row (r : ReviewEvent) : Except PyExc String := do
  let ts ← h (some (String.ofList (r.recorded_at.toList.take 19)))
  return "<tr><td>" ++ ts ++ "</td><td>" ++ (← h r.result_code) ++ "</td><td>" ++
    (← h r.request_id) ++ "</td></tr>\n"

def PAGE_HEAD : String := "<!DOCTYPE html>\n<html lang=\"ko\">\n<head>\n<meta charset=\"utf-8\">\n" ++
  "<title>Nitpicker Review Report</title>\n<style>"

def PAGE_STYLE : List String :=
  ["\n  body \x7b font-family: -apple-system, 'Malgun Gothic', sans-serif; max-width: 800px;",
    " margin: 2rem auto; padding: 0 1rem; \x7d\n",
    "  h1 \x7b border-bottom: 2px solid #333; padding-bottom: .5rem; \x7d\n",
    "  table \x7b border-collapse: collapse; width: 100%; margin: 1rem 0; \x7d\n",
    "  th, td \x7b border: 1px solid #ddd; padding: .5rem .75rem; text-align: left; \x7d\n",
    "  th \x7b background: #f5f5f5; \x7d\n",
    "  .stat \x7b display: inline-block; margin: .5rem 1.5rem .5rem 0; \x7d\n",
    "  .stat-value \x7b font-size: 1.5rem; font-weight: bold; \x7d\n",
    "  .stat-label \x7b color: #666; font-size: .85rem; \x7d\n"]

/-- `html_report`, up to the page it writes. -/
def html_page (stats : SummaryStats) (kst_now : String) : Except PyExc String := do
  let results_html ← stats.results.mapM fun (code, cnt) => result_row code cnt
  let rejected_html ← (stats.top_rejected.take 10).mapM rejected_row
  return String.join [PAGE_HEAD, String.join PAGE_STYLE,
    "</style>\n</head>\n<body>\n<h1>Nitpicker Review Report</h1>\n<p>",
    String.ofList (escape kst_now.toList),
    "</p>\n\n<div>\n  <div class=\"stat\"><div class=\"stat-value\">", toString stats.total_events,
    "</div><div class=\"stat-label\">총 이벤트</div></div>",
    "\n  <div class=\"stat\"><div class=\"stat-value\">", toString stats.unique_requests,
    "</div><div class=\"stat-label\">고유 요청</div></div>",
    "\n  <div class=\"stat\"><div class=\"stat-value\">", toString stats.l3_count,
    "</div><div class=\"stat-label\">L3 LLM 리뷰</div></div>",
    "\n</div>\n\n<h2>결과 분포</h2>", "\n<table><tr><th>Result Code</th><th>Count</th></tr>",
    "\n", String.join results_html, "</table>\n\n<h2>최근 거부</h2>",
    "\n<table><tr><th>Time</th><th>Result</th><th>Request ID</th></tr>", "\n",
    String.join rejected_html, "</table>",
    "\n\n<footer style=\"margin-top:2rem;color:#999;font-size:.8rem\">",
    "Generated by Nitpicker Daemon</footer>\n</body>\n</html>"]

theorem h_ok {value : Option String} {text : String} (hv : h value = .ok text) :
    ∃ s, value = some s ∧ text.toList = escape s.toList := by
  cases value with
  | none => cases hv
  | some s =>
    cases hv
    exact ⟨s, rfl, by simp⟩

theorem opens_td : OpensCell "td".toList := ⟨fun _ => rfl, by decide⟩

theorem opens_result_cell (code : Option String) : OpensCell ("td style=\"color:".toList ++
    ((if code = some "REVIEW_PASSED" then "#36a64f" else "#dc3545").toList ++
      ";font-weight:bold\"".toList)) := by
  split
  · exact ⟨fun _ => rfl, by decide⟩
  · exact ⟨fun _ => rfl, by decide⟩

theorem digits_plain (n : Nat) : ∀ c ∈ (toString n).toList, c ∉ ['&', '<', '>', '"', '\''] := by
  intro c hc
  have hdigit : c.isDigit = true := by
    rw [Nat.toString_eq_repr, Nat.toList_repr] at hc
    exact Nat.isDigit_of_mem_toDigits (by decide) (by decide) hc
  simp only [List.mem_cons, List.not_mem_nil, or_false, not_or]
  refine ⟨?_, ?_, ?_, ?_, ?_⟩ <;> (rintro rfl; revert hdigit; decide)

/-- A part of the page whose characters open no tag. -/
theorem shows_plain {text : String} (h : '<' ∉ text.toList) : Shows text.toList [] := shows_data h

theorem shows_number (n : Nat) : Shows (toString n).toList [] :=
  shows_data fun hmem => digits_plain n _ hmem (by decide)

theorem shows_escaped (text : String) : Shows (String.ofList (escape text.toList)).toList [] := by
  rw [String.toList_ofList]
  exact shows_data (escape_no_tag _)

theorem shows_newline : Shows "\n".toList [] := shows_data (by decide)

/-- The cells of a row of the first table. -/
def result_cells (result : Option String × Nat) : List (List Char) :=
  [(result.1.getD "").toList, (toString result.2).toList]

/-- The cells of a row of the second one. -/
def rejected_cells (r : ReviewEvent) : List (List Char) :=
  [r.recorded_at.toList.take 19, (r.result_code.getD "").toList, (r.request_id.getD "").toList]

theorem shows_result_row {code : Option String} {cnt : Nat} {row : String}
    (hrow : result_row code cnt = .ok row) : Shows row.toList [result_cells (code, cnt)] := by
  simp only [result_row] at hrow
  cases hcode : h code with
  | error e => simp [hcode, bind, Except.bind] at hrow
  | ok text =>
    obtain ⟨s, rfl, htext⟩ := h_ok hcode
    simp only [hcode, bind, Except.bind, pure, Except.pure, Except.ok.injEq] at hrow
    subst hrow
    have hcells : ∀ cell ∈ ([("td style=\"color:".toList ++
        ((if some s = some "REVIEW_PASSED" then "#36a64f" else "#dc3545").toList ++
          ";font-weight:bold\"".toList), s.toList), ("td".toList, (toString cnt).toList)] : List Cell),
        OpensCell cell.1 := by
      simp only [List.forall_mem_cons, List.not_mem_nil, false_implies, implies_true, and_true]
      exact ⟨opens_result_cell _, opens_td⟩
    have hshown := (shows_row hcells).append shows_newline
    simp only [row_html, List.flatMap_cons, List.flatMap_nil, List.append_nil, Cell.html,
      escape_plain (digits_plain cnt)] at hshown
    simp only [String.toList_append, htext]
    simpa [result_cells] using hshown

theorem shows_rejected_row {r : ReviewEvent} {row : String} (hrow : rejected_row r = .ok row) :
    Shows row.toList [rejected_cells r] := by
  simp only [rejected_row, h, bind, Except.bind, pure, Except.pure] at hrow
  cases hcode : r.result_code with
  | none => simp [hcode] at hrow
  | some code =>
    cases hid : r.request_id with
    | none => simp [hcode, hid] at hrow
    | some request_id =>
      simp only [hcode, hid, Except.ok.injEq] at hrow
      subst hrow
      have hcells : ∀ cell ∈ ([("td".toList, r.recorded_at.toList.take 19),
          ("td".toList, code.toList), ("td".toList, request_id.toList)] : List Cell),
          OpensCell cell.1 := by
        simp only [List.forall_mem_cons, List.not_mem_nil, false_implies, implies_true, and_true]
        exact ⟨opens_td, opens_td, opens_td⟩
      have hshown := (shows_row hcells).append shows_newline
      simp only [row_html, List.flatMap_cons, List.flatMap_nil, List.append_nil, Cell.html] at hshown
      simp only [String.toList_append, String.toList_ofList]
      simpa [rejected_cells, hcode, hid] using hshown

theorem shows_rows {α : Type} {f : α → Except PyExc String} {cells : α → List (List Char)}
    (hf : ∀ x row, f x = .ok row → Shows row.toList [cells x]) {xs : List α} {rows : List String}
    (hrows : xs.mapM f = .ok rows) : Shows (String.join rows).toList (xs.map cells) := by
  rw [String.toList_join]
  have hall := mapM_ok_iff.mp hrows
  clear hrows
  induction hall with
  | nil => exact .nil
  | @cons x row xs rows hrow _ ih => exact (hf x row hrow).append ih

theorem shows_style : Shows (String.join PAGE_STYLE).toList [] := by
  rw [String.toList_join]
  refine shows_data fun hmem => ?_
  obtain ⟨line, hline, hlt⟩ := List.mem_flatMap.mp hmem
  have hlines : ∀ line ∈ PAGE_STYLE, '<' ∉ line.toList := by
    simp only [PAGE_STYLE, List.forall_mem_cons, List.not_mem_nil, false_implies, implies_true,
      and_true]
    refine ⟨?_, ?_, ?_, ?_, ?_, ?_, ?_, ?_, ?_⟩ <;> decide
  exact hlines line hline hlt

theorem shows_head : Shows PAGE_HEAD.toList [] := fun _ => rfl

theorem shows_join {parts : List String} {rowss : List (List (List (List Char)))}
    (h : List.Forall₂ (fun part rows => Shows part.toList rows) parts rowss) :
    Shows (String.join parts).toList rowss.flatten := by
  rw [String.toList_join]
  induction h with
  | nil => exact .nil
  | cons hpart _ ih => exact hpart.append ih

theorem page_rows {stats : SummaryStats} {kst_now page : String}
    (hpage : html_page stats kst_now = .ok page) :
    table_rows page.toList = ["Result Code".toList, "Count".toList] ::
      stats.results.map result_cells ++ ["Time".toList, "Result".toList, "Request ID".toList] ::
      (stats.top_rejected.take 10).map rejected_cells := by
  simp only [html_page] at hpage
  cases hresults : stats.results.mapM fun x => result_row x.1 x.2 with
  | error e => simp [hresults, bind, Except.bind] at hpage
  | ok results_html =>
    cases hrejected : (stats.top_rejected.take 10).mapM rejected_row with
    | error e => simp [hresults, hrejected, bind, Except.bind] at hpage
    | ok rejected_html =>
      simp only [hresults, hrejected, bind, Except.bind, pure, Except.pure, Except.ok.injEq]
        at hpage
      subst hpage
      have hrows : ([[], [], [], [], [], [], [], [], [], [], [], [], [], [],
          [["Result Code".toList, "Count".toList]], [], stats.results.map result_cells, [],
          [["Time".toList, "Result".toList, "Request ID".toList]], [],
          (stats.top_rejected.take 10).map rejected_cells, [], [], []] :
            List (List (List (List Char)))).flatten = ["Result Code".toList, "Count".toList] ::
          stats.results.map result_cells ++ ["Time".toList, "Result".toList, "Request ID".toList] ::
          (stats.top_rejected.take 10).map rejected_cells := by simp
      rw [← hrows]
      refine Shows.page (shows_join ?_)
      exact .cons shows_head <| .cons shows_style <| .cons (fun _ => rfl) <|
        .cons (shows_escaped kst_now) <| .cons (fun _ => rfl) <| .cons (shows_number _) <|
        .cons (fun _ => rfl) <| .cons (fun _ => rfl) <| .cons (shows_number _) <|
        .cons (fun _ => rfl) <| .cons (fun _ => rfl) <| .cons (shows_number _) <|
        .cons (fun _ => rfl) <| .cons (fun _ => rfl) <| .cons (fun _ => rfl) <|
        .cons shows_newline <| .cons (shows_rows (fun _ _ => shows_result_row) hresults) <|
        .cons (fun _ => rfl) <| .cons (fun _ => rfl) <| .cons shows_newline <|
        .cons (shows_rows (fun _ _ => shows_rejected_row) hrejected) <| .cons (fun _ => rfl) <|
        .cons (fun _ => rfl) <| .cons (fun _ => rfl) .nil

theorem result_row_ok {code : Option String} {cnt : Nat} :
    (∃ row, result_row code cnt = .ok row) ↔ code ≠ none := by
  cases code with
  | none => simp [result_row, h, bind, Except.bind]
  | some code => simp [result_row, h, bind, Except.bind, pure, Except.pure]

theorem rejected_row_ok {r : ReviewEvent} :
    (∃ row, rejected_row r = .ok row) ↔ r.result_code ≠ none ∧ r.request_id ≠ none := by
  simp only [rejected_row, h, bind, Except.bind, pure, Except.pure]
  cases r.result_code with
  | none => simp
  | some code => cases r.request_id <;> simp

/-- The page can be written just when no value it shows is NULL, and then, whatever markup the
values hold, exactly the two tables are read back from it. -/
theorem html_page_read (stats : SummaryStats) (kst_now : String) :
    ((∃ page, html_page stats kst_now = .ok page) ↔
      (∀ result ∈ stats.results, result.1 ≠ none) ∧
      ∀ r ∈ stats.top_rejected.take 10, r.result_code ≠ none ∧ r.request_id ≠ none) ∧
    ∀ page, html_page stats kst_now = .ok page →
      table_rows page.toList = ["Result Code".toList, "Count".toList] ::
        stats.results.map result_cells ++ ["Time".toList, "Result".toList, "Request ID".toList] ::
        (stats.top_rejected.take 10).map rejected_cells := by
  have hresults : (∃ rows, (stats.results.mapM fun x => result_row x.1 x.2) = .ok rows) ↔
      ∀ result ∈ stats.results, result.1 ≠ none := by
    rw [mapM_ok_exists]
    exact forall₂_congr fun _ _ => result_row_ok
  have hrejected : (∃ rows, (stats.top_rejected.take 10).mapM rejected_row = .ok rows) ↔
      ∀ r ∈ stats.top_rejected.take 10, r.result_code ≠ none ∧ r.request_id ≠ none := by
    rw [mapM_ok_exists]
    exact forall₂_congr fun _ _ => rejected_row_ok
  refine ⟨?_, fun page => page_rows⟩
  rw [← hresults, ← hrejected]
  simp only [html_page]
  cases stats.results.mapM fun x => result_row x.1 x.2 with
  | error e => simp [bind, Except.bind]
  | ok rows =>
    cases (stats.top_rejected.take 10).mapM rejected_row with
    | error e => simp [bind, Except.bind]
    | ok rows' => simp [bind, Except.bind, pure, Except.pure]

end ReportGenerator

end Nitpicker
