import NitpickerDaemon.LspServer

/-!
The watcher of the language server: what the client shows after each poll of the review log.
-/

set_option autoImplicit false

namespace Nitpicker

open Traverse

/-- What a poll finds: no log, a log it cannot read or parse, or a review. -/
inductive Observation where
  | missing
  | unreadable (mtime : Rat)
  | document (mtime : Rat) (review : PyDict)

/-- The locals of `_watch_and_publish`, the cache, and the diagnostics the client has. -/
structure Watcher where
  last_mtime : Rat := -1
  last_uri : String := ""
  latest_review : PyDict := []
  client : String → List Diagnostic := fun _ => []
  /-- No exception has ended the thread. -/
  alive : Bool := true

namespace Watcher

/-- `textDocument/publishDiagnostics` -/
def notify (s : Watcher) (uri : String) (diagnostics : List Diagnostic) : Watcher :=
  { s with client := Function.update s.client uri diagnostics }

def clear_last (s : Watcher) (uri : String) : Watcher :=
  if s.last_uri ≠ "" ∧ s.last_uri ≠ uri then s.notify s.last_uri [] else s

/-- The review is in the cache, and its diagnostics go out. -/
def publish (py : Python) (s : Watcher) (review : PyDict) : Watcher :=
  match review_to_diagnostics py review with
  | .error e =>
    if e.isInstance .osError || e.isInstance .valueError then s else { s with alive := false }
  | .ok (uri, diagnostics) =>
    if uri = "" then s else { (s.clear_last uri).notify uri diagnostics with last_uri := uri }

/-- One turn of the loop of `_watch_and_publish`. -/
def poll (py : Python) (s : Watcher) (seen : Observation) : Watcher :=
  if s.alive = false then s
  else match seen with
  | .missing => s
  | .unreadable mtime => { s with last_mtime := mtime }
  | .document mtime review =>
    if mtime = s.last_mtime then s
    else publish py { s with last_mtime := mtime, latest_review := review } review

/-- The watcher after a history of polls. -/
def after (py : Python) (history : List Observation) : Watcher := history.foldl (poll py) {}

/-- The cache holds the review, and the client shows its diagnostics and no others. -/
def Shows (py : Python) (s : Watcher) (review : PyDict) : Prop :=
  s.latest_review = review ∧ ∃ uri diagnostics,
    review_to_diagnostics py review = .ok (uri, diagnostics) ∧
    ∀ u, s.client u = if u = uri then diagnostics else []

end Watcher

/-- The review names a file by a URI or an absolute path. -/
def Addressed (review : PyDict) : Prop :=
  ∃ path, review.getD "target_file" (.str "") = .str path ∧
    ("file://".toList <+: path.toList ∨ ['/'] <+: path.toList)

/-- The details are objects, and their line numbers are numbers where they are given. -/
def Convertible (review : PyDict) : Prop :=
  ∃ details, (review.getD "details" (.list [])).iter = .ok details ∧
    ∀ detail ∈ details, ∃ entries, detail = .dict entries ∧
      ((PyDict.get entries "line_number").truthy = true →
        (PyDict.get entries "line_number").number ≠ none)

section Conversion

variable {py : Python} {review : PyDict}

theorem minus_one_ok {value : PyVal} : (∃ v, value.minus_one = .ok v) ↔ value.number ≠ none := by
  cases value <;> simp [PyVal.minus_one, PyVal.number]

theorem as_uri_ok {path : String} : (∃ uri, as_uri path = .ok uri) ↔ ['/'] <+: path.toList := by
  unfold as_uri
  split
  · rename_i rest hpath
    simp [hpath]
  · rename_i hpath
    simp only [reduceCtorEq, exists_false, false_iff]
    rintro ⟨rest, hrest⟩
    exact hpath rest hrest.symm

theorem as_uri_ne {path uri : String} (h : as_uri path = .ok uri) : uri ≠ "" := by
  unfold as_uri at h
  split at h
  · cases h
    simp
  · cases h

/-- A file that is named by a URI or an absolute path has a URI. -/
theorem review_uri_ok (htarget : (review.getD "target_file" (.str "")).truthy = true) :
    (∃ uri, review_uri review = .ok uri) ↔ Addressed review := by
  unfold review_uri Addressed
  simp only [htarget, Bool.true_eq_false, if_false]
  split
  · rename_i path hpath
    simp only [hpath, PyVal.str.injEq, exists_eq_left', List.isPrefixOf_iff_prefix]
    split
    · rename_i hprefix
      exact iff_of_true ⟨_, rfl⟩ (.inl hprefix)
    · rename_i hprefix
      rw [as_uri_ok]
      exact ⟨.inr, fun h => h.resolve_left hprefix⟩
  · rename_i value hvalue
    simp only [reduceCtorEq, exists_false, false_iff]
    rintro ⟨path, hpath, -⟩
    exact hvalue path hpath

theorem review_uri_ne {uri : String}
    (htarget : (review.getD "target_file" (.str "")).truthy = true)
    (h : review_uri review = .ok uri) : uri ≠ "" := by
  unfold review_uri at h
  simp only [htarget, Bool.true_eq_false, if_false] at h
  split at h
  · split at h
    · rename_i path hpath hprefix
      cases h
      rintro rfl
      simp at hprefix
    · exact as_uri_ne h
  · cases h

theorem detail_diagnostic_ok {detail : PyVal} : (∃ d, detail_diagnostic py detail = .ok d) ↔
    ∃ entries, detail = .dict entries ∧ ((PyDict.get entries "line_number").truthy = true →
      (PyDict.get entries "line_number").number ≠ none) := by
  cases detail with
  | dict entries =>
    have hline : (∃ d, detail_diagnostic py (.dict entries) = .ok d) ↔
        ∃ line, ((PyDict.get entries "line_number").or (.int 1)).minus_one = .ok line := by
      simp only [detail_diagnostic, PyVal.call_get, bind_ok]
      constructor
      · rintro ⟨_, _, h, line, hline, -⟩
        cases h
        exact ⟨line, hline⟩
      · rintro ⟨line, hline⟩
        exact ⟨_, _, rfl, line, hline, _, rfl, _, rfl, _, rfl, _, rfl, _, rfl, rfl⟩
    rw [hline, minus_one_ok]
    simp only [PyVal.dict.injEq, exists_eq_left', PyVal.or]
    split
    · rename_i htruthy
      simp [htruthy]
    · rename_i htruthy
      simp [htruthy, PyVal.number]
  | _ => simp [detail_diagnostic, PyVal.call_get, bind, Except.bind]

/-- The conversion returns just for a review that is addressed and convertible, or names no file. -/
theorem review_to_diagnostics_ok : (∃ r, review_to_diagnostics py review = .ok r) ↔
    ((review.getD "target_file" (.str "")).truthy = true → Addressed review ∧ Convertible review) := by
  unfold review_to_diagnostics
  by_cases htarget : (review.getD "target_file" (.str "")).truthy = true
  · rw [← review_uri_ok htarget]
    simp only [htarget, Bool.true_eq_false, if_false, bind_ok, true_imp_iff, Convertible]
    simp only [← @detail_diagnostic_ok py, ← mapM_ok_exists]
    constructor
    · rintro ⟨_, uri, huri, details, hdetails, ds, hds, -⟩
      exact ⟨⟨uri, huri⟩, details, hdetails, ds, hds⟩
    · rintro ⟨⟨uri, huri⟩, details, hdetails, ds, hds⟩
      exact ⟨_, uri, huri, details, hdetails, ds, hds, rfl⟩
  · have hfalse := Bool.not_eq_true _ ▸ htarget
    simp only [hfalse, if_true]
    exact iff_of_true ⟨_, rfl⟩ nofun

theorem review_to_diagnostics_unnamed
    (htarget : (review.getD "target_file" (.str "")).truthy = false) :
    review_to_diagnostics py review = .ok ("", []) := by
  simp only [review_to_diagnostics, htarget, if_true]
  rfl

theorem review_to_diagnostics_uri {uri : String} {diagnostics : List Diagnostic}
    (h : review_to_diagnostics py review = .ok (uri, diagnostics)) : review_uri review = .ok uri := by
  unfold review_to_diagnostics at h
  by_cases htarget : (review.getD "target_file" (.str "")).truthy = true
  · simp only [htarget, Bool.true_eq_false, if_false, bind_ok] at h
    obtain ⟨uri', huri, details, -, ds, -, hr⟩ := h
    cases hr
    exact huri
  · simp only [Bool.not_eq_true] at htarget
    simp only [htarget, if_true] at h
    cases h
    simp [review_uri, htarget]

end Conversion

namespace Watcher

variable {py : Python} {s : Watcher} {review : PyDict} {mtime : Rat}

theorem clear_last_review (s : Watcher) (uri : String) :
    (s.clear_last uri).latest_review = s.latest_review := by
  unfold clear_last
  split <;> rfl

/-- The client shows diagnostics of the last URI only, and of none before there is one. -/
structure Tidy (s : Watcher) : Prop where
  last : ∀ u, u ≠ s.last_uri → s.client u = []
  none : s.last_uri = "" → ∀ u, s.client u = []

/-- After the publication the client shows the diagnostics under their URI and no others. -/
theorem Tidy.shown (h : s.Tidy) {uri : String} {diagnostics : List Diagnostic} (u : String) :
    ((s.clear_last uri).notify uri diagnostics).client u = if u = uri then diagnostics else [] := by
  unfold clear_last
  by_cases hu : u = uri
  · simp [notify, hu]
  · rw [if_neg hu]
    split
    · simp only [notify, Function.update_of_ne hu]
      by_cases hlast : u = s.last_uri
      · simp [hlast]
      · rw [Function.update_of_ne hlast, h.last u hlast]
    · rename_i hclear
      simp only [notify, Function.update_of_ne hu]
      by_cases hlast : u = s.last_uri
      · refine h.none ?_ u
        by_contra hne
        exact hclear ⟨hne, fun heq => hu (hlast.trans heq)⟩
      · exact h.last u hlast

theorem Tidy.publish (h : s.Tidy) : (publish py s review).Tidy := by
  unfold Watcher.publish
  split
  · split <;> exact ⟨h.last, h.none⟩
  · rename_i uri diagnostics _
    split
    · exact h
    · rename_i hne
      refine ⟨fun u hu => ?_, fun huri => absurd huri hne⟩
      exact (h.shown u).trans (if_neg hu)

theorem Tidy.poll (h : s.Tidy) (seen : Observation) : (poll py s seen).Tidy := by
  unfold Watcher.poll
  split
  · exact h
  · split
    · exact h
    · exact ⟨h.last, h.none⟩
    · split
      · exact h
      · exact Tidy.publish ⟨h.last, h.none⟩

theorem after_tidy (history : List Observation) : (after py history).Tidy := by
  refine List.foldlRecOn history (motive := Tidy) _ ⟨fun _ _ => rfl, fun _ _ => rfl⟩
    fun s h seen _ => h.poll seen

/-- After a poll that saw a new version the client and the cache hold that review, just when the
review is addressed and convertible, or names no file and the client shows nothing. -/
theorem newest_shown_iff (history : List Observation) (halive : (after py history).alive = true)
    (hnew : mtime ≠ (after py history).last_mtime) :
    Shows py (after py (history ++ [.document mtime review])) review ↔
      if (review.getD "target_file" (.str "")).truthy then Addressed review ∧ Convertible review
      else ∀ u, (after py history).client u = [] := by
  have htidy : (after py history).Tidy := after_tidy history
  have hafter : after py (history ++ [.document mtime review]) =
      publish py { after py history with last_mtime := mtime, latest_review := review } review := by
    rw [after, List.foldl_append, ← after, List.foldl_cons, List.foldl_nil, poll,
      if_neg (by simp [halive])]
    simp only [hnew, if_false]
  rw [hafter]
  generalize after py history = s at htidy
  have htidy' : Tidy { s with last_mtime := mtime, latest_review := review } :=
    ⟨htidy.last, htidy.none⟩
  have hok := @review_to_diagnostics_ok py review
  unfold Shows Watcher.publish
  cases hr : review_to_diagnostics py review with
  | error e =>
    rw [hr] at hok
    have hfails : ¬∃ r, (Except.error e : Except PyExc (String × List Diagnostic)) = .ok r := by simp
    rw [hok] at hfails
    simp only [Classical.not_imp] at hfails
    rw [if_pos hfails.1]
    exact iff_of_false (by simp) hfails.2
  | ok r =>
    obtain ⟨uri, diagnostics⟩ := r
    have hconverts := hok.mp ⟨_, hr⟩
    have huri := review_to_diagnostics_uri hr
    by_cases htarget : (review.getD "target_file" (.str "")).truthy = true
    · have hne := review_uri_ne htarget huri
      rw [if_pos htarget]
      simp only [hne, if_false]
      exact iff_of_true ⟨clear_last_review _ _, uri, diagnostics, rfl, fun u => htidy'.shown u⟩
        (hconverts htarget)
    · have hfalse := Bool.not_eq_true _ ▸ htarget
      rw [review_to_diagnostics_unnamed hfalse] at hr
      cases hr
      rw [if_neg htarget]
      simp

section Samples

/-- A review with one finding, as the writers make it. -/
def reviewOf (target_file : String) (line_number : PyVal) : PyDict :=
  [("target_file", .str target_file),
    ("details", .list [.dict [("line_number", line_number), ("issue", .str "bad name")]])]

theorem absolute_addressed (line_number : PyVal) : Addressed (reviewOf "/repo/a.py" line_number) :=
  ⟨"/repo/a.py", rfl, .inr ⟨"repo/a.py".toList, by decide +kernel⟩⟩

theorem numbered_convertible (target_file : String) (n : Int) :
    Convertible (reviewOf target_file (.int n)) := by
  refine ⟨_, rfl, fun detail hmem => ⟨_, List.mem_singleton.mp hmem, fun _ => ?_⟩⟩
  simp [PyDict.get, PyDict.getD, PyVal.number]

/-- A second review of the same file replaces the first. -/
theorem second_review_shown : Shows text_python
    (after text_python [.document 1 (reviewOf "/repo/a.py" (.int 3)),
      .document 2 (reviewOf "/repo/a.py" (.int 5))]) (reviewOf "/repo/a.py" (.int 5)) :=
  (newest_shown_iff [.document 1 (reviewOf "/repo/a.py" (.int 3))] rfl
    (by with_unfolding_all decide)).mpr
    ⟨absolute_addressed _, numbered_convertible _ _⟩

/-- A review with a relative path, as the mini reviewer writes it, is in the cache while the client
shows the review before it; a line number that is a string ends the thread. -/
theorem relative_review_hidden :
    (∃ s, s = after text_python [.document 1 (reviewOf "/repo/a.py" (.int 3)),
      .document 2 (reviewOf "src/b.py" (.int 5))] ∧ s.alive = true ∧
      s.latest_review = reviewOf "src/b.py" (.int 5) ∧ s.client "file:///repo/a.py" ≠ [] ∧
      ¬Shows text_python s (reviewOf "src/b.py" (.int 5))) ∧
    (after text_python [.document 1 (reviewOf "/repo/a.py" (.str "3"))]).alive = false := by
  refine ⟨⟨_, rfl, ?_, ?_, ?_, ?_⟩, ?_⟩
  · rfl
  · rfl
  · exact List.cons_ne_nil _ _
  · rintro ⟨-, uri, diagnostics, hr, -⟩
    have herror : review_to_diagnostics text_python (reviewOf "src/b.py" (.int 5)) =
        .error (valueError "relative path can't be expressed as a file URI") := rfl
    rw [herror] at hr
    cases hr
  · rfl

end Samples

end Watcher

end Nitpicker
