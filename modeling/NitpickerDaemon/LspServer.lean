import NitpickerDaemon.PyText
import NitpickerDaemon.Data.Traverse
import NitpickerDaemon.Text.Json

/-!
The language server: diagnostics and code actions from the latest review.
-/

set_option autoImplicit false

namespace Nitpicker

/-- `value.get(key, default)` -/
def PyVal.call_get (value : PyVal) (key : String) (default : PyVal) : Except PyExc PyVal :=
  match value with
  | .dict d => .ok (PyDict.getD d key default)
  | _ => .error (attributeError value "get")

/-- `value[key]` for a string `key` -/
def PyVal.item (value : PyVal) (key : String) : Except PyExc PyVal :=
  match value with
  | .dict d => match d.lookup key with
    | some v => .ok v
    | Option.none => .error (keyError key)
  | .list _ => .error (typeError "list indices must be integers or slices, not str")
  | .str _ => .error (typeError "string indices must be integers, not 'str'")
  | _ => .error (typeError ("'" ++ value.type_name ++ "' object is not subscriptable"))

/-- `for x in value` -/
def PyVal.iter (value : PyVal) : Except PyExc (List PyVal) :=
  match value with
  | .list xs => .ok xs
  | .dict d => .ok (d.map fun kv => .str kv.1)
  | .str s => .ok (s.toList.map fun c => .str (String.ofList [c]))
  | _ => .error (typeError ("'" ++ value.type_name ++ "' object is not iterable"))

def PyVal.number : PyVal → Option Rat
  | .int n => some n
  | .bool b => some (if b then 1 else 0)
  | .float q => some q
  | _ => Option.none

/-- `value - 1` -/
def PyVal.minus_one : PyVal → Except PyExc PyVal
  | .int n => .ok (.int (n - 1))
  | .bool b => .ok (.int (if b then 0 else -1))
  | .float q => .ok (.float (q - 1))
  | value => .error (typeError
      ("unsupported operand type(s) for -: '" ++ value.type_name ++ "' and 'int'"))

/-- `value + 1` of a number -/
def PyVal.plus_one : PyVal → Except PyExc PyVal
  | .int n => .ok (.int (n + 1))
  | .bool b => .ok (.int (if b then 2 else 1))
  | .float q => .ok (.float (q + 1))
  | value => .error (typeError
      ("unsupported operand type(s) for +: '" ++ value.type_name ++ "' and 'int'"))

/-- `max(0, value)` of a number -/
def PyVal.max_zero (value : PyVal) : PyVal :=
  match value.number with
  | some q => if 0 < q then value else .int 0
  | Option.none => value

/-- `a <= b` of values of which `b` is a number -/
def PyVal.le (a b : PyVal) : Except PyExc Bool :=
  match a.number, b.number with
  | some p, some q => .ok (p ≤ q)
  | _, _ => .error (typeError
      ("'<=' not supported between instances of '" ++ a.type_name ++ "' and '" ++ b.type_name ++ "'"))

mutual

/-- `a == b` -/
def PyVal.equals : PyVal → PyVal → Bool
  | .none, .none => true
  | .str s, .str t => s == t
  | .list xs, .list ys => PyVal.equalsList xs ys
  | .dict d, .dict e => d.length == e.length && PyVal.equalsDict d e
  | .object s, .object t => s == t
  | .bool b, v => v.number == some (if b then 1 else 0)
  | .int n, v => v.number == some (n : Rat)
  | .float q, v => v.number == some q
  | _, _ => false

def PyVal.equalsList : List PyVal → List PyVal → Bool
  | [], [] => true
  | x :: xs, y :: ys => x.equals y && PyVal.equalsList xs ys
  | _, _ => false

def PyVal.equalsDict : List (String × PyVal) → List (String × PyVal) → Bool
  | [], _ => true
  | (key, x) :: d, e =>
    (match e.lookup key with
      | some y => x.equals y
      | Option.none => false) && PyVal.equalsDict d e

end

/-- `sep.join(values)` -/
def join_values (sep : String) (value : PyVal) : Except PyExc String := do
  let items ← match value.iter with
    | .ok items => .ok items
    | .error _ => .error (typeError "can only join an iterable")
  let texts ← items.zipIdx.mapM fun
    | (.str s, _) => .ok s
    | (other, i) => .error (typeError ("sequence item " ++ toString i ++
        ": expected str instance, " ++ other.type_name ++ " found"))
  return sep.intercalate texts

section FileUri

/-- The path with empty and `.` parts left out, as `Path` holds it. -/
def posix_parts (path : String) : List (List Char) :=
  (path.toList.splitOn '/').filter fun part => part ≠ [] ∧ part ≠ ['.']

/-- A character that `quote_from_bytes` leaves alone. -/
def unquoted (b : UInt8) : Bool :=
  let n := b.toNat
  (48 ≤ n && n ≤ 57) || (65 ≤ n && n ≤ 90) || (97 ≤ n && n ≤ 122) ||
    n == 45 || n == 46 || n == 47 || n == 95 || n == 126

def hex_digit (n : Nat) : Char := (Nat.digitChar n).toUpper

def quote_byte (b : UInt8) : List Char :=
  if unquoted b then [Char.ofNat b.toNat]
  else ['%', hex_digit (b.toNat / 16), hex_digit (b.toNat % 16)]

def quote_path (path : List Char) : List Char :=
  (path.flatMap fun c => Text.utf8_bytes (Text.code_point c)).flatMap quote_byte

/-- `Path(path).as_uri()`; two leading slashes stay two. -/
def as_uri (path : String) : Except PyExc String :=
  match path.toList with
  | '/' :: rest =>
    let root := if ['/'] <+: rest ∧ ¬['/', '/'] <+: rest then "//" else "/"
    .ok ("file://" ++ root ++
      String.ofList (quote_path (Text.joined '/' (posix_parts path))))
  | _ => .error (valueError "relative path can't be expressed as a file URI")

end FileUri

structure Diagnostic where
  line : PyVal
  severity : Nat
  source : String
  message : String
  code : PyVal
  agent : PyVal

def SEVERITY_MAP : List (String × Nat) :=
  [("error", 1), ("warning", 2), ("warn", 2), ("information", 3), ("info", 3), ("hint", 4)]

def detail_diagnostic (py : Python) (detail : PyVal) : Except PyExc Diagnostic := do
  let line_number ← detail.call_get "line_number" .none
  let line ← (line_number.or (.int 1)).minus_one
  let severity ← detail.call_get "severity" (.str "warning")
  let issue ← detail.call_get "issue" .none
  let message ← detail.call_get "message" .none
  let code ← detail.call_get "code" (.str "")
  let agent ← detail.call_get "agent" (.str "")
  return {
    line := line.max_zero
    severity := (SEVERITY_MAP.lookup (py.str severity).toLower).getD 2
    source := if agent.truthy then "jemmin/" ++ py.str agent else "jemmin"
    message := py.str ((issue.or message).or (.str "review finding"))
    code, agent }

/-- The URI of the reviewed file; `""` when the review names none. -/
def review_uri (review : PyDict) : Except PyExc String :=
  let target_file := review.getD "target_file" (.str "")
  if target_file.truthy = false then .ok ""
  else match target_file with
    | .str path => if ("file://".toList).isPrefixOf path.toList then .ok path else as_uri path
    | value => .error (attributeError value "startswith")

/-- `_review_to_diagnostics` -/
def review_to_diagnostics (py : Python) (review : PyDict) :
    Except PyExc (String × List Diagnostic) := do
  let target_file := review.getD "target_file" (.str "")
  if target_file.truthy = false then return ("", [])
  let uri ← review_uri review
  let details ← (review.getD "details" (.list [])).iter
  return (uri, ← details.mapM (detail_diagnostic py))

structure TextEdit where
  start_line : PyVal
  start_character : Nat
  end_line : PyVal
  end_character : Nat
  new_text : String

/-- A code action; its edit changes the lines of one file. -/
structure CodeAction where
  title : PyVal
  diagnostics : List PyVal
  is_preferred : Bool := false
  edit : Option (String × List TextEdit)

def hunk_edit (hunk : PyVal) : Except PyExc TextEdit := do
  let start_line ← hunk.item "start_line"
  let end_line ← hunk.item "end_line"
  let new_lines ← hunk.call_get "new_lines" (.list [])
  let text ← join_values "\n" new_lines
  return ⟨start_line, 0, end_line, 0, text ++ "\n"⟩

/-- The diagnostics of the request whose data have the code. -/
def coded (context_diagnostics : List PyVal) (code : PyVal) : Except PyExc (List PyVal) := do
  let kept ← context_diagnostics.mapM fun d => do
    let data ← d.call_get "data" .none
    match data with
    | .dict entries => return if (PyDict.get entries "code").equals code then some d else none
    | _ => return none
  return kept.reduceOption

def patch_action (ca : PyVal) (uri : String) (context_diagnostics : List PyVal) :
    Except PyExc CodeAction := do
  let title ← ca.call_get "title" (.str "Quick Fix")
  let edits ← (← ca.call_get "edits" (.list [])).iter
  let text_edits ← edits.mapM hunk_edit
  return ⟨title, context_diagnostics, true,
    if text_edits = [] then none else some (uri, text_edits)⟩

def suppress_action (py : Python) (ca action_line : PyVal) (uri : String)
    (context_diagnostics : List PyVal) : Except PyExc CodeAction := do
  let title ← ca.call_get "title" (.str "Quick Fix")
  let suppress_code ← ca.call_get "suppress_code" (.str "")
  return ⟨title, ← coded context_diagnostics suppress_code, false,
    some (uri, [⟨action_line, 9999, action_line, 9999, "  # noqa: " ++ py.str suppress_code⟩])⟩

def edit_action (ca action_line : PyVal) (uri : String) (context_diagnostics : List PyVal) :
    Except PyExc CodeAction := do
  let title ← ca.call_get "title" (.str "Quick Fix")
  let next_line ← action_line.plus_one
  match ← ca.item "edit_text" with
  | .str edit_text => return ⟨title, context_diagnostics, false,
      some (uri, [⟨action_line, 0, next_line, 0, edit_text ++ "\n"⟩])⟩
  | .list _ => throw (typeError "can only concatenate list (not \"str\") to list")
  | value => throw (typeError
      ("unsupported operand type(s) for +: '" ++ value.type_name ++ "' and 'str'"))

/-- Whether a line lies in the requested range. -/
def in_range (req_start_line req_end_line action_line : PyVal) : Except PyExc Bool := do
  if ← req_start_line.le action_line then action_line.le req_end_line else return false

/-- The loop of `_build_code_actions` for one entry. -/
def code_action (py : Python) (uri : String) (req_start_line req_end_line : PyVal)
    (context_diagnostics : List PyVal) (ca : PyVal) : Except PyExc (Option CodeAction) := do
  let kind ← ca.call_get "kind" (.str "quickfix")
  if kind.isStr "quickfix.patch" then
    return some (← patch_action ca uri context_diagnostics)
  let line_number ← ca.call_get "line_number" .none
  let action_line ← (line_number.or (.int 1)).minus_one
  if !(← in_range req_start_line req_end_line action_line) then return none
  if kind.isStr "quickfix.suppress" then
    return some (← suppress_action py ca action_line uri context_diagnostics)
  match ca with
  | .dict entries =>
    if PyDict.has entries "edit_text" then return some (← edit_action ca action_line uri context_diagnostics)
    else return none
  | _ => return none

/-- `_build_code_actions` for the review in the cache -/
def build_code_actions (py : Python) (review : PyDict) (uri : String) (request_range : PyDict)
    (context_diagnostics : List PyVal) : Except PyExc (List CodeAction) := do
  let code_actions_data := review.getD "code_actions" (.list [])
  if code_actions_data.truthy = false then return []
  let start_pos := (PyDict.get request_range "start").or (.dict [])
  let req_start_line ← start_pos.call_get "line" (.int 0)
  let end_pos := (PyDict.get request_range "end").or (.dict [])
  let req_end_line ← end_pos.call_get "line" req_start_line
  let items ← code_actions_data.iter
  let actions ← items.mapM (code_action py uri req_start_line req_end_line context_diagnostics)
  return actions.reduceOption

/-- The entries `_build_code_actions` goes through. -/
def review_actions (review : PyDict) : List PyVal :=
  match (review.getD "code_actions" (.list [])).iter with
  | .ok items => items
  | .error _ => []

/-- The first and the last requested line. -/
def requested_lines (request_range : PyDict) : Except PyExc (PyVal × PyVal) := do
  let start_pos := (PyDict.get request_range "start").or (.dict [])
  let req_start_line ← start_pos.call_get "line" (.int 0)
  let end_pos := (PyDict.get request_range "end").or (.dict [])
  return (req_start_line, ← end_pos.call_get "line" req_start_line)

/-- The entry changes lines: a patch with hunks, or an action of a requested line with a text. -/
def Offers (request_range entries : PyDict) : Prop :=
  if (entries.getD "kind" (.str "quickfix")).isStr "quickfix.patch" then
    (entries.getD "edits" (.list [])).iter ≠ .ok []
  else
    (∃ req_start_line req_end_line action_line,
      requested_lines request_range = .ok (req_start_line, req_end_line) ∧
      ((PyDict.get entries "line_number").or (.int 1)).minus_one = .ok action_line ∧
      in_range req_start_line req_end_line action_line = .ok true) ∧
    ((entries.getD "kind" (.str "quickfix")).isStr "quickfix.suppress" ∨
      PyDict.has entries "edit_text")

section Confined

open Traverse

variable {py : Python} {uri : String} {ctx : List PyVal} {ca action_line : PyVal} {a : CodeAction}

/-- A patch action has an edit just when it has hunks, and then for the request's file. -/
theorem patch_action_edit {entries : PyDict}
    (h : patch_action (.dict entries) uri ctx = .ok a) :
    (a.edit ≠ none ↔ (entries.getD "edits" (.list [])).iter ≠ .ok []) ∧
      ∀ edit, a.edit = some edit → edit.1 = uri := by
  simp only [patch_action, PyVal.call_get, bind_ok] at h
  obtain ⟨title, -, value, hvalue, edits, hedits, text_edits, htexts, ha⟩ := h
  cases hvalue
  cases ha
  have hnil : text_edits = [] ↔ edits = [] := by
    rw [← List.length_eq_zero_iff, mapM_length htexts, List.length_eq_zero_iff]
  rw [hedits]
  by_cases hempty : edits = []
  · simp [hnil, hempty]
  · simp [hnil, hempty]

theorem suppress_action_edit (h : suppress_action py ca action_line uri ctx = .ok a) :
    ∃ edits, a.edit = some (uri, edits) := by
  simp only [suppress_action, bind_ok] at h
  obtain ⟨_, -, _, -, _, -, ha⟩ := h
  cases ha
  exact ⟨_, rfl⟩

theorem edit_action_edit (h : edit_action ca action_line uri ctx = .ok a) :
    ∃ edits, a.edit = some (uri, edits) := by
  simp only [edit_action, bind_ok] at h
  obtain ⟨_, -, _, -, text, -, ha⟩ := h
  cases text with
  | str _ =>
    cases ha
    exact ⟨_, rfl⟩
  | _ => cases ha

/-- An entry becomes an action with an edit just when it offers one, and the edit is of the file of
the request. -/
theorem code_action_edit {request_range entries : PyDict} {s e : PyVal} {r : Option CodeAction}
    (hlines : requested_lines request_range = .ok (s, e))
    (h : code_action py uri s e ctx (.dict entries) = .ok r) :
    ((∃ a, r = some a ∧ a.edit ≠ none) ↔ Offers request_range entries) ∧
      ∀ a edit, r = some a → a.edit = some edit → edit.1 = uri := by
  unfold Offers
  simp only [code_action, PyVal.call_get, bind_ok] at h
  obtain ⟨kind, hkind, h⟩ := h
  cases hkind
  split at h
  · rename_i hpatch
    simp only [bind_ok] at h
    obtain ⟨a, ha, hr⟩ := h
    cases hr
    obtain ⟨hedit, huri⟩ := patch_action_edit ha
    simp only [hpatch, if_true, ← hedit]
    exact ⟨⟨fun ⟨_, hb, he⟩ => Option.some.inj hb ▸ he, fun he => ⟨a, rfl, he⟩⟩,
      fun b edit hb => Option.some.inj hb ▸ huri edit⟩
  · rename_i hpatch
    simp only [bind_ok] at h
    obtain ⟨_, hnumber, line, hline, inside, hinside, h⟩ := h
    cases hnumber
    have hlast : inside = true ↔ ∃ s' e' action_line,
        requested_lines request_range = .ok (s', e') ∧
        ((PyDict.get entries "line_number").or (.int 1)).minus_one = .ok action_line ∧
        in_range s' e' action_line = .ok true := by
      refine ⟨fun hin => ⟨s, e, line, hlines, hline, hin ▸ hinside⟩, ?_⟩
      rintro ⟨s', e', line', hlines', hline', hin⟩
      rw [hlines] at hlines'
      cases hlines'
      change ((PyDict.get entries "line_number").or (.int 1)).minus_one = .ok line at hline
      rw [hline] at hline'
      cases hline'
      rw [hinside] at hin
      exact Except.ok.inj hin
    simp only [hpatch, ← hlast]
    have hedited : ∀ b, (∃ edits, b.edit = some (uri, edits)) → r = some b →
        (∃ a, r = some a ∧ a.edit ≠ none) ∧
          ∀ a edit, r = some a → a.edit = some edit → edit.1 = uri := by
      rintro b ⟨edits, hb⟩ rfl
      refine ⟨⟨b, rfl, by simp [hb]⟩, fun a edit ha hedit => ?_⟩
      cases ha
      rw [hb] at hedit
      cases hedit
      rfl
    cases inside with
    | false =>
      cases h
      simp
    | true =>
      simp only [Bool.not_true, Bool.false_eq_true, if_false] at h ⊢
      split at h
      · rename_i hsuppress
        obtain ⟨b, hb, hr⟩ := bind_ok.mp h
        obtain ⟨hsome, huri⟩ := hedited b (suppress_action_edit hb) (Except.ok.inj hr).symm
        exact ⟨iff_of_true hsome ⟨trivial, .inl hsuppress⟩, huri⟩
      · rename_i hsuppress
        split at h
        · rename_i hhas
          obtain ⟨b, hb, hr⟩ := bind_ok.mp h
          obtain ⟨hsome, huri⟩ := hedited b (edit_action_edit hb) (Except.ok.inj hr).symm
          exact ⟨iff_of_true hsome ⟨trivial, .inr hhas⟩, huri⟩
        · rename_i hhas
          cases h
          simp [hsuppress, hhas]

theorem code_action_dict {s e : PyVal} {r : Option CodeAction}
    (h : code_action py uri s e ctx ca = .ok r) : ∃ entries, ca = .dict entries := by
  unfold code_action PyVal.call_get at h
  cases ca with
  | dict entries => exact ⟨entries, rfl⟩
  | _ => cases h

theorem iter_falsy {value : PyVal} {items : List PyVal} (h : value.truthy = false)
    (hitems : value.iter = .ok items) : items = [] := by
  unfold PyVal.iter at hitems
  split at hitems
  · cases hitems
    simpa [PyVal.truthy] using h
  · cases hitems
    simpa [PyVal.truthy] using h
  · cases hitems
    simp only [PyVal.truthy, bne_eq_false_iff_eq] at h
    simp [h]
  · cases hitems

/-- The actions are those of the entries of the review, which are all well formed. -/
theorem build_code_actions_spec {review request_range : PyDict} {actions : List CodeAction}
    (h : build_code_actions py review uri request_range ctx = .ok actions) :
    (review_actions review = [] ∧ actions = []) ∨
    ∃ s e, requested_lines request_range = .ok (s, e) ∧
      (∀ entry ∈ review_actions review, ∃ r, code_action py uri s e ctx entry = .ok r) ∧
      ∀ a, a ∈ actions ↔ ∃ entry ∈ review_actions review,
        code_action py uri s e ctx entry = .ok (some a) := by
  unfold build_code_actions at h
  unfold review_actions
  simp only at h
  split at h
  · rename_i hfalsy
    cases h
    left
    split
    · rename_i items hitems
      exact ⟨iter_falsy hfalsy hitems, rfl⟩
    · exact ⟨rfl, rfl⟩
  · simp only [bind_ok] at h
    obtain ⟨s, hs, e, he, items, hitems, results, hresults, hactions⟩ := h
    cases hactions
    right
    rw [hitems]
    refine ⟨s, e, ?_, fun entry hentry => ok_of_mapM hresults hentry, fun a => ?_⟩
    · simp only [requested_lines, bind_ok]
      exact ⟨s, hs, e, he, rfl⟩
    · rw [List.reduceOption_mem_iff, mem_of_mapM hresults]

/-- What comes back edits the file of the request, where an entry of the review offers an edit. -/
theorem build_code_actions_edits {review request_range : PyDict} {actions : List CodeAction}
    (h : build_code_actions py review uri request_range ctx = .ok actions) :
    ((∃ a ∈ actions, a.edit ≠ none) ↔
      ∃ entries, .dict entries ∈ review_actions review ∧ Offers request_range entries) ∧
    ∀ a ∈ actions, ∀ edit, a.edit = some edit → edit.1 = uri := by
  rcases build_code_actions_spec h with ⟨hnone, rfl⟩ | ⟨s, e, hlines, hok, hmem⟩
  · simp [hnone]
  · simp only [hmem]
    constructor
    · constructor
      · rintro ⟨a, ⟨ca, hca, ha⟩, hedit⟩
        obtain ⟨entries, rfl⟩ := code_action_dict ha
        exact ⟨entries, hca, (code_action_edit hlines ha).1.mp ⟨a, rfl, hedit⟩⟩
      · rintro ⟨entries, hca, hoffers⟩
        obtain ⟨r, hr⟩ := hok _ hca
        obtain ⟨a, rfl, hedit⟩ := (code_action_edit hlines hr).1.mpr hoffers
        exact ⟨a, ⟨_, hca, hr⟩, hedit⟩
    · rintro a ⟨ca, hca, ha⟩ edit hedit
      obtain ⟨entries, rfl⟩ := code_action_dict ha
      exact (code_action_edit hlines ha).2 a edit rfl hedit

end Confined

/-- For another file than the reviewed one, the actions have no edit just when no entry of the
review offers one. -/
theorem edits_confined_iff {py : Python} {review request_range : PyDict} {uri : String}
    {context_diagnostics : List PyVal} {actions : List CodeAction}
    (h : build_code_actions py review uri request_range context_diagnostics = .ok actions) :
    (review_uri review ≠ .ok uri → ∀ a ∈ actions, a.edit = none) ↔
      (review_uri review = .ok uri ∨ ∀ entries, .dict entries ∈ review_actions review →
        ¬Offers request_range entries) := by
  have hedits := (build_code_actions_edits h).1
  by_cases huri : review_uri review = .ok uri
  · simp [huri]
  · simp only [huri, ne_eq, not_false_iff, true_imp_iff, false_or]
    constructor
    · intro hnone entries hmem hoffers
      obtain ⟨a, ha, hedit⟩ := hedits.mpr ⟨entries, hmem, hoffers⟩
      exact hedit (hnone a ha)
    · intro hoffers a ha
      by_contra hedit
      obtain ⟨entries, hmem, hoffer⟩ := hedits.mp ⟨a, ha, hedit⟩
      exact hoffers entries hmem hoffer

section Samples

/-- A Python that formats strings only. -/
def text_python : Python where
  format := fun _ => ""
  repr := fun _ => ""
  float_of_text := fun s => .error (valueError ("could not convert string to float: " ++ s))
  loads := fun _ => .error (jsonDecodeError "Expecting value")

/-- A review of `/repo/a.py` with a patch of the given hunks. -/
def patchedReview (edits : List PyVal) : PyDict :=
  [("target_file", .str "/repo/a.py"), ("details", .list []),
    ("code_actions", .list [.dict [("title", .str "Apply verified patch (0123abcd)"),
      ("kind", .str "quickfix.patch"), ("edits", .list edits)]])]

def firstHunk : PyVal :=
  .dict [("start_line", .int 0), ("end_line", .int 1), ("new_lines", .list [.str "x = 2"])]

def firstLine : PyDict :=
  [("start", .dict [("line", .int 0)]), ("end", .dict [("line", .int 0)])]

theorem patched_uri (edits : List PyVal) :
    review_uri (patchedReview edits) = .ok "file:///repo/a.py" := rfl

/-- A patch without hunks has no edit, for whatever file. -/
theorem hunkless_confined : ∃ actions,
    build_code_actions text_python (patchedReview []) "file:///repo/b.py" firstLine [] =
      .ok actions ∧
    (review_uri (patchedReview []) ≠ .ok "file:///repo/b.py" → ∀ a ∈ actions, a.edit = none) := by
  have hactions : build_code_actions text_python (patchedReview []) "file:///repo/b.py" firstLine
      [] = .ok [⟨.str "Apply verified patch (0123abcd)", [], true, none⟩] := rfl
  refine ⟨_, hactions, (edits_confined_iff hactions).mpr (.inr fun entries hmem hoffers => ?_)⟩
  obtain rfl := PyVal.dict.inj (List.mem_singleton.mp hmem)
  exact hoffers rfl

/-- The patch of `/repo/a.py` is offered as an edit of `/repo/b.py`. -/
theorem patch_offered_elsewhere : ∃ actions,
    build_code_actions text_python (patchedReview [firstHunk]) "file:///repo/b.py" firstLine [] =
      .ok actions ∧
    review_uri (patchedReview [firstHunk]) ≠ .ok "file:///repo/b.py" ∧
    ∃ a ∈ actions, a.edit =
      some ("file:///repo/b.py", [⟨.int 0, 0, .int 1, 0, "x = 2\n"⟩]) := by
  refine ⟨_, rfl, ?_, _, List.mem_singleton_self _, rfl⟩
  rw [patched_uri]
  simp

end Samples

end Nitpicker
