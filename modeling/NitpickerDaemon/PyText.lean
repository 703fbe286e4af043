import NitpickerDaemon.PyValue
import NitpickerDaemon.Text.Lines

/-!
Texts in Python: lines, and the functions on texts and values that stay open.
-/

set_option autoImplicit false

namespace Nitpicker

/-- Python functions whose results stay open: `str` of a value that is no string, `repr`,
`float` of a string and `json.loads`. -/
structure Python where
  format : PyVal → String
  repr : PyVal → String
  float_of_text : String → Except PyExc Rat
  loads : String → Except PyExc PyVal

def Python.str (py : Python) : PyVal → String
  | .str s => s
  | value => py.format value

def jsonDecodeError (message : String) : PyExc := ⟨"JSONDecodeError", [.valueError], message⟩

def PyExc.is_json_decode_error (e : PyExc) : Bool := e.type_name == "JSONDecodeError"

def timeoutError (message : String) : PyExc := ⟨"TimeoutError", [.timeoutError], message⟩

def runtimeError (message : String) : PyExc := ⟨"RuntimeError", [.runtimeError], message⟩

/-- What `hash(value)` raises. -/
def PyVal.unhashable : PyVal → Option PyExc
  | .list _ => some (typeError "unhashable type: 'list'")
  | .dict _ => some (typeError "unhashable type: 'dict'")
  | _ => Option.none

/-- `value[:n]` -/
def PyVal.slice_to (value : PyVal) (n : Nat) : Except PyExc PyVal :=
  match value with
  | .str s => .ok (.str (String.ofList (s.toList.take n)))
  | .list xs => .ok (.list (xs.take n))
  | .dict _ => .error (typeError "unhashable type: 'slice'")
  | _ => .error (typeError ("'" ++ value.type_name ++ "' object is not subscriptable"))

/-- `key in d` -/
def PyDict.has (d : PyDict) (key : String) : Bool := (d.lookup key).isSome

/-- `d[key] = value` -/
def PyDict.set : PyDict → String → PyVal → PyDict
  | [], key, value => [(key, value)]
  | (k, v) :: d, key, value =>
    if k = key then (k, value) :: d else (k, v) :: PyDict.set d key value

theorem PyDict.get_set_self (d : PyDict) (key : String) (value : PyVal) :
    PyDict.get (d.set key value) key = value := by
  induction d with
  | nil => simp [set, get, getD]
  | cons kv d ih =>
    obtain ⟨k, v⟩ := kv
    by_cases h : k = key
    · simp [set, get, getD, h]
    · have hne : (key == k) = false := by simpa using Ne.symm h
      simpa [set, get, getD, h, List.lookup_cons, hne] using ih

theorem PyDict.get_set_ne (d : PyDict) {key key' : String} (value : PyVal) (h : key' ≠ key) :
    PyDict.get (d.set key value) key' = PyDict.get d key' := by
  induction d with
  | nil =>
    have hne : (key' == key) = false := by simpa using h
    simp [set, get, getD, List.lookup_cons, hne]
  | cons kv d ih =>
    obtain ⟨k, v⟩ := kv
    by_cases hk : k = key
    · subst hk
      have hne : (key' == k) = false := by simpa using h
      simp [set, get, getD, List.lookup_cons, hne]
    · by_cases hk' : key' = k
      · simp [set, get, getD, hk, hk']
      · have hne : (key' == k) = false := by simpa using hk'
        simpa [set, get, getD, hk, List.lookup_cons, hne] using ih

/-- The characters `str.splitlines` ends a line at. -/
def line_boundary (c : Char) : Bool :=
  let n := c.toNat
  (10 ≤ n && n ≤ 13) || (28 ≤ n && n ≤ 30) || n == 0x85 || n == 0x2028 || n == 0x2029

/-- The lines of `cs`, the first of which starts with `line`. -/
def splitlines_chars : List Char → List Char → List (List Char)
  | [], [] => []
  | line, [] => [line]
  | line, '\r' :: '\n' :: cs => line :: splitlines_chars [] cs
  | line, c :: cs =>
    if line_boundary c then line :: splitlines_chars [] cs else splitlines_chars (line ++ [c]) cs

/-- `str.splitlines` -/
def splitlines (s : String) : List String := (splitlines_chars [] s.toList).map String.ofList

theorem splitlines_chars_plain {c : Char} (h : line_boundary c = false) (line cs : List Char) :
    splitlines_chars line (c :: cs) = splitlines_chars (line ++ [c]) cs := by
  have hcr : c ≠ '\r' := by
    intro heq
    rw [heq] at h
    cases h
  rw [splitlines_chars]
  · simp [h]
  · intro cs' heq
    exact absurd heq hcr

theorem splitlines_chars_boundary {c : Char} (h : line_boundary c = true) (hcr : c ≠ '\r')
    (line cs : List Char) : splitlines_chars line (c :: cs) = line :: splitlines_chars [] cs := by
  rw [splitlines_chars]
  · simp [h]
  · intro cs' heq
    exact absurd heq hcr

/-- A line without boundaries is read whole. -/
theorem splitlines_chars_append {cs : List Char} (h : ∀ c ∈ cs, line_boundary c = false)
    (line rest : List Char) :
    splitlines_chars line (cs ++ rest) = splitlines_chars (line ++ cs) rest := by
  induction cs generalizing line with
  | nil => simp
  | cons c cs ih =>
    have hc := h c List.mem_cons_self
    rw [List.cons_append, splitlines_chars_plain hc, ih fun d hd => h d (List.mem_cons_of_mem _ hd)]
    simp

theorem splitlines_chars_line {cs : List Char} (h : ∀ c ∈ cs, line_boundary c = false)
    (hne : cs ≠ []) : splitlines_chars [] cs = [cs] := by
  have happend := splitlines_chars_append h [] []
  rw [List.append_nil, List.nil_append] at happend
  rw [happend]
  cases cs with
  | nil => exact absurd rfl hne
  | cons c cs => rfl

/-- Lines joined by line feeds are read back. -/
theorem splitlines_joined {lines : List (List Char)}
    (h : ∀ line ∈ lines, ∀ c ∈ line, line_boundary c = false) (hlast : lines.getLast? ≠ some []) :
    splitlines_chars [] (Text.joined '\n' lines) = lines := by
  induction lines with
  | nil => rfl
  | cons line lines ih =>
    have hline := h line List.mem_cons_self
    cases lines with
    | nil =>
      have hne : line ≠ [] := by
        intro heq
        exact hlast (by simp [heq])
      exact splitlines_chars_line hline hne
    | cons line' lines =>
      have hrest := ih (fun l hl => h l (List.mem_cons_of_mem _ hl)) (by simpa using hlast)
      rw [Text.joined, splitlines_chars_append hline, List.nil_append,
        splitlines_chars_boundary (by decide) (by decide), hrest]

/-- Lines ended by line feeds are read back, empty ones included. -/
theorem splitlines_unlines {lines : List (List Char)}
    (h : ∀ line ∈ lines, ∀ c ∈ line, line_boundary c = false) :
    splitlines_chars [] (Text.unlines '\n' lines) = lines := by
  induction lines with
  | nil => rfl
  | cons line lines ih =>
    have hline := h line List.mem_cons_self
    have hrest := ih fun l hl => h l (List.mem_cons_of_mem _ hl)
    rw [Text.unlines, splitlines_chars_append hline, List.nil_append,
      splitlines_chars_boundary (by decide) (by decide), hrest]

end Nitpicker
