import NitpickerDaemon.Text.JsonParser

/-!
The readers of `config/nitpicker.local.json`: one of them takes comments, two do not.
-/

set_option autoImplicit false

namespace Nitpicker

open Text (CodePoint Json code_point code_points loads Tokens Quoted)

/-- The flags of `_load_jsonc`, of which at most one group is set. -/
inductive Scan where
  | outside
  | in_string (escape : Bool)
  | line_comment
  | block_comment
  deriving DecidableEq

/-- The loop of `_load_jsonc`. Where it takes two characters at once, the second is known. -/
def strip_comments : Scan → List CodePoint → List CodePoint
  | _, [] => []
  | .line_comment, char :: text =>
    if char = code_point '\n' then char :: strip_comments .outside text
    else strip_comments .line_comment text
  | .block_comment, char :: text =>
    if char = code_point '*' ∧ text.head? = some (code_point '/') then
      match text with
      | [] => []
      | _ :: text => strip_comments .outside text
    else if char = code_point '\n' then char :: strip_comments .block_comment text
    else strip_comments .block_comment text
  | .in_string escape, char :: text =>
    char ::
      if escape then strip_comments (.in_string false) text
      else if char = code_point '\\' then strip_comments (.in_string true) text
      else if char = code_point '"' then strip_comments .outside text
      else strip_comments (.in_string false) text
  | .outside, char :: text =>
    if char = code_point '"' then char :: strip_comments (.in_string false) text
    else if char = code_point '/' ∧ text.head? = some (code_point '/') then
      match text with
      | [] => []
      | _ :: text => strip_comments .line_comment text
    else if char = code_point '/' ∧ text.head? = some (code_point '*') then
      match text with
      | [] => []
      | _ :: text => strip_comments .block_comment text
    else char :: strip_comments .outside text

/-- What is at the place of the file. -/
inductive ConfigFile where
  | absent
  | unreadable
  | text (text : List CodePoint)

section Readers

variable (read : List CodePoint → Rat)

/-- `_load_jsonc`; without a value it raises `JSONDecodeError`. -/
def load_jsonc (text : List CodePoint) : Option Json := loads read (strip_comments .outside text)

/-- Without a file, and where an `OSError` or a `JSONDecodeError` is caught: the empty dict. -/
def json_or_empty : ConfigFile → Json
  | .absent => .object []
  | .unreadable => .object []
  | .text text => (loads read text).getD (.object [])

/-- `jemmin_cli._load_local_config` -/
def load_local_config (file : ConfigFile) : Json := json_or_empty read file

/-- `setup_wizard._read_local_config` -/
def read_local_config (file : ConfigFile) : Json := json_or_empty read file

end Readers

/-- Where a string goes on after one of its characters: outside of it, or inside, with whether
the next character is escaped. -/
def string_step (escape : Bool) (char : CodePoint) : Option Bool :=
  if escape then some false
  else if char = code_point '\\' then some true
  else if char = code_point '"' then none
  else some false

def comment_start (char : CodePoint) (text : List CodePoint) : Bool :=
  char = code_point '/' &&
    (text.head? = some (code_point '/') || text.head? = some (code_point '*'))

/-- A comment starts outside the strings of the text. -/
def commented : Option Bool → List CodePoint → Bool
  | _, [] => false
  | some escape, char :: text => commented (string_step escape char) text
  | none, char :: text =>
    if char = code_point '"' then commented (some false) text
    else comment_start char text || commented none text

theorem length_strip (scan : Scan) (text : List CodePoint) :
    (strip_comments scan text).length ≤ text.length := by
  fun_induction strip_comments scan text <;> grind

/-- The state of the loop outside comments. -/
def scan_of : Option Bool → Scan
  | none => .outside
  | some escape => .in_string escape

theorem strip_in_string (escape : Bool) (char : CodePoint) (text : List CodePoint) :
    strip_comments (.in_string escape) (char :: text) =
      char :: strip_comments (scan_of (string_step escape char)) text := by
  rw [strip_comments.eq_def, string_step]
  simp only
  congr 1
  split
  · rfl
  split
  · rfl
  split <;> rfl

theorem strip_quote (text : List CodePoint) :
    strip_comments .outside (code_point '"' :: text) =
      code_point '"' :: strip_comments (.in_string false) text := by
  rw [strip_comments.eq_def]
  simp

/-- A slash that starts no comment is kept. -/
theorem strip_outside {char : CodePoint} {text : List CodePoint} (hquote : char ≠ code_point '"')
    (h : comment_start char text = false) :
    strip_comments .outside (char :: text) = char :: strip_comments .outside text := by
  rw [strip_comments.eq_def]
  simp only [comment_start, Bool.and_eq_false_iff, decide_eq_false_iff_not, Bool.or_eq_false_iff]
    at h
  have hline : ¬ (char = code_point '/' ∧ text.head? = some (code_point '/')) := by tauto
  have hblock : ¬ (char = code_point '/' ∧ text.head? = some (code_point '*')) := by tauto
  simp only [hquote, hline, hblock, if_false]

theorem strip_comment {char : CodePoint} {text : List CodePoint}
    (h : comment_start char text = true) :
    (strip_comments .outside (char :: text)).length < (char :: text).length := by
  have hquote : code_point '/' ≠ code_point '"' := by decide
  simp only [comment_start, Bool.and_eq_true, decide_eq_true_eq, Bool.or_eq_true] at h
  obtain ⟨rfl, hmark⟩ := h
  cases text with
  | nil => simp at hmark
  | cons mark text =>
    have hline := length_strip .line_comment text
    have hblock := length_strip .block_comment text
    rw [strip_comments.eq_def]
    simp only [List.head?_cons, Option.some.injEq] at hmark
    simp only [hquote, if_false, List.head?_cons, Option.some.injEq, true_and, List.length_cons]
    split
    · omega
    · rw [if_pos (by tauto)]
      omega

/-- A string is kept whole. -/
theorem strip_quoted {body : List CodePoint} (h : Quoted body) (text : List CodePoint) :
    strip_comments (.in_string false) (body ++ text) = body ++ strip_comments .outside text := by
  induction h with
  | close =>
    have hslash : code_point '"' ≠ code_point '\\' := by decide
    simp [strip_in_string, string_step, scan_of, hslash]
  | plain hquote hslash _ ih => simp [strip_in_string, string_step, scan_of, hquote, hslash, ih]
  | escaped _ ih => simp [strip_in_string, string_step, scan_of, ih]

/-- Tokens hold no comment. -/
theorem strip_tokens {text : List CodePoint} (h : Tokens text) :
    strip_comments .outside text = text := by
  induction h with
  | nil => simp [strip_comments]
  | plain hquote hslash _ ih => rw [strip_outside hquote (by simp [comment_start, hslash]), ih]
  | string hbody _ ih => rw [strip_quote, strip_quoted hbody, ih]

theorem strip_uncommented {state : Option Bool} {text : List CodePoint}
    (h : commented state text = false) : strip_comments (scan_of state) text = text := by
  induction text generalizing state with
  | nil => simp [strip_comments]
  | cons char text ih =>
    cases state with
    | some escape =>
      rw [commented] at h
      rw [scan_of, strip_in_string, ih h]
    | none =>
      by_cases hquote : char = code_point '"'
      · rw [commented, if_pos hquote] at h
        rw [hquote, scan_of, strip_quote]
        exact congrArg _ (ih h)
      · rw [commented, if_neg hquote, Bool.or_eq_false_iff] at h
        rw [scan_of, strip_outside hquote h.1]
        exact congrArg _ (ih h.2)

theorem strip_commented {state : Option Bool} {text : List CodePoint}
    (h : commented state text = true) :
    (strip_comments (scan_of state) text).length < text.length := by
  induction text generalizing state with
  | nil => simp [commented] at h
  | cons char text ih =>
    cases state with
    | some escape =>
      rw [commented] at h
      have hlt := ih h
      rw [scan_of, strip_in_string, List.length_cons, List.length_cons]
      omega
    | none =>
      by_cases hquote : char = code_point '"'
      · rw [commented, if_pos hquote] at h
        have hlt := ih h
        rw [hquote, scan_of, strip_quote, List.length_cons, List.length_cons]
        exact Nat.succ_lt_succ hlt
      · cases hstart : comment_start char text with
        | true => exact strip_comment hstart
        | false =>
          rw [commented, if_neg hquote, hstart, Bool.false_or] at h
          have hlt := ih h
          rw [scan_of, strip_outside hquote hstart, List.length_cons, List.length_cons]
          exact Nat.succ_lt_succ hlt

theorem strip_eq_iff {text : List CodePoint} :
    strip_comments .outside text = text ↔ commented none text = false := by
  constructor
  · intro h
    by_contra hcomment
    have hlt := strip_commented (Bool.not_eq_false _ ▸ hcomment)
    rw [scan_of, h] at hlt
    omega
  · exact strip_uncommented

section Agreement

variable {read : List CodePoint → Rat} {text : List CodePoint} {d : List (List CodePoint × Json)}

theorem json_or_empty_plain (h : load_jsonc read text = some (.object d))
    (hplain : commented none text = false) : json_or_empty read (.text text) = .object d := by
  rw [load_jsonc, strip_eq_iff.mpr hplain] at h
  rw [json_or_empty, h, Option.getD_some]

/-- Comments are no JSON. -/
theorem json_or_empty_commented (h : commented none text = true) :
    json_or_empty read (.text text) = .object [] := by
  have hnone : loads read text = none := by
    by_contra hsome
    obtain ⟨v, hv⟩ := Option.ne_none_iff_exists'.mp hsome
    have hstrip := strip_eq_iff.mp (strip_tokens (Text.loads_tokens hv))
    simp [h] at hstrip
  rw [json_or_empty, hnone, Option.getD_none]

/-- The readers agree just where no comment is in the text, or no string beside its comments. -/
theorem readers_agree_iff (h : load_jsonc read text = some (.object d)) :
    (load_local_config read (.text text) = .object d ∧
        read_local_config read (.text text) = .object d) ↔
      (commented none text = false ∨ code_point '"' ∉ strip_comments .outside text) := by
  have hnil : d = [] ↔ code_point '"' ∉ strip_comments .outside text := Text.loads_object_nil h
  rw [← hnil, load_local_config, read_local_config, and_self]
  cases hcomment : commented none text with
  | false =>
    rw [json_or_empty_plain h hcomment]
    simp
  | true =>
    rw [json_or_empty_commented hcomment]
    simp [eq_comm]

end Agreement

/-- No float is in the sample texts. -/
def noFloats : Text.Floats where
  repr _ := ""
  read _ := 0
  Double _ := False
  repr_float _ h := h.elim

def sampleConfig : List (List CodePoint × Json) := [(code_points "skip", .bool true)]

def plainConfig : List CodePoint := code_points "\x7b\"skip\": true\x7d"

/-- The same, with a comment as in the example that the readme has copied. -/
def commentedConfig : List CodePoint := code_points "\x7b\"skip\": true\x7d// NITPICKER_SKIP"

theorem loads_sample : loads noFloats.read plainConfig = some (.object sampleConfig) := by
  have hheld : (Json.object sampleConfig).Held noFloats := by
    simp [sampleConfig, Json.Held, Json.Held_members, Dict.Keyed]
  have hloads := Text.loads_dumps hheld
  have htext : (Json.object sampleConfig).dumps noFloats.repr = plainConfig := by decide
  rw [htext] at hloads
  exact hloads

theorem plain_config_agrees :
    (load_local_config noFloats.read (.text plainConfig) = .object sampleConfig ∧
        read_local_config noFloats.read (.text plainConfig) = .object sampleConfig) ↔
      (commented none plainConfig = false ∨
        code_point '"' ∉ strip_comments .outside plainConfig) := by
  have hstrip : strip_comments .outside plainConfig = plainConfig := by decide +kernel
  apply readers_agree_iff
  rw [load_jsonc, hstrip, loads_sample]

theorem commented_config_ignored :
    load_jsonc noFloats.read commentedConfig = some (.object sampleConfig) ∧
      load_local_config noFloats.read (.text commentedConfig) = .object [] ∧
      read_local_config noFloats.read (.text commentedConfig) = .object [] ∧ sampleConfig ≠ [] := by
  have hstrip : strip_comments .outside commentedConfig = plainConfig := by decide +kernel
  have hcomment : commented none commentedConfig = true := by decide +kernel
  refine ⟨?_, json_or_empty_commented hcomment, json_or_empty_commented hcomment, by simp [sampleConfig]⟩
  rw [load_jsonc, hstrip, loads_sample]

end Nitpicker
