import NitpickerDaemon.PyText
import NitpickerDaemon.Text.Regex

/-!
The added lines of a diff, as the agents extract them: by a regular expression over the whole
text, and by the prefixes of the lines of `str.splitlines`.
-/

set_option autoImplicit false

namespace Nitpicker

open Text (Regex)

/-- `^` under `re.MULTILINE` -/
def bol : Regex Char := .place fun before _ => before = none || before = some '\n'

/-- `$` under `re.MULTILINE` -/
def eol : Regex Char := .place fun _ after => after = none || after = some '\n'

/-- `.` without `re.DOTALL` -/
def dot (c : Char) : Bool := c != '\n'

def literal (s : String) : Regex Char := .word s.toList

/-- The lower case of a letter as `re.IGNORECASE` compares it with an ASCII letter. -/
def ignore_case (c : Char) : Char :=
  if c = 'İ' ∨ c = 'ı' then 'i'
  else if c = 'ſ' then 's'
  else if c = Char.ofNat 0x212A then 'k'
  else c.toLower

/-- A word of lower-case letters under `(?i)`. -/
def word_any_case (s : String) : Regex Char :=
  s.toList.foldr (fun c r => .seq (.char fun d => ignore_case d == c) r) .empty

/-- `s.startswith(p)` -/
def startswith (p s : String) : Bool := p.toList.isPrefixOf s.toList

/-- `^\+(?!\+\+)(.*)$`, the pattern of the security, architecture and domain agents. -/
def ADDED_LINE_RE : Regex Char :=
  .seq bol (.seq (literal "+") (.seq (.ahead false (literal "++"))
    (.seq (.group 1 (.run true 0 none dot)) eol)))

/-- `m.group(1) for m in _ADDED_LINE_RE.finditer(diff_text)` -/
def matched_lines (diff_text : String) : List String :=
  (ADDED_LINE_RE.finditer 0 [] diff_text.toList).map fun m => String.ofList (m.group 1)

/-- The loop over `diff_text.splitlines()` of the AST analyzer and the symbol provider. -/
def prefixed_lines (diff_text : String) : List String :=
  ((splitlines diff_text).filter fun line => startswith "+" line && !startswith "+++" line).map
    fun line => String.ofList (line.toList.drop 1)

namespace SecurityAgent

def added_lines (diff_text : String) : List String := matched_lines diff_text

def added_content (diff_text : String) : String := "\n".intercalate (added_lines diff_text)

end SecurityAgent

namespace ArchitectureAgent

/-- `^@@.*?@@` -/
def DIFF_HUNK_RE : Regex Char :=
  .seq bol (.seq (literal "@@") (.seq (.run false 0 none dot) (literal "@@")))

/-- The locals of the generator and what it has yielded. -/
structure HunkLoop where
  yielded : List (List String)
  current_hunk : List String
  saw_hunk : Bool

def opens_hunk (line : String) : Bool := (DIFF_HUNK_RE.first [] line.toList).isSome

def HunkLoop.step (loop : HunkLoop) (line : String) : HunkLoop :=
  if opens_hunk line then
    { yielded := if loop.saw_hunk then loop.yielded ++ [loop.current_hunk] else loop.yielded
      current_hunk := []
      saw_hunk := true }
  else if startswith "+" line && !startswith "+++" line then
    { loop with current_hunk := loop.current_hunk ++ [String.ofList (line.toList.drop 1)] }
  else loop

def iter_added_hunks (diff_text : String) : List (List String) :=
  let loop := (splitlines diff_text).foldl HunkLoop.step ⟨[], [], false⟩
  if loop.saw_hunk || !loop.current_hunk.isEmpty then loop.yielded ++ [loop.current_hunk]
  else loop.yielded

def added_block_lines (diff_text : String) : List String := matched_lines diff_text

def added_block (diff_text : String) : String := "\n".intercalate (added_block_lines diff_text)

end ArchitectureAgent

namespace AstSecurity

def added_lines (diff_text : String) : List String := prefixed_lines diff_text

def extract_added_lines (diff_text : String) : String := "\n".intercalate (added_lines diff_text)

end AstSecurity

namespace SymbolProvider

def added_lines (diff_text : String) : List String := prefixed_lines diff_text

def extract_added_lines (diff_text : String) : String := "\n".intercalate (added_lines diff_text)

end SymbolProvider

namespace DomainRuleAgent

/-- `[A-Z_]` -/
def constant_start (c : Char) : Bool := ('A' ≤ c && c ≤ 'Z') || c == '_'

/-- `^[A-Z_][A-Z0-9_]*\s*(?::[^=]+)?=\s*` -/
def CONSTANT_ASSIGN_RE : Regex Char :=
  .seq (.place fun before _ => before = none) (.seq (.char constant_start)
    (.seq (.run true 0 none fun c => constant_start c || ('0' ≤ c && c ≤ '9'))
      (.seq (.run true 0 none isspace)
        (.seq (.opt (.seq (literal ":") (.run true 1 none (· != '='))))
          (.seq (literal "=") (.run true 0 none isspace))))))

/-- Whether the rules look at the line. -/
def reviewable (line : String) : Bool :=
  let stripped := strip line
  !(stripped.isEmpty || startswith "#" stripped || startswith "\"\"\"" stripped ||
    startswith "'''" stripped || (CONSTANT_ASSIGN_RE.first [] stripped.toList).isSome)

def reviewable_added_lines (diff_text : String) : String :=
  "\n".intercalate ((matched_lines diff_text).filter reviewable)

end DomainRuleAgent

/-- A line of a diff that the extraction is meant to pick. -/
def Added (line : List Char) : Prop := ['+'] <+: line ∧ ¬['+', '+', '+'] <+: line

instance (line : List Char) : Decidable (Added line) := by unfold Added; infer_instance

/-- The match of a line. -/
def added_match (line : List Char) : Option (Regex.Match Char) :=
  if Added line then some ⟨line, [(1, line.drop 1)]⟩ else none

theorem added_plus {line : List Char} (h : Added line) : ∃ content, line = '+' :: content := by
  obtain ⟨content, heq⟩ := h.1
  exact ⟨content, heq.symm⟩

theorem bol_ways {before rest : List Char} {groups : List (Nat × List Char)}
    (h : Regex.AtStart '\n' before) : bol.ways ⟨before, rest, groups⟩ = [⟨before, rest, groups⟩] := by
  rw [bol, Regex.ways_place]
  cases before with
  | nil => rfl
  | cons c before =>
    have hc := h c rfl
    simp [hc]

theorem bol_inside {c : Char} {before rest : List Char} {groups : List (Nat × List Char)}
    (h : c ≠ '\n') : bol.ways ⟨c :: before, rest, groups⟩ = [] := by
  rw [bol, Regex.ways_place]
  simp [h]

theorem eol_ways {before rest : List Char} {groups : List (Nat × List Char)}
    (h : ∀ c, rest.head? = some c → c = '\n') :
    eol.ways ⟨before, rest, groups⟩ = [⟨before, rest, groups⟩] := by
  rw [eol, Regex.ways_place]
  cases rest with
  | nil => rfl
  | cons c rest =>
    have hc := h c rfl
    simp [hc]

/-- A word without line feeds at the start of a line is at the start of the text from there. -/
theorem prefix_line {word line rest : List Char} (hword : '\n' ∉ word)
    (hrest : ∀ c, rest.head? = some c → c = '\n') : word <+: line ++ rest ↔ word <+: line := by
  constructor
  · intro h
    cases rest with
    | nil => simpa using h
    | cons c rest =>
      have hc := hrest c rfl
      subst hc
      exact Text.prefix_separated hword h
  · intro h
    exact h.trans (List.prefix_append line rest)

theorem dot_line {line rest : List Char} (hline : '\n' ∉ line)
    (hrest : ∀ c, rest.head? = some c → c = '\n') :
    (line ++ rest).takeWhile dot = line ∧ (line ++ rest).dropWhile dot = rest := by
  have hall : ∀ c ∈ line, dot c = true := by
    intro c hc
    have hne : c ≠ '\n' := fun heq => hline (heq ▸ hc)
    simp [dot, hne]
  rw [List.takeWhile_append_of_pos hall, List.dropWhile_append_of_pos hall]
  cases rest with
  | nil => simp
  | cons c rest =>
    have hc := hrest c rfl
    simp [hc, dot]

/-- What follows the plus of the pattern. -/
def added_rest : Regex Char :=
  .seq (.ahead false (literal "++")) (.seq (.group 1 (.run true 0 none dot)) eol)

theorem added_rest_none {before rest : List Char} {groups : List (Nat × List Char)} :
    added_rest.ways ⟨before, '+' :: '+' :: rest, groups⟩ = [] := by
  have hword := @Regex.ways_word Char _ _ ['+', '+'] before rest groups
  have hahead : (Regex.ahead false (literal "++")).ways ⟨before, '+' :: '+' :: rest, groups⟩ = [] := by
    have hliteral : literal "++" = .word ['+', '+'] := rfl
    rw [Regex.ways_ahead, hliteral]
    simp only [List.cons_append, List.nil_append] at hword
    rw [hword]
    rfl
  rw [added_rest, Regex.ways_seq, hahead, List.flatMap_nil]

theorem added_rest_head {before content rest : List Char} (hcontent : '\n' ∉ content)
    (hrest : ∀ c, rest.head? = some c → c = '\n') (hpp : ¬['+', '+'] <+: content) :
    (added_rest.ways ⟨before, content ++ rest, []⟩).head? =
      some ⟨content.reverse ++ before, rest, [(1, content)]⟩ := by
  obtain ⟨htake, hdrop⟩ := dot_line hcontent hrest
  have hnone : (literal "++").ways ⟨before, content ++ rest, []⟩ = [] := by
    have hword : ¬['+', '+'] <+: content ++ rest := by
      rwa [prefix_line (by decide) hrest]
    exact Regex.ways_word_none hword
  have hahead : (Regex.ahead false (literal "++")).ways ⟨before, content ++ rest, []⟩ =
      [⟨before, content ++ rest, []⟩] := by
    rw [Regex.ways_ahead, hnone]
    rfl
  have hrun : ((Regex.run true 0 none dot).ways ⟨before, content ++ rest, []⟩).head? =
      some ⟨content.reverse ++ before, rest, []⟩ := by
    rw [Regex.head_run, htake, hdrop]
  have hgroup := @Regex.head_group Char _ _ _ 1 hrun
  have htext : (content ++ rest).take ((content ++ rest).length - rest.length) = content := by
    simp
  simp only [htext] at hgroup
  rw [added_rest, Regex.ways_seq, hahead, List.flatMap_singleton]
  apply Regex.head_seq hgroup
  rw [eol_ways hrest]
  rfl

/-- The pattern reads the whole of an added line, and no other line. -/
theorem added_line_whole {before line rest : List Char} (hbefore : Regex.AtStart '\n' before)
    (hline : '\n' ∉ line) (hrest : ∀ c, rest.head? = some c → c = '\n') :
    ADDED_LINE_RE.first before (line ++ rest) = added_match line := by
  have hstart : ADDED_LINE_RE.ways ⟨before, line ++ rest, []⟩ =
      ((literal "+").ways ⟨before, line ++ rest, []⟩).flatMap added_rest.ways := by
    rw [ADDED_LINE_RE, Regex.ways_seq, bol_ways hbefore, List.flatMap_singleton]
    rfl
  have hliteral : literal "+" = .word ['+'] := rfl
  rw [hliteral] at hstart
  by_cases hplus : ['+'] <+: line
  · obtain ⟨content, hcons⟩ := hplus
    subst hcons
    have hcontent : '\n' ∉ content := fun hmem => hline (by simp [hmem])
    have hword := @Regex.ways_word Char _ _ ['+'] before (content ++ rest) []
    rw [List.append_assoc, hword, List.flatMap_singleton] at hstart
    by_cases hpp : ['+', '+'] <+: content
    · obtain ⟨tail, htail⟩ := hpp
      subst htail
      have hnone : ADDED_LINE_RE.ways ⟨before, ['+'] ++ (['+', '+'] ++ tail ++ rest), []⟩ = [] := by
        rw [hstart]
        exact added_rest_none
      have hdropped : ¬Added (['+'] ++ (['+', '+'] ++ tail)) := by simp [Added]
      rw [List.append_assoc ['+'], Regex.first, hnone, added_match, if_neg hdropped]
      rfl
    · have hhead := @added_rest_head ('+' :: before) content rest hcontent hrest hpp
      have hadded : Added (['+'] ++ content) := by
        refine ⟨List.prefix_append _ _, fun h => hpp ?_⟩
        exact (List.cons_prefix_cons.mp h).2
      have hfirst : ADDED_LINE_RE.first before (['+'] ++ (content ++ rest)) =
          some ⟨['+'] ++ content, [(1, content)]⟩ := by
        rw [Regex.first, hstart]
        simp only [List.reverse_singleton, List.singleton_append] at hhead ⊢
        rw [hhead]
        have hlength : content.length + rest.length + 1 - rest.length = content.length + 1 := by
          omega
        simp [hlength]
      rw [List.append_assoc, hfirst, added_match, if_pos hadded]
      rfl
  · have hnone : (Regex.word ['+']).ways ⟨before, line ++ rest, []⟩ = [] := by
      apply Regex.ways_word_none
      rwa [prefix_line (by decide) hrest]
    have hdropped : ¬Added line := fun h => hplus h.1
    rw [Regex.first, hstart, hnone, added_match, if_neg hdropped]
    rfl

theorem added_linewise : Regex.Linewise '\n' ADDED_LINE_RE added_match where
  inside := by
    intro c before rest hc
    rw [Regex.first, ADDED_LINE_RE, Regex.ways_seq, bol_inside hc]
    rfl
  whole := added_line_whole
  covers := by
    intro line m h
    rw [added_match] at h
    split at h
    · rename_i hadded
      cases h
      obtain ⟨content, rfl⟩ := added_plus hadded
      exact ⟨by simp, rfl⟩
    · cases h

/-- The texts of the added lines among `lines`. -/
def added_texts (lines : List (List Char)) : List (List Char) :=
  (lines.filter fun line => decide (Added line)).map (·.drop 1)

/-- The regular expression finds the added lines between the line feeds. -/
theorem matched_lines_joined {lines : List (List Char)} (h : ∀ line ∈ lines, '\n' ∉ line) :
    (ADDED_LINE_RE.finditer 0 [] (Text.joined '\n' lines)).map (·.group 1) =
      added_texts lines := by
  rw [added_linewise.finditer_joined (by simp [Regex.AtStart]) h]
  induction lines with
  | nil => rfl
  | cons line lines ih =>
    have hrest := ih fun l hl => h l (List.mem_cons_of_mem _ hl)
    unfold added_texts at hrest ⊢
    by_cases hadded : Added line
    · simpa [added_match, hadded, Regex.Match.group] using hrest
    · simpa [added_match, hadded] using hrest

theorem matched_lines_eq (diff_text : String) : matched_lines diff_text =
    (added_texts (diff_text.toList.splitOn '\n')).map String.ofList := by
  have hlines := @matched_lines_joined (diff_text.toList.splitOn '\n') fun line hline =>
    Text.not_mem_splitOn hline
  rw [Text.joined_splitOn] at hlines
  rw [← hlines, List.map_map]
  rfl

/-- The prefixes pick the added lines of `str.splitlines`. -/
theorem prefixed_lines_eq (diff_text : String) : prefixed_lines diff_text =
    (added_texts (splitlines_chars [] diff_text.toList)).map String.ofList := by
  unfold prefixed_lines added_texts splitlines
  rw [List.filter_map, List.map_map, List.map_map]
  have hpred : ((fun line => startswith "+" line && !startswith "+++" line) ∘ String.ofList) =
      fun line => decide (Added line) := by
    funext line
    rw [Bool.eq_iff_iff, decide_eq_true_iff]
    simp [startswith, Added, ← Bool.not_eq_true, List.isPrefixOf_iff_prefix]
  rw [hpred]
  simp [Function.comp_def]

end Nitpicker
