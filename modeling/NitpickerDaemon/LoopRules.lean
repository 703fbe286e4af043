import NitpickerDaemon.Data.Nesting
import NitpickerDaemon.LineNotions
import NitpickerDaemon.Redaction
import NitpickerDaemon.Text.Search

/-!
The rules of the architecture agent, and what its loop scanner reports: the lines that stand
inside of a loop by their indentation.
-/

set_option autoImplicit false

namespace Nitpicker

open Text (Regex)

/-- `s.lstrip()` -/
def lstrip (s : String) : String := String.ofList (s.toList.dropWhile isspace)

/-- `$` without `re.MULTILINE` -/
def eot : Regex Char :=
  .ahead true (.seq (.opt (literal "\n")) (.place fun _ after => after = none))

/-- A finding of a rule on a diff. -/
structure RuleFinding where
  code : String
  message : String
  deriving DecidableEq, Repr

def RuleFinding.dict (finding : RuleFinding) : PyDict :=
  [("code", .str finding.code), ("message", .str finding.message)]

structure DiffRule where
  code : String
  message : String
  pattern : Regex Char

def DiffRule.finding (rule : DiffRule) : RuleFinding := ⟨rule.code, rule.message⟩

namespace ArchitectureAgent

def LOOP_RULE_MESSAGES : List RuleFinding :=
  [⟨"ARCH001", "루프 내부 I/O — 반복문 안에서 파일/네트워크 I/O 또는 DB 쿼리 금지 (Hot-path 규칙)"⟩,
    ⟨"ARCH002", "루프 내부 lazy import — import 문은 모듈 최상단에 위치해야 함"⟩]

/-- `\s*:\s*\n\s*pass` -/
def pass_body : Regex Char :=
  .seq (spaces 0) (.seq (literal ":") (.seq (spaces 0) (.seq (literal "\n") (.seq (spaces 0)
    (literal "pass")))))

def constant_char (c : Char) : Bool := DomainRuleAgent.constant_start c || digit c

def lower (c : Char) : Bool := 'a' ≤ c && c ≤ 'z'

section Rules

variable (isalnum : Char → Bool)

def RULES : List DiffRule :=
  [⟨"ARCH003", "예외 무시 패턴 (except: pass / except Exception: pass) — Fail-Fast 규칙 위반",
      .seq (literal "except") (.seq (spaces 0) (.seq
        (.opt (.group 1 (.alt (literal "Exception") (.alt (literal "BaseException")
          (.seq (literal "(") (.seq (.run true 0 none dot) (literal ")")))))))
        pass_body))⟩,
    ⟨"ARCH004", "빈 except 절 — 최소한 logging 또는 re-raise 필요",
      .seq (literal "except") pass_body⟩,
    ⟨"ARCH005", "print()를 프로덕션 코드에서 사용 — logging 모듈 사용 권장",
      .seq (word_boundary isalnum) (.seq (literal "print") (.seq (spaces 0) (literal "(")))⟩,
    ⟨"ARCH006", "전역 가변 상태 — 모듈 수준 list/dict/set 리터럴 할당은 동시성 위험",
      .seq bol (.seq (.ahead false (.seq (spaces 0) (literal "#"))) (.seq (spaces 0)
        (.seq (.char DomainRuleAgent.constant_start) (.seq (.run true 0 none constant_char)
          (.seq (spaces 0) (.seq (literal ":") (.seq (spaces 0)
            (.seq (.group 1 (.alt (literal "list") (.alt (literal "dict") (literal "set"))))
              (.seq (spaces 0) (.seq (literal "=") (.seq (spaces 0)
                (.char fun c => c == '[' || c == '\x7b'))))))))))))⟩,
    ⟨"ARCH007", "__all__ 없이 공개 API 노출 — 외부 가져오기 범위를 명시하는 __all__ 정의 필요",
      .alt
        (.seq bol (.seq (literal "def ") (.seq (.char lower)
          (.seq (.run true 1 none fun c => lower c || c == '_') (literal "(")))))
        (.seq bol (.seq (literal "class ") (.char fun c => 'A' ≤ c && c ≤ 'Z')))⟩]

/-- `^(for|while)\b[^\r\n]*:\s*(?:#.*)?$` -/
def LOOP_HEADER_RE : Regex Char :=
  .seq (.place fun before _ => before = none) (.seq
    (.group 1 (.alt (literal "for") (literal "while"))) (.seq (word_boundary isalnum)
      (.seq (.run true 0 none fun c => c != '\r' && c != '\n') (.seq (literal ":") (.seq (spaces 0)
        (.seq (.opt (.seq (literal "#") (.run true 0 none dot))) eot))))))

def IO_PRIMITIVES : List String :=
  ["open(", "requests.", "httpx.", "aiohttp.", "sqlite3.", "cursor.execute"]

/-- `_indent_width`, with tabs to the next multiple of eight columns. -/
def indent_width (source_line : String) : Nat :=
  (source_line.toList.takeWhile fun c => c == ' ' || c == '\t').foldl
    (fun column c => if c = '\t' then column + (8 - column % 8) else column + 1) 0

/-- Blank lines and comments. -/
def skipped (source_line : String) : Bool :=
  let stripped := lstrip source_line
  stripped.isEmpty || startswith "#" stripped

def loop_header (source_line : String) : Bool :=
  ((LOOP_HEADER_RE isalnum).first [] (lstrip source_line).toList).isSome

def has_io (source_line : String) : Bool := IO_PRIMITIVES.any (contains source_line)

def is_import (source_line : String) : Bool :=
  let stripped := lstrip source_line
  startswith "import " stripped || startswith "import\t" stripped

structure LoopRuleScanner where
  loop_indents : List Nat := []
  found_codes : Finset String := ∅

namespace LoopRuleScanner

/-- What `scan_line` adds to the codes inside of a loop. -/
def add_codes (found_codes : Finset String) (source_line : String) : Finset String :=
  let found_codes := if has_io source_line then insert "ARCH001" found_codes else found_codes
  if is_import source_line then insert "ARCH002" found_codes else found_codes

def scan_line (scanner : LoopRuleScanner) (source_line : String) : LoopRuleScanner :=
  if skipped source_line then scanner
  else
    let indent := indent_width source_line
    let loop_indents := scanner.loop_indents.rdropWhile (indent ≤ ·)
    { loop_indents := if loop_header isalnum source_line then loop_indents ++ [indent]
        else loop_indents
      found_codes := if loop_indents.isEmpty then scanner.found_codes
        else add_codes scanner.found_codes source_line }

end LoopRuleScanner

/-- The codes that the scanner finds in a hunk. -/
def scan_hunk (hunk : List String) : Finset String :=
  (hunk.foldl (LoopRuleScanner.scan_line isalnum) ⟨[], ∅⟩).found_codes

def loop_codes (diff_text : String) : Finset String :=
  (iter_added_hunks diff_text).foldl (fun codes hunk => codes ∪ scan_hunk isalnum hunk) ∅

def scan_diff (diff_text : String) : List RuleFinding :=
  let added := added_block diff_text
  LOOP_RULE_MESSAGES.filter (fun finding => finding.code ∈ loop_codes isalnum diff_text) ++
    ((RULES isalnum).filter fun rule =>
      !(rule.code == "ARCH007" && added.toList.count '\n' < 20) &&
        rule.pattern.found added.toList).map DiffRule.finding

end Rules

/-- The lines after each hunk header, or all the lines when there is no header. -/
def hunk_sections (lines : List String) : List (List String) :=
  if lines.any opens_hunk then (lines.splitOnP opens_hunk).tail else [lines]

/-- The hunks as the loop has them in the end, the current one included. -/
def HunkLoop.hunks (loop : HunkLoop) : List (List String) := loop.yielded ++ [loop.current_hunk]

theorem map_texts_cons (line : String) (sections : List (List String)) :
    (sections.modifyHead (line :: ·)).map texts =
      (sections.map texts).modifyHead (texts [line] ++ ·) := by
  cases sections with
  | nil => rfl
  | cons lines sections => simp [← texts_cons]

/-- Once a hunk is open, each header ends one and begins the next. -/
theorem hunks_saw (lines : List String) {loop : HunkLoop} (h : loop.saw_hunk = true) :
    (lines.foldl HunkLoop.step loop).saw_hunk = true ∧
      (lines.foldl HunkLoop.step loop).hunks = loop.yielded ++
        ((lines.splitOnP opens_hunk).map texts).modifyHead (loop.current_hunk ++ ·) := by
  induction lines generalizing loop with
  | nil => simp [h, HunkLoop.hunks, texts]
  | cons line lines ih =>
    rw [List.foldl_cons, List.splitOnP_cons_eq_if_modifyHead]
    cases hopen : opens_hunk line with
    | true =>
      obtain ⟨hsaw, hhunks⟩ := @ih ⟨loop.yielded ++ [loop.current_hunk], [], true⟩ rfl
      rw [step_opens hopen, if_pos h]
      refine ⟨hsaw, ?_⟩
      rw [hhunks]
      cases hsplit : lines.splitOnP opens_hunk with
      | nil => exact absurd hsplit (List.splitOnP_ne_nil _ _)
      | cons rest sections => simp [texts]
    | false =>
      obtain ⟨hsaw, hhunks⟩ :=
        @ih { loop with current_hunk := loop.current_hunk ++ texts [line] } h
      rw [step_inside hopen]
      refine ⟨hsaw, ?_⟩
      rw [hhunks]
      simp only [Bool.false_eq_true, if_false, map_texts_cons, List.modifyHead_modifyHead]
      simp [Function.comp_def]

/-- The hunks are the sections between the headers; without a header there is one, or none if it
would be empty. -/
theorem hunks_unseen (lines : List String) {loop : HunkLoop} (h : loop.saw_hunk = false)
    (hyielded : loop.yielded = []) :
    (lines.foldl HunkLoop.step loop).saw_hunk = lines.any opens_hunk ∧
      (lines.foldl HunkLoop.step loop).hunks =
        if lines.any opens_hunk then (lines.splitOnP opens_hunk).tail.map texts
        else [loop.current_hunk ++ texts lines] := by
  induction lines generalizing loop with
  | nil => simp [h, hyielded, HunkLoop.hunks, texts]
  | cons line lines ih =>
    rw [List.foldl_cons, List.splitOnP_cons_eq_if_modifyHead]
    cases hopen : opens_hunk line with
    | true =>
      obtain ⟨hsaw, hhunks⟩ := @hunks_saw lines ⟨[], [], true⟩ rfl
      rw [step_opens hopen, if_neg (by simp [h]), hyielded]
      refine ⟨by simpa [hopen] using hsaw, ?_⟩
      rw [hhunks]
      cases hsplit : lines.splitOnP opens_hunk with
      | nil => exact absurd hsplit (List.splitOnP_ne_nil _ _)
      | cons rest sections => simp [hopen]
    | false =>
      obtain ⟨hsaw, hhunks⟩ :=
        @ih { loop with current_hunk := loop.current_hunk ++ texts [line] } h hyielded
      rw [step_inside hopen]
      refine ⟨by simpa [hopen] using hsaw, ?_⟩
      rw [hhunks, texts_cons line lines]
      cases hsplit : lines.splitOnP opens_hunk with
      | nil => exact absurd hsplit (List.splitOnP_ne_nil _ _)
      | cons rest sections => simp [hopen]

/-- A hunk with a line is yielded exactly when it is the added lines of a section. -/
theorem mem_iter_added_hunks {diff_text : String} {hunk : List String} (hne : hunk ≠ []) :
    hunk ∈ iter_added_hunks diff_text ↔
      hunk ∈ (hunk_sections (splitlines diff_text)).map texts := by
  obtain ⟨hsaw, hhunks⟩ := @hunks_unseen (splitlines diff_text) ⟨[], [], false⟩ rfl rfl
  unfold iter_added_hunks hunk_sections
  generalize (splitlines diff_text).foldl HunkLoop.step ⟨[], [], false⟩ = loop at hsaw hhunks
  rw [HunkLoop.hunks] at hhunks
  cases hany : (splitlines diff_text).any opens_hunk with
  | true => simp [hsaw, hhunks, hany]
  | false =>
    simp only [hany, Bool.false_eq_true, if_false, List.nil_append] at hsaw hhunks ⊢
    have hyielded : loop.yielded = [] := by
      have hlength := congrArg List.length hhunks
      simpa using hlength
    cases hcurrent : loop.current_hunk with
    | nil =>
      rw [hyielded, hcurrent] at hhunks
      have htexts : texts (splitlines diff_text) = [] := by simpa using hhunks.symm
      simp [hsaw, hyielded, htexts, hne]
    | cons line rest =>
      rw [hyielded, hcurrent] at hhunks
      have htexts : texts (splitlines diff_text) = line :: rest := by simpa using hhunks.symm
      simp [hyielded, htexts]

/-- The indentation of a line that the scanner looks at. -/
def line_level (line : String) : Option Nat :=
  if skipped line then none else some (indent_width line)

section Scanner

variable {isalnum : Char → Bool}

theorem scan_line_indents (scanner : LoopRuleScanner) (line : String) :
    (scanner.scan_line isalnum line).loop_indents =
      Nesting.step line_level (loop_header isalnum) scanner.loop_indents line := by
  unfold LoopRuleScanner.scan_line Nesting.step line_level Nesting.close
  cases skipped line <;> simp

theorem scan_line_codes (scanner : LoopRuleScanner) (line : String) :
    (scanner.scan_line isalnum line).found_codes =
      match line_level line with
      | none => scanner.found_codes
      | some indent =>
        if Nesting.close scanner.loop_indents indent = [] then scanner.found_codes
        else LoopRuleScanner.add_codes scanner.found_codes line := by
  unfold LoopRuleScanner.scan_line line_level Nesting.close
  cases skipped line <;> simp

theorem mem_add_codes {found_codes : Finset String} {line code : String} :
    code ∈ LoopRuleScanner.add_codes found_codes line ↔
      code ∈ found_codes ∨ code ∈ LoopRuleScanner.add_codes ∅ line := by
  unfold LoopRuleScanner.add_codes
  cases has_io line <;> cases is_import line <;> simp [or_comm, or_left_comm, or_assoc]

/-- The scanner keeps the indentations of the open loops. -/
theorem scan_indents (hunk : List String) :
    (hunk.foldl (LoopRuleScanner.scan_line isalnum) ⟨[], ∅⟩).loop_indents =
      Nesting.stack line_level (loop_header isalnum) hunk := by
  induction hunk using List.reverseRecOn with
  | nil => rfl
  | append_singleton hunk line ih =>
    rw [List.foldl_append, Nesting.stack_append, ← ih]
    exact scan_line_indents _ line

variable (isalnum) in
/-- The lines of `outer` leave a loop open that `line` is indented below. -/
def Below (outer : List String) (line : String) : Prop :=
  ∃ indent, line_level line = some indent ∧
    ∃ loop, Nesting.Open line_level (loop_header isalnum) outer loop ∧ loop < indent

/-- The codes found in a hunk are those of its lines below an open loop. -/
theorem mem_scan_hunk {hunk : List String} {code : String} : code ∈ scan_hunk isalnum hunk ↔
    ∃ outer line after, hunk = outer ++ line :: after ∧ Below isalnum outer line ∧
      code ∈ LoopRuleScanner.add_codes ∅ line := by
  induction hunk using List.reverseRecOn with
  | nil => simp [scan_hunk]
  | append_singleton hunk line ih =>
    have hlast : code ∈ scan_hunk isalnum (hunk ++ [line]) ↔ code ∈ scan_hunk isalnum hunk ∨
        (Below isalnum hunk line ∧ code ∈ LoopRuleScanner.add_codes ∅ line) := by
      have hindents := @scan_indents isalnum hunk
      rw [scan_hunk, List.foldl_append, List.foldl_cons, List.foldl_nil, scan_line_codes, hindents,
        Below]
      cases line_level line with
      | none => simp [scan_hunk]
      | some indent =>
        have hopen := @Nesting.close_ne_nil_iff String Nat _ line_level (loop_header isalnum) hunk
          indent
        by_cases hclose : Nesting.close (Nesting.stack line_level (loop_header isalnum) hunk)
            indent = []
        · have hnone := mt hopen.mpr (not_not.mpr hclose)
          simp [hclose, hnone, scan_hunk]
        · have hloop := hopen.mp hclose
          simp only [if_neg hclose]
          rw [mem_add_codes]
          simp [hloop, scan_hunk]
    rw [hlast, ih]
    constructor
    · intro h
      rcases h with ⟨outer, l, after, heq, hl⟩ | h
      · exact ⟨outer, l, after ++ [line], by simp [heq], hl⟩
      · exact ⟨hunk, line, [], rfl, h⟩
    · intro ⟨outer, l, after, heq, hl⟩
      induction after using List.reverseRecOn with
      | nil =>
        obtain ⟨houter, hline⟩ := List.append_inj' heq rfl
        cases hline
        subst houter
        exact .inr hl
      | append_singleton after last _ =>
        rw [← List.cons_append, ← List.append_assoc] at heq
        exact .inl ⟨outer, l, after, (List.append_inj' heq rfl).1, hl⟩

theorem mem_loop_codes {diff_text code : String} : code ∈ loop_codes isalnum diff_text ↔
    ∃ hunk ∈ iter_added_hunks diff_text, code ∈ scan_hunk isalnum hunk := by
  unfold loop_codes
  induction iter_added_hunks diff_text using List.reverseRecOn with
  | nil => simp
  | append_singleton hunks hunk ih => simp [List.foldl_append, ih, or_and_right, exists_or]

variable (isalnum) in
/-- A loop header and, after it, a line, with every line between them and the line itself
indented deeper than the header. Blank lines and comments do not count. -/
def InLoop (hunk : List String) (line : String) : Prop :=
  ∃ outer header inner after, hunk = outer ++ header :: (inner ++ line :: after) ∧
    skipped header = false ∧ loop_header isalnum header = true ∧ skipped line = false ∧
    ∀ l ∈ inner ++ [line], skipped l = false → indent_width header < indent_width l

theorem in_loop_iff {hunk : List String} {line : String} : InLoop isalnum hunk line ↔
    ∃ outer after, hunk = outer ++ line :: after ∧ Below isalnum outer line := by
  have hlevel : ∀ l n, line_level l = some n ↔ skipped l = false ∧ indent_width l = n := by
    intro l n
    unfold line_level
    cases skipped l <;> simp
  constructor
  · intro ⟨outer, header, inner, after, heq, hkept, hheader, hline, hdeeper⟩
    refine ⟨outer ++ header :: inner, after, by simp [heq], indent_width line,
      (hlevel line _).mpr ⟨hline, rfl⟩, indent_width header, ?_, hdeeper line (by simp) hline⟩
    refine ⟨outer, header, inner, rfl, (hlevel header _).mpr ⟨hkept, rfl⟩, hheader, ?_⟩
    intro l hl n hn
    obtain ⟨hkeptl, rfl⟩ := (hlevel l n).mp hn
    exact hdeeper l (List.mem_append_left _ hl) hkeptl
  · intro ⟨before, after, heq, indent, hindent, loop, hopen, hlt⟩
    obtain ⟨outer, header, inner, hbefore, hloop, hheader, hdeeper⟩ := hopen
    obtain ⟨hline, rfl⟩ := (hlevel line indent).mp hindent
    obtain ⟨hkept, rfl⟩ := (hlevel header loop).mp hloop
    refine ⟨outer, header, inner, after, by simp [heq, hbefore], hkept, hheader, hline, ?_⟩
    intro l hl hkeptl
    rcases List.mem_append.mp hl with hl | hl
    · exact hdeeper l hl _ ((hlevel l _).mpr ⟨hkeptl, rfl⟩)
    · rw [List.mem_singleton.mp hl]
      exact hlt

/-- A loop code is reported when a line of that kind stands in a loop of some section. -/
theorem loop_code_iff {diff_text code : String} : code ∈ loop_codes isalnum diff_text ↔
    ∃ lines ∈ hunk_sections (splitlines diff_text), ∃ line,
      InLoop isalnum (texts lines) line ∧ code ∈ LoopRuleScanner.add_codes ∅ line := by
  rw [mem_loop_codes]
  constructor
  · intro ⟨hunk, hhunk, hcode⟩
    obtain ⟨outer, line, after, heq, hbelow, hadd⟩ := mem_scan_hunk.mp hcode
    have hne : hunk ≠ [] := by simp [heq]
    obtain ⟨lines, hlines, rfl⟩ := List.mem_map.mp ((mem_iter_added_hunks hne).mp hhunk)
    exact ⟨lines, hlines, line, in_loop_iff.mpr ⟨outer, after, heq, hbelow⟩, hadd⟩
  · intro ⟨lines, hlines, line, hloop, hadd⟩
    obtain ⟨outer, after, heq, hbelow⟩ := in_loop_iff.mp hloop
    have hne : texts lines ≠ [] := by simp [heq]
    have hhunk := (mem_iter_added_hunks hne).mpr (List.mem_map_of_mem hlines)
    exact ⟨texts lines, hhunk, mem_scan_hunk.mpr ⟨outer, line, after, heq, hbelow, hadd⟩⟩

/-- The two loop rules are reported by their codes and by nothing else. -/
theorem mem_scan_codes {diff_text code : String} (h : code = "ARCH001" ∨ code = "ARCH002") :
    code ∈ (scan_diff isalnum diff_text).map (·.code) ↔ code ∈ loop_codes isalnum diff_text := by
  have hmessage : code ∈ LOOP_RULE_MESSAGES.map (·.code) := by
    rcases h with rfl | rfl <;> decide
  have hrules : code ∉ (RULES isalnum).map (·.code) := by
    rcases h with rfl | rfl <;> simp [RULES]
  constructor
  · intro hmem
    obtain ⟨finding, hfinding, rfl⟩ := List.mem_map.mp hmem
    rcases List.mem_append.mp hfinding with hloop | hrule
    · simpa using (List.mem_filter.mp hloop).2
    · obtain ⟨rule, hkept, rfl⟩ := List.mem_map.mp hrule
      exact absurd (List.mem_map_of_mem (List.mem_of_mem_filter hkept)) hrules
  · intro hcode
    obtain ⟨finding, hfinding, rfl⟩ := List.mem_map.mp hmessage
    apply List.mem_map_of_mem
    apply List.mem_append_left
    exact List.mem_filter.mpr ⟨hfinding, by simpa using hcode⟩

/-- The loop rules are reported exactly for the lines in a loop that do I/O or import. -/
theorem loop_rules_iff (isalnum : Char → Bool) (diff_text : String) :
    ("ARCH001" ∈ (scan_diff isalnum diff_text).map (·.code) ↔
      ∃ lines ∈ hunk_sections (splitlines diff_text), ∃ line,
        InLoop isalnum (texts lines) line ∧ has_io line = true) ∧
    ("ARCH002" ∈ (scan_diff isalnum diff_text).map (·.code) ↔
      ∃ lines ∈ hunk_sections (splitlines diff_text), ∃ line,
        InLoop isalnum (texts lines) line ∧ is_import line = true) := by
  have hio : ∀ line, "ARCH001" ∈ LoopRuleScanner.add_codes ∅ line ↔ has_io line = true := by
    intro line
    unfold LoopRuleScanner.add_codes
    cases has_io line <;> cases is_import line <;> simp
  have himport : ∀ line, "ARCH002" ∈ LoopRuleScanner.add_codes ∅ line ↔ is_import line = true := by
    intro line
    unfold LoopRuleScanner.add_codes
    cases has_io line <;> cases is_import line <;> simp
  rw [mem_scan_codes (.inl rfl), mem_scan_codes (.inr rfl), loop_code_iff, loop_code_iff]
  simp only [hio, himport, and_self]

end Scanner

end ArchitectureAgent

end Nitpicker
