import NitpickerDaemon.DiffFiles
import NitpickerDaemon.LoopRules

/-!
The rules of the security agent, and for which diffs its rule on assertions does what it says.
-/

set_option autoImplicit false

namespace Nitpicker

open Text (Regex)

namespace SecurityAgent

section Rules

variable (isalnum : Char → Bool)

/-- `(secret|password|passwd|api_key|token|auth_key)\s*=\s*['\"][^'\"]{4,}` under `(?i)` -/
def SECRET_RE : Regex Char :=
  .seq (.group 1 (.alt (word_any_case "secret") (.alt (word_any_case "password")
    (.alt (word_any_case "passwd") (.alt (word_any_case "api_key") (.alt (word_any_case "token")
      (word_any_case "auth_key")))))))
    (.seq (spaces 0) (.seq (literal "=") (.seq (spaces 0) (.seq (.char quote)
      (.run true 4 none fun c => !quote c)))))

/-- `[^)]*` -/
def to_parenthesis : Regex Char := .run true 0 none (· != ')')

/-- `\s*\(` -/
def opens_call : Regex Char := .seq (spaces 0) (literal "(")

/-- `subprocess\.(run|Popen|call|check_output)\([^)]*shell\s*=\s*True` -/
def SHELL_RE : Regex Char :=
  .seq (literal "subprocess.") (.seq (.group 1 (.alt (literal "run") (.alt (literal "Popen")
    (.alt (literal "call") (literal "check_output")))))
    (.seq (literal "(") (.seq to_parenthesis (.seq (literal "shell") (.seq (spaces 0)
      (.seq (literal "=") (.seq (spaces 0) (literal "True"))))))))

/-- `\b(eval|exec)\s*\(` -/
def EVAL_RE : Regex Char :=
  .seq (word_boundary isalnum) (.seq (.group 1 (.alt (literal "eval") (literal "exec")))
    opens_call)

/-- `^\+\s*assert\s+` -/
def ASSERT_RE : Regex Char :=
  .seq bol (.seq (literal "+") (.seq (spaces 0) (.seq (literal "assert") (spaces 1))))

/-- `pickle\.loads?\s*\(` -/
def PICKLE_RE : Regex Char :=
  .seq (literal "pickle.load") (.seq (.opt (literal "s")) opens_call)

/-- `yaml\.load\s*\([^)]*\)` -/
def YAML_RE : Regex Char :=
  .seq (literal "yaml.load") (.seq opens_call (.seq to_parenthesis (literal ")")))

/-- `\brandom\.(random|randint|choice|shuffle)\s*\(` -/
def RANDOM_RE : Regex Char :=
  .seq (word_boundary isalnum) (.seq (literal "random.") (.seq (.group 1 (.alt (literal "random")
    (.alt (literal "randint") (.alt (literal "choice") (literal "shuffle"))))) opens_call))

/-- `hashlib\.(md5|sha1)\s*\(` without regard to case -/
def HASH_RE : Regex Char :=
  .seq (word_any_case "hashlib.") (.seq (.group 1 (.alt (word_any_case "md5")
    (word_any_case "sha1"))) opens_call)

/-- `(execute|cursor\.execute)\s*\([^)]*(%|format|f['"]).*?(SELECT|INSERT|UPDATE|DELETE)` without
regard to case, the dot for every character -/
def SQL_RE : Regex Char :=
  .seq (.group 1 (.alt (word_any_case "execute") (word_any_case "cursor.execute")))
    (.seq opens_call (.seq to_parenthesis (.seq
      (.group 2 (.alt (literal "%") (.alt (word_any_case "format")
        (.seq (word_any_case "f") (.char quote)))))
      (.seq (.run false 0 none fun _ => true) (.group 3 (.alt (word_any_case "select")
        (.alt (word_any_case "insert") (.alt (word_any_case "update")
          (word_any_case "delete")))))))))

def RULES : List DiffRule :=
  [⟨"SEC001", "하드코딩된 비밀 키 의심 패턴 (secret/password/token= 할당)", SECRET_RE⟩,
    ⟨"SEC002", "shell=True subprocess 호출은 명령어 인젝션 위험", SHELL_RE⟩,
    ⟨"SEC003", "eval() / exec() 사용은 임의 코드 실행 위험", EVAL_RE isalnum⟩,
    ⟨"SEC004", "assert 문은 -O 플래그로 제거되므로 보안 검사에 사용 금지", ASSERT_RE⟩,
    ⟨"SEC005", "pickle.loads / pickle.load 는 신뢰할 수 없는 데이터에 사용 금지", PICKLE_RE⟩,
    ⟨"SEC006", "yaml.load() 에 Loader 없으면 임의 코드 실행 가능 — yaml.safe_load() 사용", YAML_RE⟩,
    ⟨"SEC007", "random 모듈은 암호학적으로 안전하지 않음 — secrets 모듈 사용", RANDOM_RE isalnum⟩,
    ⟨"SEC008", "MD5 / SHA1 은 보안 목적으로 사용 금지", HASH_RE⟩,
    ⟨"SEC009", "SQL 쿼리 문자열 포매팅 — 파라미터 바인딩 사용", SQL_RE⟩]

def scan_diff (diff_text : String) : List RuleFinding :=
  ((RULES isalnum).filter fun rule =>
    rule.pattern.found (added_content diff_text).toList).map DiffRule.finding

/-- `f"SEC{f['code'][-3:]}: {f['message']}"` -/
def suggested_action (finding : RuleFinding) : String :=
  "SEC" ++ String.ofList (finding.code.toList.drop (finding.code.length - 3)) ++ ": " ++
    finding.message

def run (request : ReviewRequest) : AgentDecision :=
  let findings := scan_diff isalnum request.diff_text
  if findings.isEmpty then
    { agent_name := "security"
      status := .pass
      confidence_score := 9 / 10
      findings := []
      suggested_actions := [] }
  else
    { agent_name := "security"
      status := .reject
      confidence_score := 95 / 100
      findings := findings.map RuleFinding.dict
      suggested_actions := findings.map suggested_action }

end Rules

/-- A finding of the decision has this code. -/
def Reports (decision : AgentDecision) (code : String) : Prop :=
  ∃ finding ∈ decision.findings, PyDict.get finding "code" = .str code

/-- `\s*assert\s.*` -/
def AssertLine (content : List Char) : Prop :=
  ∃ blanks c rest, content = blanks ++ ("assert".toList ++ c :: rest) ∧
    (∀ b ∈ blanks, isspace b = true) ∧ isspace c = true

/-- A line of the text starts with a plus, and behind it comes, after blank space, an `assert`. -/
def PlusAssert (text : List Char) : Prop :=
  ∃ before blanks c rest, text = before ++ '+' :: (blanks ++ ("assert".toList ++ c :: rest)) ∧
    (before.getLast? = none ∨ before.getLast? = some '\n') ∧
    (∀ b ∈ blanks, isspace b = true) ∧ isspace c = true

variable {isalnum : Char → Bool}

theorem run_findings (request : ReviewRequest) : (run isalnum request).findings =
    (scan_diff isalnum request.diff_text).map RuleFinding.dict := by
  unfold run
  cases scan_diff isalnum request.diff_text <;> rfl

/-- Whatever is reported is rejected. -/
theorem reports_reject {request : ReviewRequest} {code : String}
    (h : Reports (run isalnum request) code) : (run isalnum request).status = .reject := by
  obtain ⟨finding, hmem, -⟩ := h
  rw [run_findings] at hmem
  unfold run
  cases hfindings : scan_diff isalnum request.diff_text with
  | nil => simp [hfindings] at hmem
  | cons f findings => rfl

theorem reports_assert_iff (request : ReviewRequest) :
    Reports (run isalnum request) "SEC004" ↔
      ASSERT_RE.found (added_content request.diff_text).toList = true := by
  have hcode : ∀ finding : RuleFinding, PyDict.get finding.dict "code" = .str finding.code :=
    fun _ => rfl
  unfold Reports
  rw [run_findings]
  simp only [List.mem_map, exists_exists_and_eq_and, hcode, scan_diff, List.mem_filter,
    PyVal.str.injEq]
  constructor
  · intro ⟨rule, ⟨hrule, hfound⟩, hname⟩
    simp only [RULES, List.mem_cons, List.not_mem_nil, or_false] at hrule
    rcases hrule with rfl | rfl | rfl | rfl | rfl | rfl | rfl | rfl | rfl
    case inr.inr.inr.inl => exact hfound
    all_goals simp [DiffRule.finding] at hname
  · intro hfound
    have hrule : ⟨"SEC004", "assert 문은 -O 플래그로 제거되므로 보안 검사에 사용 금지", ASSERT_RE⟩ ∈
        RULES isalnum := by simp [RULES]
    exact ⟨_, ⟨hrule, hfound⟩, rfl⟩

/-- The pattern reads the line only behind a plus of its own. -/
theorem assert_found_iff (text : List Char) : ASSERT_RE.found text = true ↔ PlusAssert text := by
  rw [Regex.found_iff]
  unfold ASSERT_RE bol literal spaces
  simp only [Regex.reads_seq, Regex.reads_place, Regex.reads_word, Regex.reads_many]
  constructor
  · intro ⟨before, read, after, htext, t, u, hread, ⟨ht, hbol⟩, plus, u₁, hu, hplus, blanks, u₂, hu₁,
      ⟨hblanks, _⟩, word, u₃, hu₂, hword, hspaces, hleast⟩
    cases u₃ with
    | nil => simp at hleast
    | cons c more =>
      refine ⟨before, blanks, c, more ++ after, ?_, ?_, hblanks, hspaces c List.mem_cons_self⟩
      · rw [htext, hread, ht, hu, hplus, hu₁, hu₂, hword]
        simp
      · simpa using hbol
  · intro ⟨before, blanks, c, rest, htext, hbol, hblanks, hc⟩
    refine ⟨before, '+' :: (blanks ++ ("assert".toList ++ [c])), rest, by simp [htext], [], _, rfl,
      ⟨rfl, by simpa using hbol⟩, ['+'], _, rfl, rfl, blanks, _, rfl, ⟨hblanks, by simp⟩,
      "assert".toList, [c], rfl, rfl, by simpa using hc, by simp⟩

/-- The text the rules see of a diff. -/
theorem added_content_render (files : List DiffFiles.FileDiff) (ended : Bool) :
    (added_content (DiffFiles.render files ended)).toList =
      Text.joined '\n' (DiffFiles.shown (DiffFiles.added_contents files)) := by
  rw [added_content, added_lines, DiffFiles.matched_lines_render, Text.joined_eq_intercalate]
  simp [String.toList_intercalate]

theorem reports_render_iff (request : ReviewRequest) (files : List DiffFiles.FileDiff)
    (ended : Bool) :
    Reports (run isalnum { request with diff_text := DiffFiles.render files ended }) "SEC004" ↔
      PlusAssert (Text.joined '\n' (DiffFiles.shown (DiffFiles.added_contents files))) := by
  rw [reports_assert_iff, assert_found_iff, added_content_render]

variable (isalnum) in
/-- An added line with an `assert` is reported and the diff rejected; nothing else is reported so. -/
def AssertsReported (request : ReviewRequest) (files : List DiffFiles.FileDiff) (ended : Bool) :
    Prop :=
  let decision := run isalnum { request with diff_text := DiffFiles.render files ended }
  ((∃ content ∈ DiffFiles.added_contents files, AssertLine content) →
      Reports decision "SEC004" ∧ decision.status = .reject) ∧
    (Reports decision "SEC004" → ∃ content ∈ DiffFiles.added_contents files, AssertLine content)

/-- The rule is right for the diffs in which an `assert` is added exactly when one stands behind
a further plus. -/
theorem asserts_reported_iff (isalnum : Char → Bool) (request : ReviewRequest)
    (files : List DiffFiles.FileDiff) (ended : Bool) :
    AssertsReported isalnum request files ended ↔
      ((∃ content ∈ DiffFiles.added_contents files, AssertLine content) ↔
        PlusAssert (Text.joined '\n' (DiffFiles.shown (DiffFiles.added_contents files)))) := by
  have hreports := @reports_render_iff isalnum request files ended
  have hreject := @reports_reject isalnum
    { request with diff_text := DiffFiles.render files ended } "SEC004"
  unfold AssertsReported
  rw [← hreports]
  constructor
  · intro ⟨hasserts, hconverse⟩
    exact ⟨fun h => (hasserts h).1, hconverse⟩
  · intro h
    exact ⟨fun hassert => ⟨h.mp hassert, hreject (h.mp hassert)⟩, h.mpr⟩

/-- A diff that adds the line `assert user.ok`. -/
def guarded : List DiffFiles.FileDiff :=
  [{ extended := []
     extended_git := by simp
     names := some (⟨['a', '/', 'x', '.', 'p', 'y'], by simp⟩, ⟨['b', '/', 'x', '.', 'p', 'y'], by simp⟩)
     hunks := [⟨1, 1, none, [.context ⟨"import auth".toList, by decide⟩,
       .added ⟨"assert user.ok".toList, by decide⟩]⟩] }]

/-- The line is not reported. -/
theorem guarded_unreported :
    ¬AssertsReported Char.isAlphanum (sampleRequest "req_1" "key") guarded true := by
  intro h
  have hassert : ∃ content ∈ DiffFiles.added_contents guarded, AssertLine content :=
    ⟨"assert user.ok".toList, by decide, [], ' ', "user.ok".toList, rfl, by simp, rfl⟩
  obtain ⟨before, blanks, c, rest, htext, -⟩ := (reports_render_iff _ _ _).mp (h.1 hassert).1
  have hplus : '+' ∈ Text.joined '\n' (DiffFiles.shown (DiffFiles.added_contents guarded)) := by
    rw [htext]
    simp
  exact absurd hplus (by decide)

end SecurityAgent

end Nitpicker
