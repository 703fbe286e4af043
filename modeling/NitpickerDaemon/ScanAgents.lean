import NitpickerDaemon.AstSecurity
import NitpickerDaemon.SecurityRules

/-!
The agents that only read the request and its context: rules on the added lines of the diff, its
size and scope, and the patch it was given.
-/

set_option autoImplicit false

namespace Nitpicker

open Text (Regex)

/-- What an agent decides on the findings of its rules. -/
def rule_decision (agent_name : String) (found : AgentStatus) (confidence clean : Rat)
    (action : RuleFinding → String) (findings : List RuleFinding) : AgentDecision :=
  if findings.isEmpty then
    { agent_name := agent_name
      status := .pass
      confidence_score := clean
      findings := []
      suggested_actions := [] }
  else
    { agent_name := agent_name
      status := found
      confidence_score := confidence
      findings := findings.map RuleFinding.dict
      suggested_actions := findings.map action }

/-- `f"{f['code']}: {f['message']}"` -/
def RuleFinding.action (finding : RuleFinding) : String := finding.code ++ ": " ++ finding.message

/-- `pat.search(text)` of each rule -/
def found_rules (rules : List DiffRule) (text : String) : List RuleFinding :=
  (rules.filter fun rule => rule.pattern.found text.toList).map DiffRule.finding

theorem rule_decision_status {agent_name : String} {found : AgentStatus} {confidence clean : Rat}
    {action : RuleFinding → String} {findings : List RuleFinding} :
    (rule_decision agent_name found confidence clean action findings).status =
      if findings = [] then .pass else found := by
  unfold rule_decision
  cases findings <;> rfl

section Patterns

variable (isalnum : Char → Bool)

/-- `\w` -/
def word_char (c : Char) : Bool := isalnum c || c == '_'

/-- `[\s\S]*?` -/
def anything : Regex Char := .run false 0 none fun _ => true

/-- `(for|while)\s+.+:` -/
def loop_line : Regex Char :=
  .seq (.group 1 (.alt (literal "for") (literal "while"))) (.seq (spaces 1)
    (.seq (.run true 1 none dot) (literal ":")))

/-- `(for|while)\s+.+:[\s\S]*?\n\s+` and the rest -/
def in_loop (rest : Regex Char) : Regex Char :=
  .seq loop_line (.seq anything (.seq (literal "\n") (.seq (spaces 1) rest)))

end Patterns

namespace PerformanceAgent

section Rules

variable (isalnum : Char → Bool)

def RULES : List DiffRule :=
  [ -- `(for|while)\s+.+:[\s\S]*?\n\s+\w+\s*\+=[\s]*['\"]?`
    ⟨"PERF001", "루프 내 문자열 += 연산 — 리스트 누적 후 ''.join() 사용 권장 (O(n²) 불변 str 복사)",
      in_loop (.seq (.run true 1 none (word_char isalnum)) (.seq (spaces 0) (.seq (literal "+=")
        (.seq (spaces 0) (.opt (.char quote))))))⟩,
    -- `(for|while)\s+.+:[\s\S]*?\n\s+(for|while)\s+.+:[\s\S]*?\bin\s+\w*[Ll]ist`
    ⟨"PERF002", "중첩 루프 내 리스트 탐색 — in list[] 는 O(n); set/dict로 교체 권장",
      in_loop (.seq loop_line (.seq anything (.seq (word_boundary isalnum) (.seq (literal "in")
        (.seq (spaces 1) (.seq (.run true 0 none (word_char isalnum))
          (.seq (.char fun c => c == 'L' || c == 'l') (literal "ist"))))))))⟩,
    -- `\bcopy\.deepcopy\s*\(`
    ⟨"PERF003", "copy.deepcopy() 과도한 사용 — 슬라이스/dataclasses.replace 등 경량 복사 고려",
      .seq (word_boundary isalnum) (.seq (literal "copy.deepcopy") SecurityAgent.opens_call)⟩,
    -- `(for|while)\s+.+:[\s\S]*?\n\s+.*re\.compile\s*\(`
    ⟨"PERF004", "글로벌 정규식을 루프 내부에서 re.compile — 루프 밖에서 한 번만 컴파일",
      in_loop (.seq (.run true 0 none dot) (.seq (literal "re.compile") SecurityAgent.opens_call))⟩,
    -- `(for|while)\s+.+:[\s\S]*?\n\s+.*\bsorted?\s*\(`
    ⟨"PERF005", "sorted() / sort() 를 루프 안에서 반복 호출 — 루프 밖으로 이동 권장",
      in_loop (.seq (.run true 0 none dot) (.seq (word_boundary isalnum) (.seq (literal "sorte")
        (.seq (.opt (literal "d")) SecurityAgent.opens_call))))⟩,
    -- `(for|while)\s+.+:[\s\S]*?\n\s+.*\blen\s*\(\w+\)`
    ⟨"PERF006", "루프 내 len() 반복 호출 — 변수에 캐시 후 사용",
      in_loop (.seq (.run true 0 none dot) (.seq (word_boundary isalnum) (.seq (literal "len")
        (.seq SecurityAgent.opens_call (.seq (.run true 1 none (word_char isalnum))
          (literal ")"))))))⟩,
    -- `\[[^\[\]]*for[^\[\]]*for[^\[\]]*for[^\[\]]*\]`
    ⟨"PERF007", "리스트 컴프리헨션 중첩 3단계 이상 — 가독성/성능 모두 저하; 분리 고려",
      .seq (literal "[") (.seq inside (.seq (literal "for") (.seq inside (.seq (literal "for")
        (.seq inside (.seq (literal "for") (.seq inside (literal "]"))))))))⟩,
    -- `\btime\.sleep\s*\(`
    ⟨"PERF008", "time.sleep() 동기 호출 — asyncio.sleep() 또는 이벤트 기반 대기 권장",
      .seq (word_boundary isalnum) (.seq (literal "time.sleep") SecurityAgent.opens_call)⟩]
where
  /-- `[^\[\]]*` -/
  inside : Regex Char := .run true 0 none fun c => c != '[' && c != ']'

def added_block (diff_text : String) : String := "\n".intercalate (matched_lines diff_text)

def scan_diff (diff_text : String) : List RuleFinding :=
  found_rules (RULES isalnum) (added_block diff_text)

def run (request : ReviewRequest) : AgentDecision :=
  rule_decision "performance" .warn (7 / 10) (85 / 100) RuleFinding.action
    (scan_diff isalnum request.diff_text)

end Rules

end PerformanceAgent

namespace IncidentTriageAgent

section Rules

variable (isalnum : Char → Bool)

/-- `\w+\.\w+` -/
def attribute_access : Regex Char :=
  .seq (.run true 1 none (word_char isalnum)) (.seq (literal ".")
    (.run true 1 none (word_char isalnum)))

/-- `[\w./%-]` -/
def url_char (c : Char) : Bool := word_char isalnum c || c == '.' || c == '/' || c == '%' || c == '-'

/-- `\d{1,3}` -/
def octet : Regex Char := .run true 1 (some 3) digit

def RULES : List DiffRule :=
  [ -- `except\s*Exception\s*:\s*\n\s*(pass|\.\.\.)\s*$`
    ⟨"INC001", "예외 없이 모든 예외 캐치 — 장애 원인이 숨겨질 수 있음; 예외 종류 명시하고 로깅",
      .seq (literal "except") (.seq (spaces 0) (.seq (literal "Exception") (.seq (spaces 0)
        (.seq (literal ":") (.seq (spaces 0) (.seq (literal "\n") (.seq (spaces 0)
          (.seq (.group 1 (.alt (literal "pass") (literal "..."))) (.seq (spaces 0) eol)))))))))⟩,
    -- `=\s*\w+\.\w+\([^)]*\)\s*\n\s*\w+\.\w+`
    ⟨"INC002", "None 반환값을 검사 없이 사용 — is None / is not None 체크 필요",
      .seq (literal "=") (.seq (spaces 0) (.seq (attribute_access isalnum) (.seq (literal "(")
        (.seq SecurityAgent.to_parenthesis (.seq (literal ")") (.seq (spaces 0)
          (.seq (literal "\n") (.seq (spaces 0) (attribute_access isalnum)))))))))⟩,
    -- `#\s*(noqa|type:\s*ignore)`
    ⟨"INC003", "'# noqa' / '# type: ignore' 로 정적 검사 억제 — 실제 문제 해결 권장",
      .seq (literal "#") (.seq (spaces 0) (.group 1 (.alt (literal "noqa")
        (.seq (literal "type:") (.seq (spaces 0) (literal "ignore"))))))⟩,
    -- `except\s+[\w,(\s)]*:[\s\S]*?\n\s*(raise|return|pass)`
    ⟨"INC004", "logging.exception() / log.exception() 없이 예외 재발생 — 스택 트레이스 누락 위험",
      .seq (literal "except") (.seq (spaces 1) (.seq
        (.run true 0 none fun c => word_char isalnum c || c == ',' || c == '(' || isspace c || c == ')')
        (.seq (literal ":") (.seq anything (.seq (literal "\n") (.seq (spaces 0)
          (.group 1 (.alt (literal "raise") (.alt (literal "return") (literal "pass"))))))))))⟩,
    -- `\breturn\s+NotImplemented\b`
    ⟨"INC005", "NotImplemented 반환 (NotImplementedError 아님) — 비교 매직 목적으로만 사용 가능",
      .seq (word_boundary isalnum) (.seq (literal "return") (.seq (spaces 1)
        (.seq (literal "NotImplemented") (word_boundary isalnum))))⟩,
    -- `['\"](https?://[\w./%-]{6,}|\d{1,3}\.\d{1,3}\.\d{1,3}\.\d{1,3})['\"]\s*`
    ⟨"INC006", "하드코딩된 IP/URL — 아이피 주소나 URL은 환경 변수/설정파일로 분리",
      .seq (.char quote) (.seq (.group 1 (.alt
        (.seq (literal "http") (.seq (.opt (literal "s")) (.seq (literal "://")
          (.run true 6 none (url_char isalnum)))))
        (.seq octet (.seq (literal ".") (.seq octet (.seq (literal ".") (.seq octet
          (.seq (literal ".") octet)))))))) (.seq (.char quote) (spaces 0)))⟩]

def run (request : ReviewRequest) : AgentDecision :=
  rule_decision "incident_triage" .warn (75 / 100) (9 / 10) RuleFinding.action
    (found_rules (RULES isalnum) ("\n".intercalate (matched_lines request.diff_text)))

end Rules

end IncidentTriageAgent

namespace ArchitectureAgent

def run (isalnum : Char → Bool) (request : ReviewRequest) : AgentDecision :=
  rule_decision "architecture" .warn (75 / 100) (85 / 100) RuleFinding.action
    (scan_diff isalnum request.diff_text)

end ArchitectureAgent

namespace DomainRuleAgent

section Rules

variable (isalnum : Char → Bool)

def PROFILE_RULES : List (String × List DiffRule) :=
  [("general",
      [ -- `(?<![\w.])([2-9]\d{2,}|[1-9]\d{3,})(?![\w.])`
        ⟨"DOM001", "magic number 사용 — 상수에 이름 부여 권장",
          .seq (.place fun before _ => !before.any dotted) (.seq
            (.group 1 (.alt
              (.seq (.char fun c => '2' ≤ c && c ≤ '9') (.run true 2 none digit))
              (.seq (.char fun c => '1' ≤ c && c ≤ '9') (.run true 3 none digit))))
            (.place fun _ after => !after.any dotted))⟩,
        -- `raise\s+(Exception|RuntimeError|ValueError)\s*\(['\"][^'\"]{0,80}['\"]`
        ⟨"DOM002", "bare string 예외 raise — Exception 서브클래스 사용 권장",
          .seq (literal "raise") (.seq (spaces 1) (.seq
            (.group 1 (.alt (literal "Exception") (.alt (literal "RuntimeError")
              (literal "ValueError"))))
            (.seq SecurityAgent.opens_call (.seq (.char quote)
              (.seq (.run true 0 (some 80) fun c => !quote c) (.char quote))))))⟩]),
    ("api",
      [ -- `@(app|router)\.(get|post|put|delete|patch)\([^)]*\)\s*\ndef `
        ⟨"DOM101", "HTTP 엔드포인트에 인증 미적용 의심 — 인증 데코레이터/미들웨어 확인",
          .seq (literal "@") (.seq (.group 1 (.alt (literal "app") (literal "router")))
            (.seq (literal ".") (.seq (.group 2 (.alt (literal "get") (.alt (literal "post")
              (.alt (literal "put") (.alt (literal "delete") (literal "patch"))))))
              (.seq (literal "(") (.seq SecurityAgent.to_parenthesis (.seq (literal ")")
                (.seq (spaces 0) (literal "\ndef "))))))))⟩,
        -- `return\s+\{['\"]\w+['\"]`
        ⟨"DOM102", "응답에 직접 dict 반환 — Pydantic 응답 모델 또는 JSONResponse 사용 권장",
          .seq (literal "return") (.seq (spaces 1) (.seq (.char (· == '\x7b')) (.seq (.char quote)
            (.seq (.run true 1 none (word_char isalnum)) (.char quote)))))⟩]),
    ("data",
      [ -- `\.iterrows\s*\(`
        ⟨"DOM201", "pandas DataFrame에 iterrows() 사용 — vectorized 연산 또는 apply() 검토",
          .seq (literal ".iterrows") SecurityAgent.opens_call⟩,
        -- `(train_test_split|RandomForest|GridSearchCV)\([^)]*\)`
        ⟨"DOM202", "학습 데이터에 random_state 미설정 — 재현성 보장을 위해 고정값 설정",
          .seq (.group 1 (.alt (literal "train_test_split") (.alt (literal "RandomForest")
            (literal "GridSearchCV"))))
            (.seq (literal "(") (.seq SecurityAgent.to_parenthesis (literal ")")))⟩]),
    ("cli",
      [ -- `sys\.exit\s*\(`
        ⟨"DOM301", "sys.exit() 직접 호출 — raise SystemExit(code) 사용 권장",
          .seq (literal "sys.exit") SecurityAgent.opens_call⟩])]
where
  /-- `[\w.]` -/
  dotted (c : Char) : Bool := word_char isalnum c || c == '.'

def rules_for_profile (profile : String) : List DiffRule :=
  let rules := ((PROFILE_RULES isalnum).lookup "general").getD []
  if profile ≠ "general" then rules ++ ((PROFILE_RULES isalnum).lookup profile).getD [] else rules

def run (request : ReviewRequest) : AgentDecision :=
  let profile := if request.project_profile = "" then "general" else request.project_profile
  rule_decision "domain_rule" .warn (7 / 10) (85 / 100) RuleFinding.action
    (found_rules (rules_for_profile isalnum profile) (reviewable_added_lines request.diff_text))

end Rules

end DomainRuleAgent

namespace ContextAgent

def MAX_ADDED_LINES : Nat := 400

def MAX_CHANGED_FILES : Nat := 8

/-- `^\+(?!\+\+)` -/
def ADDED_LINE_RE : Regex Char := .seq bol (.seq (literal "+") (.ahead false (literal "++")))

/-- `^diff --git a/.+ b/(.+)$` -/
def CHANGED_FILE_RE : Regex Char :=
  .seq bol (.seq (literal "diff --git a/") (.seq (.run true 1 none dot) (.seq (literal " b/")
    (.seq (.group 1 (.run true 1 none dot)) eol))))

/-- `[A-Za-z]` -/
def letter (c : Char) : Bool := ('A' ≤ c && c ≤ 'Z') || ('a' ≤ c && c ≤ 'z')

/-- `^\+(?!\+)\s*(def |class )[A-Za-z]` -/
def NEW_PUBLIC_DEF_RE : Regex Char :=
  .seq bol (.seq (literal "+") (.seq (.ahead false (literal "+")) (.seq (spaces 0)
    (.seq (.group 1 (.alt (literal "def ") (literal "class "))) (.char letter)))))

/-- `(def test_|class Test|pytest|unittest)` without regard to case -/
def TEST_PATTERN_RE : Regex Char :=
  .group 1 (.alt (word_any_case "def test_") (.alt (word_any_case "class test")
    (.alt (word_any_case "pytest") (word_any_case "unittest"))))

/-- `^\+(?!\+\+).*\b(TODO|FIXME|HACK|XXX)\b` -/
def TODO_RE (isalnum : Char → Bool) : Regex Char :=
  .seq ADDED_LINE_RE (.seq (.run true 0 none dot) (.seq (word_boundary isalnum) (.seq
    (.group 1 (.alt (literal "TODO") (.alt (literal "FIXME") (.alt (literal "HACK")
      (literal "XXX"))))) (word_boundary isalnum))))

/-- `", ".join(sorted(set(todo_matches)))` -/
def markers (todo_matches : List String) : String :=
  ", ".intercalate (["FIXME", "HACK", "TODO", "XXX"].filter (· ∈ todo_matches))

def scan_diff (isalnum : Char → Bool) (diff : String) : List RuleFinding :=
  let cs := diff.toList
  let added_line_count := (ADDED_LINE_RE.finditer 0 [] cs).length
  let changed_files := (CHANGED_FILE_RE.finditer 0 [] cs).length
  let has_new_def := NEW_PUBLIC_DEF_RE.found cs
  let has_test := TEST_PATTERN_RE.found cs
  let todo_matches := ((TODO_RE isalnum).finditer 0 [] cs).map fun m => String.ofList (m.group 1)
  (if added_line_count > MAX_ADDED_LINES then [⟨"CTX001", "추가된 줄 수가 " ++
      toString added_line_count ++ "줄로 기준(" ++ toString MAX_ADDED_LINES ++
      ")을 초과. 더 작은 단위 PR로 분할 권장"⟩] else []) ++
  (if changed_files > MAX_CHANGED_FILES then [⟨"CTX002", "변경 파일 수 " ++
      toString changed_files ++ "개 — 단일 PR의 책임 범위 초과(" ++ toString MAX_CHANGED_FILES ++
      "개 기준). 관심사별 PR 분리 권장"⟩] else []) ++
  (if has_new_def && !has_test && changed_files ≥ 2 then
    [⟨"CTX003", "새로운 함수/클래스 추가 감지 — 대응하는 테스트 코드가 보이지 않음"⟩] else []) ++
  (if todo_matches ≠ [] then [⟨"CTX004", "미완성 마커 포함: " ++ markers todo_matches ++
      " — 릴리스 전 해결 또는 이슈 등록 필요"⟩] else []) ++
  (if (strip diff).isEmpty then
    [⟨"CTX005", "diff 내용이 비어 있음 — 리뷰 대상이 없습니다"⟩] else [])

def run (isalnum : Char → Bool) (request : ReviewRequest) : AgentDecision :=
  rule_decision "context" .warn (8 / 10) (9 / 10) RuleFinding.action
    (scan_diff isalnum request.diff_text)

end ContextAgent

end Nitpicker
