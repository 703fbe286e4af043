import NitpickerDaemon.Data.Dict
import NitpickerDaemon.PyValue

/-!
The AST security analyzer: what its visitor reports, as a run over the imports and the calls of
a program in the order in which they are visited.
-/

set_option autoImplicit false

namespace Nitpicker

structure AstFinding where
  code : String
  message : String
  severity : String
  line_number : Nat
  node_type : String
  deriving DecidableEq, Repr

/-- A rule: code, message and severity. -/
abbrev CallRule := String × String × String

def DANGEROUS_CALLS : List (String × CallRule) :=
  [("eval", "AST_EVAL", "eval() 호출 — 동적 코드 실행은 코드 인젝션 위험", "error"),
    ("exec", "AST_EXEC", "exec() 호출 — 임의 코드 실행 가능", "error"),
    ("__import__", "AST_DYNAMIC_IMPORT", "__import__() 호출 — 동적 임포트는 코드 인젝션 위험",
      "warning"),
    ("compile", "AST_COMPILE", "compile() 호출 — 동적 코드 컴파일 가능", "warning"),
    ("getattr", "AST_GETATTR", "getattr() 호출 — 동적 속성 접근은 보안 위험 가능", "info")]

def DANGEROUS_METHOD_CALLS : List (String × CallRule) :=
  [("loads", "AST_PICKLE_LOADS", "pickle/yaml.loads() — 안전하지 않은 역직렬화", "error"),
    ("load", "AST_PICKLE_LOAD", "pickle/yaml.load() — 안전하지 않은 역직렬화", "warning"),
    ("system", "AST_OS_SYSTEM", "os.system() 호출 — 셸 명령 인젝션 위험", "error"),
    ("popen", "AST_OS_POPEN", "os.popen() 호출 — 셸 명령 인젝션 위험", "error")]

def UNSAFE_MODULES : List String := ["pickle", "cPickle", "shelve", "yaml", "marshal"]

/-- An expression of `ast`; one the visitor has no method for is its children, in the order of
their fields. -/
inductive PyExpr where
  | name (id : String)
  | attribute (value : PyExpr) (attr : String)
  | call (func : PyExpr) (args : List PyExpr) (keywords : List (Option String × PyExpr))
      (lineno : Nat)
  | constant (is_true : Bool)
  | other (children : List PyExpr)

/-- `ast.alias` -/
structure ImportAlias where
  name : String
  asname : Option String

/-- A statement, or an expression in its place among the fields of one. -/
inductive PyStmt where
  | expr (value : PyExpr)
  | import_module (names : List ImportAlias)
  | import_from (module : Option String) (names : List ImportAlias)
  | other (children : List PyStmt)

structure DangerousCallVisitor where
  findings : List AstFinding
  import_aliases : List (String × String)

/-- `self._import_aliases.get(id, id)` -/
def alias_of (import_aliases : List (String × String)) (id : String) : String :=
  (import_aliases.lookup id).getD id

/-- `_resolve_caller` -/
def resolve_caller (import_aliases : List (String × String)) : PyExpr → String
  | .name id => alias_of import_aliases id
  | .attribute value attr =>
    let parent := resolve_caller import_aliases value
    if parent ≠ "" then parent ++ "." ++ attr else attr
  | _ => ""

/-- The constant `True`. -/
def PyExpr.is_true : PyExpr → Bool
  | .constant is_true => is_true
  | _ => false

/-- `_has_shell_true` -/
def has_shell_true (keywords : List (Option String × PyExpr)) : Bool :=
  keywords.any fun kw => kw.1 == some "shell" && kw.2.is_true

/-- What a call by a plain name is reported for. -/
def name_findings (id : String) (lineno : Nat) : List AstFinding :=
  match DANGEROUS_CALLS.lookup id with
  | some (code, message, severity) => [⟨code, message, severity, lineno, "Call"⟩]
  | none => []

def is_unsafe_module (caller_name : String) : Bool :=
  caller_name ≠ "" && UNSAFE_MODULES.any fun mod => contains caller_name mod

/-- What a call of a method is reported for by its name alone. -/
def rule_findings (caller_name attr : String) (lineno : Nat) : List AstFinding :=
  match DANGEROUS_METHOD_CALLS.lookup attr with
  | some (code, message, severity) =>
    if attr = "system" ∨ attr = "popen" then
      if caller_name ≠ "" && (contains caller_name "os" || contains caller_name "subprocess") then
        [⟨code, message, severity, lineno, "MethodCall"⟩]
      else []
    else if is_unsafe_module caller_name then
      [⟨code, caller_name ++ "." ++ attr ++ "() — " ++ message, severity, lineno, "MethodCall"⟩]
    else []
  | none => []

def shell_findings (caller_name attr : String) (shell : Bool) (lineno : Nat) : List AstFinding :=
  if (attr = "call" ∨ attr = "run" ∨ attr = "Popen") ∧ shell then
    if caller_name ≠ "" && contains caller_name "subprocess" then
      [⟨"AST_SUBPROCESS_SHELL", "subprocess." ++ attr ++ "(shell=True) — 셸 인젝션 위험", "error",
        lineno, "MethodCall"⟩]
    else []
  else []

def method_findings (caller_name attr : String) (shell : Bool) (lineno : Nat) :
    List AstFinding :=
  rule_findings caller_name attr lineno ++ shell_findings caller_name attr shell lineno

/-- What `_check_call` adds. -/
def call_findings (import_aliases : List (String × String)) (func : PyExpr) (shell : Bool)
    (lineno : Nat) : List AstFinding :=
  match func with
  | .name id => name_findings id lineno
  | .attribute value attr =>
    method_findings (resolve_caller import_aliases value) attr shell lineno
  | _ => []

namespace DangerousCallVisitor

/-- `_check_call` -/
def check_call (visitor : DangerousCallVisitor) (func : PyExpr)
    (keywords : List (Option String × PyExpr)) (lineno : Nat) : DangerousCallVisitor :=
  { visitor with findings := visitor.findings ++
      call_findings visitor.import_aliases func (has_shell_true keywords) lineno }

def bind_name (visitor : DangerousCallVisitor) (name target : String) : DangerousCallVisitor :=
  { visitor with import_aliases := Dict.set visitor.import_aliases name target }

/-- `visit_Import` -/
def visit_import (visitor : DangerousCallVisitor) (names : List ImportAlias) :
    DangerousCallVisitor :=
  names.foldl (fun v a => v.bind_name (a.asname.getD a.name) a.name) visitor

/-- `visit_ImportFrom` -/
def visit_import_from (visitor : DangerousCallVisitor) (module : Option String)
    (names : List ImportAlias) : DangerousCallVisitor :=
  names.foldl (fun v a => v.bind_name (a.asname.getD a.name) (module.getD "" ++ "." ++ a.name)) visitor

mutual

/-- `visit` of an expression. -/
def visit_expr (visitor : DangerousCallVisitor) : PyExpr → DangerousCallVisitor
  | .name _ => visitor
  | .attribute value _ => visitor.visit_expr value
  | .call func args keywords lineno =>
    (((visitor.check_call func keywords lineno).visit_expr func).visit_exprs args).visit_keywords
      keywords
  | .constant _ => visitor
  | .other children => visitor.visit_exprs children

def visit_exprs (visitor : DangerousCallVisitor) : List PyExpr → DangerousCallVisitor
  | [] => visitor
  | e :: es => (visitor.visit_expr e).visit_exprs es

def visit_keywords (visitor : DangerousCallVisitor) :
    List (Option String × PyExpr) → DangerousCallVisitor
  | [] => visitor
  | (_, value) :: keywords => (visitor.visit_expr value).visit_keywords keywords

end

mutual

/-- `visit` of a statement. -/
def visit_stmt (visitor : DangerousCallVisitor) : PyStmt → DangerousCallVisitor
  | .expr value => visitor.visit_expr value
  | .import_module names => visitor.visit_import names
  | .import_from module names => visitor.visit_import_from module names
  | .other children => visitor.visit_stmts children

def visit_stmts (visitor : DangerousCallVisitor) : List PyStmt → DangerousCallVisitor
  | [] => visitor
  | s :: ss => (visitor.visit_stmt s).visit_stmts ss

end

end DangerousCallVisitor

/-- The findings of `_analyze_code` for a module with this body. -/
def analyze_module (body : List PyStmt) : List AstFinding :=
  ((⟨[], []⟩ : DangerousCallVisitor).visit_stmts body).findings

/-- What the visitor acts on: an imported module, an imported name, a call. -/
inductive AstEvent where
  | import_module (asname target : String)
  | import_name (asname target : String)
  | call (func : PyExpr) (shell : Bool) (lineno : Nat)

mutual

/-- The calls in an expression, each before those in its parts. -/
def PyExpr.events : PyExpr → List AstEvent
  | .name _ => []
  | .attribute value _ => value.events
  | .call func args keywords lineno =>
    .call func (has_shell_true keywords) lineno ::
      (func.events ++ events_of_exprs args ++ events_of_keywords keywords)
  | .constant _ => []
  | .other children => events_of_exprs children

def events_of_exprs : List PyExpr → List AstEvent
  | [] => []
  | e :: es => e.events ++ events_of_exprs es

def events_of_keywords : List (Option String × PyExpr) → List AstEvent
  | [] => []
  | (_, value) :: keywords => value.events ++ events_of_keywords keywords

end

def ImportAlias.module_event (a : ImportAlias) : AstEvent :=
  .import_module (a.asname.getD a.name) a.name

def ImportAlias.name_event (module : Option String) (a : ImportAlias) : AstEvent :=
  .import_name (a.asname.getD a.name) (module.getD "" ++ "." ++ a.name)

mutual

def PyStmt.events : PyStmt → List AstEvent
  | .expr value => value.events
  | .import_module names => names.map ImportAlias.module_event
  | .import_from module names => names.map (ImportAlias.name_event module)
  | .other children => events_of_stmts children

def events_of_stmts : List PyStmt → List AstEvent
  | [] => []
  | s :: ss => s.events ++ events_of_stmts ss

end

/-- The import aliases after an event. -/
def AstEvent.bind (import_aliases : List (String × String)) : AstEvent → List (String × String)
  | .import_module asname target => Dict.set import_aliases asname target
  | .import_name asname target => Dict.set import_aliases asname target
  | .call _ _ _ => import_aliases

def AstEvent.findings (import_aliases : List (String × String)) : AstEvent → List AstFinding
  | .call func shell lineno => call_findings import_aliases func shell lineno
  | _ => []

def aliases_after (import_aliases : List (String × String)) (events : List AstEvent) :
    List (String × String) :=
  events.foldl AstEvent.bind import_aliases

/-- The findings of a run over events. -/
def event_findings : List (String × String) → List AstEvent → List AstFinding
  | _, [] => []
  | import_aliases, event :: events =>
    event.findings import_aliases ++ event_findings (event.bind import_aliases) events

namespace DangerousCallVisitor

def run (visitor : DangerousCallVisitor) (events : List AstEvent) : DangerousCallVisitor :=
  ⟨visitor.findings ++ event_findings visitor.import_aliases events,
    aliases_after visitor.import_aliases events⟩

@[simp] theorem run_nil (visitor : DangerousCallVisitor) : visitor.run [] = visitor := by
  simp [run, event_findings, aliases_after]

theorem event_findings_append (import_aliases : List (String × String))
    (events events' : List AstEvent) :
    event_findings import_aliases (events ++ events') =
      event_findings import_aliases events ++
        event_findings (aliases_after import_aliases events) events' := by
  induction events generalizing import_aliases with
  | nil => simp [event_findings, aliases_after]
  | cons event events ih => simp [event_findings, aliases_after, ih]

@[simp] theorem run_append (visitor : DangerousCallVisitor) (events events' : List AstEvent) :
    (visitor.run events).run events' = visitor.run (events ++ events') := by
  simp [run, event_findings_append, aliases_after]

theorem run_call (visitor : DangerousCallVisitor) (func : PyExpr)
    (keywords : List (Option String × PyExpr)) (lineno : Nat) :
    visitor.check_call func keywords lineno =
      visitor.run [.call func (has_shell_true keywords) lineno] := by
  simp [check_call, run, event_findings, AstEvent.findings, aliases_after, AstEvent.bind]

theorem run_binds (visitor : DangerousCallVisitor) (names : List ImportAlias)
    (event : ImportAlias → AstEvent) (name target : ImportAlias → String)
    (hfindings : ∀ import_aliases a, (event a).findings import_aliases = [])
    (hbind : ∀ import_aliases a, (event a).bind import_aliases =
      Dict.set import_aliases (name a) (target a)) :
    names.foldl (fun v a => v.bind_name (name a) (target a)) visitor =
      visitor.run (names.map event) := by
  induction names generalizing visitor with
  | nil => simp
  | cons a names ih =>
    have hone : visitor.bind_name (name a) (target a) = visitor.run [event a] := by
      simp [bind_name, run, event_findings, aliases_after, hfindings, hbind]
    rw [List.foldl_cons, hone, ih, run_append, List.map_cons, List.singleton_append]

mutual

theorem visit_expr_eq (visitor : DangerousCallVisitor) :
    ∀ e : PyExpr, visitor.visit_expr e = visitor.run e.events
  | .name _ => by simp [visit_expr, PyExpr.events]
  | .attribute value _ => by simp [visit_expr, PyExpr.events, visit_expr_eq visitor value]
  | .call func args keywords lineno => by
    rw [visit_expr, PyExpr.events, run_call, visit_expr_eq _ func, visit_exprs_eq _ args,
      visit_keywords_eq _ keywords]
    simp
  | .constant _ => by simp [visit_expr, PyExpr.events]
  | .other children => by rw [visit_expr, PyExpr.events, visit_exprs_eq visitor children]

theorem visit_exprs_eq (visitor : DangerousCallVisitor) :
    ∀ es : List PyExpr, visitor.visit_exprs es = visitor.run (events_of_exprs es)
  | [] => by simp [visit_exprs, events_of_exprs]
  | e :: es => by
    rw [visit_exprs, events_of_exprs, visit_expr_eq visitor e, visit_exprs_eq _ es, run_append]

theorem visit_keywords_eq (visitor : DangerousCallVisitor) :
    ∀ keywords : List (Option String × PyExpr),
      visitor.visit_keywords keywords = visitor.run (events_of_keywords keywords)
  | [] => by simp [visit_keywords, events_of_keywords]
  | (_, value) :: keywords => by
    rw [visit_keywords, events_of_keywords, visit_expr_eq visitor value,
      visit_keywords_eq _ keywords, run_append]

end

mutual

theorem visit_stmt_eq (visitor : DangerousCallVisitor) :
    ∀ s : PyStmt, visitor.visit_stmt s = visitor.run s.events
  | .expr value => by rw [visit_stmt, PyStmt.events, visit_expr_eq]
  | .import_module names => by
    rw [visit_stmt, PyStmt.events, visit_import]
    exact run_binds visitor names ImportAlias.module_event _ _ (fun _ _ => rfl) (fun _ _ => rfl)
  | .import_from module names => by
    rw [visit_stmt, PyStmt.events, visit_import_from]
    exact run_binds visitor names (ImportAlias.name_event module) _ _ (fun _ _ => rfl)
      (fun _ _ => rfl)
  | .other children => by rw [visit_stmt, PyStmt.events, visit_stmts_eq visitor children]

theorem visit_stmts_eq (visitor : DangerousCallVisitor) :
    ∀ ss : List PyStmt, visitor.visit_stmts ss = visitor.run (events_of_stmts ss)
  | [] => by simp [visit_stmts, events_of_stmts]
  | s :: ss => by
    rw [visit_stmts, events_of_stmts, visit_stmt_eq visitor s, visit_stmts_eq _ ss, run_append]

end

end DangerousCallVisitor

/-- A module's findings are those of its imports and calls, in the order they are visited. -/
theorem analyze_module_eq (body : List PyStmt) :
    analyze_module body = event_findings [] (events_of_stmts body) := by
  rw [analyze_module, DangerousCallVisitor.visit_stmts_eq]
  simp [DangerousCallVisitor.run]

/-- A finding is made at one event, with the imports before it. -/
theorem mem_event_findings {import_aliases : List (String × String)} {events : List AstEvent}
    {finding : AstFinding} : finding ∈ event_findings import_aliases events ↔
      ∃ before event after, events = before ++ event :: after ∧
        finding ∈ event.findings (aliases_after import_aliases before) := by
  induction events generalizing import_aliases with
  | nil => simp [event_findings]
  | cons event events ih =>
    rw [event_findings, List.mem_append, ih]
    constructor
    · rintro (h | ⟨before, e, after, rfl, h⟩)
      · exact ⟨[], event, events, rfl, h⟩
      · exact ⟨event :: before, e, after, rfl, h⟩
    · rintro ⟨before, e, after, hsplit, h⟩
      cases before with
      | nil =>
        cases hsplit
        exact .inl h
      | cons first before =>
        cases hsplit
        exact .inr ⟨before, e, after, rfl, h⟩

end Nitpicker
