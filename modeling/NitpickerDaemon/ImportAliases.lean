import NitpickerDaemon.AstSecurity

/-!
Programs with an import under another name, and what the analyzer still reports of them.
-/

set_option autoImplicit false

namespace Nitpicker

/-- A module by the names of its path. -/
structure ModulePath where
  head : String
  rest : List String
  named : head ≠ ""

def ModulePath.name (m : ModulePath) : String :=
  m.rest.foldl (fun parent attr => parent ++ "." ++ attr) m.head

/-- The names of a chain of attributes. -/
def PyExpr.dotted : PyExpr → Option (List String)
  | .name id => some [id]
  | .attribute value attr => value.dotted.map (· ++ [attr])
  | _ => none

/-- The name a chain of attributes starts with. -/
def PyExpr.root : PyExpr → Option String
  | .name id => some id
  | .attribute value _ => value.root
  | _ => none

/-- `import M as A`, `from M import f`, or `from M import f as g`. -/
inductive ImportScheme where
  | as_module (asname : String)
  | from_import
  | from_import_as (asname : String)

structure AliasRewriting where
  module : ModulePath
  f : String
  scheme : ImportScheme

namespace AliasRewriting

/-- The name the rewritten import binds. -/
def new_name (r : AliasRewriting) : String :=
  match r.scheme with
  | .as_module asname => asname
  | .from_import => r.f
  | .from_import_as asname => asname

/-- What takes the place of `M.f` in a call. -/
def new_func (r : AliasRewriting) : PyExpr :=
  match r.scheme with
  | .as_module asname => .attribute (.name asname) r.f
  | .from_import => .name r.f
  | .from_import_as asname => .name asname

/-- What takes the place of `import M`. -/
def new_import (r : AliasRewriting) : PyStmt :=
  match r.scheme with
  | .as_module asname => .import_module [⟨r.module.name, some asname⟩]
  | .from_import => .import_from (some r.module.name) [⟨r.f, none⟩]
  | .from_import_as asname => .import_from (some r.module.name) [⟨r.f, some asname⟩]

/-- `M.f` -/
def is_target (r : AliasRewriting) (func : PyExpr) : Bool :=
  func.dotted == some (r.module.head :: r.module.rest ++ [r.f])

/-- `import M`, under its own name. -/
def is_import (r : AliasRewriting) (a : ImportAlias) : Bool :=
  a.name == r.module.name && a.asname.getD a.name == r.module.name

mutual

def rewrite_expr (r : AliasRewriting) : PyExpr → PyExpr
  | .name id => .name id
  | .attribute value attr => .attribute (r.rewrite_expr value) attr
  | .call func args keywords lineno =>
    .call (if r.is_target func then r.new_func else r.rewrite_expr func) (r.rewrite_exprs args)
      (r.rewrite_keywords keywords) lineno
  | .constant is_true => .constant is_true
  | .other children => .other (r.rewrite_exprs children)

def rewrite_exprs (r : AliasRewriting) : List PyExpr → List PyExpr
  | [] => []
  | e :: es => r.rewrite_expr e :: r.rewrite_exprs es

def rewrite_keywords (r : AliasRewriting) :
    List (Option String × PyExpr) → List (Option String × PyExpr)
  | [] => []
  | (arg, value) :: keywords => (arg, r.rewrite_expr value) :: r.rewrite_keywords keywords

end

/-- One name of an `import` statement, as a statement. -/
def rewrite_import (r : AliasRewriting) (a : ImportAlias) : PyStmt :=
  if r.is_import a then r.new_import else .import_module [a]

mutual

def rewrite_stmt (r : AliasRewriting) : PyStmt → List PyStmt
  | .expr value => [.expr (r.rewrite_expr value)]
  | .import_module names =>
    if names.any r.is_import then names.map r.rewrite_import else [.import_module names]
  | .import_from module names => [.import_from module names]
  | .other children => [.other (r.rewrite children)]

/-- The program with its imports of `M` and its calls of `M.f` rewritten. -/
def rewrite (r : AliasRewriting) : List PyStmt → List PyStmt
  | [] => []
  | s :: ss => r.rewrite_stmt s ++ r.rewrite ss

end

/-- The import statement and a call, `import M` and `M.f(shell=True)`. -/
def sample_call (r : AliasRewriting) : List PyStmt :=
  [.import_module [⟨r.module.name, none⟩],
    .expr (.call (.attribute (r.module.rest.foldl .attribute (.name r.module.head)) r.f) []
      [(some "shell", .constant true)] 1)]

/-- The analyzer flags `M.f`. -/
def Flagged (r : AliasRewriting) : Prop := analyze_module r.sample_call ≠ []

/-- What the rewriting makes of an event. -/
def rewrite_event (r : AliasRewriting) : AstEvent → AstEvent
  | .import_module asname target =>
    if asname == r.module.name && target == r.module.name then
      match r.scheme with
      | .as_module name => .import_module name r.module.name
      | .from_import => .import_name r.f (r.module.name ++ "." ++ r.f)
      | .from_import_as name => .import_name name (r.module.name ++ "." ++ r.f)
    else .import_module asname target
  | .import_name asname target => .import_name asname target
  | .call func shell lineno =>
    .call (if r.is_target func then r.new_func else r.rewrite_expr func) shell lineno

theorem is_true_rewrite (r : AliasRewriting) (e : PyExpr) : (r.rewrite_expr e).is_true = e.is_true := by
  cases e <;> simp [rewrite_expr, PyExpr.is_true]

theorem has_shell_true_rewrite (r : AliasRewriting) (keywords : List (Option String × PyExpr)) :
    has_shell_true (r.rewrite_keywords keywords) = has_shell_true keywords := by
  induction keywords with
  | nil => rfl
  | cons keyword keywords ih =>
    obtain ⟨arg, value⟩ := keyword
    simp only [has_shell_true] at ih ⊢
    rw [rewrite_keywords, List.any_cons, List.any_cons, ih, is_true_rewrite]

theorem events_of_dotted {func : PyExpr} {names : List String} (h : func.dotted = some names) :
    func.events = [] := by
  induction func using PyExpr.dotted.induct generalizing names with
  | case1 id => simp [PyExpr.events]
  | case2 value attr ih =>
    obtain ⟨names', hvalue, -⟩ := Option.map_eq_some_iff.mp h
    rw [PyExpr.events, ih hvalue]
  | case3 e hname hattribute =>
    cases e with
    | name id => exact absurd rfl (hname id)
    | «attribute» value attr => exact absurd rfl (hattribute value attr)
    | _ => simp [PyExpr.dotted] at h

theorem new_func_events (r : AliasRewriting) : r.new_func.events = [] := by
  unfold new_func
  cases r.scheme <;> simp [PyExpr.events]

mutual

/-- The rewriting acts on a program event by event. -/
theorem rewrite_expr_events (r : AliasRewriting) :
    ∀ e : PyExpr, (r.rewrite_expr e).events = e.events.map r.rewrite_event
  | .name _ => by simp [rewrite_expr, PyExpr.events]
  | .attribute value _ => by simp [rewrite_expr, PyExpr.events, r.rewrite_expr_events value]
  | .call func args keywords lineno => by
    have hfunc : (if r.is_target func then r.new_func else r.rewrite_expr func).events =
        func.events.map r.rewrite_event := by
      split
      next h =>
        rw [new_func_events, events_of_dotted (beq_iff_eq.mp h), List.map_nil]
      next => exact r.rewrite_expr_events func
    simp [rewrite_expr, PyExpr.events, hfunc, has_shell_true_rewrite, rewrite_event,
      r.rewrite_exprs_events args, r.rewrite_keywords_events keywords]
  | .constant _ => by simp [rewrite_expr, PyExpr.events]
  | .other children => by simp [rewrite_expr, PyExpr.events, r.rewrite_exprs_events children]

theorem rewrite_exprs_events (r : AliasRewriting) :
    ∀ es : List PyExpr, events_of_exprs (r.rewrite_exprs es) = (events_of_exprs es).map r.rewrite_event
  | [] => by simp [rewrite_exprs, events_of_exprs]
  | e :: es => by
    simp [rewrite_exprs, events_of_exprs, r.rewrite_expr_events e, r.rewrite_exprs_events es]

theorem rewrite_keywords_events (r : AliasRewriting) :
    ∀ keywords : List (Option String × PyExpr), events_of_keywords (r.rewrite_keywords keywords) =
      (events_of_keywords keywords).map r.rewrite_event
  | [] => by simp [rewrite_keywords, events_of_keywords]
  | (_, value) :: keywords => by
    simp [rewrite_keywords, events_of_keywords, r.rewrite_expr_events value,
      r.rewrite_keywords_events keywords]

end

theorem events_of_stmts_append (ss ts : List PyStmt) :
    events_of_stmts (ss ++ ts) = events_of_stmts ss ++ events_of_stmts ts := by
  induction ss with
  | nil => simp [events_of_stmts]
  | cons s ss ih => simp [events_of_stmts, ih]

theorem rewrite_import_events (r : AliasRewriting) (a : ImportAlias) :
    (r.rewrite_import a).events = [r.rewrite_event a.module_event] := by
  rw [rewrite_import, ImportAlias.module_event, rewrite_event]
  cases himport : r.is_import a with
  | true =>
    simp only [is_import, Bool.and_eq_true, beq_iff_eq] at himport
    obtain ⟨hname, hasname⟩ := himport
    rw [hname] at hasname
    simp only [hname, hasname, beq_self_eq_true, Bool.and_self, if_true, new_import]
    cases r.scheme <;> simp [PyStmt.events, ImportAlias.module_event, ImportAlias.name_event]
  | false =>
    rw [is_import, Bool.and_comm] at himport
    simp [himport, PyStmt.events, ImportAlias.module_event]

theorem rewrite_imports_events (r : AliasRewriting) (names : List ImportAlias) :
    events_of_stmts (names.map r.rewrite_import) =
      (names.map ImportAlias.module_event).map r.rewrite_event := by
  induction names with
  | nil => rfl
  | cons a names ih => simp [events_of_stmts, rewrite_import_events, ih]

/-- An `import` of other modules stays. -/
theorem rewrite_other_imports (r : AliasRewriting) {names : List ImportAlias}
    (h : names.any r.is_import = false) :
    (names.map ImportAlias.module_event).map r.rewrite_event =
      names.map ImportAlias.module_event := by
  rw [List.map_map]
  apply List.map_congr_left
  intro a ha
  have himport : r.is_import a = false := by simpa using List.any_eq_false.mp h a ha
  rw [is_import, Bool.and_comm] at himport
  simp [ImportAlias.module_event, rewrite_event, himport]

theorem rewrite_names (r : AliasRewriting) (module : Option String) (names : List ImportAlias) :
    (names.map (ImportAlias.name_event module)).map r.rewrite_event =
      names.map (ImportAlias.name_event module) := by
  simp [ImportAlias.name_event, rewrite_event]

mutual

theorem rewrite_stmt_events (r : AliasRewriting) :
    ∀ s : PyStmt, events_of_stmts (r.rewrite_stmt s) = s.events.map r.rewrite_event
  | .expr value => by
    simp [rewrite_stmt, events_of_stmts, PyStmt.events, r.rewrite_expr_events value]
  | .import_module names => by
    rw [rewrite_stmt, PyStmt.events]
    split
    next => exact r.rewrite_imports_events names
    next h =>
      rw [r.rewrite_other_imports (by simpa using h)]
      simp [events_of_stmts, PyStmt.events]
  | .import_from module names => by
    rw [rewrite_stmt, PyStmt.events, rewrite_names]
    simp [events_of_stmts, PyStmt.events]
  | .other children => by
    simp [rewrite_stmt, events_of_stmts, PyStmt.events, r.rewrite_events children]

theorem rewrite_events (r : AliasRewriting) :
    ∀ ss : List PyStmt, events_of_stmts (r.rewrite ss) = (events_of_stmts ss).map r.rewrite_event
  | [] => by simp [rewrite, events_of_stmts]
  | s :: ss => by
    rw [rewrite, events_of_stmts_append, events_of_stmts, List.map_append,
      r.rewrite_stmt_events s, r.rewrite_events ss]

end

/-- What the imports of a program may bind: the new name not at all, and the names of `M` only
to themselves. No method is called through the new name. -/
def Admits (r : AliasRewriting) : AstEvent → Prop
  | .import_module asname target => asname ≠ r.new_name ∧
      (asname = r.module.head ∨ asname = r.module.name → target = asname)
  | .import_name asname target => asname ≠ r.new_name ∧
      (asname = r.module.head ∨ asname = r.module.name → target = asname)
  | .call (.attribute value _) _ _ => value.root ≠ some r.new_name
  | .call _ _ _ => True

/-- `import M` is among the events. -/
def imported (r : AliasRewriting) (events : List AstEvent) : Bool :=
  events.any fun event => match event with
    | .import_module asname target => asname == r.module.name && target == r.module.name
    | _ => false

section Aliases

theorem alias_of_set (import_aliases : List (String × String)) (name target id : String) :
    alias_of (Dict.set import_aliases name target) id =
      if id = name then target else alias_of import_aliases id := by
  rw [alias_of, Dict.lookup_set]
  split <;> simp [alias_of]

/-- The aliases of a program and those of the rewritten one. -/
structure Agree (r : AliasRewriting) (import_aliases rewritten : List (String × String)) : Prop where
  others : ∀ id, id ≠ r.new_name → alias_of rewritten id = alias_of import_aliases id
  head : alias_of import_aliases r.module.head = r.module.head
  name : alias_of import_aliases r.module.name = r.module.name

theorem Agree.start (r : AliasRewriting) : r.Agree [] [] := by
  constructor <;> simp [alias_of]

theorem Agree.bind {r : AliasRewriting} {import_aliases rewritten : List (String × String)}
    (h : r.Agree import_aliases rewritten) {asname target : String}
    (hself : asname = r.module.head ∨ asname = r.module.name → target = asname) :
    r.Agree (Dict.set import_aliases asname target) (Dict.set rewritten asname target) := by
  constructor
  · intro id hid
    rw [alias_of_set, alias_of_set, h.others id hid]
  · rw [alias_of_set]
    split
    next heq => rw [hself (.inl heq.symm), heq]
    next => exact h.head
  · rw [alias_of_set]
    split
    next heq => rw [hself (.inr heq.symm), heq]
    next => exact h.name

/-- `import M` binds `M`'s name, and the rewritten import only the new one. -/
theorem Agree.own {r : AliasRewriting} {import_aliases rewritten : List (String × String)}
    (h : r.Agree import_aliases rewritten) (target : String) :
    r.Agree (Dict.set import_aliases r.module.name r.module.name)
      (Dict.set rewritten r.new_name target) := by
  constructor
  · intro id hid
    rw [alias_of_set, alias_of_set, if_neg hid, h.others id hid]
    split
    next heq => rw [heq, h.name]
    next => rfl
  · rw [alias_of_set]
    split
    next heq => exact heq.symm
    next => exact h.head
  · rw [alias_of_set, if_pos rfl]

/-- What the rewritten import binds the new name to. -/
def new_target (r : AliasRewriting) : String :=
  match r.scheme with
  | .as_module _ => r.module.name
  | _ => r.module.name ++ "." ++ r.f

theorem own_bind (r : AliasRewriting) (import_aliases : List (String × String)) :
    (r.rewrite_event (.import_module r.module.name r.module.name)).bind import_aliases =
      Dict.set import_aliases r.new_name r.new_target := by
  rw [rewrite_event, beq_self_eq_true, Bool.and_self, if_pos rfl, new_name, new_target]
  cases r.scheme <;> rfl

theorem Agree.event {r : AliasRewriting} {import_aliases rewritten : List (String × String)}
    (h : r.Agree import_aliases rewritten) {event : AstEvent} (hevent : r.Admits event) :
    r.Agree (event.bind import_aliases) ((r.rewrite_event event).bind rewritten) := by
  cases event with
  | import_module asname target =>
    rw [rewrite_event]
    split
    next hown =>
      simp only [Bool.and_eq_true, beq_iff_eq] at hown
      obtain ⟨rfl, rfl⟩ := hown
      have hbind := r.own_bind rewritten
      rw [rewrite_event, beq_self_eq_true, Bool.and_self, if_pos rfl] at hbind
      rw [hbind]
      exact h.own _
    next => exact h.bind hevent.2
  | import_name asname target => exact h.bind hevent.2
  | call func shell lineno => exact h

theorem agree_after {r : AliasRewriting} {events : List AstEvent}
    (h : ∀ event ∈ events, r.Admits event) :
    r.Agree (aliases_after [] events) (aliases_after [] (events.map r.rewrite_event)) := by
  induction events using List.reverseRecOn with
  | nil => exact Agree.start r
  | append_singleton events event ih =>
    have hevent := (ih fun e he => h e (List.mem_append_left _ he)).event
      (h event (by simp))
    simpa [aliases_after] using hevent

/-- The new name stands for what the rewritten import binds it to, once that was visited. -/
theorem alias_of_new {r : AliasRewriting} {events : List AstEvent}
    (h : ∀ event ∈ events, r.Admits event) :
    alias_of (aliases_after [] (events.map r.rewrite_event)) r.new_name =
      if r.imported events then r.new_target else r.new_name := by
  induction events using List.reverseRecOn with
  | nil => simp [aliases_after, alias_of, imported]
  | append_singleton events event ih =>
    have ih := ih fun e he => h e (List.mem_append_left _ he)
    have hevent := h event (by simp)
    have hsnoc : aliases_after [] ((events ++ [event]).map r.rewrite_event) =
        (r.rewrite_event event).bind (aliases_after [] (events.map r.rewrite_event)) := by
      simp [aliases_after]
    have himported : r.imported (events ++ [event]) =
        (r.imported events || r.imported [event]) := by
      simp [imported]
    rw [hsnoc, himported]
    cases event with
    | import_module asname target =>
      cases hown : (asname == r.module.name && target == r.module.name) with
      | true =>
        have hboth := hown
        simp only [Bool.and_eq_true, beq_iff_eq] at hboth
        obtain ⟨rfl, rfl⟩ := hboth
        rw [own_bind, alias_of_set, if_pos rfl]
        simp [imported]
      | false =>
        have hbind : (r.rewrite_event (.import_module asname target)).bind
            (aliases_after [] (events.map r.rewrite_event)) =
              Dict.set (aliases_after [] (events.map r.rewrite_event)) asname target := by
          rw [rewrite_event, hown, if_neg (by simp)]
          rfl
        rw [hbind, alias_of_set, if_neg hevent.1.symm, ih]
        simp [imported, hown]
    | import_name asname target =>
      have hbind : (r.rewrite_event (.import_name asname target)).bind
          (aliases_after [] (events.map r.rewrite_event)) =
            Dict.set (aliases_after [] (events.map r.rewrite_event)) asname target := rfl
      rw [hbind, alias_of_set, if_neg hevent.1.symm, ih]
      simp [imported]
    | call func shell lineno =>
      have hbind : (r.rewrite_event (.call func shell lineno)).bind
          (aliases_after [] (events.map r.rewrite_event)) =
            aliases_after [] (events.map r.rewrite_event) := rfl
      rw [hbind, ih]
      simp [imported]

end Aliases

section Calls

/-- What a chain resolves to depends on what its first name stands for. -/
theorem resolve_congr {σ τ : List (String × String)} {e : PyExpr}
    (h : ∀ id, e.root = some id → alias_of τ id = alias_of σ id) :
    resolve_caller τ e = resolve_caller σ e := by
  induction e using PyExpr.dotted.induct with
  | case1 id => exact h id rfl
  | case2 value attr ih => simp only [resolve_caller, ih h]
  | case3 e hname hattribute =>
    cases e with
    | name id => exact absurd rfl (hname id)
    | «attribute» value attr => exact absurd rfl (hattribute value attr)
    | _ => simp [resolve_caller]

theorem join_ne_empty {parent : String} (h : parent ≠ "") (rest : List String) :
    rest.foldl (fun parent attr => parent ++ "." ++ attr) parent ≠ "" := by
  induction rest generalizing parent with
  | nil => exact h
  | cons attr rest ih => exact ih (by simp)

theorem dotted_cons {e : PyExpr} {names : List String} (h : e.dotted = some names) :
    ∃ head rest, names = head :: rest := by
  cases e with
  | name id =>
    obtain rfl := Option.some.inj h
    exact ⟨id, [], rfl⟩
  | «attribute» value attr =>
    obtain ⟨names', -, rfl⟩ := Option.map_eq_some_iff.mp h
    cases names' with
    | nil => exact ⟨attr, [], rfl⟩
    | cons head rest => exact ⟨head, rest ++ [attr], rfl⟩
  | _ => simp [PyExpr.dotted] at h

theorem resolve_dotted {σ : List (String × String)} {e : PyExpr} {head : String}
    {rest : List String} (h : e.dotted = some (head :: rest)) (hhead : alias_of σ head ≠ "") :
    resolve_caller σ e =
      rest.foldl (fun parent attr => parent ++ "." ++ attr) (alias_of σ head) := by
  induction e using PyExpr.dotted.induct generalizing rest with
  | case1 id =>
    obtain ⟨rfl, rfl⟩ := List.cons.inj (Option.some.inj h)
    rfl
  | case2 value attr ih =>
    obtain ⟨names, hvalue, hnames⟩ := Option.map_eq_some_iff.mp h
    obtain ⟨head', rest', rfl⟩ := dotted_cons hvalue
    rw [List.cons_append] at hnames
    obtain ⟨rfl, rfl⟩ := List.cons.inj hnames
    have hresolve := ih hvalue
    have hne := join_ne_empty hhead rest'
    rw [resolve_caller, hresolve, if_pos hne, List.foldl_append]
    rfl
  | case3 e hname hattribute =>
    cases e with
    | name id => exact absurd rfl (hname id)
    | «attribute» value attr => exact absurd rfl (hattribute value attr)
    | _ => simp [PyExpr.dotted] at h

theorem resolve_rewrite (r : AliasRewriting) (σ : List (String × String)) (e : PyExpr) :
    resolve_caller σ (r.rewrite_expr e) = resolve_caller σ e := by
  induction e using PyExpr.dotted.induct with
  | case1 id => simp [rewrite_expr]
  | case2 value attr ih => simp [rewrite_expr, resolve_caller, ih]
  | case3 e hname hattribute =>
    cases e with
    | name id => exact absurd rfl (hname id)
    | «attribute» value attr => exact absurd rfl (hattribute value attr)
    | _ => simp [rewrite_expr, resolve_caller]

/-- A call of `M.f` is a call of the method `f`. -/
theorem target_cases {r : AliasRewriting} {func : PyExpr} (h : r.is_target func = true) :
    ∃ value, func = .attribute value r.f ∧
      value.dotted = some (r.module.head :: r.module.rest) := by
  have hdotted : func.dotted = some (r.module.head :: r.module.rest ++ [r.f]) := beq_iff_eq.mp h
  cases func with
  | name id => simp [PyExpr.dotted] at hdotted
  | «attribute» value attr =>
    obtain ⟨names, hvalue, hnames⟩ := Option.map_eq_some_iff.mp hdotted
    obtain ⟨rfl, hattr⟩ := List.append_inj' hnames rfl
    exact ⟨value, by rw [List.singleton_inj.mp hattr], hvalue⟩
  | _ => simp [PyExpr.dotted] at hdotted

/-- A call that is not rewritten is reported alike. -/
theorem other_call_findings {r : AliasRewriting} {σ τ : List (String × String)}
    (h : r.Agree σ τ) {func : PyExpr} {shell : Bool} {lineno : Nat}
    (hadmits : r.Admits (.call func shell lineno)) :
    call_findings τ (r.rewrite_expr func) shell lineno = call_findings σ func shell lineno := by
  cases func with
  | «attribute» value attr =>
    have hresolve : resolve_caller τ value = resolve_caller σ value :=
      resolve_congr fun id hid => h.others id fun heq => hadmits (heq ▸ hid)
    simp [rewrite_expr, call_findings, resolve_rewrite, hresolve]
  | _ => simp [rewrite_expr, call_findings]

def method_codes (caller_name attr : String) (shell : Bool) : List String :=
  (method_findings caller_name attr shell 0).map AstFinding.code

def name_codes (id : String) : List String := (name_findings id 0).map AstFinding.code

theorem method_findings_codes (caller_name attr : String) (shell : Bool) (lineno : Nat) :
    (method_findings caller_name attr shell lineno).map AstFinding.code =
      method_codes caller_name attr shell := by
  have hrule : (rule_findings caller_name attr lineno).map AstFinding.code =
      (rule_findings caller_name attr 0).map AstFinding.code := by
    unfold rule_findings
    cases DANGEROUS_METHOD_CALLS.lookup attr with
    | none => rfl
    | some rule => simp only; split <;> split <;> rfl
  have hshell : (shell_findings caller_name attr shell lineno).map AstFinding.code =
      (shell_findings caller_name attr shell 0).map AstFinding.code := by
    unfold shell_findings
    split
    · split <;> rfl
    · rfl
  rw [method_codes, method_findings, method_findings, List.map_append, List.map_append, hrule,
    hshell]

theorem name_findings_codes (id : String) (lineno : Nat) :
    (name_findings id lineno).map AstFinding.code = name_codes id := by
  unfold name_codes name_findings
  cases DANGEROUS_CALLS.lookup id <;> rfl

/-- What a call of `M.f` is reported for. -/
theorem target_codes {r : AliasRewriting} {σ τ : List (String × String)} (h : r.Agree σ τ)
    {func : PyExpr} (htarget : r.is_target func = true) (shell : Bool) (lineno : Nat) :
    (call_findings σ func shell lineno).map AstFinding.code =
      method_codes r.module.name r.f shell := by
  obtain ⟨value, rfl, hvalue⟩ := target_cases htarget
  have hresolve : resolve_caller σ value = r.module.name := by
    have hhead : alias_of σ r.module.head ≠ "" := by
      rw [h.head]
      exact r.module.named
    rw [resolve_dotted hvalue hhead, h.head]
    rfl
  rw [call_findings, hresolve, method_findings_codes]

/-- What the call in its place is reported for, after these events. -/
def new_codes (r : AliasRewriting) (events : List AstEvent) (shell : Bool) : List String :=
  match r.scheme with
  | .as_module asname =>
    method_codes (if r.imported events then r.module.name else asname) r.f shell
  | _ => name_codes r.new_name

theorem new_func_codes {r : AliasRewriting} {events : List AstEvent}
    (h : ∀ event ∈ events, r.Admits event) (shell : Bool) (lineno : Nat) :
    (call_findings (aliases_after [] (events.map r.rewrite_event)) r.new_func shell lineno).map
      AstFinding.code = r.new_codes events shell := by
  have halias := alias_of_new h
  cases hs : r.scheme with
  | as_module asname =>
    rw [new_name, hs, new_target, hs] at halias
    simp only [new_func, new_codes, hs, call_findings, resolve_caller, halias]
    exact method_findings_codes _ _ _ _
  | from_import => 
    simp only [new_func, new_codes, new_name, hs, call_findings]
    exact name_findings_codes _ _
  | from_import_as asname =>
    simp only [new_func, new_codes, new_name, hs, call_findings]
    exact name_findings_codes _ _

/-- Whether a name of a caller is one the rule of a method is about. -/
def rule_applies (caller_name attr : String) : Bool :=
  if attr = "system" ∨ attr = "popen" then
    caller_name ≠ "" && (contains caller_name "os" || contains caller_name "subprocess")
  else is_unsafe_module caller_name

def runs_shell (attr : String) : Prop := attr = "call" ∨ attr = "run" ∨ attr = "Popen"

theorem mem_method_codes {caller_name attr c : String} {shell : Bool} :
    c ∈ method_codes caller_name attr shell ↔
      (∃ rule, DANGEROUS_METHOD_CALLS.lookup attr = some rule ∧
        rule_applies caller_name attr = true ∧ c = rule.1) ∨
      (runs_shell attr ∧ shell = true ∧
        (caller_name ≠ "" && contains caller_name "subprocess") = true ∧
          c = "AST_SUBPROCESS_SHELL") := by
  rw [method_codes, method_findings, List.map_append, List.mem_append]
  apply or_congr
  · unfold rule_findings rule_applies
    cases DANGEROUS_METHOD_CALLS.lookup attr with
    | none => simp
    | some rule => 
      simp only
      split <;> split <;> simp_all
  · unfold shell_findings runs_shell
    split
    next h => split <;> simp_all
    next h =>
      simp only [List.map_nil, List.not_mem_nil, false_iff]
      tauto

/-- No method with a rule runs a shell. -/
theorem no_rule_of_shell {attr : String} (h : runs_shell attr) :
    DANGEROUS_METHOD_CALLS.lookup attr = none := by
  rcases h with rfl | rfl | rfl <;> decide

/-- The codes of methods are none of the codes of plain names. -/
theorem method_code_no_name_code {caller_name attr id c : String} {shell : Bool}
    (hmethod : c ∈ method_codes caller_name attr shell) : c ∉ name_codes id := by
  have hdisjoint : ∀ c ∈ DANGEROUS_CALLS.map (fun e => e.2.1),
      c ∉ "AST_SUBPROCESS_SHELL" :: DANGEROUS_METHOD_CALLS.map (fun e => e.2.1) := by
    decide
  have hcode : c ∈ "AST_SUBPROCESS_SHELL" :: DANGEROUS_METHOD_CALLS.map (fun e => e.2.1) := by
    rcases mem_method_codes.mp hmethod with ⟨rule, hrule, -, rfl⟩ | ⟨-, -, -, rfl⟩
    · exact List.mem_cons_of_mem _ (List.mem_map.mpr ⟨_, Dict.mem_of_lookup hrule, rfl⟩)
    · exact List.mem_cons_self
  intro hname
  unfold name_codes name_findings at hname
  cases hrule : DANGEROUS_CALLS.lookup id with
  | none => simp [hrule] at hname
  | some rule =>
    have hc : c = rule.1 := by simpa [hrule] using hname
    exact hdisjoint c (List.mem_map.mpr ⟨_, Dict.mem_of_lookup hrule, hc.symm⟩) hcode

theorem dotted_chain (head : String) (rest : List String) :
    (rest.foldl PyExpr.attribute (.name head)).dotted = some (head :: rest) := by
  induction rest using List.reverseRecOn with
  | nil => rfl
  | append_singleton rest attr ih => simp [PyExpr.dotted, ih]

/-- `M.f` is flagged just when a call of it with a shell is. -/
theorem flagged_iff (r : AliasRewriting) :
    r.Flagged ↔ ∃ c, c ∈ method_codes r.module.name r.f true := by
  have hhead : alias_of [(r.module.name, r.module.name)] r.module.head = r.module.head := by
    rw [alias_of, Dict.lookup_cons]
    split
    next h => exact h.symm
    next => rfl
  have hne : alias_of [(r.module.name, r.module.name)] r.module.head ≠ "" := by
    rw [hhead]
    exact r.module.named
  have hchain := dotted_chain r.module.head r.module.rest
  have hresolve : resolve_caller [(r.module.name, r.module.name)]
      (r.module.rest.foldl PyExpr.attribute (.name r.module.head)) = r.module.name := by
    rw [resolve_dotted hchain hne, hhead]
    rfl
  have hfindings : analyze_module r.sample_call = method_findings r.module.name r.f true 1 := by
    rw [analyze_module_eq]
    simp [sample_call, events_of_stmts, PyStmt.events, ImportAlias.module_event, PyExpr.events,
      events_of_dotted hchain, events_of_exprs, events_of_keywords, event_findings,
      AstEvent.findings, AstEvent.bind, Dict.set, call_findings, hresolve, has_shell_true,
      PyExpr.is_true]
  rw [Flagged, hfindings, ← method_findings_codes _ _ _ 1]
  cases method_findings r.module.name r.f true 1 with
  | nil => simp
  | cons finding findings => simp

/-- What is flagged of the method `f` at all is flagged of `M.f`. -/
theorem Flagged.codes {r : AliasRewriting} (h : r.Flagged) {caller_name c : String} {shell : Bool}
    (hc : c ∈ method_codes caller_name r.f shell) : c ∈ method_codes r.module.name r.f shell := by
  obtain ⟨c', hc'⟩ := r.flagged_iff.mp h
  rw [mem_method_codes] at hc hc' ⊢
  rcases hc with ⟨rule, hrule, -, hcode⟩ | ⟨hshell, htrue, -, hcode⟩
  · rcases hc' with ⟨-, -, happlies, -⟩ | ⟨hshell, -⟩
    · exact .inl ⟨rule, hrule, happlies, hcode⟩
    · simp [no_rule_of_shell hshell] at hrule
  · rcases hc' with ⟨rule, hrule, -⟩ | ⟨-, -, hname, -⟩
    · simp [no_rule_of_shell hshell] at hrule
    · exact .inr ⟨hshell, htrue, hname, hcode⟩

end Calls

section Codes

def is_target_event (r : AliasRewriting) : AstEvent → Bool
  | .call func _ _ => r.is_target func
  | _ => false

/-- A code is reported for a call other than those of `M.f`. -/
def ReportedElsewhere (r : AliasRewriting) (events : List AstEvent) (c : String) : Prop :=
  ∃ before event after, events = before ++ event :: after ∧ r.is_target_event event = false ∧
    c ∈ (event.findings (aliases_after [] before)).map AstFinding.code

/-- `M.f` is called after these events. -/
def CallsTarget (r : AliasRewriting) (events before : List AstEvent) (shell : Bool) : Prop :=
  ∃ func lineno after, events = before ++ .call func shell lineno :: after ∧
    r.is_target func = true

variable {r : AliasRewriting} {events : List AstEvent}

theorem mem_codes (h : ∀ event ∈ events, r.Admits event) (c : String) :
    c ∈ (event_findings [] events).map AstFinding.code ↔ r.ReportedElsewhere events c ∨
      ∃ before shell, r.CallsTarget events before shell ∧
        c ∈ method_codes r.module.name r.f shell := by
  constructor
  · intro hc
    obtain ⟨finding, hfinding, rfl⟩ := List.mem_map.mp hc
    obtain ⟨before, event, after, hsplit, hmem⟩ := mem_event_findings.mp hfinding
    have hcode := List.mem_map_of_mem (f := AstFinding.code) hmem
    have hbefore : ∀ e ∈ before, r.Admits e := fun e he => h e (by simp [hsplit, he])
    cases htarget : r.is_target_event event with
    | false => exact .inl ⟨before, event, after, hsplit, htarget, hcode⟩
    | true =>
      cases event with
      | call func shell lineno =>
        rw [AstEvent.findings, target_codes (agree_after hbefore) htarget] at hcode
        exact .inr ⟨before, shell, ⟨func, lineno, after, hsplit, htarget⟩, hcode⟩
      | _ => simp [is_target_event] at htarget
  · rintro (⟨before, event, after, hsplit, -, hcode⟩ |
      ⟨before, shell, ⟨func, lineno, after, hsplit, htarget⟩, hcode⟩)
    · obtain ⟨finding, hmem, rfl⟩ := List.mem_map.mp hcode
      exact List.mem_map_of_mem (mem_event_findings.mpr ⟨before, event, after, hsplit, hmem⟩)
    · have hbefore : ∀ e ∈ before, r.Admits e := fun e he => h e (by simp [hsplit, he])
      rw [← target_codes (agree_after hbefore) htarget shell lineno] at hcode
      obtain ⟨finding, hmem, rfl⟩ := List.mem_map.mp hcode
      exact List.mem_map_of_mem (mem_event_findings.mpr ⟨before, _, after, hsplit, hmem⟩)

/-- An event that is no call of `M.f` is reported alike after the rewriting. -/
theorem other_event_findings {σ τ : List (String × String)} (h : r.Agree σ τ) {event : AstEvent}
    (hadmits : r.Admits event) (hother : r.is_target_event event = false) :
    (r.rewrite_event event).findings τ = event.findings σ := by
  cases event with
  | import_module asname target =>
    rw [rewrite_event]
    split
    · cases r.scheme <;> rfl
    · rfl
  | import_name asname target => rfl
  | call func shell lineno =>
    have hfunc : r.is_target func = false := hother
    rw [rewrite_event, hfunc, if_neg (by simp)]
    exact other_call_findings h hadmits

theorem mem_rewritten_codes (h : ∀ event ∈ events, r.Admits event) (c : String) :
    c ∈ (event_findings [] (events.map r.rewrite_event)).map AstFinding.code ↔
      r.ReportedElsewhere events c ∨ ∃ before shell, r.CallsTarget events before shell ∧
        c ∈ r.new_codes before shell := by
  constructor
  · intro hc
    obtain ⟨finding, hfinding, rfl⟩ := List.mem_map.mp hc
    obtain ⟨before', event', after', hsplit, hmem⟩ := mem_event_findings.mp hfinding
    obtain ⟨before, tail, rfl, rfl, htail⟩ := List.map_eq_append_iff.mp hsplit
    obtain ⟨event, after, rfl, rfl, rfl⟩ := List.map_eq_cons_iff.mp htail
    have hcode := List.mem_map_of_mem (f := AstFinding.code) hmem
    have hbefore : ∀ e ∈ before, r.Admits e := fun e he => h e (by simp [he])
    cases htarget : r.is_target_event event with
    | false =>
      rw [other_event_findings (agree_after hbefore) (h event (by simp)) htarget] at hcode
      exact .inl ⟨before, event, after, rfl, htarget, hcode⟩
    | true =>
      cases event with
      | call func shell lineno =>
        have hfunc : r.is_target func = true := htarget
        rw [rewrite_event, hfunc, if_pos rfl, AstEvent.findings, new_func_codes hbefore] at hcode
        exact .inr ⟨before, shell, ⟨func, lineno, after, rfl, hfunc⟩, hcode⟩
      | _ => simp [is_target_event] at htarget
  · rintro (⟨before, event, after, rfl, hother, hcode⟩ |
      ⟨before, shell, ⟨func, lineno, after, rfl, htarget⟩, hcode⟩)
    · have hbefore : ∀ e ∈ before, r.Admits e := fun e he => h e (by simp [he])
      rw [← other_event_findings (agree_after hbefore) (h event (by simp)) hother] at hcode
      obtain ⟨finding, hmem, rfl⟩ := List.mem_map.mp hcode
      exact List.mem_map_of_mem (mem_event_findings.mpr
        ⟨before.map r.rewrite_event, _, after.map r.rewrite_event, by simp, hmem⟩)
    · have hbefore : ∀ e ∈ before, r.Admits e := fun e he => h e (by simp [he])
      rw [← new_func_codes hbefore shell lineno] at hcode
      obtain ⟨finding, hmem, rfl⟩ := List.mem_map.mp hcode
      refine List.mem_map_of_mem (mem_event_findings.mpr
        ⟨before.map r.rewrite_event, .call r.new_func shell lineno, after.map r.rewrite_event,
          ?_, hmem⟩)
      simp [rewrite_event, htarget]

end Codes

/-- What the rewriting takes from the report is reported elsewhere in the program: for a module
under another name unless `A.f` comes after the import, or `A` alone tells; for an imported name
always, as also what `f` or `g` is reported for itself. -/
def Keeps (r : AliasRewriting) (events : List AstEvent) : Prop :=
  match r.scheme with
  | .as_module asname => ∀ before shell c, r.CallsTarget events before shell →
      c ∈ method_codes r.module.name r.f shell → r.ReportedElsewhere events c ∨
        ∃ before' shell', r.CallsTarget events before' shell' ∧
          ((r.imported before' = true ∧ c ∈ method_codes r.module.name r.f shell') ∨
            c ∈ method_codes asname r.f shell')
  | _ => ∀ before shell c, r.CallsTarget events before shell →
      c ∈ method_codes r.module.name r.f shell ∨ c ∈ name_codes r.new_name →
        r.ReportedElsewhere events c

theorem keeps_as_module {r : AliasRewriting} {events : List AstEvent} {asname : String}
    (hscheme : r.scheme = .as_module asname) (hflagged : r.Flagged) :
    (∀ c, (r.ReportedElsewhere events c ∨ ∃ before shell, r.CallsTarget events before shell ∧
        c ∈ r.new_codes before shell) ↔
      (r.ReportedElsewhere events c ∨ ∃ before shell, r.CallsTarget events before shell ∧
        c ∈ method_codes r.module.name r.f shell)) ↔ r.Keeps events := by
  simp only [Keeps, hscheme, new_codes]
  constructor
  · intro h before shell c hcall hcode
    rcases (h c).mpr (.inr ⟨before, shell, hcall, hcode⟩) with helse | ⟨before', shell', hcall', hnew⟩
    · exact .inl helse
    · refine .inr ⟨before', shell', hcall', ?_⟩
      cases himported : r.imported before' with
      | true =>
        rw [himported, if_pos rfl] at hnew
        exact .inl ⟨rfl, hnew⟩
      | false =>
        rw [himported, if_neg (by simp)] at hnew
        exact .inr hnew
  · intro h c
    constructor
    · rintro (helse | ⟨before, shell, hcall, hnew⟩)
      · exact .inl helse
      · refine .inr ⟨before, shell, hcall, ?_⟩
        split at hnew
        · exact hnew
        · exact hflagged.codes hnew
    · rintro (helse | ⟨before, shell, hcall, hcode⟩)
      · exact .inl helse
      · rcases h before shell c hcall hcode with helse | ⟨before', shell', hcall', hkept⟩
        · exact .inl helse
        · refine .inr ⟨before', shell', hcall', ?_⟩
          rcases hkept with ⟨himported, hcode'⟩ | hcode'
          · rw [himported, if_pos rfl]
            exact hcode'
          · split
            · exact hflagged.codes hcode'
            · exact hcode'

theorem keeps_import_name {r : AliasRewriting} {events : List AstEvent}
    (hscheme : ∀ asname, r.scheme ≠ .as_module asname) :
    (∀ c, (r.ReportedElsewhere events c ∨ ∃ before shell, r.CallsTarget events before shell ∧
        c ∈ r.new_codes before shell) ↔
      (r.ReportedElsewhere events c ∨ ∃ before shell, r.CallsTarget events before shell ∧
        c ∈ method_codes r.module.name r.f shell)) ↔ r.Keeps events := by
  have hnew : ∀ before shell, r.new_codes before shell = name_codes r.new_name := by
    intro before shell
    cases hs : r.scheme with
    | as_module asname => exact absurd hs (hscheme asname)
    | _ => simp [new_codes, hs]
  have hkeeps : r.Keeps events ↔ ∀ before shell c, r.CallsTarget events before shell →
      c ∈ method_codes r.module.name r.f shell ∨ c ∈ name_codes r.new_name →
        r.ReportedElsewhere events c := by
    cases hs : r.scheme with
    | as_module asname => exact absurd hs (hscheme asname)
    | _ => simp [Keeps, hs]
  simp only [hnew]
  rw [hkeeps]
  constructor
  · rintro h before shell c hcall (hcode | hcode)
    · rcases (h c).mpr (.inr ⟨before, shell, hcall, hcode⟩) with helse | ⟨_, _, -, hname⟩
      · exact helse
      · exact absurd hname (method_code_no_name_code hcode)
    · rcases (h c).mp (.inr ⟨before, shell, hcall, hcode⟩) with helse | ⟨_, _, -, hmethod⟩
      · exact helse
      · exact absurd hcode (method_code_no_name_code hmethod)
  · intro h c
    constructor
    · rintro (helse | ⟨before, shell, hcall, hname⟩)
      · exact .inl helse
      · exact .inl (h before shell c hcall (.inr hname))
    · rintro (helse | ⟨before, shell, hcall, hcode⟩)
      · exact .inl helse
      · exact .inl (h before shell c hcall (.inl hcode))

/-- The codes reported are unchanged just where the rewriting keeps them. -/
theorem same_codes_iff {r : AliasRewriting} {body : List PyStmt} (hflagged : r.Flagged)
    (hadmits : ∀ event ∈ events_of_stmts body, r.Admits event) :
    (∀ c, c ∈ (analyze_module (r.rewrite body)).map AstFinding.code ↔
      c ∈ (analyze_module body).map AstFinding.code) ↔ r.Keeps (events_of_stmts body) := by
  simp only [analyze_module_eq, rewrite_events, mem_codes hadmits, mem_rewritten_codes hadmits]
  cases hs : r.scheme with
  | as_module asname => exact keeps_as_module hs hflagged
  | from_import => exact keeps_import_name (by simp [hs])
  | from_import_as asname => exact keeps_import_name (by simp [hs])

/-- `import os` and a call of `os.system`. -/
def osSystem : List PyStmt :=
  [.import_module [⟨"os", none⟩],
    .other [.expr (.call (.attribute (.name "os") "system") [.name "command"] [] 2)]]

def systemOf (scheme : ImportScheme) : AliasRewriting := ⟨⟨"os", [], by decide⟩, "system", scheme⟩

theorem alias_kept : (∀ c,
    c ∈ (analyze_module ((systemOf (.as_module "o")).rewrite osSystem)).map AstFinding.code ↔
      c ∈ (analyze_module osSystem).map AstFinding.code) ↔
        (systemOf (.as_module "o")).Keeps (events_of_stmts osSystem) := by
  apply same_codes_iff
  · have hfound : analyze_module (systemOf (.as_module "o")).sample_call ≠ [] := by decide +kernel
    exact hfound
  · simp [osSystem, events_of_stmts, PyStmt.events, ImportAlias.module_event, PyExpr.events,
      events_of_exprs, events_of_keywords, Admits, systemOf, new_name, ModulePath.name,
      PyExpr.root]

/-- `from os import system` hides the call. -/
theorem imported_name_missed :
    (systemOf .from_import).Flagged ∧
      (analyze_module osSystem).map AstFinding.code = ["AST_OS_SYSTEM"] ∧
      (analyze_module ((systemOf .from_import).rewrite osSystem)).map AstFinding.code = [] ∧
      (analyze_module ((systemOf (.from_import_as "run_it")).rewrite osSystem)).map
        AstFinding.code = [] := by
  have hfound : analyze_module (systemOf .from_import).sample_call ≠ [] := by decide +kernel
  exact ⟨hfound, by decide +kernel, by decide +kernel, by decide +kernel⟩

end AliasRewriting

end Nitpicker
