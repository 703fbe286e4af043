import NitpickerDaemon.AstSecurity

/-!
The nodes of a program in pre-order, and the findings of each under the imports before it.
-/

set_option autoImplicit false

namespace Nitpicker

inductive AstNode where
  | expr (e : PyExpr)
  | stmt (s : PyStmt)

mutual

/-- An expression before the expressions in its fields. -/
def PyExpr.preorder : PyExpr → List AstNode
  | .name id => [.expr (.name id)]
  | .attribute value attr => .expr (.attribute value attr) :: value.preorder
  | .call func args keywords lineno =>
    .expr (.call func args keywords lineno) ::
      (func.preorder ++ preorder_of_exprs args ++ preorder_of_keywords keywords)
  | .constant is_true => [.expr (.constant is_true)]
  | .other children => .expr (.other children) :: preorder_of_exprs children

def preorder_of_exprs : List PyExpr → List AstNode
  | [] => []
  | e :: es => e.preorder ++ preorder_of_exprs es

def preorder_of_keywords : List (Option String × PyExpr) → List AstNode
  | [] => []
  | (_, value) :: keywords => value.preorder ++ preorder_of_keywords keywords

end

mutual

def PyStmt.preorder : PyStmt → List AstNode
  | .expr value => value.preorder
  | .import_module names => [.stmt (.import_module names)]
  | .import_from module names => [.stmt (.import_from module names)]
  | .other children => .stmt (.other children) :: preorder_of_stmts children

def preorder_of_stmts : List PyStmt → List AstNode
  | [] => []
  | s :: ss => s.preorder ++ preorder_of_stmts ss

end

namespace AstNode

def preorder : AstNode → List AstNode
  | .expr e => e.preorder
  | .stmt s => s.preorder

/-- A statement that only holds the place of an expression is that expression. -/
def of_stmt : PyStmt → AstNode
  | .expr value => .expr value
  | s => .stmt s

/-- The child nodes, in the order of the fields. -/
def children : AstNode → List AstNode
  | .expr (.attribute value _) => [.expr value]
  | .expr (.call func args keywords _) => .expr func :: (args ++ keywords.map (·.2)).map .expr
  | .expr (.other children) => children.map .expr
  | .stmt (.expr value) => [.expr value]
  | .stmt (.other children) => children.map of_stmt
  | _ => []

/-- What `_check_call` finds in a call. -/
def findings (import_aliases : List (String × String)) : AstNode → List AstFinding
  | .expr (.call func _ keywords lineno) =>
    ((⟨[], import_aliases⟩ : DangerousCallVisitor).check_call func keywords lineno).findings
  | _ => []

/-- The alias table after an import. -/
def bind (import_aliases : List (String × String)) : AstNode → List (String × String)
  | .stmt (.import_module names) =>
    ((⟨[], import_aliases⟩ : DangerousCallVisitor).visit_import names).import_aliases
  | .stmt (.import_from module names) =>
    ((⟨[], import_aliases⟩ : DangerousCallVisitor).visit_import_from module names).import_aliases
  | _ => import_aliases

/-- The alias table that the imports among `nodes` build. -/
def import_table (nodes : List AstNode) : List (String × String) := nodes.foldl bind []

def events : AstNode → List AstEvent
  | .expr (.call func _ keywords lineno) => [.call func (has_shell_true keywords) lineno]
  | .stmt (.import_module names) => names.map ImportAlias.module_event
  | .stmt (.import_from module names) => names.map (ImportAlias.name_event module)
  | _ => []

end AstNode

theorem preorder_of_exprs_eq (es : List PyExpr) :
    preorder_of_exprs es = (es.map AstNode.expr).flatMap AstNode.preorder := by
  induction es with
  | nil => rfl
  | cons e es ih => simp [preorder_of_exprs, ih, AstNode.preorder]

theorem preorder_of_keywords_eq (keywords : List (Option String × PyExpr)) :
    preorder_of_keywords keywords =
      ((keywords.map (·.2)).map AstNode.expr).flatMap AstNode.preorder := by
  induction keywords with
  | nil => rfl
  | cons keyword keywords ih => simp [preorder_of_keywords, ih, AstNode.preorder]

theorem preorder_of_stmts_eq (ss : List PyStmt) :
    preorder_of_stmts ss = (ss.map AstNode.of_stmt).flatMap AstNode.preorder := by
  induction ss with
  | nil => rfl
  | cons s ss ih =>
    cases s <;> simp [preorder_of_stmts, ih, AstNode.preorder, AstNode.of_stmt, PyStmt.preorder]

/-- A node, and then all that is below it, child by child. -/
theorem AstNode.preorder_expr (e : PyExpr) : (AstNode.expr e).preorder =
    .expr e :: (AstNode.expr e).children.flatMap AstNode.preorder := by
  cases e with
  | name id => simp [preorder, children, PyExpr.preorder]
  | «attribute» value attr => simp [preorder, children, PyExpr.preorder]
  | call func args keywords lineno =>
    simp [preorder, children, PyExpr.preorder, preorder_of_exprs_eq, preorder_of_keywords_eq]
  | constant is_true => simp [preorder, children, PyExpr.preorder]
  | other children => simp [preorder, AstNode.children, PyExpr.preorder, preorder_of_exprs_eq]

theorem AstNode.preorder_stmt (s : PyStmt) : (AstNode.of_stmt s).preorder =
    .of_stmt s :: (AstNode.of_stmt s).children.flatMap AstNode.preorder := by
  cases s with
  | expr value => exact AstNode.preorder_expr value
  | import_module names => simp [preorder, of_stmt, children, PyStmt.preorder]
  | import_from module names => simp [preorder, of_stmt, children, PyStmt.preorder]
  | other children =>
    simp [preorder, of_stmt, AstNode.children, PyStmt.preorder, preorder_of_stmts_eq]

mutual

/-- The visitor's events are those of the nodes. -/
theorem expr_events : ∀ e : PyExpr, e.events = e.preorder.flatMap AstNode.events
  | .name _ => by simp [PyExpr.events, PyExpr.preorder, AstNode.events]
  | .attribute value _ => by
    simp [PyExpr.events, PyExpr.preorder, AstNode.events, expr_events value]
  | .call func args keywords _ => by
    simp [PyExpr.events, PyExpr.preorder, AstNode.events, expr_events func, exprs_events args,
      keywords_events keywords]
  | .constant _ => by simp [PyExpr.events, PyExpr.preorder, AstNode.events]
  | .other children => by
    simp [PyExpr.events, PyExpr.preorder, AstNode.events, exprs_events children]

theorem exprs_events :
    ∀ es : List PyExpr, events_of_exprs es = (preorder_of_exprs es).flatMap AstNode.events
  | [] => by simp [events_of_exprs, preorder_of_exprs]
  | e :: es => by simp [events_of_exprs, preorder_of_exprs, expr_events e, exprs_events es]

theorem keywords_events : ∀ keywords : List (Option String × PyExpr),
    events_of_keywords keywords = (preorder_of_keywords keywords).flatMap AstNode.events
  | [] => by simp [events_of_keywords, preorder_of_keywords]
  | (_, value) :: keywords => by
    simp [events_of_keywords, preorder_of_keywords, expr_events value, keywords_events keywords]

end

mutual

theorem stmt_events : ∀ s : PyStmt, s.events = s.preorder.flatMap AstNode.events
  | .expr value => by rw [PyStmt.events, PyStmt.preorder, expr_events value]
  | .import_module names => by simp [PyStmt.events, PyStmt.preorder, AstNode.events]
  | .import_from module names => by simp [PyStmt.events, PyStmt.preorder, AstNode.events]
  | .other children => by
    simp [PyStmt.events, PyStmt.preorder, AstNode.events, stmts_events children]

theorem stmts_events :
    ∀ ss : List PyStmt, events_of_stmts ss = (preorder_of_stmts ss).flatMap AstNode.events
  | [] => by simp [events_of_stmts, preorder_of_stmts]
  | s :: ss => by simp [events_of_stmts, preorder_of_stmts, stmt_events s, stmts_events ss]

end

namespace AstNode

/-- The findings of a node are those of its events. -/
theorem findings_eq (import_aliases : List (String × String)) (node : AstNode) :
    event_findings import_aliases node.events = node.findings import_aliases := by
  have hnone : ∀ (names : List ImportAlias) (event : ImportAlias → AstEvent),
      (∀ table a, (event a).findings table = []) →
      ∀ table, event_findings table (names.map event) = [] := by
    intro names event hevent
    induction names with
    | nil => simp [event_findings]
    | cons a names ih => simp [event_findings, hevent, ih]
  cases node with
  | expr e => cases e <;> simp [events, findings, event_findings, AstEvent.findings,
      DangerousCallVisitor.check_call]
  | stmt s =>
    cases s with
    | expr value => rfl
    | import_module names => exact hnone names _ (fun _ _ => rfl) _
    | import_from module names => exact hnone names _ (fun _ _ => rfl) _
    | other children => rfl

/-- The table after a node is the table after its events. -/
theorem bind_eq (import_aliases : List (String × String)) (node : AstNode) :
    aliases_after import_aliases node.events = node.bind import_aliases := by
  cases node with
  | expr e => cases e <;> simp [events, bind, aliases_after, AstEvent.bind]
  | stmt s =>
    cases s with
    | expr value => rfl
    | import_module names =>
      have hvisit := (⟨[], import_aliases⟩ : DangerousCallVisitor).visit_stmt_eq
        (.import_module names)
      rw [bind, ← DangerousCallVisitor.visit_stmt, hvisit]
      rfl
    | import_from module names =>
      have hvisit := (⟨[], import_aliases⟩ : DangerousCallVisitor).visit_stmt_eq
        (.import_from module names)
      rw [bind, ← DangerousCallVisitor.visit_stmt, hvisit]
      rfl
    | other children => rfl

theorem import_table_eq (nodes : List AstNode) :
    aliases_after [] (nodes.flatMap events) = import_table nodes := by
  induction nodes using List.reverseRecOn with
  | nil => rfl
  | append_singleton nodes node ih =>
    have hfold : aliases_after [] (nodes.flatMap events ++ node.events) =
        aliases_after (aliases_after [] (nodes.flatMap events)) node.events := by
      rw [aliases_after, List.foldl_append]
      rfl
    rw [List.flatMap_append, List.flatMap_singleton, hfold, ih, bind_eq, import_table, import_table,
      List.foldl_append]
    rfl

/-- Each node is looked at once, under the imports among the nodes before it. -/
theorem event_findings_eq (nodes : List AstNode) :
    event_findings [] (nodes.flatMap events) =
      nodes.zipIdx.flatMap fun (node, i) => node.findings (import_table (nodes.take i)) := by
  induction nodes using List.reverseRecOn with
  | nil => rfl
  | append_singleton nodes node ih =>
    have hbefore : ∀ p ∈ nodes.zipIdx, p.1.findings (import_table ((nodes ++ [node]).take p.2)) =
        p.1.findings (import_table (nodes.take p.2)) := by
      intro p hp
      have hlt : p.2 < nodes.length := List.snd_lt_of_mem_zipIdx hp
      rw [List.take_append_of_le_length (by omega)]
    rw [List.flatMap_append, List.flatMap_singleton, DangerousCallVisitor.event_findings_append, ih,
      import_table_eq, findings_eq, List.zipIdx_append, List.flatMap_append,
      List.flatMap_congr hbefore]
    simp

end AstNode

/-- The findings of a module are those of its calls in pre-order, each under the imports that
precede it. -/
theorem calls_examined_once (body : List PyStmt) :
    analyze_module body =
      (PyStmt.other body).preorder.zipIdx.flatMap fun (node, i) =>
        node.findings (AstNode.import_table ((PyStmt.other body).preorder.take i)) := by
  have hevents : events_of_stmts body = (PyStmt.other body).events := by rw [PyStmt.events]
  rw [analyze_module_eq, hevents, stmt_events, AstNode.event_findings_eq]

end Nitpicker
