import NitpickerDaemon.AstSecurity
import NitpickerDaemon.Data.BreadthFirst

/-!
The symbol graph of a Python module: what one walk over its tree reports, and that it tells the
methods from the other functions by their lines.
-/

set_option autoImplicit false

namespace Nitpicker

/-- A node of `ast` by its fields, with the names that an `arguments` node has in `args`; a node
that the symbols do not come from is its children. -/
inductive AstTree where
  | import_module (names : List ImportAlias) (lineno : Nat)
  | import_from (module : Option String) (names : List ImportAlias) (lineno : Nat)
  | classDef (name : String) (bases keywords body decorator_list type_params : List AstTree)
      (lineno : Nat)
  | functionDef (is_async : Bool) (name : String) (args : List String) (arguments : AstTree)
      (body decorator_list returns type_params : List AstTree) (lineno : Nat)
  | call (func : AstTree) (args keywords : List AstTree) (lineno : Nat)
  | name (id : String)
  | attribute (value : AstTree) (attr : String)
  | other (children : List AstTree)

namespace AstTree

/-- `ast.iter_child_nodes(node)` -/
def children : AstTree → List AstTree
  | .import_module _ _ => []
  | .import_from _ _ _ => []
  | .classDef _ bases keywords body decorator_list type_params _ =>
    bases ++ keywords ++ body ++ decorator_list ++ type_params
  | .functionDef _ _ _ arguments body decorator_list returns type_params _ =>
    [arguments] ++ body ++ decorator_list ++ returns ++ type_params
  | .call func args keywords _ => [func] ++ args ++ keywords
  | .name _ => []
  | .attribute value _ => [value]
  | .other children => children

mutual

/-- The node and all below it. -/
def nodes : AstTree → List AstTree
  | .import_module names lineno => [.import_module names lineno]
  | .import_from module names lineno => [.import_from module names lineno]
  | .classDef ident bases keywords body decorator_list type_params lineno =>
    .classDef ident bases keywords body decorator_list type_params lineno ::
      (nodes_of_all bases ++ nodes_of_all keywords ++ nodes_of_all body ++
        nodes_of_all decorator_list ++ nodes_of_all type_params)
  | .functionDef is_async ident args arguments body decorator_list returns type_params lineno =>
    .functionDef is_async ident args arguments body decorator_list returns type_params lineno ::
      (arguments.nodes ++ nodes_of_all body ++ nodes_of_all decorator_list ++
        nodes_of_all returns ++ nodes_of_all type_params)
  | .call func args keywords lineno =>
    .call func args keywords lineno :: (func.nodes ++ nodes_of_all args ++ nodes_of_all keywords)
  | .name id => [.name id]
  | .attribute value attr => .attribute value attr :: value.nodes
  | .other children => .other children :: nodes_of_all children

def nodes_of_all : List AstTree → List AstTree
  | [] => []
  | node :: rest => node.nodes ++ nodes_of_all rest

end

theorem nodes_of_all_eq (trees : List AstTree) : nodes_of_all trees = trees.flatMap nodes := by
  induction trees with
  | nil => rfl
  | cons tree trees ih => rw [nodes_of_all, ih, List.flatMap_cons]

theorem nodes_eq (tree : AstTree) : tree.nodes = tree :: tree.children.flatMap nodes := by
  cases tree <;> simp [nodes, children, nodes_of_all_eq]

def size (tree : AstTree) : Nat := tree.nodes.length

theorem sized : BreadthFirst.Sized children size := by
  intro node
  rw [size, nodes_eq, List.length_cons, List.length_flatMap, Nat.add_comm]
  rfl

/-- `ast.walk(tree)` -/
def walk (tree : AstTree) : List AstTree := BreadthFirst.walk children size [tree]

/-- `getattr(node, "lineno", 0)` -/
def lineno : AstTree → Nat
  | .import_module _ lineno => lineno
  | .import_from _ _ lineno => lineno
  | .classDef _ _ _ _ _ _ lineno => lineno
  | .functionDef _ _ _ _ _ _ _ _ lineno => lineno
  | .call _ _ _ lineno => lineno
  | _ => 0

/-- `isinstance(node, (ast.FunctionDef, ast.AsyncFunctionDef))` -/
def is_function : AstTree → Bool
  | .functionDef _ _ _ _ _ _ _ _ _ => true
  | _ => false

/-- The functions that are elements of the body of a class. -/
def methods : AstTree → List AstTree
  | .classDef _ _ _ body _ _ _ => body.filter is_function
  | _ => []

/-- `n.name` -/
def function_name : AstTree → String
  | .functionDef _ ident _ _ _ _ _ _ _ => ident
  | _ => ""

end AstTree

structure ImportSymbol where
  module : String
  asname : Option String
  line : Nat
  deriving DecidableEq, Repr

structure ClassSymbol where
  name : String
  bases : List String
  methods : List String
  line : Nat
  deriving DecidableEq, Repr

structure FunctionSymbol where
  name : String
  args : List String
  decorators : List String
  is_async : Bool
  line : Nat
  deriving DecidableEq, Repr

structure CallSymbol where
  name : String
  line : Nat
  deriving DecidableEq, Repr

structure Symbols where
  imports : List ImportSymbol := []
  classes : List ClassSymbol := []
  functions : List FunctionSymbol := []
  calls : List CallSymbol := []
  deriving DecidableEq, Repr

namespace SymbolProvider

open AstTree
open scoped List

/-- `_resolve_call_name` -/
def resolve_call_name : AstTree → String
  | .name id => id
  | .attribute value attr =>
    if resolve_call_name value ≠ "" then resolve_call_name value ++ "." ++ attr else attr
  | _ => ""

/-- The variables of `_extract_symbols`. -/
structure Extraction where
  symbols : Symbols := {}
  class_method_lines : List Nat := []

/-- The body of the loop, for an `ast.unparse`. -/
def visit (unparse : AstTree → String) (s : Extraction) : AstTree → Extraction
  | .import_module names lineno =>
    { s with symbols.imports := s.symbols.imports ++
      names.map fun a => ⟨a.name, a.asname, lineno⟩ }
  | .import_from module names lineno =>
    let module := module.getD ""
    { s with symbols.imports := s.symbols.imports ++ names.map fun a =>
        ⟨if module ≠ "" then module ++ "." ++ a.name else a.name, a.asname, lineno⟩ }
  | .classDef ident bases _ body _ _ lineno =>
    { s with
      class_method_lines := s.class_method_lines ++ (body.filter is_function).map AstTree.lineno
      symbols.classes := s.symbols.classes ++
        [⟨ident, bases.map unparse, (body.filter is_function).map function_name, lineno⟩] }
  | .functionDef is_async ident args _ _ decorator_list _ _ lineno =>
    if lineno ∈ s.class_method_lines then s
    else { s with symbols.functions := s.symbols.functions ++
        [⟨ident, args, decorator_list.map unparse, is_async, lineno⟩] }
  | .call func _ _ lineno =>
    if resolve_call_name func ≠ "" then
      { s with symbols.calls := s.symbols.calls ++ [⟨resolve_call_name func, lineno⟩] }
    else s
  | _ => s

/-- `_extract_symbols` -/
def extract_symbols (unparse : AstTree → String) (tree : AstTree) : Symbols :=
  (tree.walk.foldl (visit unparse) {}).symbols

/-- What is reported of a class. -/
def class_symbol (unparse : AstTree → String) : AstTree → Option ClassSymbol
  | .classDef ident bases _ body _ _ lineno =>
    some ⟨ident, bases.map unparse, (body.filter is_function).map function_name, lineno⟩
  | _ => none

/-- What is reported of a function that is no method. -/
def function_symbol (unparse : AstTree → String) : AstTree → Option FunctionSymbol
  | .functionDef is_async ident args _ _ decorator_list _ _ lineno =>
    some ⟨ident, args, decorator_list.map unparse, is_async, lineno⟩
  | _ => none

/-- Each class is reported once, and each function once: with a class whose body it is an element
of, or else among the functions. -/
structure Partitions (unparse : AstTree → String) (tree : AstTree) (symbols : Symbols) : Prop where
  classes : symbols.classes.Perm (tree.nodes.filterMap (class_symbol unparse))
  functions : ∃ functions : List AstTree,
    symbols.functions = functions.filterMap (function_symbol unparse) ∧
    (tree.nodes.flatMap methods ++ functions).Perm (tree.nodes.filter is_function) ∧
    ∀ f ∈ functions, ∀ node ∈ tree.nodes, f ∉ node.methods

section Walk

variable {unparse : AstTree → String} {tree node : AstTree} {trees : List AstTree}

theorem visit_classes (s : Extraction) : (visit unparse s node).symbols.classes =
    s.symbols.classes ++ (class_symbol unparse node).toList := by
  cases node <;> simp only [visit, class_symbol, Option.toList, List.append_nil] <;> split <;> rfl

theorem visit_lines (s : Extraction) : (visit unparse s node).class_method_lines =
    s.class_method_lines ++ node.methods.map lineno := by
  cases node <;> simp only [visit, methods, List.map_nil, List.append_nil] <;> split <;> rfl

theorem visit_functions (s : Extraction) : (visit unparse s node).symbols.functions =
    s.symbols.functions ++
      if node.lineno ∈ s.class_method_lines then [] else (function_symbol unparse node).toList := by
  cases node with
  | functionDef is_async ident args arguments body decorator_list returns type_params line =>
    simp only [visit, function_symbol, Option.toList, lineno]
    by_cases hline : line ∈ s.class_method_lines <;> simp [hline]
  | call func args keywords line =>
    simp only [visit, function_symbol, Option.toList, ite_self, List.append_nil]
    split <;> rfl
  | _ => simp only [visit, function_symbol, Option.toList, ite_self, List.append_nil]

/-- The functions that a walk reports, where `lines` are the lines of methods before it. -/
def reported : List Nat → List AstTree → List AstTree
  | _, [] => []
  | lines, node :: rest =>
    (if node.is_function = true ∧ node.lineno ∉ lines then [node] else []) ++
      reported (lines ++ node.methods.map lineno) rest

theorem function_symbol_none (h : node.is_function = false) : function_symbol unparse node = none := by
  cases node with
  | functionDef => cases h
  | _ => rfl

theorem foldl_classes (s : Extraction) : (trees.foldl (visit unparse) s).symbols.classes =
    s.symbols.classes ++ trees.filterMap (class_symbol unparse) := by
  induction trees generalizing s with
  | nil => simp
  | cons node trees ih =>
    rw [List.foldl_cons, ih, visit_classes, List.append_assoc, List.filterMap_cons]
    cases class_symbol unparse node <;> simp

theorem foldl_functions (s : Extraction) : (trees.foldl (visit unparse) s).symbols.functions =
    s.symbols.functions ++
      (reported s.class_method_lines trees).filterMap (function_symbol unparse) := by
  induction trees generalizing s with
  | nil => simp [reported]
  | cons node trees ih =>
    have hnode : (if node.is_function = true ∧ node.lineno ∉ s.class_method_lines then [node]
        else []).filterMap (function_symbol unparse) =
        if node.lineno ∈ s.class_method_lines then [] else (function_symbol unparse node).toList := by
      by_cases hline : node.lineno ∈ s.class_method_lines
      · simp [hline]
      · cases hfunction : node.is_function with
        | false => simp [hline, function_symbol_none hfunction]
        | true => cases hsymbol : function_symbol unparse node <;> simp [hline, hsymbol]
    rw [List.foldl_cons, ih, visit_functions, visit_lines, reported, List.filterMap_append, hnode,
      List.append_assoc]

/-- The lines that the walk has seen tell the methods from the other functions. -/
theorem reported_eq {lines all : List Nat} (h : ∀ seen node rest, trees = seen ++ node :: rest →
      node.is_function = true →
      (node.lineno ∈ lines ++ (seen.flatMap methods).map lineno ↔ node.lineno ∈ all)) :
    reported lines trees =
      trees.filter fun node => node.is_function && !decide (node.lineno ∈ all) := by
  induction trees generalizing lines with
  | nil => rfl
  | cons node trees ih =>
    have hnode := h [] node trees rfl
    have hrest : ∀ seen later rest, trees = seen ++ later :: rest → later.is_function = true →
        (later.lineno ∈ (lines ++ node.methods.map lineno) ++ (seen.flatMap methods).map lineno ↔
          later.lineno ∈ all) := by
      intro seen later rest htrees hfunction
      have hlater := h (node :: seen) later rest (by rw [htrees]; rfl) hfunction
      rwa [List.flatMap_cons, List.map_append, ← List.append_assoc] at hlater
    rw [reported, ih hrest, List.filter_cons]
    cases hfunction : node.is_function with
    | false => simp
    | true =>
      have hlines := hnode hfunction
      rw [List.flatMap_nil, List.map_nil, List.append_nil] at hlines
      by_cases hall : node.lineno ∈ all
      · simp [hlines.mpr hall, hall]
      · have hnone : node.lineno ∉ lines := fun hin => hall (hlines.mp hin)
        simp [hnone, hall]

theorem methods_sublist : node.methods.Sublist (node.children.filter is_function) := by
  cases node with
  | classDef ident bases keywords body decorator_list type_params line =>
    simp only [methods, children, List.filter_append, List.append_assoc]
    exact ((List.sublist_append_left _ _).trans (List.sublist_append_right _ _)).trans
      (List.sublist_append_right _ _)
  | _ => exact List.nil_sublist _

theorem walk_nodes : tree.walk.Perm tree.nodes := by
  have hperm := BreadthFirst.walk_perm sized nodes_eq [tree]
  rwa [List.flatMap_singleton] at hperm

/-- The functions of the tree have lines of their own. -/
def DistinctLines (tree : AstTree) : Prop :=
  ((tree.nodes.filter is_function).map AstTree.lineno).Nodup

theorem DistinctLines.walk (h : DistinctLines tree) :
    ((tree.walk.filter is_function).map AstTree.lineno).Nodup :=
  ((walk_nodes.filter is_function).map AstTree.lineno).nodup_iff.mpr h

theorem mem_method_of_walk (h : node ∈ tree.walk.flatMap methods) :
    node ∈ tree.walk.filter is_function := by
  obtain ⟨parent, hparent, hnode⟩ := List.mem_flatMap.mp h
  obtain ⟨hchild, hfunction⟩ := List.mem_filter.mp (methods_sublist.subset hnode)
  have hpair := BreadthFirst.parent_first sized hparent hchild
  exact List.mem_filter.mpr ⟨hpair.subset (by simp), hfunction⟩

/-- Where functions have lines of their own, no method is one of a second class. -/
theorem methods_nodup (h : DistinctLines tree) : (tree.walk.flatMap methods).Nodup := by
  have hnodes : (tree.walk.filter is_function).Nodup := h.walk.of_map
  have hchildren := (BreadthFirst.walk_perm_children sized [tree]).filter is_function
  have hmethods : (tree.walk.flatMap methods).Sublist
      ((tree.walk.flatMap children).filter is_function) := by
    rw [List.filter_flatMap]
    exact List.Sublist.flatMap_right _ fun _ _ => methods_sublist
  rw [List.filter_append] at hchildren
  exact (hmethods.trans (List.sublist_append_right _ _)).nodup (hchildren.nodup_iff.mp hnodes)

/-- When the walk comes to a method, it has seen the class. -/
theorem seen_lines (h : DistinctLines tree) {seen rest : List AstTree}
    (hwalk : tree.walk = seen ++ node :: rest) (hfunction : node.is_function = true) :
    node.lineno ∈ (seen.flatMap methods).map AstTree.lineno ↔
      node.lineno ∈ (tree.walk.flatMap methods).map AstTree.lineno := by
  have hlines := h.walk
  constructor
  · intro hline
    rw [hwalk, List.flatMap_append, List.map_append]
    exact List.mem_append_left _ hline
  · intro hline
    obtain ⟨method, hmethod, hsame⟩ := List.mem_map.mp hline
    have hnode : node ∈ tree.walk.filter is_function :=
      List.mem_filter.mpr ⟨by rw [hwalk]; simp, hfunction⟩
    obtain rfl : method = node :=
      List.inj_on_of_nodup_map hlines (mem_method_of_walk hmethod) hnode hsame
    obtain ⟨parent, hparent, hbody⟩ := List.mem_flatMap.mp hmethod
    have hpair := BreadthFirst.parent_first sized hparent
      (List.mem_filter.mp (methods_sublist.subset hbody)).1
    have hlast : method ∉ rest := by
      have hnodes : (tree.walk.filter is_function).Nodup := hlines.of_map
      rw [hwalk, List.filter_append, List.filter_cons_of_pos hfunction] at hnodes
      have hrest := (List.nodup_cons.mp hnodes.of_append_right).1
      exact fun hmem => hrest (List.mem_filter.mpr ⟨hmem, hfunction⟩)
    have hseen : parent ∈ seen := by
      refine BreadthFirst.mem_of_pair_sublist ?_ hlast
      rw [← hwalk]
      exact hpair
    exact List.mem_map_of_mem (List.mem_flatMap.mpr ⟨parent, hseen, hbody⟩)

/-- The methods are the functions on their lines. -/
theorem methods_perm (h : DistinctLines tree) : (tree.walk.flatMap methods).Perm
    ((tree.walk.filter is_function).filter fun node =>
      decide (node.lineno ∈ (tree.walk.flatMap methods).map AstTree.lineno)) := by
  have hfunctions : (tree.walk.filter is_function).Nodup := h.walk.of_map
  refine (List.perm_ext_iff_of_nodup (methods_nodup h) (hfunctions.filter _)).mpr fun node => ?_
  constructor
  · intro hnode
    have hline := List.mem_map_of_mem (f := AstTree.lineno) hnode
    exact List.mem_filter.mpr ⟨mem_method_of_walk hnode, by simpa using hline⟩
  · intro hnode
    obtain ⟨hfunction, hline⟩ := List.mem_filter.mp hnode
    obtain ⟨method, hmethod, hsame⟩ := List.mem_map.mp (of_decide_eq_true hline)
    rwa [← List.inj_on_of_nodup_map h.walk (mem_method_of_walk hmethod) hfunction hsame]

/-- The symbol graph partitions the functions of a tree. -/
theorem symbols_partition (h : DistinctLines tree) :
    Partitions unparse tree (extract_symbols unparse tree) := by
  have hreported := @reported_eq tree.walk [] ((tree.walk.flatMap methods).map AstTree.lineno)
    fun _ _ _ hwalk hfunction => by
      rw [List.nil_append]
      exact seen_lines h hwalk hfunction
  constructor
  · rw [extract_symbols, foldl_classes, List.nil_append]
    exact walk_nodes.filterMap _
  · refine ⟨reported [] tree.walk, ?_, ?_, ?_⟩
    · rw [extract_symbols, foldl_functions, List.nil_append]
    · have hothers : reported [] tree.walk = (tree.walk.filter is_function).filter fun node =>
          !decide (node.lineno ∈ (tree.walk.flatMap methods).map AstTree.lineno) := by
        rw [hreported, List.filter_filter]
        exact List.filter_congr fun node _ => Bool.and_comm _ _
      rw [hothers]
      calc tree.nodes.flatMap methods ++ _
          _ ~ tree.walk.flatMap methods ++ _ := (walk_nodes.flatMap_right methods).symm.append_right _
          _ ~ _ := (methods_perm h).append_right _
          _ ~ tree.walk.filter is_function := List.filter_append_perm _ _
          _ ~ tree.nodes.filter is_function := walk_nodes.filter _
    · intro f hf node hnode hmethod
      rw [hreported] at hf
      have hall := (List.mem_filter.mp hf).2
      have hwalk : f ∈ tree.walk.flatMap methods :=
        List.mem_flatMap.mpr ⟨node, walk_nodes.mem_iff.mpr hnode, hmethod⟩
      simp [List.mem_map_of_mem hwalk] at hall

end Walk

/-- A class with a method that has a function inside, and a function in an `if` of its body; and a
coroutine. -/
def sample_module : AstTree :=
  .other [.classDef "Store" [.name "Base"] []
      [.functionDef false "get" ["self"] (.other []) [
          .functionDef false "key" [] (.other []) [] [] [] [] 3] [] [] [] 2,
        .other [.functionDef false "compat" ["self"] (.other []) [] [] [] [] 5]] [] [] 1,
    .functionDef true "main" [] (.other []) [.other [.call (.name "Store") [] [] 8]] [] [] [] 7]

/-- The base of the class unparses to its name. -/
theorem sample_symbols :
    Partitions resolve_call_name sample_module (extract_symbols resolve_call_name sample_module) ∧
    (extract_symbols resolve_call_name sample_module).classes =
      [⟨"Store", ["Base"], ["get"], 1⟩] ∧
    (extract_symbols resolve_call_name sample_module).functions.map FunctionSymbol.name =
      ["main", "key", "compat"] := by
  refine ⟨symbols_partition ?_, ?_, ?_⟩
  · unfold DistinctLines
    decide
  · decide
  · decide

end SymbolProvider

end Nitpicker
