import Mathlib

/-!
The Python values and exceptions the review pipeline passes around.
-/

set_option autoImplicit false

namespace Nitpicker

/-- A Python value as JSON knows it; `object` stands for every value `json.dumps` refuses.
Finite floats are exact rationals. -/
inductive PyVal where
  | none : PyVal
  | bool : Bool → PyVal
  | int : Int → PyVal
  | float : Rat → PyVal
  | str : String → PyVal
  | list : List PyVal → PyVal
  | dict : List (String × PyVal) → PyVal
  | object : String → PyVal
  deriving Inhabited

/-- A dict with string keys, in insertion order. -/
abbrev PyDict := List (String × PyVal)

def PyDict.getD (d : PyDict) (key : String) (default : PyVal) : PyVal :=
  (d.lookup key).getD default

def PyDict.get (d : PyDict) (key : String) : PyVal := d.getD key .none

def PyVal.truthy : PyVal → Bool
  | .none => false
  | .bool b => b
  | .int n => n != 0
  | .float q => q != 0
  | .str s => s != ""
  | .list xs => !xs.isEmpty
  | .dict kvs => !kvs.isEmpty
  | .object _ => true

/-- `a or b` -/
def PyVal.or (a b : PyVal) : PyVal := if a.truthy then a else b

/-- `v == s` for a string `s` -/
def PyVal.isStr (v : PyVal) (s : String) : Bool :=
  match v with
  | .str t => t == s
  | _ => false

theorem PyVal.isStr_iff {v : PyVal} {s : String} : v.isStr s = true ↔ v = .str s := by
  cases v <;> simp [isStr]

mutual

/-- The type name of the first object `json.dumps` would stop at. -/
def PyVal.unserializable : PyVal → Option String
  | .list xs => PyVal.unserializableList xs
  | .dict kvs => PyVal.unserializableDict kvs
  | .object name => some name
  | _ => Option.none

def PyVal.unserializableList : List PyVal → Option String
  | [] => Option.none
  | x :: xs => x.unserializable.or (PyVal.unserializableList xs)

def PyVal.unserializableDict : List (String × PyVal) → Option String
  | [] => Option.none
  | (_, x) :: kvs => x.unserializable.or (PyVal.unserializableDict kvs)

end

/-- The text of a JSON object, held as the dict it decodes to. -/
structure JsonText where
  loads : PyDict
  serializable : (PyVal.dict loads).unserializable = Option.none

/-- The built-in exception classes that some `except` or `isinstance` names. -/
inductive ExcClass where
  | osError | timeoutError | connectionError | valueError | typeError | keyError | runtimeError
  deriving DecidableEq, Repr

/-- `issubclass`; `TimeoutError` and `ConnectionError` are subclasses of `OSError`. -/
def ExcClass.derivesFrom : ExcClass → ExcClass → Bool
  | .timeoutError, .osError => true
  | .connectionError, .osError => true
  | c, d => c == d

/-- An instance of `Exception`: its class name, the classes above that it inherits from,
and its `str()`. -/
structure PyExc where
  type_name : String
  bases : List ExcClass
  message : String
  deriving DecidableEq, Repr

def PyExc.isInstance (e : PyExc) (c : ExcClass) : Bool := e.bases.any (·.derivesFrom c)

def valueError (message : String) : PyExc := ⟨"ValueError", [.valueError], message⟩

def typeError (message : String) : PyExc := ⟨"TypeError", [.typeError], message⟩

/-- `KeyError` prints the `repr` of its key. -/
def keyError (key : String) : PyExc := ⟨"KeyError", [.keyError], "'" ++ key ++ "'"⟩

/-- `json.dumps` -/
def PyDict.dumps (d : PyDict) : Except PyExc JsonText :=
  match h : (PyVal.dict d).unserializable with
  | some name => .error (typeError ("Object of type " ++ name ++ " is not JSON serializable"))
  | Option.none => .ok ⟨d, h⟩

theorem PyDict.dumps_ok {d : PyDict} {t : JsonText} (h : d.dumps = .ok t) : t.loads = d := by
  unfold dumps at h
  split at h
  · cases h
  · cases h
    rfl

theorem PyDict.dumps_of_serializable {d : PyDict}
    (h : (PyVal.dict d).unserializable = Option.none) : d.dumps = .ok ⟨d, h⟩ := by
  unfold dumps
  split
  · rename_i name hn
    rw [h] at hn
    cases hn
  · rfl

/-- `needle in haystack` -/
def contains (haystack needle : String) : Bool := decide (needle.toList <:+: haystack.toList)

/-- `str.isspace` of one character. -/
def isspace (c : Char) : Bool :=
  let n := c.toNat
  (9 ≤ n && n ≤ 13) || (28 ≤ n && n ≤ 32) || n == 0x85 || n == 0xa0 || n == 0x1680 ||
    (0x2000 ≤ n && n ≤ 0x200a) || n == 0x2028 || n == 0x2029 || n == 0x202f || n == 0x205f ||
    n == 0x3000

def strip_chars (cs : List Char) : List Char :=
  ((cs.dropWhile isspace).reverse.dropWhile isspace).reverse

/-- `str.strip` -/
def strip (s : String) : String := String.ofList (strip_chars s.toList)

/-- The name of a value's type, as in error messages. -/
def PyVal.type_name : PyVal → String
  | .none => "NoneType"
  | .bool _ => "bool"
  | .int _ => "int"
  | .float _ => "float"
  | .str _ => "str"
  | .list _ => "list"
  | .dict _ => "dict"
  | .object name => name

/-- `value.attribute` on a value without it. -/
def attributeError (value : PyVal) (name : String) : PyExc :=
  ⟨"AttributeError", [], "'" ++ value.type_name ++ "' object has no attribute '" ++ name ++ "'"⟩

end Nitpicker
