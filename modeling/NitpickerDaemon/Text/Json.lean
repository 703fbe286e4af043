import Mathlib

/-!
JSON over code points: a text may hold lone surrogates, and has then no UTF-8 bytes.
-/

set_option autoImplicit false

namespace Text

abbrev CodePoint := Fin 0x110000

instance code_points_ne_zero : NeZero 0x110000 := ⟨by decide⟩

def surrogate (c : CodePoint) : Bool := 0xD800 ≤ c.val && c.val < 0xE000

def code_point (c : Char) : CodePoint :=
  ⟨c.toNat, by
    have h := c.valid
    simp only [UInt32.isValidChar, Nat.isValidChar] at h
    simp only [Char.toNat]
    omega⟩

theorem ofNat_val (c : CodePoint) : Fin.ofNat 0x110000 c.val = c := by
  simp [Fin.ofNat, Nat.mod_eq_of_lt c.isLt]

def code_points (s : String) : List CodePoint := s.toList.map code_point

/-- No surrogate is in the text. -/
def Clean (s : List CodePoint) : Prop := ∀ c ∈ s, surrogate c = false

instance (s : List CodePoint) : Decidable (Clean s) :=
  List.decidableBAll (fun c => surrogate c = false) s

@[simp] theorem clean_nil : Clean [] := by simp [Clean]

@[simp] theorem clean_cons {c : CodePoint} {s : List CodePoint} :
    Clean (c :: s) ↔ surrogate c = false ∧ Clean s := by simp [Clean]

@[simp] theorem clean_append {s t : List CodePoint} : Clean (s ++ t) ↔ Clean s ∧ Clean t := by
  simp [Clean, or_imp, forall_and]

theorem surrogate_code_point (c : Char) : surrogate (code_point c) = false := by
  have h := c.valid
  simp only [UInt32.isValidChar, Nat.isValidChar] at h
  have hc : (code_point c).val = c.val.toNat := rfl
  simp only [surrogate, Bool.and_eq_false_iff, decide_eq_false_iff_not]
  omega

@[simp] theorem clean_code_points (s : String) : Clean (code_points s) := by
  intro c hc
  obtain ⟨c, -, rfl⟩ := List.mem_map.mp hc
  exact surrogate_code_point c

/-- The bytes of a code point in UTF-8. -/
def utf8_bytes (c : CodePoint) : List UInt8 :=
  let tail (n : Nat) : UInt8 := UInt8.ofNat (0x80 + n % 64)
  let n := c.val
  if n < 0x80 then [UInt8.ofNat n]
  else if n < 0x800 then [UInt8.ofNat (0xC0 + n / 64), tail n]
  else if n < 0x10000 then [UInt8.ofNat (0xE0 + n / 4096), tail (n / 64), tail n]
  else [UInt8.ofNat (0xF0 + n / 262144), tail (n / 4096), tail (n / 64), tail n]

/-- `s.encode("utf-8")`; a surrogate is a `UnicodeEncodeError`. -/
def encode (s : List CodePoint) : Option (List UInt8) :=
  if Clean s then some (s.flatMap utf8_bytes) else none

theorem encode_isSome {s : List CodePoint} : (encode s).isSome ↔ Clean s := by
  unfold encode
  split <;> simp_all

inductive Json where
  | null
  | bool (b : Bool)
  | int (n : Int)
  | float (q : Rat)
  | str (s : List CodePoint)
  | array (items : List Json)
  | object (members : List (List CodePoint × Json))

/-- The escape of a character in a JSON string, with `ensure_ascii=False`. -/
def escape (c : CodePoint) : List CodePoint :=
  if c = code_point '"' then code_points "\\\""
  else if c = code_point '\\' then code_points "\\\\"
  else if c = code_point '\n' then code_points "\\n"
  else if c = code_point '\r' then code_points "\\r"
  else if c = code_point '\t' then code_points "\\t"
  else if c.val = 0x0C then code_points "\\f"
  else if c.val = 0x08 then code_points "\\b"
  else if c.val < 0x20 then
    code_points (String.ofList ("\\u00".toList ++
      [Nat.digitChar (c.val / 16), Nat.digitChar (c.val % 16)]))
  else [c]

def quote (s : List CodePoint) : List CodePoint :=
  code_points "\"" ++ s.flatMap escape ++ code_points "\""

theorem surrogate_lt {c : CodePoint} (h : c.val < 0x80) : surrogate c = false := by
  simp only [surrogate, Bool.and_eq_false_iff, decide_eq_false_iff_not]
  omega

theorem clean_escape {c : CodePoint} : Clean (escape c) ↔ surrogate c = false := by
  have hascii : ∀ s : String, c.val < 0x80 → (Clean (code_points s) ↔ surrogate c = false) :=
    fun s hc => iff_of_true (clean_code_points s) (surrogate_lt hc)
  unfold escape
  split
  · subst c
    exact hascii _ (by decide)
  split
  · subst c
    exact hascii _ (by decide)
  split
  · subst c
    exact hascii _ (by decide)
  split
  · subst c
    exact hascii _ (by decide)
  split
  · subst c
    exact hascii _ (by decide)
  split
  · exact hascii _ (by omega)
  split
  · exact hascii _ (by omega)
  split
  · exact hascii _ (by omega)
  · simp

theorem clean_flatMap_escape {s : List CodePoint} : Clean (s.flatMap escape) ↔ Clean s := by
  induction s with
  | nil => simp
  | cons c s ih => simp [clean_escape, ih]

@[simp] theorem clean_quote {s : List CodePoint} : Clean (quote s) ↔ Clean s := by
  simp [quote, clean_flatMap_escape]

namespace Json

mutual

/-- `json.dumps(value, ensure_ascii=False)` -/
def dumps (float_repr : Rat → String) : Json → List CodePoint
  | null => code_points "null"
  | bool b => code_points (if b then "true" else "false")
  | int n => code_points (toString n)
  | float q => code_points (float_repr q)
  | str s => quote s
  | array items => code_points "[" ++
      (code_points ", ").intercalate (dumps_items float_repr items) ++ code_points "]"
  | object members => code_points "\x7b" ++
      (code_points ", ").intercalate (dumps_members float_repr members) ++ code_points "\x7d"

def dumps_items (float_repr : Rat → String) : List Json → List (List CodePoint)
  | [] => []
  | item :: items => item.dumps float_repr :: dumps_items float_repr items

def dumps_members (float_repr : Rat → String) :
    List (List CodePoint × Json) → List (List CodePoint)
  | [] => []
  | (key, value) :: members =>
    (quote key ++ code_points ": " ++ value.dumps float_repr) :: dumps_members float_repr members

end

mutual

/-- No string in the value holds a surrogate. -/
def Scalar : Json → Prop
  | str s => Clean s
  | array items => Scalar_items items
  | object members => Scalar_members members
  | _ => True

def Scalar_items : List Json → Prop
  | [] => True
  | item :: items => item.Scalar ∧ Scalar_items items

def Scalar_members : List (List CodePoint × Json) → Prop
  | [] => True
  | (key, value) :: members => Clean key ∧ value.Scalar ∧ Scalar_members members

end

theorem clean_intercalate {sep : List CodePoint} (hsep : Clean sep) (parts : List (List CodePoint)) :
    Clean (sep.intercalate parts) ↔ ∀ part ∈ parts, Clean part := by
  induction parts with
  | nil => simp [List.intercalate]
  | cons part parts ih =>
    cases parts with
    | nil => simp [List.intercalate]
    | cons next parts =>
      rw [List.intercalate_cons_cons]
      simp [ih, hsep]

mutual

/-- A text that is dumped has a surrogate just when the value has. -/
theorem clean_dumps (float_repr : Rat → String) :
    ∀ value : Json, Clean (value.dumps float_repr) ↔ value.Scalar
  | null => by simp [dumps, Scalar]
  | bool b => by simp [dumps, Scalar]
  | int n => by simp [dumps, Scalar]
  | float q => by simp [dumps, Scalar]
  | str s => by simp [dumps, Scalar]
  | array items => by
    rw [dumps, Scalar, ← clean_dumps_items float_repr items]
    simp [clean_intercalate]
  | object members => by
    rw [dumps, Scalar, ← clean_dumps_members float_repr members]
    simp [clean_intercalate]

theorem clean_dumps_items (float_repr : Rat → String) :
    ∀ items : List Json, (∀ part ∈ dumps_items float_repr items, Clean part) ↔ Scalar_items items
  | [] => by simp [dumps_items, Scalar_items]
  | item :: items => by
    simp [dumps_items, Scalar_items, clean_dumps float_repr item,
      clean_dumps_items float_repr items]

theorem clean_dumps_members (float_repr : Rat → String) :
    ∀ members : List (List CodePoint × Json),
      (∀ part ∈ dumps_members float_repr members, Clean part) ↔ Scalar_members members
  | [] => by simp [dumps_members, Scalar_members]
  | (key, value) :: members => by
    simp [dumps_members, Scalar_members, clean_dumps float_repr value,
      clean_dumps_members float_repr members, and_assoc]

end

theorem encode_dumps {float_repr : Rat → String} {value : Json} :
    (encode (value.dumps float_repr)).isSome ↔ value.Scalar := by
  rw [encode_isSome, clean_dumps]

/-- `bool(value)` -/
def truthy : Json → Bool
  | null => false
  | bool b => b
  | int n => n ≠ 0
  | float q => q ≠ 0
  | str s => s ≠ []
  | array items => !items.isEmpty
  | object members => !members.isEmpty

end Json

end Text
