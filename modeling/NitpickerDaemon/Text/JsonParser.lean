import NitpickerDaemon.Data.Dict
import NitpickerDaemon.Text.Numeral

/-!
Reading JSON, with the leniencies of `json.loads`: NaN and the infinities are numbers, the last
of equal keys counts, surrogates may be written as escapes.
-/

set_option autoImplicit false

namespace Text

def whitespace (c : CodePoint) : Bool :=
  c.val == 0x20 || c.val == 0x09 || c.val == 0x0A || c.val == 0x0D

def skip_whitespace (cs : List CodePoint) : List CodePoint := cs.dropWhile whitespace

/-- The rest after one character, which has to come next. -/
def expect (c : Char) : List CodePoint → Option (List CodePoint)
  | [] => none
  | d :: cs => if d = code_point c then some cs else none

def hex_digit (c : CodePoint) : Option Nat :=
  if 48 ≤ c.val ∧ c.val ≤ 57 then some (c.val - 48)
  else if 97 ≤ c.val ∧ c.val ≤ 102 then some (c.val - 87)
  else if 65 ≤ c.val ∧ c.val ≤ 70 then some (c.val - 55)
  else none

/-- The code point of `\uXXXX`. -/
def hex_escape (c₁ c₂ c₃ c₄ : CodePoint) : Option CodePoint := do
  let n₁ ← hex_digit c₁
  let n₂ ← hex_digit c₂
  let n₃ ← hex_digit c₃
  let n₄ ← hex_digit c₄
  return Fin.ofNat 0x110000 (4096 * n₁ + 256 * n₂ + 16 * n₃ + n₄)

/-- The character of an escape of one letter. -/
def letter_escape (c : CodePoint) : Option CodePoint :=
  if c = code_point '"' then some c
  else if c = code_point '\\' then some c
  else if c = code_point '/' then some c
  else if c = code_point 'b' then some ⟨0x08, by decide⟩
  else if c = code_point 'f' then some ⟨0x0C, by decide⟩
  else if c = code_point 'n' then some (code_point '\n')
  else if c = code_point 'r' then some (code_point '\r')
  else if c = code_point 't' then some (code_point '\t')
  else none

/-- The characters up to the closing quote, each with whether it was written as `\uXXXX`. -/
def scan_string : List CodePoint → Option (List (Bool × CodePoint) × List CodePoint)
  | [] => none
  | c :: cs =>
    if c = code_point '"' then some ([], cs)
    else if c = code_point '\\' then
      match cs with
      | [] => none
      | e :: cs =>
        if e = code_point 'u' then
          match cs with
          | c₁ :: c₂ :: c₃ :: c₄ :: cs => do
            let d ← hex_escape c₁ c₂ c₃ c₄
            (scan_string cs).map fun (units, rest) => ((true, d) :: units, rest)
          | _ => none
        else do
          let d ← letter_escape e
          (scan_string cs).map fun (units, rest) => ((false, d) :: units, rest)
    else if c.val < 0x20 then none
    else (scan_string cs).map fun (units, rest) => ((false, c) :: units, rest)

def high_surrogate (c : CodePoint) : Bool := 0xD800 ≤ c.val && c.val < 0xDC00

def low_surrogate (c : CodePoint) : Bool := 0xDC00 ≤ c.val && c.val < 0xE000

/-- Two escaped surrogates are one character. -/
def join_surrogates : List (Bool × CodePoint) → List CodePoint
  | [] => []
  | [u] => [u.2]
  | u :: v :: units =>
    if u.1 && v.1 && high_surrogate u.2 && low_surrogate v.2 then
      Fin.ofNat 0x110000 (0x10000 + (u.2.val - 0xD800) * 0x400 + (v.2.val - 0xDC00)) ::
        join_surrogates units
    else u.2 :: join_surrogates (v :: units)

def string (cs : List CodePoint) : Option (List CodePoint × List CodePoint) :=
  (scan_string cs).map fun (units, rest) => (join_surrogates units, rest)

section Value

variable (read : List CodePoint → Rat)

def literal (name : String) (value : Json) (cs : List CodePoint) :
    Option (Json × List CodePoint) :=
  if code_points name <+: cs then some (value, cs.drop name.length) else none

/-- The values with a name; what `read` makes of NaN and the infinities is left open. -/
def constants : List (String × Json) :=
  [("null", .null), ("true", .bool true), ("false", .bool false),
    ("NaN", .float (read (code_points "NaN"))), ("Infinity", .float (read (code_points "Infinity"))),
    ("-Infinity", .float (read (code_points "-Infinity")))]

def number (cs : List CodePoint) : Option (Json × List CodePoint) :=
  (scan_numeral cs).map fun (n, rest) =>
    (if n.is_int then .int n.to_int else .float (read n.render), rest)

def atom (cs : List CodePoint) : Option (Json × List CodePoint) :=
  ((constants read).findSome? fun (name, value) => literal name value cs).or (number read cs)

mutual

/-- The value a text starts with, and the rest. -/
def value : Nat → List CodePoint → Option (Json × List CodePoint)
  | 0, _ => none
  | _ + 1, [] => none
  | fuel + 1, c :: cs =>
    if c = code_point '"' then (string cs).map fun (s, rest) => (.str s, rest)
    else if c = code_point '\x7b' then
      match expect '\x7d' (skip_whitespace cs) with
      | some rest => some (.object [], rest)
      | none => (members fuel (skip_whitespace cs)).map fun (pairs, rest) =>
        (.object (Dict.of_pairs pairs), rest)
    else if c = code_point '[' then
      match expect ']' (skip_whitespace cs) with
      | some rest => some (.array [], rest)
      | none => (items fuel (skip_whitespace cs)).map fun (values, rest) => (.array values, rest)
    else atom read (c :: cs)

/-- The values up to the closing bracket. -/
def items : Nat → List CodePoint → Option (List Json × List CodePoint)
  | 0, _ => none
  | fuel + 1, cs => do
    let (item, cs) ← value fuel cs
    match expect ']' (skip_whitespace cs) with
    | some rest => some ([item], rest)
    | none => do
      let cs ← expect ',' (skip_whitespace cs)
      let (values, rest) ← items fuel (skip_whitespace cs)
      some (item :: values, rest)

/-- The keys and values up to the closing brace. -/
def members : Nat → List CodePoint → Option (List (List CodePoint × Json) × List CodePoint)
  | 0, _ => none
  | fuel + 1, cs => do
    let cs ← expect '"' cs
    let (key, cs) ← string cs
    let cs ← expect ':' (skip_whitespace cs)
    let (member, cs) ← value fuel (skip_whitespace cs)
    match expect '\x7d' (skip_whitespace cs) with
    | some rest => some ([(key, member)], rest)
    | none => do
      let cs ← expect ',' (skip_whitespace cs)
      let (pairs, rest) ← members fuel (skip_whitespace cs)
      some ((key, member) :: pairs, rest)

end

def byte_order_mark : CodePoint := ⟨0xFEFF, by decide⟩

/-- `json.loads(text)`. A call of the parser that does not read a character is followed by one
that does. -/
def loads (text : List CodePoint) : Option Json :=
  if text.head? = some byte_order_mark then none
  else do
    let (v, rest) ← value read (2 * text.length) (skip_whitespace text)
    if skip_whitespace rest = [] then some v else none

end Value

section Strings

theorem scan_plain {c : CodePoint} (hquote : c ≠ code_point '"') (hslash : c ≠ code_point '\\')
    (hcontrol : 0x20 ≤ c.val) (cs : List CodePoint) :
    scan_string (c :: cs) =
      (scan_string cs).map fun (units, rest) => ((false, c) :: units, rest) := by
  rw [scan_string.eq_def]
  simp only [if_neg hquote, if_neg hslash, if_neg (Nat.not_lt.mpr hcontrol)]

theorem scan_letter {e d : CodePoint} (he : e ≠ code_point 'u') (hd : letter_escape e = some d)
    (cs : List CodePoint) :
    scan_string (code_point '\\' :: e :: cs) =
      (scan_string cs).map fun (units, rest) => ((false, d) :: units, rest) := by
  have hslash : code_point '\\' ≠ code_point '"' := by decide
  rw [scan_string.eq_def]
  simp [hslash, he, hd]

theorem scan_hex {c₁ c₂ c₃ c₄ d : CodePoint} (h : hex_escape c₁ c₂ c₃ c₄ = some d)
    (cs : List CodePoint) :
    scan_string (code_point '\\' :: code_point 'u' :: c₁ :: c₂ :: c₃ :: c₄ :: cs) =
      (scan_string cs).map fun (units, rest) => ((true, d) :: units, rest) := by
  have hslash : code_point '\\' ≠ code_point '"' := by decide
  rw [scan_string.eq_def]
  simp [hslash, h]

/-- A control character is written with its two hexadecimal digits. -/
theorem hex_escape_control {n : Nat} (h : n < 0x20) :
    hex_escape (code_point '0') (code_point '0') (code_point (Nat.digitChar (n / 16)))
      (code_point (Nat.digitChar (n % 16))) = some (Fin.ofNat 0x110000 n) := by
  decide +revert

/-- The characters of a string that are dumped as `\uXXXX`. -/
def hex_escaped (c : CodePoint) : Bool :=
  c.val < 0x20 && c.val != 0x08 && c.val != 0x09 && c.val != 0x0A && c.val != 0x0C &&
    c.val != 0x0D

theorem scan_escape (c : CodePoint) (cs : List CodePoint) :
    scan_string (escape c ++ cs) =
      (scan_string cs).map fun (units, rest) => ((hex_escaped c, c) :: units, rest) := by
  unfold escape
  split
  next h => subst h; exact scan_letter (by decide) (by decide) cs
  split
  next h => subst h; exact scan_letter (by decide) (by decide) cs
  split
  next h => subst h; exact scan_letter (by decide) (by decide) cs
  split
  next h => subst h; exact scan_letter (by decide) (by decide) cs
  split
  next h => subst h; exact scan_letter (by decide) (by decide) cs
  split
  next h =>
    obtain rfl : c = ⟨0x0C, by decide⟩ := Fin.ext h
    exact scan_letter (by decide) (by decide) cs
  split
  next h =>
    obtain rfl : c = ⟨0x08, by decide⟩ := Fin.ext h
    exact scan_letter (by decide) (by decide) cs
  split
  next hfeed hreturn htab hform hback h =>
    have hhex := hex_escape_control h
    rw [ofNat_val] at hhex
    have hcontrol : hex_escaped c = true := by
      have hfeed : c.val ≠ 0x0A := fun heq => hfeed (Fin.ext heq)
      have hreturn : c.val ≠ 0x0D := fun heq => hreturn (Fin.ext heq)
      have htab : c.val ≠ 0x09 := fun heq => htab (Fin.ext heq)
      simp [hex_escaped, h, hfeed, hreturn, htab, hform, hback]
    rw [hcontrol, ← scan_hex hhex]
    simp [code_points]
  next hquote hslash _ _ _ _ _ h =>
    have hplain : hex_escaped c = false := by simp [hex_escaped]; omega
    rw [hplain]
    exact scan_plain hquote hslash (by omega) cs

theorem join_plain {units : List (Bool × CodePoint)}
    (h : ∀ u ∈ units, u.1 = true → high_surrogate u.2 = false) :
    join_surrogates units = units.map Prod.snd := by
  induction units with
  | nil => simp [join_surrogates]
  | cons u units ih =>
    have ih := ih fun v hv => h v (List.mem_cons_of_mem _ hv)
    have hu := h u List.mem_cons_self
    cases units with
    | nil => simp [join_surrogates]
    | cons v units =>
      have hsingle : (u.1 && v.1 && high_surrogate u.2 && low_surrogate v.2) = false := by
        cases hu1 : u.1 <;> simp_all
      simp [join_surrogates, hsingle, ih]

theorem scan_escapes (s rest : List CodePoint) :
    scan_string (s.flatMap escape ++ code_point '"' :: rest) =
      some (s.map fun c => (hex_escaped c, c), rest) := by
  induction s with
  | nil =>
    rw [scan_string.eq_def]
    simp
  | cons c s ih => simp [scan_escape, ih]

/-- A dumped string is read back. -/
theorem string_escapes (s rest : List CodePoint) :
    string (s.flatMap escape ++ code_point '"' :: rest) = some (s, rest) := by
  have hjoin : join_surrogates (s.map fun c => (hex_escaped c, c)) = s := by
    rw [join_plain]
    · simp [Function.comp_def]
    · intro u hu hhex
      obtain ⟨c, -, rfl⟩ := List.mem_map.mp hu
      simp only [hex_escaped, Bool.and_eq_true, decide_eq_true_eq] at hhex
      simp only [high_surrogate, Bool.and_eq_false_iff, decide_eq_false_iff_not]
      omega
  simp [string, scan_escapes, hjoin]

end Strings

/-- `float.__repr__` and `float`, which undo each other on the doubles. -/
structure Floats where
  repr : Rat → String
  read : List CodePoint → Rat
  Double : Rat → Prop
  repr_float (q : Rat) : Double q → ∃ n : Numeral, n.Valid ∧ n.is_int = false ∧
    code_points (repr q) = n.render ∧ read n.render = q

namespace Json

mutual

/-- A value Python can hold: its floats are doubles, and no dictionary has a key twice. -/
def Held (floats : Floats) : Json → Prop
  | float q => floats.Double q
  | array items => Held_items floats items
  | object members => Dict.Keyed members ∧ Held_members floats members
  | _ => True

def Held_items (floats : Floats) : List Json → Prop
  | [] => True
  | item :: items => item.Held floats ∧ Held_items floats items

def Held_members (floats : Floats) : List (List CodePoint × Json) → Prop
  | [] => True
  | (_, value) :: members => value.Held floats ∧ Held_members floats members

end

mutual

/-- The floats in the value are doubles. -/
def Doubles (floats : Floats) : Json → Prop
  | float q => floats.Double q
  | array items => Doubles_items floats items
  | object members => Doubles_members floats members
  | _ => True

def Doubles_items (floats : Floats) : List Json → Prop
  | [] => True
  | item :: items => item.Doubles floats ∧ Doubles_items floats items

def Doubles_members (floats : Floats) : List (List CodePoint × Json) → Prop
  | [] => True
  | (_, value) :: members => value.Doubles floats ∧ Doubles_members floats members

end

mutual

/-- `P` holds of each string of the value, and no dictionary has a key twice. -/
def Strings (P : List CodePoint → Prop) : Json → Prop
  | str s => P s
  | array items => Strings_items P items
  | object members => Dict.Keyed members ∧ Strings_members P members
  | _ => True

def Strings_items (P : List CodePoint → Prop) : List Json → Prop
  | [] => True
  | item :: items => item.Strings P ∧ Strings_items P items

def Strings_members (P : List CodePoint → Prop) : List (List CodePoint × Json) → Prop
  | [] => True
  | (key, value) :: members => P key ∧ value.Strings P ∧ Strings_members P members

end

end Json

/-- A way to write the characters of a string, and what is read back of them. -/
structure Spelling where
  escape : CodePoint → List CodePoint
  reread : List CodePoint → List CodePoint
  string_escapes (s rest : List CodePoint) :
    string (s.flatMap escape ++ code_point '"' :: rest) = some (reread s, rest)

/-- `ensure_ascii=False` -/
def Spelling.plain : Spelling := ⟨Text.escape, id, Text.string_escapes⟩

namespace Spelling

variable (sp : Spelling)

def quote (s : List CodePoint) : List CodePoint :=
  code_points "\"" ++ s.flatMap sp.escape ++ code_points "\""

mutual

/-- `json.dumps(value)` in this spelling. -/
def dumps (float_repr : Rat → String) : Json → List CodePoint
  | .null => code_points "null"
  | .bool b => code_points (if b then "true" else "false")
  | .int n => code_points (toString n)
  | .float q => code_points (float_repr q)
  | .str s => sp.quote s
  | .array items => code_points "[" ++
      (code_points ", ").intercalate (dumps_items float_repr items) ++ code_points "]"
  | .object members => code_points "\x7b" ++
      (code_points ", ").intercalate (dumps_members float_repr members) ++ code_points "\x7d"

def dumps_items (float_repr : Rat → String) : List Json → List (List CodePoint)
  | [] => []
  | item :: items => dumps float_repr item :: dumps_items float_repr items

def dumps_members (float_repr : Rat → String) :
    List (List CodePoint × Json) → List (List CodePoint)
  | [] => []
  | (key, value) :: members =>
    (sp.quote key ++ code_points ": " ++ dumps float_repr value) ::
      dumps_members float_repr members

end

mutual

/-- A value with its strings as they are read back. -/
def reread_value : Json → Json
  | .str s => .str (sp.reread s)
  | .array items => .array (reread_items items)
  | .object members => .object (Dict.of_pairs (reread_members members))
  | .null => .null
  | .bool b => .bool b
  | .int n => .int n
  | .float q => .float q

def reread_items : List Json → List Json
  | [] => []
  | item :: items => reread_value item :: reread_items items

def reread_members : List (List CodePoint × Json) → List (List CodePoint × Json)
  | [] => []
  | (key, value) :: members => (sp.reread key, reread_value value) :: reread_members members

end

mutual

/-- A value is read back as it is when each of its strings is. -/
theorem reread_strings {P : List CodePoint → Prop} (hread : ∀ s, P s → sp.reread s = s) :
    ∀ v : Json, v.Strings P → sp.reread_value v = v
  | .null, _ => rfl
  | .bool _, _ => rfl
  | .int _, _ => rfl
  | .float _, _ => rfl
  | .str s, h => by rw [reread_value, hread s h]
  | .array items, h => by rw [reread_value, reread_items_strings hread items h]
  | .object members, h => by
    rw [reread_value, reread_members_strings hread members h.2, Dict.of_pairs_keyed h.1]

theorem reread_items_strings {P : List CodePoint → Prop} (hread : ∀ s, P s → sp.reread s = s) :
    ∀ items : List Json, Json.Strings_items P items → sp.reread_items items = items
  | [], _ => rfl
  | item :: items, h => by
    rw [reread_items, reread_strings hread item h.1, reread_items_strings hread items h.2]

theorem reread_members_strings {P : List CodePoint → Prop} (hread : ∀ s, P s → sp.reread s = s) :
    ∀ members : List (List CodePoint × Json), Json.Strings_members P members →
      sp.reread_members members = members
  | [], _ => rfl
  | (key, value) :: members, h => by
    rw [reread_members, hread key h.1, reread_strings hread value h.2.1,
      reread_members_strings hread members h.2.2]

end

mutual

theorem plain_dumps (float_repr : Rat → String) : ∀ v : Json,
    plain.dumps float_repr v = v.dumps float_repr
  | .null => rfl
  | .bool _ => rfl
  | .int _ => rfl
  | .float _ => rfl
  | .str _ => rfl
  | .array items => by rw [dumps, Json.dumps, plain_dumps_items]
  | .object members => by rw [dumps, Json.dumps, plain_dumps_members]

theorem plain_dumps_items (float_repr : Rat → String) : ∀ items : List Json,
    plain.dumps_items float_repr items = Json.dumps_items float_repr items
  | [] => rfl
  | item :: items => by rw [dumps_items, Json.dumps_items, plain_dumps, plain_dumps_items]

theorem plain_dumps_members (float_repr : Rat → String) :
    ∀ members : List (List CodePoint × Json),
      plain.dumps_members float_repr members = Json.dumps_members float_repr members
  | [] => rfl
  | (key, value) :: members => by
    rw [dumps_members, Json.dumps_members, plain_dumps, plain_dumps_members]
    rfl

end

end Spelling

section RoundTrip

variable {floats : Floats} {sp : Spelling}

/-- A value is over where the text goes on: at its end, or at a comma or a bracket. -/
def Ends (rest : List CodePoint) : Prop :=
  ∀ c, rest.head? = some c → c = code_point ',' ∨ c = code_point ']' ∨ c = code_point '\x7d'

theorem Ends.stops {rest : List CodePoint} (h : Ends rest) : Stops rest := by
  intro c hc
  rcases h c hc with rfl | rfl | rfl <;> decide

theorem ends_nil : Ends [] := by simp [Ends]

theorem ends_cons {c : CodePoint} {rest : List CodePoint}
    (h : c = code_point ',' ∨ c = code_point ']' ∨ c = code_point '\x7d') : Ends (c :: rest) := by
  simpa [Ends] using h

theorem skip_visible {c : CodePoint} (h : whitespace c = false) (cs : List CodePoint) :
    skip_whitespace (c :: cs) = c :: cs := by
  simp [skip_whitespace, h]

theorem skip_blank (cs : List CodePoint) :
    skip_whitespace (code_point ' ' :: cs) = skip_whitespace cs := by
  have h : whitespace (code_point ' ') = true := by decide
  simp [skip_whitespace, h]

theorem expect_self (c : Char) (cs : List CodePoint) : expect c (code_point c :: cs) = some cs := by
  simp [expect]

theorem expect_other {c : Char} {d : CodePoint} (h : d ≠ code_point c) (cs : List CodePoint) :
    expect c (d :: cs) = none := by
  simp [expect, h]

/-- A numeral starts with a digit, or with a minus and a digit. -/
theorem Numeral.Valid.render_cons {n : Numeral} (h : n.Valid) : ∃ d ds, digit d = true ∧
    (n.render = d :: ds ∨ n.render = code_point '-' :: d :: ds) := by
  obtain ⟨d, ds, hw⟩ := List.exists_cons_of_ne_nil h.whole_ne_nil
  have hd := h.whole d (by simp [hw])
  refine ⟨d, ds ++ (Numeral.render_fraction n.fraction ++ Numeral.render_exponent n.exponent), hd, ?_⟩
  cases hneg : n.negative with
  | true => simp [Numeral.render, Numeral.sign, hneg, hw]
  | false => simp [Numeral.render, Numeral.sign, hneg, hw]

theorem digit_ne {c d : CodePoint} (hc : digit c = true) (hd : digit d = false) : c ≠ d := by
  rintro rfl
  simp [hc] at hd

/-- No name starts with a digit, nor with a sign and a digit. -/
theorem constants_name (read : List CodePoint → Rat) {e : String × Json} (h : e ∈ constants read) :
    ∃ c d cs, code_points e.1 = c :: d :: cs ∧ digit c = false ∧ digit d = false := by
  have hname : e.1 ∈ (constants read).map Prod.fst := List.mem_map_of_mem h
  have hall : ∀ name ∈ ["null", "true", "false", "NaN", "Infinity", "-Infinity"],
      2 ≤ (code_points name).length ∧ ((code_points name).take 2).any digit = false := by
    decide
  obtain ⟨hlen, hdigits⟩ := hall e.1 hname
  match code_points e.1, hlen, hdigits with
  | c :: d :: cs, _, hdigits =>
    simp only [List.take, List.any_cons, Bool.or_eq_false_iff] at hdigits
    exact ⟨c, d, cs, rfl, hdigits.1, hdigits.2.1⟩

/-- No name is taken for a numeral. -/
theorem atom_numeral {read : List CodePoint → Rat} {n : Numeral} (h : n.Valid)
    (rest : List CodePoint) : atom read (n.render ++ rest) = number read (n.render ++ rest) := by
  obtain ⟨d, ds, hd, hr⟩ := h.render_cons
  have hnone : (constants read).findSome? (fun e => literal e.1 e.2 (n.render ++ rest)) = none := by
    rw [List.findSome?_eq_none_iff]
    intro e he
    obtain ⟨c₁, c₂, cs, hname, h1, h2⟩ := constants_name read he
    rw [literal, if_neg]
    intro hstart
    rcases hr with hr | hr
    · rw [hname, hr, List.cons_append, List.cons_prefix_cons] at hstart
      simp [hstart.1, hd] at h1
    · rw [hname, hr, List.cons_append, List.cons_append, List.cons_prefix_cons,
        List.cons_prefix_cons] at hstart
      simp [hstart.2.1, hd] at h2
  rw [atom, hnone, Option.none_or]

theorem number_render {read : List CodePoint → Rat} {n : Numeral} (h : n.Valid)
    {rest : List CodePoint} (hrest : Stops rest) : number read (n.render ++ rest) =
      some (if n.is_int then .int n.to_int else .float (read n.render), rest) := by
  rw [number, scan_render h hrest, Option.map_some]

theorem literal_self {name : String} (v : Json) (rest : List CodePoint) :
    literal name v (code_points name ++ rest) = some (v, rest) := by
  have hlen : name.length = (code_points name).length := by
    simp [code_points, String.length_toList]
  rw [literal, if_pos (List.prefix_append _ _), hlen, List.drop_left]

theorem literal_other {name other : String} (v : Json) (rest : List CodePoint)
    (h : (code_points name).head? ≠ (code_points other).head?) (hne : code_points other ≠ [])
    (hname : code_points name ≠ []) :
    literal name v (code_points other ++ rest) = none := by
  obtain ⟨c, cs, hc⟩ := List.exists_cons_of_ne_nil hname
  obtain ⟨d, ds, hd⟩ := List.exists_cons_of_ne_nil hne
  rw [literal, if_neg]
  intro hstart
  rw [hc, hd, List.cons_append, List.cons_prefix_cons] at hstart
  simp [hc, hd, hstart.1] at h

theorem atom_null (read : List CodePoint → Rat) (rest : List CodePoint) :
    atom read (code_points "null" ++ rest) = some (.null, rest) := by
  simp [atom, constants, literal_self]

theorem atom_true (read : List CodePoint → Rat) (rest : List CodePoint) :
    atom read (code_points "true" ++ rest) = some (.bool true, rest) := by
  have hnull := @literal_other "null" "true" .null rest (by decide) (by decide) (by decide)
  simp [atom, constants, literal_self, hnull]

theorem atom_false (read : List CodePoint → Rat) (rest : List CodePoint) :
    atom read (code_points "false" ++ rest) = some (.bool false, rest) := by
  have hnull := @literal_other "null" "false" .null rest (by decide) (by decide) (by decide)
  have htrue := @literal_other "true" "false" (.bool true) rest (by decide) (by decide) (by decide)
  simp [atom, constants, literal_self, hnull, htrue]

theorem value_atom {read : List CodePoint → Rat} {c : CodePoint} {cs : List CodePoint}
    (hquote : c ≠ code_point '"') (hbrace : c ≠ code_point '\x7b') (hbracket : c ≠ code_point '[')
    (fuel : Nat) : value read (fuel + 1) (c :: cs) = atom read (c :: cs) := by
  rw [value, if_neg hquote, if_neg hbrace, if_neg hbracket]

theorem value_numeral {read : List CodePoint → Rat} {n : Numeral} (h : n.Valid)
    {rest : List CodePoint} (hrest : Stops rest) (fuel : Nat) :
    value read (fuel + 1) (n.render ++ rest) =
      some (if n.is_int then .int n.to_int else .float (read n.render), rest) := by
  have hatom := @atom_numeral read n h rest
  rw [number_render h hrest] at hatom
  obtain ⟨d, ds, hd, hr | hr⟩ := h.render_cons
  · rw [← hatom, hr, List.cons_append]
    exact value_atom (digit_ne hd (by decide)) (digit_ne hd (by decide)) (digit_ne hd (by decide)) _
  · rw [← hatom, hr, List.cons_append]
    exact value_atom (by decide) (by decide) (by decide) _

/-- A value starts with a visible character, which closes no array. -/
theorem Spelling.dumps_cons (sp : Spelling) {v : Json} (h : v.Doubles floats) :
    ∃ c cs, sp.dumps floats.repr v = c :: cs ∧
    whitespace c = false ∧ c ≠ code_point ']' ∧ c.val < 0x80 := by
  have hnumeral {n : Numeral} (hn : n.Valid) : ∃ c cs, n.render = c :: cs ∧
      whitespace c = false ∧ c ≠ code_point ']' ∧ c.val < 0x80 := by
    obtain ⟨d, ds, hd, hr | hr⟩ := hn.render_cons
    · have hclose := digit_ne hd (show digit (code_point ']') = false by decide)
      rw [digit_iff] at hd
      refine ⟨d, ds, hr, ?_, hclose, by omega⟩
      simp only [whitespace, Bool.or_eq_false_iff, beq_eq_false_iff_ne]
      omega
    · exact ⟨_, _, hr, by decide, by decide, by decide⟩
  cases v with
  | null => exact ⟨_, _, rfl, by decide, by decide, by decide⟩
  | bool b => cases b <;> exact ⟨_, _, rfl, by decide, by decide, by decide⟩
  | int n =>
    rw [Spelling.dumps, ← Numeral.render_of_int]
    exact hnumeral (Numeral.valid_of_int n)
  | float q =>
    obtain ⟨n, hn, -, htext, -⟩ := floats.repr_float q h
    rw [Spelling.dumps, htext]
    exact hnumeral hn
  | str s => exact ⟨_, _, rfl, by decide, by decide, by decide⟩
  | array items => exact ⟨_, _, rfl, by decide, by decide, by decide⟩
  | object members => exact ⟨_, _, rfl, by decide, by decide, by decide⟩

theorem value_string (sp : Spelling) (read : List CodePoint → Rat) (s rest : List CodePoint) (fuel : Nat) :
    value read (fuel + 1) (sp.quote s ++ rest) = some (.str (sp.reread s), rest) := by
  have hquote : sp.quote s ++ rest =
      code_point '"' :: (s.flatMap sp.escape ++ code_point '"' :: rest) := by
    simp [Spelling.quote, code_points]
  rw [hquote, value, if_pos rfl, sp.string_escapes, Option.map_some]

/-- The text of a list in brackets. -/
def listed (parts : List (List CodePoint)) : List CodePoint := (code_points ", ").intercalate parts

theorem listed_singleton (part : List CodePoint) : listed [part] = part := by
  simp [listed, List.intercalate]

theorem listed_cons (part next : List CodePoint) (parts : List (List CodePoint)) :
    listed (part :: next :: parts) =
      part ++ code_point ',' :: code_point ' ' :: listed (next :: parts) := by
  rw [listed, List.intercalate_cons_cons]
  simp [code_points, listed]

section Steps

variable {read : List CodePoint → Rat} {fuel : Nat} {v : Json} {cs next rest : List CodePoint}

theorem items_last (h : value read fuel cs = some (v, code_point ']' :: rest)) :
    items read (fuel + 1) cs = some ([v], rest) := by
  have hskip := skip_visible (c := code_point ']') (by decide) rest
  simp [items, h, hskip, expect_self]

theorem items_next {values : List Json}
    (h : value read fuel cs = some (v, code_point ',' :: code_point ' ' :: next))
    (hnext : items read fuel (skip_whitespace next) = some (values, rest)) :
    items read (fuel + 1) cs = some (v :: values, rest) := by
  have hskip := skip_visible (c := code_point ',') (by decide) (code_point ' ' :: next)
  have hclose : expect ']' (code_point ',' :: code_point ' ' :: next) = none :=
    expect_other (by decide) _
  simp [items, h, hskip, hclose, expect_self, skip_blank, hnext]

variable {key : List CodePoint}

theorem members_last (h : value read fuel (skip_whitespace cs) = some (v, code_point '\x7d' :: rest)) :
    members read (fuel + 1) (sp.quote key ++ code_point ':' :: cs) =
      some ([(sp.reread key, v)], rest) := by
  have hcolon := skip_visible (c := code_point ':') (by decide) cs
  have hskip := skip_visible (c := code_point '\x7d') (by decide) rest
  have hquote : sp.quote key ++ code_point ':' :: cs =
      code_point '"' :: (key.flatMap sp.escape ++ code_point '"' :: code_point ':' :: cs) := by
    simp [Spelling.quote, code_points]
  simp [members, hquote, expect_self, sp.string_escapes, hcolon, h, hskip]

theorem members_next {pairs : List (List CodePoint × Json)}
    (h : value read fuel (skip_whitespace cs) = some (v, code_point ',' :: code_point ' ' :: next))
    (hnext : members read fuel (skip_whitespace next) = some (pairs, rest)) :
    members read (fuel + 1) (sp.quote key ++ code_point ':' :: cs) =
      some ((sp.reread key, v) :: pairs, rest) := by
  have hcolon := skip_visible (c := code_point ':') (by decide) cs
  have hskip := skip_visible (c := code_point ',') (by decide) (code_point ' ' :: next)
  have hclose : expect '\x7d' (code_point ',' :: code_point ' ' :: next) = none :=
    expect_other (by decide) _
  have hquote : sp.quote key ++ code_point ':' :: cs =
      code_point '"' :: (key.flatMap sp.escape ++ code_point '"' :: code_point ':' :: cs) := by
    simp [Spelling.quote, code_points]
  simp [members, hquote, expect_self, sp.string_escapes, hcolon, h, hskip, hclose, skip_blank, hnext]

theorem value_array {values : List Json} (hclose : expect ']' (skip_whitespace cs) = none)
    (h : items read fuel (skip_whitespace cs) = some (values, rest)) :
    value read (fuel + 1) (code_point '[' :: cs) = some (.array values, rest) := by
  rw [value, if_neg (by decide), if_neg (by decide), if_pos rfl, hclose]
  simp [h]

theorem value_object {pairs : List (List CodePoint × Json)}
    (hclose : expect '\x7d' (skip_whitespace cs) = none)
    (h : members read fuel (skip_whitespace cs) = some (pairs, rest)) :
    value read (fuel + 1) (code_point '\x7b' :: cs) = some (.object (Dict.of_pairs pairs), rest) := by
  rw [value, if_neg (by decide), if_pos rfl, hclose]
  simp [h]

end Steps

theorem skip_dumps (sp : Spelling) {v : Json} (h : v.Doubles floats) (rest : List CodePoint) :
    skip_whitespace (sp.dumps floats.repr v ++ rest) = sp.dumps floats.repr v ++ rest := by
  obtain ⟨c, cs, hv, hc, -⟩ := sp.dumps_cons h
  rw [hv, List.cons_append, skip_visible hc]

theorem skip_quote (sp : Spelling) (s rest : List CodePoint) :
    skip_whitespace (sp.quote s ++ rest) = sp.quote s ++ rest := by
  simp [Spelling.quote, code_points, skip_visible (c := code_point '"') (by decide)]

theorem listed_items_head (item : Json) (values : List Json) :
    ∃ tail, listed (sp.dumps_items floats.repr (item :: values)) =
      sp.dumps floats.repr item ++ tail := by
  cases values with
  | nil => exact ⟨[], by simp [Spelling.dumps_items, listed_singleton]⟩
  | cons next values => exact ⟨_, by rw [Spelling.dumps_items, Spelling.dumps_items, listed_cons]⟩

theorem listed_members_head (key : List CodePoint) (v : Json)
    (members : List (List CodePoint × Json)) :
    ∃ tail, listed (sp.dumps_members floats.repr ((key, v) :: members)) = sp.quote key ++ tail := by
  cases members with
  | nil => exact ⟨_, by simp [Spelling.dumps_members, listed_singleton]; rfl⟩
  | cons next members =>
    obtain ⟨next_key, w⟩ := next
    refine ⟨code_points ": " ++ sp.dumps floats.repr v ++ code_point ',' :: code_point ' ' ::
      listed (sp.dumps_members floats.repr ((next_key, w) :: members)), ?_⟩
    rw [Spelling.dumps_members, Spelling.dumps_members, listed_cons]
    simp

mutual

theorem value_dumps : ∀ v : Json, v.Doubles floats → ∀ (fuel : Nat) (rest : List CodePoint),
    2 * (sp.dumps floats.repr v).length ≤ fuel → Ends rest →
      value floats.read fuel (sp.dumps floats.repr v ++ rest) = some (sp.reread_value v, rest)
  | v, hv, 0, _, hfuel, _ => by
    obtain ⟨c, cs, hcons, -, -⟩  := sp.dumps_cons hv
    rw [hcons, List.length_cons] at hfuel
    omega
  | .null, _, fuel + 1, rest, _, _ => by
    have hatom := atom_null floats.read rest
    rw [Spelling.reread_value, ← hatom]
    exact value_atom (by decide) (by decide) (by decide) fuel
  | .bool true, _, fuel + 1, rest, _, _ => by
    have hatom := atom_true floats.read rest
    rw [Spelling.reread_value, ← hatom]
    exact value_atom (by decide) (by decide) (by decide) fuel
  | .bool false, _, fuel + 1, rest, _, _ => by
    have hatom := atom_false floats.read rest
    rw [Spelling.reread_value, ← hatom]
    exact value_atom (by decide) (by decide) (by decide) fuel
  | .int n, _, fuel + 1, rest, _, hrest => by
    rw [Spelling.dumps, ← Numeral.render_of_int,
      value_numeral (Numeral.valid_of_int n) hrest.stops, Numeral.to_int_of_int]
    rfl
  | .float q, hq, fuel + 1, rest, _, hrest => by
    obtain ⟨n, hn, hfloat, htext, hread⟩ := floats.repr_float q hq
    rw [Spelling.dumps, htext, value_numeral hn hrest.stops, hfloat, hread]
    rfl
  | .str s, _, fuel + 1, rest, _, _ => value_string sp floats.read s rest fuel
  | .array [], _, fuel + 1, rest, _, _ => by
    have hskip := skip_visible (c := code_point ']') (by decide) rest
    have htext : sp.dumps floats.repr (.array []) ++ rest =
        code_point '[' :: code_point ']' :: rest := by
      simp [Spelling.dumps, Spelling.dumps_items, List.intercalate, code_points]
    rw [htext, value, if_neg (by decide), if_neg (by decide), if_pos rfl, hskip, expect_self]
    rfl
  | .array (item :: values), hv, fuel + 1, rest, hfuel, _ => by
    obtain ⟨hitem, hvalues⟩ := hv
    obtain ⟨tail, htail⟩ := @listed_items_head floats sp item values
    have htext : sp.dumps floats.repr (.array (item :: values)) = code_point '[' ::
        (listed (sp.dumps_items floats.repr (item :: values)) ++ [code_point ']']) := by
      simp [Spelling.dumps, listed, code_points]
    have hskip := skip_dumps sp hitem (tail ++ code_point ']' :: rest)
    rw [← List.append_assoc, ← htail] at hskip
    rw [htext] at hfuel ⊢
    simp only [List.length_cons, List.length_append, List.length_nil] at hfuel
    rw [List.cons_append, List.append_assoc, List.cons_append, List.nil_append]
    have hitems := items_dumps item values hitem hvalues fuel rest (by omega)
    rw [← hskip] at hitems
    refine value_array ?_ hitems
    obtain ⟨c, cs, hcons, -, hc, -⟩  := sp.dumps_cons hitem
    rw [hskip, htail, hcons]
    exact expect_other hc _
  | .object [], _, fuel + 1, rest, _, _ => by
    have hskip := skip_visible (c := code_point '\x7d') (by decide) rest
    have htext : sp.dumps floats.repr (.object []) ++ rest =
        code_point '\x7b' :: code_point '\x7d' :: rest := by
      simp [Spelling.dumps, Spelling.dumps_members, List.intercalate, code_points]
    rw [htext, value, if_neg (by decide), if_pos rfl, hskip, expect_self]
    rfl
  | .object ((key, v) :: members), hv, fuel + 1, rest, hfuel, _ => by
    obtain ⟨hvalue, hmembers⟩ := hv
    obtain ⟨tail, htail⟩ := @listed_members_head floats sp key v members
    have htext : sp.dumps floats.repr (.object ((key, v) :: members)) = code_point '\x7b' ::
        (listed (sp.dumps_members floats.repr ((key, v) :: members)) ++
          [code_point '\x7d']) := by
      simp [Spelling.dumps, listed, code_points]
    have hskip := skip_quote sp key (tail ++ code_point '\x7d' :: rest)
    rw [← List.append_assoc, ← htail] at hskip
    rw [htext] at hfuel ⊢
    simp only [List.length_cons, List.length_append, List.length_nil] at hfuel
    rw [List.cons_append, List.append_assoc, List.cons_append, List.nil_append]
    have hpairs := members_dumps key v members hvalue hmembers fuel rest (by omega)
    rw [← hskip] at hpairs
    have hclose : expect '\x7d' (skip_whitespace (listed
        (sp.dumps_members floats.repr ((key, v) :: members)) ++ code_point '\x7d' :: rest)) =
          none := by
      rw [hskip, htail]
      exact expect_other (by decide) _
    have hobject := value_object hclose hpairs
    exact hobject

theorem items_dumps : ∀ (item : Json) (values : List Json), item.Doubles floats →
    Json.Doubles_items floats values → ∀ (fuel : Nat) (rest : List CodePoint),
      2 * (listed (sp.dumps_items floats.repr (item :: values))).length + 1 ≤ fuel →
        items floats.read fuel
          (listed (sp.dumps_items floats.repr (item :: values)) ++ code_point ']' :: rest) =
            some (sp.reread_items (item :: values), rest)
  | _, _, _, _, 0, _, hfuel => by omega
  | item, [], hitem, _, fuel + 1, rest, hfuel => by
    simp only [Spelling.dumps_items, listed_singleton] at hfuel ⊢
    exact items_last (value_dumps item hitem fuel _ (by omega) (ends_cons (by simp)))
  | item, next :: values, hitem, hvalues, fuel + 1, rest, hfuel => by
    obtain ⟨hnext, hrest⟩ := hvalues
    obtain ⟨tail, htail⟩ := @listed_items_head floats sp next values
    have hskip := skip_dumps sp hnext (tail ++ code_point ']' :: rest)
    rw [← List.append_assoc, ← htail] at hskip
    rw [Spelling.dumps_items, Spelling.dumps_items, listed_cons, ← Spelling.dumps_items] at hfuel ⊢
    simp only [List.length_append, List.length_cons] at hfuel
    rw [List.append_assoc, List.cons_append, List.cons_append]
    apply items_next (value_dumps item hitem fuel _ (by omega) (ends_cons (by simp)))
    rw [hskip]
    exact items_dumps next values hnext hrest fuel rest (by omega)

theorem members_dumps : ∀ (key : List CodePoint) (v : Json)
    (pairs : List (List CodePoint × Json)), v.Doubles floats → Json.Doubles_members floats pairs →
      ∀ (fuel : Nat) (rest : List CodePoint),
        2 * (listed (sp.dumps_members floats.repr ((key, v) :: pairs))).length + 1 ≤ fuel →
          members floats.read fuel (listed (sp.dumps_members floats.repr ((key, v) :: pairs)) ++
            code_point '\x7d' :: rest) = some (sp.reread_members ((key, v) :: pairs), rest)
  | _, _, _, _, _, 0, _, hfuel => by omega
  | key, v, [], hv, _, fuel + 1, rest, hfuel => by
    simp only [Spelling.dumps_members, listed_singleton, List.length_append] at hfuel ⊢
    have hvalue := value_dumps v hv fuel (code_point '\x7d' :: rest) (by omega) (ends_cons (by simp))
    rw [← skip_dumps sp hv, ← skip_blank] at hvalue
    rw [List.append_assoc, List.append_assoc]
    exact members_last hvalue
  | key, v, (next_key, w) :: pairs, hv, hpairs, fuel + 1, rest, hfuel => by
    obtain ⟨hnext, hrest⟩ := hpairs
    obtain ⟨tail, htail⟩ := @listed_members_head floats sp next_key w pairs
    have hskip := skip_quote sp next_key (tail ++ code_point '\x7d' :: rest)
    rw [← List.append_assoc, ← htail] at hskip
    rw [Spelling.dumps_members, Spelling.dumps_members, listed_cons, ← Spelling.dumps_members] at hfuel ⊢
    simp only [List.length_append, List.length_cons] at hfuel
    have hvalue := value_dumps v hv fuel (code_point ',' :: code_point ' ' ::
      (listed (sp.dumps_members floats.repr ((next_key, w) :: pairs)) ++
        code_point '\x7d' :: rest)) (by omega) (ends_cons (by simp))
    rw [← skip_dumps sp hv, ← skip_blank] at hvalue
    rw [List.append_assoc, List.append_assoc, List.append_assoc, List.cons_append, List.cons_append]
    apply members_next hvalue
    rw [hskip]
    exact members_dumps next_key w pairs hnext hrest fuel rest (by omega)

end

theorem dumps_no_mark {v : Json} (h : v.Doubles floats) :
    (sp.dumps floats.repr v).head? ≠ some byte_order_mark := by
  obtain ⟨c, cs, hcons, -, -, hascii⟩ := sp.dumps_cons h
  rw [hcons, List.head?_cons]
  intro hc
  have hval : c.val = 0xFEFF := congrArg Fin.val (Option.some.inj hc)
  omega

/-- What is dumped is loaded as the same value, but for the strings that read back differently. -/
theorem Spelling.loads_dumps (sp : Spelling) {v : Json} (h : v.Doubles floats) :
    loads floats.read (sp.dumps floats.repr v) = some (sp.reread_value v) := by
  have hskip := skip_dumps sp h []
  have hvalue := @value_dumps floats sp v h _ [] (Nat.le_refl _) ends_nil
  rw [List.append_nil] at hskip hvalue
  rw [loads, if_neg (dumps_no_mark h), hskip, hvalue]
  rfl

section Held

mutual

theorem Json.Held.doubles : ∀ v : Json, v.Held floats → v.Doubles floats
  | .null, _ => trivial
  | .bool _, _ => trivial
  | .int _, _ => trivial
  | .float _, h => h
  | .str _, _ => trivial
  | .array items, h => held_items_doubles items h
  | .object members, h => held_members_doubles members h.2

theorem held_items_doubles : ∀ items : List Json, Json.Held_items floats items →
    Json.Doubles_items floats items
  | [], _ => trivial
  | item :: items, h => ⟨Json.Held.doubles item h.1, held_items_doubles items h.2⟩

theorem held_members_doubles : ∀ members : List (List CodePoint × Json),
    Json.Held_members floats members → Json.Doubles_members floats members
  | [], _ => trivial
  | (_, value) :: members, h =>
    ⟨Json.Held.doubles value h.1, held_members_doubles members h.2⟩

end

mutual

theorem held_strings : ∀ v : Json, v.Held floats → v.Strings fun _ => True
  | .null, _ => trivial
  | .bool _, _ => trivial
  | .int _, _ => trivial
  | .float _, _ => trivial
  | .str _, _ => trivial
  | .array items, h => held_items_strings items h
  | .object members, h => ⟨h.1, held_members_strings members h.2⟩

theorem held_items_strings : ∀ items : List Json, Json.Held_items floats items →
    Json.Strings_items (fun _ => True) items
  | [], _ => trivial
  | item :: items, h => ⟨held_strings item h.1, held_items_strings items h.2⟩

theorem held_members_strings : ∀ members : List (List CodePoint × Json),
    Json.Held_members floats members → Json.Strings_members (fun _ => True) members
  | [], _ => trivial
  | (_, value) :: members, h => ⟨trivial, held_strings value h.1, held_members_strings members h.2⟩

end

/-- A dumped value starts with a visible character. -/
theorem dumps_cons {v : Json} (h : v.Held floats) : ∃ c cs, v.dumps floats.repr = c :: cs ∧
    whitespace c = false ∧ c ≠ code_point ']' ∧ c.val < 0x80 := by
  rw [← Spelling.plain_dumps]
  exact Spelling.plain.dumps_cons h.doubles

/-- What is dumped is loaded as the same value. -/
theorem loads_dumps {v : Json} (h : v.Held floats) :
    loads floats.read (v.dumps floats.repr) = some v := by
  rw [← Spelling.plain_dumps, Spelling.loads_dumps _ h.doubles,
    Spelling.reread_strings _ (fun _ _ => rfl) v (held_strings v h)]

end Held

end RoundTrip

/-- What follows the opening quote of a string, the closing one included. -/
inductive Quoted : List CodePoint → Prop where
  | close : Quoted [code_point '"']
  | plain {c : CodePoint} {body : List CodePoint} : c ≠ code_point '"' → c ≠ code_point '\\' →
      Quoted body → Quoted (c :: body)
  | escaped {c : CodePoint} {body : List CodePoint} :
      Quoted body → Quoted (code_point '\\' :: c :: body)

/-- A text of strings and, between them, characters other than the slash. -/
inductive Tokens : List CodePoint → Prop where
  | nil : Tokens []
  | plain {c : CodePoint} {text : List CodePoint} : c ≠ code_point '"' → c ≠ code_point '/' →
      Tokens text → Tokens (c :: text)
  | string {body text : List CodePoint} :
      Quoted body → Tokens text → Tokens (code_point '"' :: (body ++ text))

theorem Tokens.append {s t : List CodePoint} (hs : Tokens s) (ht : Tokens t) : Tokens (s ++ t) := by
  induction hs with
  | nil => exact ht
  | plain hquote hslash _ ih => exact .plain hquote hslash ih
  | string hbody _ ih =>
    rw [List.cons_append, List.append_assoc]
    exact .string hbody ih

theorem Tokens.of_plain {s : List CodePoint}
    (h : ∀ c ∈ s, c ≠ code_point '"' ∧ c ≠ code_point '/') : Tokens s := by
  induction s with
  | nil => exact .nil
  | cons c s ih =>
    have hc := h c List.mem_cons_self
    exact .plain hc.1 hc.2 (ih fun d hd => h d (List.mem_cons_of_mem _ hd))

section Consumed

theorem hex_digit_ne {c : CodePoint} (h : (hex_digit c).isSome) :
    c ≠ code_point '"' ∧ c ≠ code_point '\\' := by
  constructor
  · rintro rfl
    exact absurd h (by decide)
  · rintro rfl
    exact absurd h (by decide)

/-- The four characters of an escape are digits. -/
theorem hex_escape_digits {c₁ c₂ c₃ c₄ d : CodePoint} (h : hex_escape c₁ c₂ c₃ c₄ = some d) :
    (hex_digit c₁).isSome ∧ (hex_digit c₂).isSome ∧ (hex_digit c₃).isSome ∧
      (hex_digit c₄).isSome := by
  cases h₁ : hex_digit c₁ <;> cases h₂ : hex_digit c₂ <;> cases h₃ : hex_digit c₃ <;>
    cases h₄ : hex_digit c₄ <;> simp_all [hex_escape]

/-- A string is read to its closing quote, whatever follows. -/
theorem scan_string_consumes {cs rest : List CodePoint} {units : List (Bool × CodePoint)}
    (h : scan_string cs = some (units, rest)) : ∃ body, cs = body ++ rest ∧ Quoted body ∧
      ∀ after, scan_string (body ++ after) = some (units, after) := by
  induction cs using scan_string.induct generalizing units with
  | case1 => simp [scan_string] at h
  | case2 cs =>
    rw [scan_string.eq_def] at h
    obtain ⟨rfl, rfl⟩ : units = [] ∧ cs = rest := by simpa using h
    refine ⟨[code_point '"'], rfl, .close, fun after => ?_⟩
    rw [List.singleton_append, scan_string.eq_def]
    simp
  | case3 hquote =>
    rw [scan_string.eq_def] at h
    simp [hquote] at h
  | case4 c₁ c₂ c₃ c₄ cs hquote ih =>
    cases hd : hex_escape c₁ c₂ c₃ c₄ with
    | none =>
      rw [scan_string.eq_def] at h
      simp [hquote, hd] at h
    | some d =>
      rw [scan_hex hd] at h
      obtain ⟨⟨units, rest⟩, hscan, heq⟩ := Option.map_eq_some_iff.mp h
      cases heq
      obtain ⟨body, rfl, hbody, hlocal⟩ := ih hscan
      obtain ⟨h₁, h₂, h₃, h₄⟩ := hex_escape_digits hd
      have hfour : Quoted (c₁ :: c₂ :: c₃ :: c₄ :: body) :=
        .plain (hex_digit_ne h₁).1 (hex_digit_ne h₁).2 (.plain (hex_digit_ne h₂).1
          (hex_digit_ne h₂).2 (.plain (hex_digit_ne h₃).1 (hex_digit_ne h₃).2
            (.plain (hex_digit_ne h₄).1 (hex_digit_ne h₄).2 hbody)))
      refine ⟨_, rfl, .escaped hfour, fun after => ?_⟩
      simp only [List.cons_append]
      rw [scan_hex hd, hlocal after, Option.map_some]
  | case5 cs hshort hquote =>
    rw [scan_string.eq_def] at h
    simp [hquote] at h
  | case6 e cs he hquote ih =>
    cases hd : letter_escape e with
    | none =>
      rw [scan_string.eq_def] at h
      simp [hquote, he, hd] at h
    | some d =>
      rw [scan_letter he hd] at h
      obtain ⟨⟨units, rest⟩, hscan, heq⟩ := Option.map_eq_some_iff.mp h
      cases heq
      obtain ⟨body, rfl, hbody, hlocal⟩ := ih hscan
      refine ⟨_, rfl, .escaped hbody, fun after => ?_⟩
      simp only [List.cons_append]
      rw [scan_letter he hd, hlocal after, Option.map_some]
  | case7 c cs hquote hslash hcontrol =>
    rw [scan_string.eq_def] at h
    simp [hquote, hslash, hcontrol] at h
  | case8 c cs hquote hslash hcontrol ih =>
    rw [scan_plain hquote hslash (Nat.not_lt.mp hcontrol)] at h
    obtain ⟨⟨units, rest⟩, hscan, heq⟩ := Option.map_eq_some_iff.mp h
    cases heq
    obtain ⟨body, rfl, hbody, hlocal⟩ := ih hscan
    refine ⟨_, rfl, .plain hquote hslash hbody, fun after => ?_⟩
    rw [List.cons_append, scan_plain hquote hslash (Nat.not_lt.mp hcontrol), hlocal after,
      Option.map_some]

/-- The parser went from one text to the other over whole tokens. -/
def Consumes (cs rest : List CodePoint) : Prop := ∃ text, Tokens text ∧ cs = text ++ rest

variable {cs next rest : List CodePoint}

theorem Consumes.trans (h : Consumes cs next) (h' : Consumes next rest) : Consumes cs rest := by
  obtain ⟨s, hs, rfl⟩ := h
  obtain ⟨t, ht, rfl⟩ := h'
  exact ⟨s ++ t, hs.append ht, by simp⟩

theorem Consumes.length_le (h : Consumes cs rest) : rest.length ≤ cs.length := by
  obtain ⟨s, -, rfl⟩ := h
  simp

theorem Consumes.cons {c : CodePoint} (hquote : c ≠ code_point '"') (hslash : c ≠ code_point '/')
    (h : Consumes cs rest) : Consumes (c :: cs) rest := by
  obtain ⟨s, hs, rfl⟩ := h
  exact ⟨c :: s, .plain hquote hslash hs, rfl⟩

theorem consumes_skip (cs : List CodePoint) : Consumes cs (skip_whitespace cs) := by
  refine ⟨cs.takeWhile whitespace, .of_plain fun c hc => ?_, by simp [skip_whitespace]⟩
  have hblank := List.mem_takeWhile_imp hc
  constructor
  · rintro rfl
    exact absurd hblank (by decide)
  · rintro rfl
    exact absurd hblank (by decide)

theorem expect_eq {c : Char} (h : expect c cs = some rest) : cs = code_point c :: rest := by
  cases cs with
  | nil => simp [expect] at h
  | cons d cs =>
    simp only [expect] at h
    split at h
    next hd => rw [hd, Option.some.inj h]
    next => cases h

/-- A character is read after white space. -/
theorem consumes_expect {c : Char} (hquote : code_point c ≠ code_point '"')
    (hslash : code_point c ≠ code_point '/') (h : expect c (skip_whitespace cs) = some rest) :
    Consumes cs rest := by
  have hcons : Consumes (skip_whitespace cs) rest := by
    rw [expect_eq h]
    exact .cons hquote hslash ⟨[], .nil, rfl⟩
  exact (consumes_skip cs).trans hcons

theorem consumes_string {s : List CodePoint} (h : string cs = some (s, rest)) :
    Consumes (code_point '"' :: cs) rest ∧ rest.length ≤ cs.length := by
  obtain ⟨⟨units, rest'⟩, hscan, heq⟩ := Option.map_eq_some_iff.mp h
  cases heq
  obtain ⟨body, rfl, hbody, -⟩ := scan_string_consumes hscan
  exact ⟨⟨code_point '"' :: (body ++ []), .string hbody .nil, by simp⟩, by simp⟩

/-- The characters of a numeral are digits, signs, the point and the mark of the exponent. -/
theorem Numeral.Valid.mem_render {n : Numeral} (h : n.Valid) {c : CodePoint} (hc : c ∈ n.render) :
    digit c = true ∨ c ∈ code_points "+-.eE" := by
  have hmarks : code_points "+-.eE" =
      [code_point '+', code_point '-', code_point '.', code_point 'e', code_point 'E'] := by decide
  rw [hmarks]
  simp only [Numeral.render, List.mem_append] at hc
  rcases hc with ((hsign | hwhole) | hfraction) | hexponent
  · cases hneg : n.negative <;> simp [Numeral.sign, hneg] at hsign
    simp [hsign]
  · exact .inl (h.whole c hwhole)
  · unfold Numeral.render_fraction at hfraction
    split at hfraction
    · cases hfraction
    · rcases List.mem_cons.mp hfraction with rfl | hdigit
      · simp
      · exact .inl (h.fraction c hdigit)
  · cases he : n.exponent with
    | none => simp [Numeral.render_exponent, he] at hexponent
    | some e =>
      have hvalid := h.exponent e he
      simp only [Numeral.render_exponent, he, Option.elim, Exponent.render, List.mem_cons,
        List.mem_append] at hexponent
      rcases hexponent with rfl | hsign | hdigit
      · rcases hvalid.mark with hm | hm <;> simp [hm]
      · rcases hvalid.sign with hs | hs | hs <;> simp [hs] at hsign <;> simp [hsign]
      · exact .inl (hvalid.digits c hdigit)

theorem Numeral.Valid.tokens {n : Numeral} (h : n.Valid) : Tokens n.render := by
  apply Tokens.of_plain
  intro c hc
  rcases h.mem_render hc with hdigit | hmark
  · exact ⟨digit_ne hdigit (by decide), digit_ne hdigit (by decide)⟩
  · have hall : (code_points "+-.eE").all
        (fun c => c ≠ code_point '"' ∧ c ≠ code_point '/') = true := by decide
    simpa using List.all_eq_true.mp hall c hmark

variable {read : List CodePoint → Rat} {v : Json}

theorem constants_tokens (read : List CodePoint → Rat) {e : String × Json}
    (h : e ∈ constants read) : Tokens (code_points e.1) ∧ code_points e.1 ≠ [] := by
  have hname : e.1 ∈ (constants read).map Prod.fst := List.mem_map_of_mem h
  have hall : ∀ name ∈ ["null", "true", "false", "NaN", "Infinity", "-Infinity"],
      (code_points name).any (fun c => c = code_point '"' || c = code_point '/') = false ∧
        code_points name ≠ [] := by
    decide
  obtain ⟨hplain, hne⟩ := hall e.1 hname
  constructor
  · refine .of_plain fun c hc => ?_
    simpa using List.any_eq_false.mp hplain c hc
  · exact hne

theorem consumes_atom (h : atom read cs = some (v, rest)) :
    Consumes cs rest ∧ rest.length < cs.length := by
  rw [atom, Option.or_eq_some_iff] at h
  rcases h with h | ⟨-, h⟩
  · obtain ⟨⟨name, w⟩, he, hliteral⟩ := List.exists_of_findSome?_eq_some h
    obtain ⟨htokens, hne⟩ := constants_tokens read he
    simp only [literal] at hliteral
    split at hliteral
    next hstart =>
      obtain ⟨tail, rfl⟩ := hstart
      have hlen : name.length = (code_points name).length := by
        simp [code_points, String.length_toList]
      rw [hlen, List.drop_left] at hliteral
      cases hliteral
      refine ⟨⟨_, htokens, rfl⟩, ?_⟩
      simpa using List.length_pos_iff.mpr hne
    next => cases hliteral
  · obtain ⟨⟨n, tail⟩, hscan, heq⟩ := Option.map_eq_some_iff.mp h
    cases heq
    obtain ⟨hn, rfl⟩ := scan_numeral_spec hscan
    refine ⟨⟨_, hn.tokens, rfl⟩, ?_⟩
    obtain ⟨d, ds, -, hr | hr⟩ := hn.render_cons
    · simp [hr]
    · simp [hr]
      omega

mutual

theorem value_consumes : ∀ (fuel : Nat) {cs rest : List CodePoint} {v : Json},
    value read fuel cs = some (v, rest) → Consumes cs rest ∧ rest.length < cs.length
  | 0, _, _, _, h => by simp [value] at h
  | _ + 1, [], _, _, h => by simp [value] at h
  | fuel + 1, c :: cs, rest, v, h => by
    rw [value] at h
    split at h
    next hc =>
      obtain ⟨⟨s, tail⟩, hstring, heq⟩ := Option.map_eq_some_iff.mp h
      cases heq
      obtain ⟨hs, hlen⟩ := consumes_string hstring
      rw [hc]
      exact ⟨hs, by simp; omega⟩
    split at h
    next hc =>
      rw [hc]
      split at h
      next hclose =>
        cases h
        have hs := consumes_expect (by decide) (by decide) hclose
        exact ⟨.cons (by decide) (by decide) hs, Nat.lt_succ_of_le hs.length_le⟩
      next =>
        obtain ⟨⟨pairs, tail⟩, hmembers, heq⟩ := Option.map_eq_some_iff.mp h
        cases heq
        have hs := (consumes_skip cs).trans (members_consumes fuel hmembers).1
        exact ⟨.cons (by decide) (by decide) hs, Nat.lt_succ_of_le hs.length_le⟩
    split at h
    next hc =>
      rw [hc]
      split at h
      next hclose =>
        cases h
        have hs := consumes_expect (by decide) (by decide) hclose
        exact ⟨.cons (by decide) (by decide) hs, Nat.lt_succ_of_le hs.length_le⟩
      next =>
        obtain ⟨⟨values, tail⟩, hitems, heq⟩ := Option.map_eq_some_iff.mp h
        cases heq
        have hs := (consumes_skip cs).trans (items_consumes fuel hitems).1
        exact ⟨.cons (by decide) (by decide) hs, Nat.lt_succ_of_le hs.length_le⟩
    next => exact consumes_atom h

theorem items_consumes : ∀ (fuel : Nat) {cs rest : List CodePoint} {vs : List Json},
    items read fuel cs = some (vs, rest) → Consumes cs rest ∧ rest.length < cs.length
  | 0, _, _, _, h => by simp [items] at h
  | fuel + 1, cs, rest, vs, h => by
    rw [items, Option.bind_eq_bind, Option.bind_eq_some_iff] at h
    obtain ⟨⟨v, next⟩, hvalue, h⟩ := h
    obtain ⟨hv, hlen⟩ := value_consumes fuel hvalue
    simp only at h
    split at h
    next rest' hclose => 
      cases h
      have hc := consumes_expect (by decide) (by decide) hclose
      exact ⟨hv.trans hc, Nat.lt_of_le_of_lt hc.length_le hlen⟩
    next =>
      simp only [Option.bind_eq_bind, Option.bind_eq_some_iff] at h
      obtain ⟨next', hcomma, ⟨values, rest'⟩, hitems, h⟩ := h
      cases h
      have hc := consumes_expect (by decide) (by decide) hcomma
      have hrest := items_consumes fuel hitems
      have hall := (hc.trans (consumes_skip next')).trans hrest.1
      exact ⟨hv.trans hall, Nat.lt_of_le_of_lt hall.length_le hlen⟩

theorem members_consumes : ∀ (fuel : Nat) {cs rest : List CodePoint}
    {pairs : List (List CodePoint × Json)},
    members read fuel cs = some (pairs, rest) → Consumes cs rest ∧ rest.length < cs.length
  | 0, _, _, _, h => by simp [members] at h
  | fuel + 1, cs, rest, vs, h => by
    simp only [members, Option.bind_eq_bind, Option.bind_eq_some_iff] at h
    obtain ⟨inside, hquote, ⟨key, after_key⟩, hkey, after_colon, hcolon, ⟨v, next⟩, hvalue, h⟩ := h
    obtain ⟨hk, hk_len⟩ := consumes_string hkey
    have hcol := consumes_expect (by decide) (by decide) hcolon
    have hv := (consumes_skip after_colon).trans (value_consumes fuel hvalue).1
    have hmember := (hk.trans hcol).trans hv
    have hlen : next.length ≤ after_key.length := (hcol.trans hv).length_le
    rw [expect_eq hquote]
    simp only at h
    split at h
    next rest' hclose =>
      cases h
      have hc := consumes_expect (by decide) (by decide) hclose
      have hc_len := hc.length_le
      exact ⟨hmember.trans hc, by simp; omega⟩
    next =>
      simp only [Option.bind_eq_some_iff] at h
      obtain ⟨next', hcomma, ⟨pairs', rest'⟩, hmembers, h⟩ := h
      cases h
      have hc := consumes_expect (by decide) (by decide) hcomma
      have hall := (hc.trans (consumes_skip next')).trans (members_consumes fuel hmembers).1
      have hall_len := hall.length_le
      exact ⟨hmember.trans hall, by simp; omega⟩

end

mutual

/-- Two rounds a character are enough. -/
theorem value_fuel : ∀ (fuel : Nat) (cs : List CodePoint), 2 * cs.length ≤ fuel →
    value read (fuel + 1) cs = value read fuel cs
  | 0, [], _ => by simp [value]
  | 0, c :: cs, h => by simp at h
  | _ + 1, [], _ => by simp [value]
  | fuel + 1, c :: cs, h => by
    have hskip := (consumes_skip cs).length_le
    rw [List.length_cons] at h
    rw [value, value, items_fuel fuel (skip_whitespace cs) (by omega),
      members_fuel fuel (skip_whitespace cs) (by omega)]

theorem items_fuel : ∀ (fuel : Nat) (cs : List CodePoint), 2 * cs.length + 1 ≤ fuel →
    items read (fuel + 1) cs = items read fuel cs
  | 0, _, h => by omega
  | fuel + 1, cs, h => by
    rw [items, items, value_fuel fuel cs (by omega)]
    cases hvalue : value read fuel cs with
    | none => rfl
    | some r =>
      have hlen := (value_consumes fuel hvalue).2
      cases hclose : expect ']' (skip_whitespace r.2) with
      | some rest => simp [hclose]
      | none =>
        cases hcomma : expect ',' (skip_whitespace r.2) with
        | none => simp [hclose, hcomma]
        | some next =>
          have hc := consumes_expect (by decide) (by decide) hcomma
          have hskip := (hc.trans (consumes_skip next)).length_le
          simp [hclose, hcomma, items_fuel fuel (skip_whitespace next) (by omega)]

theorem members_fuel : ∀ (fuel : Nat) (cs : List CodePoint), 2 * cs.length + 1 ≤ fuel →
    members read (fuel + 1) cs = members read fuel cs
  | 0, _, h => by omega
  | fuel + 1, cs, h => by
    rw [members, members]
    cases hquote : expect '"' cs with
    | none => rfl
    | some inside =>
      rw [expect_eq hquote, List.length_cons] at h
      cases hkey : string inside with
      | none => simp [hkey]
      | some k =>
        have hk := (consumes_string hkey).2
        cases hcolon : expect ':' (skip_whitespace k.2) with
        | none => simp [hkey, hcolon]
        | some after_colon =>
          have hcol := (consumes_expect (by decide) (by decide) hcolon).length_le
          have hspace := (consumes_skip after_colon).length_le
          have hsame := value_fuel fuel (skip_whitespace after_colon) (by omega)
          cases hvalue : value read fuel (skip_whitespace after_colon) with
          | none => simp [hkey, hcolon, hsame, hvalue]
          | some r =>
            have hlen := (value_consumes fuel hvalue).2
            cases hclose : expect '\x7d' (skip_whitespace r.2) with
            | some rest => simp [hkey, hcolon, hsame, hvalue, hclose]
            | none =>
              cases hcomma : expect ',' (skip_whitespace r.2) with
              | none => simp [hkey, hcolon, hsame, hvalue, hclose, hcomma]
              | some next =>
                have hc := consumes_expect (by decide) (by decide) hcomma
                have hskip := (hc.trans (consumes_skip next)).length_le
                simp [hkey, hcolon, hsame, hvalue, hclose, hcomma,
                  members_fuel fuel (skip_whitespace next) (by omega)]

end

theorem value_enough {fuel : Nat} (h : 2 * cs.length ≤ fuel) :
    value read fuel cs = value read (2 * cs.length) cs := by
  induction fuel, h using Nat.le_induction with
  | base => rfl
  | succ fuel h ih => rw [value_fuel fuel cs h, ih]

/-- A text that is loaded consists of tokens. -/
theorem loads_tokens {text : List CodePoint} (h : loads read text = some v) : Tokens text := by
  unfold loads at h
  split at h
  next => cases h
  next =>
    simp only [Option.bind_eq_bind, Option.bind_eq_some_iff] at h
    obtain ⟨⟨w, rest⟩, hvalue, h⟩ := h
    split at h
    next hend =>
      have hrest : Consumes rest [] := hend ▸ consumes_skip rest
      obtain ⟨whole, hwhole, heq⟩ :=
        ((consumes_skip text).trans (value_consumes _ hvalue).1).trans hrest
      rwa [heq, List.append_nil]
    next => cases h

end Consumed

section Objects

variable {read : List CodePoint → Rat} {fuel : Nat} {cs rest : List CodePoint}

theorem atom_no_object {v : Json} (h : atom read cs = some (v, rest)) (d : List (List CodePoint × Json)) :
    v ≠ .object d := by
  rw [atom, Option.or_eq_some_iff] at h
  rcases h with h | ⟨-, h⟩
  · obtain ⟨⟨name, w⟩, he, hliteral⟩ := List.exists_of_findSome?_eq_some h
    simp only [literal] at hliteral
    split at hliteral
    next =>
      cases hliteral
      rintro rfl
      simp [constants] at he
    next => cases hliteral
  · obtain ⟨⟨n, tail⟩, -, heq⟩ := Option.map_eq_some_iff.mp h
    cases heq
    split <;> simp

theorem members_spec {pairs : List (List CodePoint × Json)}
    (h : members read fuel cs = some (pairs, rest)) : pairs ≠ [] ∧ code_point '"' ∈ cs := by
  cases fuel with
  | zero => simp [members] at h
  | succ fuel =>
    simp only [members, Option.bind_eq_bind, Option.bind_eq_some_iff] at h
    obtain ⟨inside, hquote, ⟨key, after_key⟩, -, after_colon, -, ⟨v, next⟩, -, h⟩ := h
    refine ⟨?_, by simp [expect_eq hquote]⟩
    simp only at h
    split at h
    · cases h
      simp
    · simp only [Option.bind_eq_some_iff] at h
      obtain ⟨after_comma, -, ⟨tail, end_of_members⟩, -, heq⟩ := h
      cases heq
      simp

theorem blank_no_quote {blanks : List CodePoint} (h : skip_whitespace blanks = []) :
    code_point '"' ∉ blanks := by
  intro hmem
  have hall := List.dropWhile_eq_nil_iff.mp h _ hmem
  exact absurd hall (by decide)

theorem mem_skip {c : CodePoint} (hc : whitespace c = false) :
    c ∈ skip_whitespace cs ↔ c ∈ cs := by
  constructor
  · exact fun h => (List.dropWhile_suffix _).subset h
  · intro h
    rw [← @List.takeWhile_append_dropWhile _ whitespace cs, List.mem_append] at h
    rcases h with h | h
    · simp [List.mem_takeWhile_imp h] at hc
    · exact h

/-- An object is empty just when it is read without a string. -/
theorem value_object_nil {d : List (List CodePoint × Json)}
    (h : value read fuel cs = some (.object d, rest)) :
    (d = [] ∧ ∃ blanks, cs = code_point '\x7b' :: (blanks ++ code_point '\x7d' :: rest) ∧
      skip_whitespace blanks = []) ∨ (d ≠ [] ∧ code_point '"' ∈ cs) := by
  cases fuel with
  | zero => simp [value] at h
  | succ fuel =>
    cases cs with
    | nil => simp [value] at h
    | cons c cs =>
      rw [value] at h
      split at h
      next => simp at h
      split at h
      next hbrace =>
        split at h
        next tail hclose =>
          cases h
          refine .inl ⟨rfl, cs.takeWhile whitespace, ?_, ?_⟩
          · rw [hbrace, ← expect_eq hclose, skip_whitespace, List.takeWhile_append_dropWhile]
          · exact List.dropWhile_eq_nil_iff.mpr fun d hd => List.mem_takeWhile_imp hd
        next =>
          obtain ⟨⟨pairs, tail⟩, hmembers, heq⟩ := Option.map_eq_some_iff.mp h
          cases heq
          obtain ⟨hne, hmem⟩ := members_spec hmembers
          rw [mem_skip (by decide)] at hmem
          exact .inr ⟨Dict.of_pairs_ne_nil hne, List.mem_cons_of_mem _ hmem⟩
      split at h
      next =>
        split at h
        · cases h
        · simp at h
      next => exact absurd rfl (atom_no_object h d)

/-- An object that is loaded is empty just when its text has no string. -/
theorem loads_object_nil {d : List (List CodePoint × Json)}
    (h : loads read cs = some (.object d)) : d = [] ↔ code_point '"' ∉ cs := by
  have hquote : whitespace (code_point '"') = false := by decide
  unfold loads at h
  split at h
  next => cases h
  next =>
    simp only [Option.bind_eq_bind, Option.bind_eq_some_iff] at h
    obtain ⟨⟨w, rest⟩, hvalue, h⟩ := h
    split at h
    next hend =>
      cases h
      rw [← mem_skip hquote]
      rcases value_object_nil hvalue with ⟨hd, blanks, htext, hblanks⟩ | ⟨hd, hmem⟩
      · have hno : code_point '"' ∉ skip_whitespace cs := by
          rw [htext]
          simp only [List.mem_cons, List.mem_append, not_or]
          exact ⟨by decide, blank_no_quote hblanks, by decide, blank_no_quote hend⟩
        exact iff_of_true hd hno
      · exact iff_of_false hd (not_not.mpr hmem)
    next => cases h

end Objects

end Text
