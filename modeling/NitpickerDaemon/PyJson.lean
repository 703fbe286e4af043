import NitpickerDaemon.PyValue
import NitpickerDaemon.Text.JsonAscii
import NitpickerDaemon.Text.JsonParser
import NitpickerDaemon.Text.Utf8

/-!
Python values as JSON, and the texts of the wire.
-/

set_option autoImplicit false

namespace Nitpicker

open Text

section Texts

theorem code_points_text_of_clean {s : List CodePoint} (h : Text.Clean s) :
    code_points (text_of s) = s := by
  rw [code_points, text_of, String.toList_ofList, List.map_map]
  conv_rhs => rw [← List.map_id s]
  apply List.map_congr_left
  intro c hc
  have hc := h c hc
  have hlt := c.isLt
  simp only [surrogate, Bool.and_eq_false_iff, decide_eq_false_iff_not] at hc
  have hvalid : c.val.isValidChar := by
    unfold Nat.isValidChar
    omega
  apply Fin.ext
  rw [Function.comp_apply, code_point_val, Char.ofNat, dif_pos hvalid]
  rfl

@[simp] theorem text_of_code_points (s : String) : text_of (code_points s) = s := by
  rw [text_of, code_points, List.map_map]
  have hid : ((fun c : CodePoint => Char.ofNat c.val) ∘ code_point) = id := by
    funext c
    rw [Function.comp_apply, code_point_val]
    exact Char.ofNat_toNat c
  rw [hid, List.map_id, String.ofList_toList]

theorem code_points_inj {s t : String} (h : code_points s = code_points t) : s = t := by
  rw [← text_of_code_points s, h, text_of_code_points]

/-- `bs.decode("utf-8")`: only what is the encoding of a text is decoded. -/
def decode_utf8 (bs : List UInt8) : Option (List CodePoint) :=
  if encode (decode_replace bs) = some bs then some (decode_replace bs) else none

theorem decode_utf8_encode {s : List CodePoint} {bs : List UInt8} (h : encode s = some bs) :
    decode_utf8 bs = some s := by
  rw [decode_utf8, decode_encode h, if_pos h]

end Texts

section Values

mutual

/-- The Python value of a JSON value, unless a string in it has a lone surrogate. -/
def py_of_json : Json → Option PyVal
  | .null => some .none
  | .bool b => some (.bool b)
  | .int n => some (.int n)
  | .float q => some (.float q)
  | .str s => if code_points (text_of s) = s then some (.str (text_of s)) else none
  | .array items => (py_items items).map .list
  | .object members => (py_members members).map .dict

def py_items : List Json → Option (List PyVal)
  | [] => some []
  | item :: items => do
    let x ← py_of_json item
    let xs ← py_items items
    return x :: xs

def py_members : List (List CodePoint × Json) → Option PyDict
  | [] => some []
  | (key, value) :: members => do
    let x ← py_of_json value
    let kvs ← py_members members
    if code_points (text_of key) = key then some ((text_of key, x) :: kvs) else none

end

mutual

/-- The value `json.dumps` makes of a Python value, when it takes it. -/
def PyVal.json : PyVal → Option Json
  | .none => some .null
  | .bool b => some (.bool b)
  | .int n => some (.int n)
  | .float q => some (.float q)
  | .str s => some (.str (code_points s))
  | .list xs => (json_items xs).map .array
  | .dict kvs => (json_members kvs).map .object
  | .object _ => none

def json_items : List PyVal → Option (List Json)
  | [] => some []
  | x :: xs => do
    let x ← x.json
    let xs ← json_items xs
    return x :: xs

def json_members : List (String × PyVal) → Option (List (List CodePoint × Json))
  | [] => some []
  | (key, x) :: kvs => do
    let x ← x.json
    let kvs ← json_members kvs
    return (code_points key, x) :: kvs

end

mutual

theorem json_scalar : ∀ {x : PyVal} {v : Json}, x.json = some v → v.Scalar
  | .none, _, h => by cases h; trivial
  | .bool _, _, h => by cases h; trivial
  | .int _, _, h => by cases h; trivial
  | .float _, _, h => by cases h; trivial
  | .str s, _, h => by cases h; exact clean_code_points s
  | .list xs, _, h => by
    obtain ⟨items, hitems, rfl⟩ := Option.map_eq_some_iff.mp h
    exact json_items_scalar hitems
  | .dict kvs, _, h => by
    obtain ⟨members, hmembers, rfl⟩ := Option.map_eq_some_iff.mp h
    exact json_members_scalar hmembers
  | .object _, _, h => by cases h

theorem json_items_scalar : ∀ {xs : List PyVal} {items : List Json},
    json_items xs = some items → Json.Scalar_items items
  | [], _, h => by cases h; trivial
  | x :: xs, _, h => by
    simp only [json_items, Option.bind_eq_bind, Option.bind_eq_some_iff, Option.pure_def] at h
    obtain ⟨v, hv, items, hitems, heq⟩ := h
    cases heq
    exact ⟨json_scalar hv, json_items_scalar hitems⟩

theorem json_members_scalar : ∀ {kvs : List (String × PyVal)} {members : List (List CodePoint × Json)},
    json_members kvs = some members → Json.Scalar_members members
  | [], _, h => by cases h; trivial
  | (key, x) :: kvs, _, h => by
    simp only [json_members, Option.bind_eq_bind, Option.bind_eq_some_iff, Option.pure_def] at h
    obtain ⟨v, hv, members, hmembers, heq⟩ := h
    cases heq
    exact ⟨clean_code_points key, json_scalar hv, json_members_scalar hmembers⟩

end

mutual

/-- What was read off a JSON value is dumped as that value. -/
theorem json_py : ∀ {v : Json} {x : PyVal}, py_of_json v = some x → x.json = some v
  | .null, _, h => by cases h; rfl
  | .bool _, _, h => by cases h; rfl
  | .int _, _, h => by cases h; rfl
  | .float _, _, h => by cases h; rfl
  | .str s, _, h => by
    simp only [py_of_json, Option.ite_none_right_eq_some, Option.some.injEq] at h
    obtain ⟨hclean, rfl⟩ := h
    rw [PyVal.json, hclean]
  | .array items, _, h => by
    obtain ⟨xs, hxs, rfl⟩ := Option.map_eq_some_iff.mp h
    rw [PyVal.json, json_py_items hxs, Option.map_some]
  | .object members, _, h => by
    obtain ⟨kvs, hkvs, rfl⟩ := Option.map_eq_some_iff.mp h
    rw [PyVal.json, json_py_members hkvs, Option.map_some]

theorem json_py_items : ∀ {items : List Json} {xs : List PyVal},
    py_items items = some xs → json_items xs = some items
  | [], _, h => by cases h; rfl
  | item :: items, _, h => by
    simp only [py_items, Option.bind_eq_bind, Option.bind_eq_some_iff, Option.pure_def] at h
    obtain ⟨x, hx, xs, hxs, heq⟩ := h
    cases heq
    simp [json_items, json_py hx, json_py_items hxs]

theorem json_py_members : ∀ {members : List (List CodePoint × Json)} {kvs : PyDict},
    py_members members = some kvs → json_members kvs = some members
  | [], _, h => by cases h; rfl
  | (key, value) :: members, _, h => by
    simp only [py_members, Option.bind_eq_bind, Option.bind_eq_some_iff,
      Option.ite_none_right_eq_some] at h
    obtain ⟨x, hx, kvs, hkvs, hclean, heq⟩ := h
    cases heq
    simp [json_members, json_py hx, json_py_members hkvs, hclean]

end

/-- A key is looked up in the dict as in the JSON object. -/
theorem json_lookup {kvs : PyDict} {members : List (List CodePoint × Json)}
    (h : json_members kvs = some members) (key : String) :
    members.lookup (code_points key) = (kvs.lookup key).bind PyVal.json := by
  induction kvs generalizing members with
  | nil =>
    cases h
    rfl
  | cons kv kvs ih =>
    obtain ⟨key', x⟩ := kv
    simp only [json_members, Option.bind_eq_bind, Option.bind_eq_some_iff, Option.pure_def] at h
    obtain ⟨v, hv, rest, hrest, heq⟩ := h
    cases heq
    by_cases hkey : key = key'
    · simp [hkey, hv]
    · have hne : (code_points key == code_points key') = false := by
        simpa using fun heq => hkey (code_points_inj heq)
      have hne' : (key == key') = false := by simpa using hkey
      rw [List.lookup_cons, List.lookup_cons, hne, hne', ih hrest]

/-- Every value of a dict that is dumped has a JSON value. -/
theorem json_of_lookup {kvs : PyDict} {members : List (List CodePoint × Json)}
    (h : json_members kvs = some members) {key : String} {x : PyVal}
    (hx : kvs.lookup key = some x) : ∃ v, x.json = some v := by
  induction kvs generalizing members with
  | nil => cases hx
  | cons kv kvs ih =>
    obtain ⟨key', y⟩ := kv
    simp only [json_members, Option.bind_eq_bind, Option.bind_eq_some_iff] at h
    obtain ⟨v, hv, rest, hrest, -⟩ := h
    rw [List.lookup_cons] at hx
    split at hx
    · cases hx
      exact ⟨v, hv⟩
    · exact ih hrest hx

theorem eq_none_of_json {x : PyVal} (h : x.json = some .null) : x = .none := by
  cases x with
  | none => rfl
  | list xs =>
    obtain ⟨items, -, heq⟩ := Option.map_eq_some_iff.mp h
    cases heq
  | dict kvs =>
    obtain ⟨members, -, heq⟩ := Option.map_eq_some_iff.mp h
    cases heq
  | _ => cases h

end Values

end Nitpicker
