import NitpickerDaemon.Text.JsonParser

/-!
JSON in ASCII, the default of `json.dumps`: every other character is written as `\uXXXX`, above
U+FFFF as two surrogates.
-/

set_option autoImplicit false

namespace Text

/-- `\uXXXX` -/
def hex4 (n : Nat) : List CodePoint :=
  [code_point '\\', code_point 'u', code_point (Nat.digitChar (n / 4096)),
    code_point (Nat.digitChar (n / 256 % 16)), code_point (Nat.digitChar (n / 16 % 16)),
    code_point (Nat.digitChar (n % 16))]

def high_half (c : CodePoint) : CodePoint := Fin.ofNat 0x110000 (0xD800 + (c.val - 0x10000) / 0x400)

def low_half (c : CodePoint) : CodePoint := Fin.ofNat 0x110000 (0xDC00 + (c.val - 0x10000) % 0x400)

def escape_ascii (c : CodePoint) : List CodePoint :=
  if c.val < 0x7F then escape c
  else if c.val < 0x10000 then hex4 c.val
  else hex4 (high_half c).val ++ hex4 (low_half c).val

/-- What is scanned of an escaped character. -/
def ascii_units (c : CodePoint) : List (Bool × CodePoint) :=
  if c.val < 0x7F then [(hex_escaped c, c)]
  else if c.val < 0x10000 then [(true, c)]
  else [(true, high_half c), (true, low_half c)]

/-- The character of two surrogates. -/
def paired (c d : CodePoint) : CodePoint :=
  Fin.ofNat 0x110000 (0x10000 + (c.val - 0xD800) * 0x400 + (d.val - 0xDC00))

/-- A high surrogate and a low one after it are one character. -/
def join_pairs : List CodePoint → List CodePoint
  | [] => []
  | [c] => [c]
  | c :: d :: s =>
    if high_surrogate c && low_surrogate d then paired c d :: join_pairs s
    else c :: join_pairs (d :: s)

section Scan

theorem hex_digit_char {n : Nat} (h : n < 16) :
    hex_digit (code_point (Nat.digitChar n)) = some n := by
  decide +revert

theorem ofNat_lt {n : Nat} (h : n < 0x110000) : (Fin.ofNat 0x110000 n).val = n := by
  simp only [Fin.ofNat]
  exact Nat.mod_eq_of_lt h

theorem scan_hex4 {n : Nat} (h : n < 0x10000) (cs : List CodePoint) :
    scan_string (hex4 n ++ cs) =
      (scan_string cs).map fun (units, rest) => ((true, Fin.ofNat 0x110000 n) :: units, rest) := by
  have hsum : 4096 * (n / 4096) + 256 * (n / 256 % 16) + 16 * (n / 16 % 16) + n % 16 = n := by omega
  have hhex : hex_escape (code_point (Nat.digitChar (n / 4096)))
      (code_point (Nat.digitChar (n / 256 % 16))) (code_point (Nat.digitChar (n / 16 % 16)))
      (code_point (Nat.digitChar (n % 16))) = some (Fin.ofNat 0x110000 n) := by
    rw [hex_escape, hex_digit_char (by omega), hex_digit_char (by omega),
      hex_digit_char (by omega), hex_digit_char (by omega)]
    simp only [Option.bind_eq_bind, Option.bind_some, hsum, Option.pure_def]
  exact scan_hex hhex cs

theorem high_half_val (c : CodePoint) :
    (high_half c).val = 0xD800 + (c.val - 0x10000) / 0x400 := by
  have hc := c.isLt
  exact ofNat_lt (by omega)

theorem low_half_val (c : CodePoint) :
    (low_half c).val = 0xDC00 + (c.val - 0x10000) % 0x400 := ofNat_lt (by omega)

theorem high_half_high (c : CodePoint) : high_surrogate (high_half c) = true := by
  have hc := c.isLt
  simp only [high_surrogate, high_half_val, Bool.and_eq_true, decide_eq_true_eq]
  omega

theorem low_half_low (c : CodePoint) : low_surrogate (low_half c) = true := by
  simp only [low_surrogate, low_half_val, Bool.and_eq_true, decide_eq_true_eq]
  omega

theorem paired_halves {c : CodePoint} (h : 0x10000 ≤ c.val) :
    paired (high_half c) (low_half c) = c := by
  have hc := c.isLt
  apply Fin.ext
  rw [paired, high_half_val, low_half_val, ofNat_lt (by omega)]
  omega

theorem scan_escape_ascii (c : CodePoint) (cs : List CodePoint) :
    scan_string (escape_ascii c ++ cs) =
      (scan_string cs).map fun (units, rest) => (ascii_units c ++ units, rest) := by
  have hc := c.isLt
  unfold escape_ascii ascii_units
  split
  next => simpa using scan_escape c cs
  split
  next _ h => rw [scan_hex4 h, ofNat_val]; rfl
  next =>
    have hhigh := high_half_val c
    have hlow := low_half_val c
    rw [List.append_assoc, scan_hex4 (by omega), scan_hex4 (by omega), ofNat_val, ofNat_val,
      Option.map_map]
    rfl

theorem scan_escapes_ascii (s rest : List CodePoint) :
    scan_string (s.flatMap escape_ascii ++ code_point '"' :: rest) =
      some (s.flatMap ascii_units, rest) := by
  induction s with
  | nil =>
    rw [scan_string.eq_def]
    simp
  | cons c s ih => simp [scan_escape_ascii, ih]

end Scan

section Join

/-- No pair starts here. -/
theorem join_surrogates_cons {u : Bool × CodePoint} {units : List (Bool × CodePoint)}
    (h : high_surrogate u.2 = true → ∀ v, units.head? = some v → low_surrogate v.2 = false) :
    join_surrogates (u :: units) = u.2 :: join_surrogates units := by
  cases units with
  | nil => simp [join_surrogates]
  | cons v units =>
    have hpair : (u.1 && v.1 && high_surrogate u.2 && low_surrogate v.2) = false := by
      cases hu : high_surrogate u.2 with
      | false => simp
      | true => simp [h hu v rfl]
    simp [join_surrogates, hpair]

theorem join_surrogates_pair {c d : CodePoint} {units : List (Bool × CodePoint)}
    (hc : high_surrogate c = true) (hd : low_surrogate d = true) :
    join_surrogates ((true, c) :: (true, d) :: units) = paired c d :: join_surrogates units := by
  rw [join_surrogates, if_pos (by simp only [hc, hd, Bool.and_self])]
  rfl

/-- The units of a character below U+10000 are itself; a surrogate is written as an escape. -/
theorem ascii_units_small {c : CodePoint} (h : c.val < 0x10000) :
    ∃ b, ascii_units c = [(b, c)] ∧ (0x7F ≤ c.val → b = true) := by
  unfold ascii_units
  split
  next hlt => exact ⟨_, rfl, fun hge => by omega⟩
  next => exact ⟨true, rfl, fun _ => rfl⟩

theorem ascii_units_large {c : CodePoint} (h : 0x10000 ≤ c.val) :
    ascii_units c = [(true, high_half c), (true, low_half c)] := by
  rw [ascii_units, if_neg (by omega), if_neg (by omega)]

theorem ascii_units_head {c : CodePoint} (h : low_surrogate c = false)
    (units : List (Bool × CodePoint)) :
    ∀ v, (ascii_units c ++ units).head? = some v → low_surrogate v.2 = false := by
  intro v hv
  by_cases hsmall : c.val < 0x10000
  · obtain ⟨b, hb, -⟩ := ascii_units_small hsmall
    simp only [hb, List.cons_append, List.head?_cons, Option.some.injEq] at hv
    rw [← hv, h]
  · have hhigh := high_half_high c
    simp only [ascii_units_large (Nat.le_of_not_lt hsmall), List.cons_append, List.head?_cons,
      Option.some.injEq] at hv
    rw [← hv]
    simp only [high_surrogate, low_surrogate, Bool.and_eq_true, decide_eq_true_eq,
      Bool.and_eq_false_iff, decide_eq_false_iff_not] at hhigh ⊢
    omega

theorem join_ascii_cons {c : CodePoint} {units : List (Bool × CodePoint)}
    (h : high_surrogate c = true → ∀ v, units.head? = some v → low_surrogate v.2 = false) :
    join_surrogates (ascii_units c ++ units) = c :: join_surrogates units := by
  by_cases hsmall : c.val < 0x10000
  · obtain ⟨b, hb, -⟩ := ascii_units_small hsmall
    rw [hb, List.singleton_append, join_surrogates_cons h]
  · have hlarge := Nat.le_of_not_lt hsmall
    rw [ascii_units_large hlarge, List.cons_append, List.singleton_append,
      join_surrogates_pair (high_half_high c) (low_half_low c), paired_halves hlarge]

theorem join_ascii (s : List CodePoint) :
    join_surrogates (s.flatMap ascii_units) = join_pairs s := by
  induction s using join_pairs.induct with
  | case1 => simp [join_surrogates, join_pairs]
  | case2 c =>
    have hjoin := @join_ascii_cons c [] (by simp)
    simpa [join_surrogates, join_pairs] using hjoin
  | case3 c d s hpair ih =>
    rw [Bool.and_eq_true] at hpair
    have hbounds := hpair
    simp only [high_surrogate, low_surrogate, Bool.and_eq_true, decide_eq_true_eq] at hbounds
    obtain ⟨b, hb, hbtrue⟩ := ascii_units_small (c := c) (by omega)
    obtain ⟨b', hb', hbtrue'⟩ := ascii_units_small (c := d) (by omega)
    rw [List.flatMap_cons, List.flatMap_cons, hb, hb', hbtrue (by omega), hbtrue' (by omega),
      List.singleton_append, List.singleton_append, join_surrogates_pair hpair.1 hpair.2, ih]
    simp [join_pairs, hpair]
  | case4 c d s hpair ih =>
    rw [List.flatMap_cons, join_ascii_cons, ih]
    · simp [join_pairs, hpair]
    · intro hhigh
      rw [List.flatMap_cons]
      apply ascii_units_head
      cases hlow : low_surrogate d with
      | false => rfl
      | true => exact absurd (by simp [hhigh, hlow]) hpair

end Join

/-- `ensure_ascii=True` -/
def Spelling.ascii : Spelling where
  escape := escape_ascii
  reread := join_pairs
  string_escapes := fun s rest => by
    rw [string, scan_escapes_ascii, Option.map_some]
    exact congrArg (fun t => some (t, rest)) (join_ascii s)

/-- No high surrogate is followed by a low one. -/
def Unpaired (s : List CodePoint) : Prop :=
  List.IsChain (fun c d => (high_surrogate c && low_surrogate d) = false) s

theorem join_unpaired {s : List CodePoint} (h : Unpaired s) : join_pairs s = s := by
  induction s using join_pairs.induct with
  | case1 => rfl
  | case2 c => rfl
  | case3 c d s hpair _ =>
    rw [Unpaired, List.isChain_cons_cons] at h
    rw [h.1] at hpair
    cases hpair
  | case4 c d s hpair ih =>
    rw [Unpaired, List.isChain_cons_cons] at h
    rw [join_pairs, if_neg hpair, ih h.2]

/-- A printable ASCII character. -/
def Printable (c : CodePoint) : Prop := 0x20 ≤ c.val ∧ c.val ≤ 0x7E

instance (c : CodePoint) : Decidable (Printable c) := inferInstanceAs (Decidable (_ ∧ _))

section Printable

variable {floats : Floats}

theorem printable_code_points {s : String}
    (h : (s.toList.all fun c => 0x20 ≤ c.toNat && c.toNat ≤ 0x7E) = true) :
    ∀ c ∈ code_points s, Printable c := by
  intro c hc
  obtain ⟨d, hd, rfl⟩ := List.mem_map.mp hc
  simpa [Printable, code_point_val] using List.all_eq_true.mp h d hd

theorem printable_digit {n : Nat} (h : n < 16) : Printable (code_point (Nat.digitChar n)) := by
  decide +revert

theorem printable_hex4 {n : Nat} (h : n < 0x10000) : ∀ c ∈ hex4 n, Printable c := by
  simp only [hex4, List.forall_mem_cons, List.not_mem_nil, false_implies, implies_true, and_true]
  exact ⟨by decide, by decide, printable_digit (by omega), printable_digit (by omega),
    printable_digit (by omega), printable_digit (by omega)⟩

theorem printable_escape {c : CodePoint} (h : c.val < 0x7F) : ∀ d ∈ escape c, Printable d := by
  unfold escape
  split
  next => exact printable_code_points (by decide)
  split
  next => exact printable_code_points (by decide)
  split
  next => exact printable_code_points (by decide)
  split
  next => exact printable_code_points (by decide)
  split
  next => exact printable_code_points (by decide)
  split
  next => exact printable_code_points (by decide)
  split
  next => exact printable_code_points (by decide)
  split
  next hcontrol =>
    intro d hd
    simp only [code_points, String.toList_ofList, List.map_append, List.map_cons, List.map_nil,
      List.mem_append, List.mem_cons, List.not_mem_nil, or_false] at hd
    rcases hd with hd | rfl | rfl
    · exact printable_code_points (s := "\\u00") (by decide) d hd
    · exact printable_digit (by omega)
    · exact printable_digit (by omega)
  next hspace =>
    intro d hd
    rw [List.mem_singleton] at hd
    rw [hd]
    exact ⟨by omega, by omega⟩

theorem printable_escape_ascii (c : CodePoint) : ∀ d ∈ escape_ascii c, Printable d := by
  have hc := c.isLt
  unfold escape_ascii
  split
  next h => exact printable_escape h
  split
  next h => exact printable_hex4 h
  next =>
    have hhigh := high_half_val c
    have hlow := low_half_val c
    intro d hd
    rcases List.mem_append.mp hd with hd | hd
    · exact printable_hex4 (by omega) d hd
    · exact printable_hex4 (by omega) d hd

theorem printable_numeral {n : Numeral} (h : n.Valid) : ∀ c ∈ n.render, Printable c := by
  intro c hc
  rcases h.mem_render hc with hdigit | hmark
  · rw [digit_iff] at hdigit
    exact ⟨by omega, by omega⟩
  · exact printable_code_points (by decide) c hmark

theorem printable_quote (s : List CodePoint) : ∀ c ∈ Spelling.ascii.quote s, Printable c := by
  have hmark : ∀ c ∈ code_points "\"", Printable c := printable_code_points (by decide)
  intro c hc
  simp only [Spelling.quote, List.mem_append] at hc
  rcases hc with (hc | hc) | hc
  · exact hmark c hc
  · obtain ⟨d, -, hd⟩ := List.mem_flatMap.mp hc
    exact printable_escape_ascii d c hd
  · exact hmark c hc

theorem printable_listed {parts : List (List CodePoint)}
    (h : ∀ part ∈ parts, ∀ c ∈ part, Printable c) : ∀ c ∈ listed parts, Printable c := by
  have hcomma : Printable (code_point ',') := by decide
  have hblank : Printable (code_point ' ') := by decide
  induction parts with
  | nil => simp [listed]
  | cons part parts ih =>
    have hpart := h part List.mem_cons_self
    have ih := ih fun p hp => h p (List.mem_cons_of_mem _ hp)
    cases parts with
    | nil => simpa [listed_singleton] using hpart
    | cons next parts =>
      intro c hc
      rw [listed_cons] at hc
      simp only [List.mem_append, List.mem_cons] at hc
      rcases hc with hc | rfl | rfl | hc
      · exact hpart c hc
      · exact hcomma
      · exact hblank
      · exact ih c hc

/-- A text between two marks. -/
theorem printable_between {left right text : List CodePoint} (hleft : ∀ c ∈ left, Printable c)
    (htext : ∀ c ∈ text, Printable c) (hright : ∀ c ∈ right, Printable c) :
    ∀ c ∈ left ++ text ++ right, Printable c := by
  intro c hc
  rcases List.mem_append.mp hc with hc | hc
  · rcases List.mem_append.mp hc with hc | hc
    · exact hleft c hc
    · exact htext c hc
  · exact hright c hc

mutual

theorem printable_dumps : ∀ v : Json, v.Doubles floats →
    ∀ c ∈ Spelling.ascii.dumps floats.repr v, Printable c
  | .null, _ => printable_code_points (by decide)
  | .bool true, _ => printable_code_points (by decide)
  | .bool false, _ => printable_code_points (by decide)
  | .int n, _ => by
    rw [Spelling.dumps, ← Numeral.render_of_int]
    exact printable_numeral (Numeral.valid_of_int n)
  | .float q, h => by
    obtain ⟨n, hn, -, htext, -⟩ := floats.repr_float q h
    rw [Spelling.dumps, htext]
    exact printable_numeral hn
  | .str s, _ => printable_quote s
  | .array items, h =>
    printable_between (printable_code_points (by decide))
      (printable_listed (printable_items items h)) (printable_code_points (by decide))
  | .object members, h =>
    printable_between (printable_code_points (by decide))
      (printable_listed (printable_members members h)) (printable_code_points (by decide))

theorem printable_items : ∀ items : List Json, Json.Doubles_items floats items →
    ∀ part ∈ Spelling.ascii.dumps_items floats.repr items, ∀ c ∈ part, Printable c
  | [], _ => by simp [Spelling.dumps_items]
  | item :: items, h => by
    rw [Spelling.dumps_items, List.forall_mem_cons]
    exact ⟨printable_dumps item h.1, printable_items items h.2⟩

theorem printable_members : ∀ members : List (List CodePoint × Json),
    Json.Doubles_members floats members →
      ∀ part ∈ Spelling.ascii.dumps_members floats.repr members, ∀ c ∈ part, Printable c
  | [], _ => by simp [Spelling.dumps_members]
  | (key, value) :: members, h => by
    rw [Spelling.dumps_members, List.forall_mem_cons]
    exact ⟨printable_between (printable_quote key) (printable_code_points (by decide))
      (printable_dumps value h.1),
      printable_members members h.2⟩

end

end Printable

/-- The text of code points that are no surrogates. -/
def text_of (s : List CodePoint) : String := String.ofList (s.map fun c => Char.ofNat c.val)

theorem code_point_ofNat {c : CodePoint} (h : c.val < 0xD800) :
    code_point (Char.ofNat c.val) = c := by
  have hvalid : c.val.isValidChar := .inl (by omega)
  apply Fin.ext
  rw [code_point_val, Char.ofNat, dif_pos hvalid]
  rfl

theorem code_points_text_of {s : List CodePoint} (h : ∀ c ∈ s, c.val < 0xD800) :
    code_points (text_of s) = s := by
  rw [code_points, text_of, String.toList_ofList, List.map_map]
  conv_rhs => rw [← List.map_id s]
  apply List.map_congr_left
  intro c hc
  exact code_point_ofNat (h c hc)

end Text
