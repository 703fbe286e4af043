import NitpickerDaemon.Text.Json

/-!
The numbers of JSON: `-?(0|[1-9][0-9]*)(\.[0-9]+)?([eE][+-]?[0-9]+)?`.
-/

set_option autoImplicit false

namespace Text

def digit (c : CodePoint) : Bool := 48 ≤ c.val && c.val ≤ 57

theorem digit_iff {c : CodePoint} : digit c = true ↔ 48 ≤ c.val ∧ c.val ≤ 57 := by
  simp only [digit, Bool.and_eq_true, decide_eq_true_eq]

/-- The number that decimal digits write. -/
def nat_of_digits (cs : List CodePoint) : Nat := cs.foldl (fun n c => 10 * n + (c.val - 48)) 0

/-- The decimal digits of a number. -/
def digits_of (n : Nat) : List CodePoint := code_points (toString n)

theorem digits_of_eq (n : Nat) : digits_of n = (Nat.toDigits 10 n).map code_point := by
  simp [digits_of, code_points, Nat.toString_eq_repr]

theorem code_point_val (c : Char) : (code_point c).val = c.toNat := rfl

theorem code_point_inj {c d : Char} : code_point c = code_point d ↔ c = d := by
  rw [Fin.ext_iff, code_point_val, code_point_val, Char.toNat_inj]

theorem digit_code_point {c : Char} (h : c.isDigit = true) : digit (code_point c) = true := by
  simp only [Char.isDigit, Bool.and_eq_true, decide_eq_true_eq, ge_iff_le, UInt32.le_iff_toNat_le]
    at h
  rw [digit_iff]
  exact h

theorem digit_of_mem {n : Nat} {c : CodePoint} (h : c ∈ digits_of n) : digit c = true := by
  rw [digits_of_eq] at h
  obtain ⟨d, hd, rfl⟩ := List.mem_map.mp h
  exact digit_code_point (Nat.isDigit_of_mem_toDigits (by decide) (by decide) hd)

theorem digits_of_ne_nil (n : Nat) : digits_of n ≠ [] := by
  simp [digits_of_eq, Nat.toDigits_ne_nil]

theorem foldl_digits (cs : List Char) (n : Nat) :
    (cs.map code_point).foldl (fun n c => 10 * n + (c.val - 48)) n =
      cs.foldl (fun n c => 10 * n + (c.toNat - '0'.toNat)) n := by
  induction cs generalizing n with
  | nil => simp
  | cons c cs ih => simp [ih, code_point_val]

@[simp] theorem nat_of_digits_of (n : Nat) : nat_of_digits (digits_of n) = n := by
  have h := Nat.ofDigitChars_ten_toDigits (n := n)
  rw [Nat.ofDigitChars] at h
  rw [digits_of_eq, nat_of_digits, foldl_digits]
  exact h

theorem toDigits_head {n : Nat} (h : 0 < n) : (Nat.toDigits 10 n).head? ≠ some '0' := by
  induction n using Nat.strong_induction_on with
  | _ n ih =>
    by_cases hn : n < 10
    · rw [Nat.toDigits_of_lt_base hn]
      simp
      omega
    · have hhigh := ih (n / 10) (by omega) (by omega)
      rw [Nat.toDigits_of_base_le (by decide) (by omega), List.head?_append]
      cases hd : (Nat.toDigits 10 (n / 10)).head? with
      | none => exact absurd (List.head?_eq_none_iff.mp hd) Nat.toDigits_ne_nil
      | some c => simpa [hd] using hhigh

/-- `[eE][+-]?[0-9]+` -/
structure Exponent where
  mark : CodePoint
  sign : List CodePoint
  digits : List CodePoint

def Exponent.render (e : Exponent) : List CodePoint := e.mark :: (e.sign ++ e.digits)

structure Exponent.Valid (e : Exponent) : Prop where
  mark : e.mark = code_point 'e' ∨ e.mark = code_point 'E'
  sign : e.sign = [] ∨ e.sign = [code_point '+'] ∨ e.sign = [code_point '-']
  digits : ∀ c ∈ e.digits, digit c = true
  digits_ne_nil : e.digits ≠ []

/-- A number as it is written: the digits before the point, those after it, the exponent. -/
structure Numeral where
  negative : Bool
  whole : List CodePoint
  fraction : List CodePoint
  exponent : Option Exponent

namespace Numeral

def sign (n : Numeral) : List CodePoint := if n.negative then [code_point '-'] else []

def render_fraction (fraction : List CodePoint) : List CodePoint :=
  if fraction = [] then [] else code_point '.' :: fraction

def render_exponent (exponent : Option Exponent) : List CodePoint :=
  exponent.elim [] Exponent.render

def render (n : Numeral) : List CodePoint :=
  n.sign ++ n.whole ++ render_fraction n.fraction ++ render_exponent n.exponent

structure Valid (n : Numeral) : Prop where
  whole : ∀ c ∈ n.whole, digit c = true
  whole_ne_nil : n.whole ≠ []
  no_leading_zero : n.whole = [code_point '0'] ∨ n.whole.head? ≠ some (code_point '0')
  fraction : ∀ c ∈ n.fraction, digit c = true
  exponent : ∀ e ∈ n.exponent, e.Valid

/-- An integer, in contrast to a float. -/
def is_int (n : Numeral) : Bool := n.fraction.isEmpty && n.exponent.isNone

def to_int (n : Numeral) : Int :=
  if n.negative then -(nat_of_digits n.whole : Int) else nat_of_digits n.whole

/-- The numeral `int.__repr__` writes. -/
def of_int (n : Int) : Numeral := ⟨decide (n < 0), digits_of n.natAbs, [], none⟩

@[simp] theorem to_int_of_int (n : Int) : (of_int n).to_int = n := by
  simp only [to_int, of_int, nat_of_digits_of, decide_eq_true_eq]
  split <;> omega

theorem render_of_int (n : Int) : (of_int n).render = code_points (toString n) := by
  cases n with
  | ofNat m => simp [of_int, render, sign, render_fraction, render_exponent, digits_of]; rfl
  | negSucc m =>
    simp [of_int, render, sign, render_fraction, render_exponent, digits_of, Int.toString_eq_repr,
      Int.repr, code_points]

theorem valid_of_int (n : Int) : (of_int n).Valid where
  whole c hc := digit_of_mem hc
  whole_ne_nil := digits_of_ne_nil _
  no_leading_zero := by
    by_cases h : n.natAbs = 0
    · simp [of_int, h]; decide
    · right
      have hhead := toDigits_head (n := n.natAbs) (by omega)
      simp only [of_int, digits_of_eq, List.head?_map]
      cases hd : (Nat.toDigits 10 n.natAbs).head? with
      | none => simp
      | some c =>
        rw [hd] at hhead
        simpa [code_point_inj] using hhead
  fraction := by simp [of_int]
  exponent := by simp [of_int]

end Numeral

/-- One of some signs, when the text starts with it. -/
def scan_sign (signs : List CodePoint) : List CodePoint → List CodePoint × List CodePoint
  | [] => ([], [])
  | c :: cs => if c ∈ signs then ([c], cs) else ([], c :: cs)

def scan_whole : List CodePoint → List CodePoint × List CodePoint
  | [] => ([], [])
  | c :: cs =>
    if c = code_point '0' then ([c], cs)
    else ((c :: cs).takeWhile digit, (c :: cs).dropWhile digit)

def scan_fraction : List CodePoint → List CodePoint × List CodePoint
  | [] => ([], [])
  | c :: cs =>
    if c = code_point '.' ∧ cs.takeWhile digit ≠ [] then (cs.takeWhile digit, cs.dropWhile digit)
    else ([], c :: cs)

def scan_exponent : List CodePoint → Option Exponent × List CodePoint
  | [] => (none, [])
  | c :: cs =>
    let (sign, rest) := scan_sign [code_point '+', code_point '-'] cs
    let digits := rest.takeWhile digit
    if (c = code_point 'e' ∨ c = code_point 'E') ∧ digits ≠ [] then
      (some ⟨c, sign, digits⟩, rest.dropWhile digit)
    else (none, c :: cs)

/-- The longest numeral a text starts with, and the rest. -/
def scan_numeral (cs : List CodePoint) : Option (Numeral × List CodePoint) :=
  let (sign, cs) := scan_sign [code_point '-'] cs
  let (whole, cs) := scan_whole cs
  if whole = [] then none
  else
    let (fraction, cs) := scan_fraction cs
    let (exponent, cs) := scan_exponent cs
    some (⟨!sign.isEmpty, whole, fraction, exponent⟩, cs)

/-- No numeral goes on into the text. -/
def Stops (rest : List CodePoint) : Prop :=
  ∀ c, rest.head? = some c →
    digit c = false ∧ c ≠ code_point '.' ∧ c ≠ code_point 'e' ∧ c ≠ code_point 'E'

/-- A run of digits is read to its end. -/
theorem span_digits {cs rest : List CodePoint} (hcs : ∀ c ∈ cs, digit c = true)
    (hrest : ∀ c, rest.head? = some c → digit c = false) :
    (cs ++ rest).takeWhile digit = cs ∧ (cs ++ rest).dropWhile digit = rest := by
  rw [List.takeWhile_append_of_pos hcs, List.dropWhile_append_of_pos hcs]
  cases rest with
  | nil => simp
  | cons c rest => simp [hrest c rfl]

theorem scan_sign_none {signs cs : List CodePoint} (h : ∀ c, cs.head? = some c → c ∉ signs) :
    scan_sign signs cs = ([], cs) := by
  cases cs with
  | nil => simp [scan_sign]
  | cons c cs => simp [scan_sign, h c rfl]

theorem scan_whole_append {whole rest : List CodePoint} (hne : whole ≠ [])
    (hdigits : ∀ c ∈ whole, digit c = true)
    (hzero : whole = [code_point '0'] ∨ whole.head? ≠ some (code_point '0'))
    (hrest : ∀ c, rest.head? = some c → digit c = false) :
    scan_whole (whole ++ rest) = (whole, rest) := by
  have hspan := span_digits hdigits hrest
  cases whole with
  | nil => exact absurd rfl hne
  | cons c cs =>
    by_cases hc : c = code_point '0'
    · have hcs : cs = [] := by simpa [hc] using hzero
      simp [scan_whole, hc, hcs]
    · rw [List.cons_append] at hspan ⊢
      simp [scan_whole, hc, hspan]

theorem scan_fraction_append {fraction rest : List CodePoint}
    (hdigits : ∀ c ∈ fraction, digit c = true)
    (hrest : ∀ c, rest.head? = some c → digit c = false ∧ c ≠ code_point '.') :
    scan_fraction (Numeral.render_fraction fraction ++ rest) = (fraction, rest) := by
  by_cases hf : fraction = []
  · subst hf
    cases rest with
    | nil => simp [Numeral.render_fraction, scan_fraction]
    | cons c rest => simp [Numeral.render_fraction, scan_fraction, (hrest c rfl).2]
  · have hspan := span_digits hdigits (fun c hc => (hrest c hc).1)
    simp [Numeral.render_fraction, scan_fraction, hf, hspan]

theorem scan_sign_exponent {e : Exponent} (h : e.Valid) (rest : List CodePoint) :
    scan_sign [code_point '+', code_point '-'] (e.sign ++ e.digits ++ rest) =
      (e.sign, e.digits ++ rest) := by
  rcases h.sign with hs | hs | hs
  · rw [hs, List.nil_append]
    apply scan_sign_none
    intro c hc
    have hmem : c ∈ e.digits := by
      cases hd : e.digits with
      | nil => exact absurd hd h.digits_ne_nil
      | cons d ds => simp_all
    have hdigit := h.digits c hmem
    rw [digit_iff] at hdigit
    simp only [List.mem_cons, List.not_mem_nil, or_false, Fin.ext_iff, code_point_val]
    have hplus : '+'.toNat = 43 := rfl
    have hminus : '-'.toNat = 45 := rfl
    omega
  · simp [hs, scan_sign]
  · simp [hs, scan_sign]

theorem scan_exponent_append {exponent : Option Exponent} {rest : List CodePoint}
    (hvalid : ∀ e ∈ exponent, e.Valid) (hrest : Stops rest) :
    scan_exponent (Numeral.render_exponent exponent ++ rest) = (exponent, rest) := by
  cases exponent with
  | none =>
    cases rest with
    | nil => simp [Numeral.render_exponent, scan_exponent]
    | cons c rest => simp [Numeral.render_exponent, scan_exponent, hrest c rfl]
  | some e =>
    have he := hvalid e rfl
    have hspan := span_digits he.digits (fun c hc => (hrest c hc).1)
    simp [Numeral.render_exponent, Exponent.render, scan_exponent, -List.append_assoc,
      scan_sign_exponent he, hspan, he.mark, he.digits_ne_nil]

theorem head_render_exponent {exponent : Option Exponent} {rest : List CodePoint}
    (hvalid : ∀ e ∈ exponent, e.Valid) (hrest : Stops rest) (c : CodePoint)
    (hc : (Numeral.render_exponent exponent ++ rest).head? = some c) :
    digit c = false ∧ c ≠ code_point '.' := by
  cases exponent with
  | none =>
    have hstop := hrest c hc
    exact ⟨hstop.1, hstop.2.1⟩
  | some e =>
    simp only [Numeral.render_exponent, Option.elim, Exponent.render, List.cons_append,
      List.head?_cons, Option.some.injEq] at hc
    subst hc
    rcases (hvalid e rfl).mark with hm | hm <;> rw [hm] <;> decide

theorem head_render_fraction {fraction rest : List CodePoint}
    (hrest : ∀ c, rest.head? = some c → digit c = false) (c : CodePoint)
    (hc : (Numeral.render_fraction fraction ++ rest).head? = some c) : digit c = false := by
  by_cases hf : fraction = []
  · apply hrest c
    simpa [Numeral.render_fraction, hf] using hc
  · have hpoint : code_point '.' = c := by simpa [Numeral.render_fraction, hf] using hc
    rw [← hpoint]
    decide

/-- A numeral is read back. -/
theorem scan_render {n : Numeral} (h : n.Valid) {rest : List CodePoint} (hrest : Stops rest) :
    scan_numeral (n.render ++ rest) = some (n, rest) := by
  have hexponent := head_render_exponent h.exponent hrest
  have hfraction := @head_render_fraction n.fraction _ fun c hc => (hexponent c hc).1
  have hsign : scan_sign [code_point '-'] (n.render ++ rest) =
      (n.sign, n.whole ++ (Numeral.render_fraction n.fraction ++
        (Numeral.render_exponent n.exponent ++ rest))) := by
    cases hneg : n.negative with
    | true => simp [Numeral.render, Numeral.sign, hneg, scan_sign]
    | false =>
      simp only [Numeral.render, Numeral.sign, hneg, List.nil_append, List.append_assoc,
        Bool.false_eq_true, if_false]
      apply scan_sign_none
      intro c hc hminus
      have hmem : c ∈ n.whole := by
        cases hw : n.whole with
        | nil => exact absurd hw h.whole_ne_nil
        | cons d ds => simp_all
      have hdigit := h.whole c hmem
      rw [List.mem_singleton.mp hminus] at hdigit
      exact absurd hdigit (by decide)
  have hnegative : (!n.sign.isEmpty) = n.negative := by
    cases hneg : n.negative <;> simp [Numeral.sign, hneg]
  simp only [scan_numeral, hsign,
    scan_whole_append h.whole_ne_nil h.whole h.no_leading_zero hfraction, h.whole_ne_nil, if_false,
    scan_fraction_append h.fraction hexponent, scan_exponent_append h.exponent hrest, hnegative]

/-- What a scanned sign is. -/
theorem scan_sign_cases (signs cs : List CodePoint) :
    scan_sign signs cs = ([], cs) ∨
      ∃ c ∈ signs, ∃ rest, cs = c :: rest ∧ scan_sign signs cs = ([c], rest) := by
  cases cs with
  | nil => simp [scan_sign]
  | cons c cs =>
    by_cases hc : c ∈ signs
    · exact .inr ⟨c, hc, cs, rfl, by simp [scan_sign, hc]⟩
    · exact .inl (by simp [scan_sign, hc])

theorem digit_of_takeWhile {cs : List CodePoint} {c : CodePoint} (h : c ∈ cs.takeWhile digit) :
    digit c = true := List.mem_takeWhile_imp h

theorem scan_whole_spec (cs : List CodePoint) :
    (scan_whole cs).1 ++ (scan_whole cs).2 = cs ∧ (∀ c ∈ (scan_whole cs).1, digit c = true) ∧
      ((scan_whole cs).1 = [code_point '0'] ∨
        (scan_whole cs).1.head? ≠ some (code_point '0')) := by
  cases cs with
  | nil => simp [scan_whole]
  | cons c cs =>
    by_cases hc : c = code_point '0'
    · subst hc
      have hzero : digit (code_point '0') = true := by decide
      simp [scan_whole, hzero]
    · simp only [scan_whole, hc, if_false, List.takeWhile_append_dropWhile, true_and]
      constructor
      · exact fun d hd => digit_of_takeWhile hd
      · right
        rw [List.takeWhile_cons]
        split <;> simp [hc]

theorem scan_fraction_spec (cs : List CodePoint) :
    Numeral.render_fraction (scan_fraction cs).1 ++ (scan_fraction cs).2 = cs ∧
      ∀ c ∈ (scan_fraction cs).1, digit c = true := by
  cases cs with
  | nil => simp [scan_fraction, Numeral.render_fraction]
  | cons c cs =>
    rw [scan_fraction]
    split
    next h =>
      constructor
      · simp [Numeral.render_fraction, h.1, h.2]
      · exact fun d hd => digit_of_takeWhile hd
    next => simp [Numeral.render_fraction]

theorem scan_exponent_spec (cs : List CodePoint) :
    Numeral.render_exponent (scan_exponent cs).1 ++ (scan_exponent cs).2 = cs ∧
      ∀ e ∈ (scan_exponent cs).1, e.Valid := by
  cases cs with
  | nil => simp [scan_exponent, Numeral.render_exponent]
  | cons c cs =>
    simp only [scan_exponent]
    split
    next h =>
      rcases scan_sign_cases [code_point '+', code_point '-'] cs with hs | ⟨s, hmem, rest, rfl, hs⟩
      · simp only [hs] at h ⊢
        refine ⟨by simp [Numeral.render_exponent, Exponent.render], fun e he => ?_⟩
        obtain rfl := Option.some.inj he
        exact ⟨h.1, .inl rfl, fun d hd => digit_of_takeWhile hd, h.2⟩
      · simp only [hs] at h ⊢
        refine ⟨by simp [Numeral.render_exponent, Exponent.render], fun e he => ?_⟩
        obtain rfl := Option.some.inj he
        exact ⟨h.1, .inr (by simpa using hmem), fun d hd => digit_of_takeWhile hd, h.2⟩
    next => simp [Numeral.render_exponent]

/-- What is scanned is well formed, and it is what was read. -/
theorem scan_numeral_spec {cs rest : List CodePoint} {n : Numeral}
    (h : scan_numeral cs = some (n, rest)) : n.Valid ∧ cs = n.render ++ rest := by
  have hsign : (scan_sign [code_point '-'] cs).1 = [] ∨
      (scan_sign [code_point '-'] cs).1 = [code_point '-'] := by
    rcases scan_sign_cases [code_point '-'] cs with hs | ⟨c, hc, tail, -, hs⟩
    · simp [hs]
    · simp [hs, List.mem_singleton.mp hc]
  have hwhole_text : (scan_sign [code_point '-'] cs).1 ++ (scan_sign [code_point '-'] cs).2 = cs := by
    rcases scan_sign_cases [code_point '-'] cs with hs | ⟨c, hc, tail, htail, hs⟩
    · simp [hs]
    · rw [hs, htail]
      simp
  simp only [scan_numeral] at h
  generalize scan_sign [code_point '-'] cs = signed at h hsign hwhole_text
  obtain ⟨sign, after_sign⟩ := signed
  have hwhole := scan_whole_spec after_sign
  generalize scan_whole after_sign = scanned at h hwhole
  obtain ⟨whole, after_whole⟩ := scanned
  have hfraction := scan_fraction_spec after_whole
  generalize scan_fraction after_whole = scanned at h hfraction
  obtain ⟨fraction, after_fraction⟩ := scanned
  have hexponent := scan_exponent_spec after_fraction
  generalize scan_exponent after_fraction = scanned at h hexponent
  obtain ⟨exponent, after_exponent⟩ := scanned
  simp only at h hsign hwhole_text hwhole hfraction hexponent
  split at h
  next => cases h
  next hne =>
    obtain ⟨rfl, rfl⟩ := Prod.mk.inj (Option.some.inj h)
    constructor
    · exact ⟨hwhole.2.1, hne, hwhole.2.2, hfraction.2, hexponent.2⟩
    · rw [← hwhole_text, ← hwhole.1, ← hfraction.1, ← hexponent.1]
      rcases hsign with hs | hs <;> simp [Numeral.render, Numeral.sign, hs]

end Text
