import NitpickerDaemon.Text.JsonParser

/-!
White space between the tokens of a JSON text: where it can be inserted, and that the text is read
as before.
-/

set_option autoImplicit false

namespace Text

/-- The characters between the tokens and those that are tokens of their own. -/
def separator (c : CodePoint) : Bool :=
  whitespace c || c == code_point '\x7b' || c == code_point '\x7d' || c == code_point '[' ||
    c == code_point ']' || c == code_point ':' || c == code_point ','

/-- Where a text stands: between tokens, in a number or a name, or in a string, there with
whether the next character is escaped. -/
inductive Lex where
  | between
  | word
  | in_string (escape : Bool)
  deriving DecidableEq

def Lex.next : Lex → CodePoint → Lex
  | .in_string true, _ => .in_string false
  | .in_string false, c =>
    if c = code_point '\\' then .in_string true
    else if c = code_point '"' then .between
    else .in_string false
  | _, c => if c = code_point '"' then .in_string false
    else if separator c then .between
    else .word

/-- A number or a name is over. -/
def ended (cs : List CodePoint) : Bool :=
  cs.head?.all fun c => separator c || c == code_point '"'

/-- No token goes on at the place. -/
def Lex.gap : Lex → List CodePoint → Bool
  | .between, _ => true
  | .word, cs => ended cs
  | .in_string _, _ => false

/-- The second text is the first one with white space inserted at its gaps. -/
inductive Padded : Lex → List CodePoint → List CodePoint → Prop where
  | nil {s : Lex} : Padded s [] []
  | blank {s : Lex} {c : CodePoint} {cs cs' : List CodePoint} : s.gap cs = true →
      whitespace c = true → Padded .between cs cs' → Padded s cs (c :: cs')
  | char {s : Lex} {c : CodePoint} {cs cs' : List CodePoint} :
      Padded (s.next c) cs cs' → Padded s (c :: cs) (c :: cs')

theorem separator_blank {c : CodePoint} (h : whitespace c = true) : separator c = true := by
  simp [separator, h]

theorem next_blank {c : CodePoint} (h : whitespace c = true) : Lex.between.next c = .between := by
  have hquote : c ≠ code_point '"' := by
    intro heq
    subst heq
    exact absurd h (by decide)
  simp [Lex.next, hquote, separator_blank h]

variable {cs cs' rest : List CodePoint}

/-- After a word that is over, the text goes on as between tokens. -/
theorem Padded.ended (h : Padded .word cs cs') (hended : Text.ended cs = true) :
    Padded .between cs cs' := by
  cases h with
  | nil => exact .nil
  | blank _ hc h => exact .blank rfl hc h
  | @char _ c cs cs' h =>
    refine .char ?_
    by_cases hquote : c = code_point '"'
    · simpa [Lex.next, hquote] using h
    · simpa [Lex.next, hquote] using h

/-- What begins with white space is skipped in both texts. -/
theorem Padded.skip (h : Padded .between cs cs') :
    (skip_whitespace cs = [] ∧ skip_whitespace cs' = []) ∨
      ∃ c t t', skip_whitespace cs = c :: t ∧ skip_whitespace cs' = c :: t' ∧
        whitespace c = false ∧ Padded (Lex.between.next c) t t' := by
  have hall : ∀ s cs cs', Padded s cs cs' → s = .between →
      (skip_whitespace cs = [] ∧ skip_whitespace cs' = []) ∨
        ∃ c t t', skip_whitespace cs = c :: t ∧ skip_whitespace cs' = c :: t' ∧
          whitespace c = false ∧ Padded (Lex.between.next c) t t' := by
    intro s cs cs' h
    induction h with
    | nil => exact fun _ => .inl ⟨rfl, rfl⟩
    | @blank s c cs cs' _ hc _ ih =>
      intro _
      have hskip : skip_whitespace (c :: cs') = skip_whitespace cs' := by simp [skip_whitespace, hc]
      rw [hskip]
      exact ih rfl
    | @char s c cs cs' h ih =>
      intro hs
      subst hs
      cases hc : whitespace c with
      | true =>
        have hskip : ∀ t, skip_whitespace (c :: t) = skip_whitespace t := by
          intro t
          simp [skip_whitespace, hc]
        rw [hskip, hskip]
        exact ih (next_blank hc)
      | false =>
        rw [skip_visible hc, skip_visible hc]
        exact .inr ⟨c, cs, cs', rfl, rfl, hc, h⟩
  exact hall _ cs cs' h rfl

/-- A separator that comes next does so in both texts. -/
theorem Padded.expect {c : Char} (h : Padded .between cs cs') (hquote : code_point c ≠ code_point '"')
    (hc : separator (code_point c) = true) (hread : Text.expect c (skip_whitespace cs) = some rest) :
    ∃ rest', Text.expect c (skip_whitespace cs') = some rest' ∧ Padded .between rest rest' := by
  rcases h.skip with ⟨hnil, -⟩ | ⟨d, t, t', hcs, hcs', -, hpad⟩
  · simp [hnil, Text.expect] at hread
  · rw [hcs] at hread
    have heq := expect_eq hread
    cases heq
    rw [hcs', expect_self]
    refine ⟨t', rfl, ?_⟩
    simpa [Lex.next, hquote, hc] using hpad

theorem Padded.expect_none {c : Char} (h : Padded .between cs cs')
    (hread : Text.expect c (skip_whitespace cs) = none) :
    Text.expect c (skip_whitespace cs') = none := by
  rcases h.skip with ⟨-, hnil⟩ | ⟨d, t, t', hcs, hcs', -, -⟩
  · simp [hnil, Text.expect]
  · have hd : d ≠ code_point c := by
      intro heq
      simp [hcs, heq, Text.expect] at hread
    rw [hcs', expect_other hd]

/-- Skipping white space leaves the second text a padding of the first. -/
theorem Padded.skipped (h : Padded .between cs cs') :
    Padded .between (skip_whitespace cs) (skip_whitespace cs') := by
  rcases h.skip with ⟨hcs, hcs'⟩ | ⟨d, t, t', hcs, hcs', -, hpad⟩
  · rw [hcs, hcs']
    exact .nil
  · rw [hcs, hcs']
    exact .char hpad

/-- In a string nothing is inserted. -/
theorem Padded.quoted {body : List CodePoint} (hbody : Quoted body)
    (h : Padded (.in_string false) (body ++ rest) cs') :
    ∃ rest', cs' = body ++ rest' ∧ Padded .between rest rest' := by
  induction hbody generalizing cs' with
  | close =>
    have hnext : (Lex.in_string false).next (code_point '"') = .between := by decide
    cases h with
    | blank hgap => cases hgap
    | char h =>
      rw [hnext] at h
      exact ⟨_, rfl, h⟩
  | @plain c body hquote hslash _ ih =>
    cases h with
    | blank hgap => cases hgap
    | char h =>
      obtain ⟨rest', rfl, hpad⟩ := ih (by simpa [Lex.next, hquote, hslash] using h)
      exact ⟨rest', rfl, hpad⟩
  | @escaped c body _ ih =>
    have hnext : (Lex.in_string false).next (code_point '\\') = .in_string true := by decide
    cases h with
    | blank hgap => cases hgap
    | char h =>
      rw [hnext] at h
      cases h with
      | blank hgap => cases hgap
      | char h =>
        obtain ⟨rest', rfl, hpad⟩ := ih (by simpa [Lex.next] using h)
        exact ⟨rest', rfl, hpad⟩

/-- Nor in a number or a name. -/
theorem Padded.word {token : List CodePoint}
    (htoken : ∀ c ∈ token, separator c = false ∧ c ≠ code_point '"')
    (h : Padded .word (token ++ rest) cs') :
    ∃ rest', cs' = token ++ rest' ∧ Padded .word rest rest' := by
  induction token generalizing cs' with
  | nil => exact ⟨cs', rfl, h⟩
  | cons c token ih =>
    obtain ⟨hc, hquote⟩ := htoken c List.mem_cons_self
    cases h with
    | blank hgap => simp [Lex.gap, Text.ended, hc, hquote] at hgap
    | char h =>
      obtain ⟨rest', hcs, hpad⟩ := ih (fun d hd => htoken d (List.mem_cons_of_mem c hd))
        (by simpa [Lex.next, hc, hquote] using h)
      exact ⟨rest', by simp [hcs], hpad⟩

theorem string_padded {t : List CodePoint} (h : string cs = some (t, rest))
    (hpad : Padded (.in_string false) cs cs') :
    ∃ rest', string cs' = some (t, rest') ∧ Padded .between rest rest' := by
  obtain ⟨⟨units, after⟩, hscan, heq⟩ := Option.map_eq_some_iff.mp h
  cases heq
  obtain ⟨body, rfl, hbody, hlocal⟩ := scan_string_consumes hscan
  obtain ⟨rest', rfl, hrest⟩ := hpad.quoted hbody
  refine ⟨rest', ?_, hrest⟩
  rw [string, hlocal rest', Option.map_some]

theorem ended_stops (h : ended rest = true) : Stops rest := by
  intro c hc
  simp only [ended, hc, Option.all_some, Bool.or_eq_true, beq_iff_eq] at h
  rcases h with h | h
  · have hclear : ∀ d, separator d = false → c ≠ d := by
      intro d hd heq
      simp [heq, hd] at h
    have hdigit : digit c = false := by
      cases hd : digit c with
      | false => rfl
      | true =>
        have hne : ∀ d, digit d = false → c ≠ d := fun d => digit_ne hd
        rw [digit_iff] at hd
        simp [separator, whitespace, hne _ (show digit (code_point '\x7b') = false by decide),
          hne _ (show digit (code_point '\x7d') = false by decide),
          hne _ (show digit (code_point '[') = false by decide),
          hne _ (show digit (code_point ']') = false by decide),
          hne _ (show digit (code_point ':') = false by decide),
          hne _ (show digit (code_point ',') = false by decide)] at h
        omega
    exact ⟨hdigit, hclear _ (by decide), hclear _ (by decide), hclear _ (by decide)⟩
  · rw [h]
    decide

variable {read : List CodePoint → Rat} {v : Json}

/-- No name is the start of another. -/
theorem atom_constant {e : String × Json} (he : e ∈ constants read) (rest : List CodePoint) :
    atom read (code_points e.1 ++ rest) = some (e.2, rest) := by
  simp only [constants, List.mem_cons, List.not_mem_nil, or_false] at he
  simp only [atom, constants, List.findSome?_cons]
  rcases he with rfl | rfl | rfl | rfl | rfl | rfl <;>
    simp (disch := decide) only [literal_self, literal_other, Option.some_or]

def word_char (c : CodePoint) : Bool := !separator c && c != code_point '"'

theorem constants_word {e : String × Json} (he : e ∈ constants read) :
    code_points e.1 ≠ [] ∧ ∀ c ∈ code_points e.1, word_char c = true := by
  have hname : e.1 ∈ (constants read).map Prod.fst := List.mem_map_of_mem he
  have hall : ∀ name ∈ ["null", "true", "false", "NaN", "Infinity", "-Infinity"],
      code_points name ≠ [] ∧ (code_points name).all word_char = true := by
    decide
  obtain ⟨hne, hword⟩ := hall e.1 hname
  exact ⟨hne, List.all_eq_true.mp hword⟩

theorem numeral_word {n : Numeral} (h : n.Valid) : ∀ c ∈ n.render, word_char c = true := by
  intro c hc
  rcases h.mem_render hc with hdigit | hmark
  · have hstop : ∀ d, ended [d] = true → digit d = false := fun d hd =>
      (ended_stops hd d rfl).1
    cases hword : word_char c with
    | true => rfl
    | false =>
      have hended : ended [c] = true := by
        simpa [word_char, ended, Bool.and_eq_false_iff, imp_iff_not_or, or_comm] using hword
      simp [hstop c hended] at hdigit
  · have hall : (code_points "+-.eE").all word_char = true := by decide
    exact List.all_eq_true.mp hall c hmark

/-- A number or a name is read up to its end, wherever it ends. -/
theorem atom_token (h : atom read cs = some (v, rest)) :
    ∃ token, cs = token ++ rest ∧ token ≠ [] ∧ (∀ c ∈ token, word_char c = true) ∧
      ∀ after, ended after = true → atom read (token ++ after) = some (v, after) := by
  rw [atom, Option.or_eq_some_iff] at h
  rcases h with h | ⟨-, h⟩
  · obtain ⟨e, he, hliteral⟩ := List.exists_of_findSome?_eq_some h
    simp only [literal] at hliteral
    split at hliteral
    next hstart =>
      obtain ⟨tail, rfl⟩ := hstart
      have hlen : e.1.length = (code_points e.1).length := by
        simp [code_points, String.length_toList]
      rw [hlen, List.drop_left] at hliteral
      cases hliteral
      obtain ⟨hne, hword⟩ := constants_word he
      exact ⟨_, rfl, hne, hword, fun after _ => atom_constant he after⟩
    next => cases hliteral
  · obtain ⟨⟨n, tail⟩, hscan, heq⟩ := Option.map_eq_some_iff.mp h
    cases heq
    obtain ⟨hn, rfl⟩ := scan_numeral_spec hscan
    have hne : n.render ≠ [] := by
      obtain ⟨d, ds, -, hr | hr⟩ := hn.render_cons <;> simp [hr]
    refine ⟨n.render, rfl, hne, numeral_word hn, fun after hafter => ?_⟩
    rw [atom_numeral hn, number_render hn (ended_stops hafter)]

theorem atom_padded {c : CodePoint} {t t' : List CodePoint}
    (h : atom read (c :: t) = some (v, rest)) (hended : ended rest = true)
    (hpad : Padded (Lex.between.next c) t t') :
    ∃ rest', atom read (c :: t') = some (v, rest') ∧ Padded .between rest rest' := by
  obtain ⟨token, hcs, hne, hword, hlocal⟩ := atom_token h
  cases token with
  | nil => exact absurd rfl hne
  | cons d token =>
    rw [List.cons_append] at hcs
    injection hcs with hc ht
    subst hc ht
    have hplain : ∀ e ∈ c :: token, separator e = false ∧ e ≠ code_point '"' := by
      intro e he
      simpa [word_char] using hword e he
    have hnext : Lex.between.next c = .word := by
      obtain ⟨hc, hquote⟩ := hplain c List.mem_cons_self
      simp [Lex.next, hc, hquote]
    rw [hnext] at hpad
    obtain ⟨rest', rfl, hrest⟩ := hpad.word fun e he => hplain e (List.mem_cons_of_mem c he)
    have hbetween := hrest.ended hended
    have hended' : ended rest' = true := by
      cases hbetween with
      | nil => exact hended
      | blank _ hblank _ => simp [ended, separator_blank hblank]
      | char _ => simpa [ended] using hended
    exact ⟨rest', hlocal rest' hended', hbetween⟩

/-- A value is over where a separator comes next. -/
theorem expect_ended {c : Char} {after : List CodePoint} (hc : separator (code_point c) = true)
    (h : Text.expect c (skip_whitespace rest) = some after) : ended rest = true := by
  cases rest with
  | nil => rfl
  | cons d rest =>
    cases hd : whitespace d with
    | true => simp [ended, separator_blank hd]
    | false =>
      rw [skip_visible hd] at h
      cases expect_eq h
      simp [ended, hc]

theorem value_nil (fuel : Nat) : value read fuel [] = none := by
  cases fuel <;> simp [value]

mutual

/-- A value, begun in both texts, is the same value in both. -/
theorem value_padded : ∀ (fuel : Nat) {c : CodePoint} {t t' rest : List CodePoint} {v : Json},
    value read fuel (c :: t) = some (v, rest) → ended rest = true →
      Padded (Lex.between.next c) t t' → ∀ fuel', 2 * (t'.length + 1) ≤ fuel' →
        ∃ rest', value read fuel' (c :: t') = some (v, rest') ∧ Padded .between rest rest'
  | 0, _, _, _, _, _, h, _, _, _, _ => by simp [value] at h
  | fuel + 1, c, t, t', rest, v, h, hended, hpad, 0, hfuel => by omega
  | fuel + 1, c, t, t', rest, v, h, hended, hpad, fuel' + 1, hfuel => by
    have hskip := (consumes_skip t').length_le
    rw [value] at h ⊢
    split at h
    next hc =>
      rw [if_pos hc]
      obtain ⟨⟨s, tail⟩, hstring, heq⟩ := Option.map_eq_some_iff.mp h
      cases heq
      rw [hc] at hpad
      obtain ⟨rest', hstring', hrest⟩ := string_padded hstring hpad
      exact ⟨rest', by rw [hstring', Option.map_some], hrest⟩
    next hquote =>
    rw [if_neg hquote]
    split at h
    next hc =>
      rw [if_pos hc]
      have hnext : Lex.between.next (code_point '\x7b') = .between := by decide
      rw [hc, hnext] at hpad
      split at h
      next after hclose =>
        cases h
        obtain ⟨rest', hclose', hrest⟩ := hpad.expect (by decide) (by decide) hclose
        exact ⟨rest', by simp [hclose'], hrest⟩
      next hopen =>
        obtain ⟨⟨pairs, tail⟩, hmembers, heq⟩ := Option.map_eq_some_iff.mp h
        cases heq
        obtain ⟨rest', hmembers', hrest⟩ :=
          members_padded fuel hmembers hpad fuel' (by omega)
        exact ⟨rest', by simp [hpad.expect_none hopen, hmembers'], hrest⟩
    next hbrace =>
    rw [if_neg hbrace]
    split at h
    next hc =>
      rw [if_pos hc]
      have hnext : Lex.between.next (code_point '[') = .between := by decide
      rw [hc, hnext] at hpad
      split at h
      next after hclose =>
        cases h
        obtain ⟨rest', hclose', hrest⟩ := hpad.expect (by decide) (by decide) hclose
        exact ⟨rest', by simp [hclose'], hrest⟩
      next hopen =>
        obtain ⟨⟨values, tail⟩, hitems, heq⟩ := Option.map_eq_some_iff.mp h
        cases heq
        obtain ⟨rest', hitems', hrest⟩ := items_padded fuel hitems hpad fuel' (by omega)
        exact ⟨rest', by simp [hpad.expect_none hopen, hitems'], hrest⟩
    next hbracket =>
      rw [if_neg hbracket]
      exact atom_padded h hended hpad

theorem items_padded : ∀ (fuel : Nat) {cs cs' rest : List CodePoint} {vs : List Json},
    items read fuel (skip_whitespace cs) = some (vs, rest) → Padded .between cs cs' →
      ∀ fuel', 2 * (skip_whitespace cs').length + 1 ≤ fuel' →
        ∃ rest', items read fuel' (skip_whitespace cs') = some (vs, rest') ∧
          Padded .between rest rest'
  | 0, _, _, _, _, h, _, _, _ => by simp [items] at h
  | fuel + 1, cs, cs', rest, vs, h, hpad, 0, hfuel => by omega
  | fuel + 1, cs, cs', rest, vs, h, hpad, fuel' + 1, hfuel => by
    rw [items, Option.bind_eq_bind, Option.bind_eq_some_iff] at h
    obtain ⟨⟨v, next⟩, hvalue, h⟩ := h
    rcases hpad.skip with ⟨hnil, -⟩ | ⟨c, t, t', hcs, hcs', -, hinner⟩
    · rw [hnil, value_nil] at hvalue
      cases hvalue
    · rw [hcs] at hvalue
      rw [hcs'] at hfuel ⊢
      have hended : ended next = true := by
        simp only at h
        split at h
        next after hclose => exact expect_ended (by decide) hclose
        next =>
          simp only [Option.bind_eq_bind, Option.bind_eq_some_iff] at h
          obtain ⟨after, hcomma, -⟩ := h
          exact expect_ended (by decide) hcomma
      obtain ⟨next', hvalue', hnext⟩ :=
        value_padded fuel hvalue hended hinner fuel' (by simpa using Nat.le_of_succ_le_succ hfuel)
      have hlen := (value_consumes fuel' hvalue').2
      rw [items, hvalue']
      simp only at h
      split at h
      next after hclose =>
        cases h
        obtain ⟨rest', hclose', hrest⟩ := hnext.expect (by decide) (by decide) hclose
        exact ⟨rest', by simp [hclose'], hrest⟩
      next hopen =>
        simp only [Option.bind_eq_bind, Option.bind_eq_some_iff] at h
        obtain ⟨after, hcomma, ⟨values, tail⟩, hitems, h⟩ := h
        cases h
        obtain ⟨after', hcomma', hafter⟩ := hnext.expect (by decide) (by decide) hcomma
        have hshort := ((consumes_expect (by decide) (by decide) hcomma').trans
          (consumes_skip after')).length_le
        obtain ⟨rest', hitems', hrest⟩ := items_padded fuel hitems hafter fuel' (by
          simp only [List.length_cons] at hfuel hlen
          omega)
        exact ⟨rest', by simp [hnext.expect_none hopen, hcomma', hitems'], hrest⟩

theorem members_padded : ∀ (fuel : Nat) {cs cs' rest : List CodePoint}
    {pairs : List (List CodePoint × Json)},
    members read fuel (skip_whitespace cs) = some (pairs, rest) → Padded .between cs cs' →
      ∀ fuel', 2 * (skip_whitespace cs').length + 1 ≤ fuel' →
        ∃ rest', members read fuel' (skip_whitespace cs') = some (pairs, rest') ∧
          Padded .between rest rest'
  | 0, _, _, _, _, h, _, _, _ => by simp [members] at h
  | fuel + 1, cs, cs', rest, pairs, h, hpad, 0, hfuel => by omega
  | fuel + 1, cs, cs', rest, pairs, h, hpad, fuel' + 1, hfuel => by
    simp only [members, Option.bind_eq_bind, Option.bind_eq_some_iff] at h
    obtain ⟨inside, hquote, ⟨key, after_key⟩, hkey, after_colon, hcolon, ⟨v, next⟩, hvalue, h⟩ := h
    rcases hpad.skip with ⟨hnil, -⟩ | ⟨c, t, t', hcs, hcs', -, hinner⟩
    · simp [hnil, Text.expect] at hquote
    rw [hcs] at hquote
    have hc := expect_eq hquote
    injection hc with hc ht
    subst hc ht
    have hnext : Lex.between.next (code_point '"') = .in_string false := by decide
    rw [hnext] at hinner
    obtain ⟨after_key', hkey', hafter_key⟩ := string_padded hkey hinner
    obtain ⟨after_colon', hcolon', hafter_colon⟩ :=
      hafter_key.expect (by decide) (by decide) hcolon
    have hkey_len := (consumes_string hkey').2
    have hcolon_len := ((consumes_expect (by decide) (by decide) hcolon').trans
      (consumes_skip after_colon')).length_le
    rw [hcs', List.length_cons] at hfuel
    rw [hcs', members, expect_self]
    rcases hafter_colon.skip with ⟨hnil, -⟩ | ⟨c, t₂, t₂', hv, hv', -, hmember⟩
    · rw [hnil, value_nil] at hvalue
      cases hvalue
    rw [hv] at hvalue
    have hended : ended next = true := by
      simp only at h
      split at h
      next after hclose => exact expect_ended (by decide) hclose
      next =>
        simp only [Option.bind_eq_some_iff] at h
        obtain ⟨after, hcomma, -⟩ := h
        exact expect_ended (by decide) hcomma
    rw [hv', List.length_cons] at hcolon_len
    obtain ⟨next', hvalue', hnext'⟩ := value_padded fuel hvalue hended hmember fuel' (by omega)
    have hlen := (value_consumes fuel' hvalue').2
    rw [← hv'] at hvalue'
    simp only at h
    split at h
    next after hclose =>
      cases h
      obtain ⟨rest', hclose', hrest⟩ := hnext'.expect (by decide) (by decide) hclose
      exact ⟨rest', by simp [hkey', hcolon', hvalue', hclose'], hrest⟩
    next hopen =>
      simp only [Option.bind_eq_some_iff] at h
      obtain ⟨after, hcomma, ⟨pairs', tail⟩, hmembers, h⟩ := h
      cases h
      obtain ⟨after', hcomma', hafter⟩ := hnext'.expect (by decide) (by decide) hcomma
      have hshort := ((consumes_expect (by decide) (by decide) hcomma').trans
        (consumes_skip after')).length_le
      obtain ⟨rest', hmembers', hrest⟩ := members_padded fuel hmembers hafter fuel' (by
        simp only [List.length_cons] at hlen
        omega)
      exact ⟨rest', by simp [hkey', hcolon', hvalue', hnext'.expect_none hopen, hcomma', hmembers'],
        hrest⟩

end

/-- White space between the tokens changes nothing. -/
theorem loads_padded (h : loads read cs = some v) (hpad : Padded .between cs cs') :
    loads read cs' = some v := by
  unfold loads at h ⊢
  split at h
  next => cases h
  next hmark =>
    simp only [Option.bind_eq_bind, Option.bind_eq_some_iff] at h
    obtain ⟨⟨w, rest⟩, hvalue, h⟩ := h
    split at h
    next hend =>
      cases h
      have hmark' : cs'.head? ≠ some byte_order_mark := by
        cases hpad with
        | nil => simp
        | blank _ hblank _ =>
          intro heq
          cases heq
          exact absurd hblank (by decide)
        | char _ => simpa using hmark
      rcases hpad.skip with ⟨hnil, -⟩ | ⟨c, t, t', hcs, hcs', -, hinner⟩
      · rw [hnil, value_nil] at hvalue
        cases hvalue
      · rw [hcs] at hvalue
        have hended : ended rest = true := by
          cases rest with
          | nil => rfl
          | cons d rest =>
            have hd : whitespace d = true := by
              by_contra hvisible
              simp [skip_whitespace, hvisible] at hend
            simp [ended, separator_blank hd]
        have hlen := (consumes_skip cs').length_le
        rw [hcs', List.length_cons] at hlen
        obtain ⟨rest', hvalue', hrest⟩ :=
          value_padded _ hvalue hended hinner (2 * cs'.length) (by omega)
        have hend' : skip_whitespace rest' = [] := by
          rcases hrest.skip with ⟨-, hnil⟩ | ⟨d, u, u', hu, -⟩
          · exact hnil
          · rw [hend] at hu
            cases hu
        rw [if_neg hmark', hcs', hvalue']
        simp [hend']
    next => cases h

end Text
