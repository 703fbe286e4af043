import Mathlib

/-!
Literals between delimiters, where two delimiters in a row stand for one of them.
-/

set_option autoImplicit false

namespace Text

variable {α : Type} (quote counts : α → Bool)

/-- What is left of a literal up to its closing delimiter, and the text after it. -/
def scan_literal : List α → Option (List α × List α)
  | [] => none
  | [c] => if quote c then some ([c], []) else none
  | c :: d :: cs =>
    if quote c then
      if quote d then (scan_literal cs).map fun (text, rest) => (c :: d :: text, rest)
      else some ([c], d :: cs)
    else (scan_literal (d :: cs)).map fun (text, rest) => (c :: text, rest)

theorem scan_literal_append : ∀ (xs : List α) {text rest : List α},
    scan_literal quote xs = some (text, rest) → xs = text ++ rest ∧ text ≠ []
  | [], _, _, h => by cases h
  | [c], text, rest, h => by
    simp only [scan_literal] at h
    split at h
    · cases h
      simp
    · cases h
  | c :: d :: cs, text, rest, h => by
    simp only [scan_literal] at h
    split at h
    · split at h
      · obtain ⟨⟨text', rest'⟩, hscan, heq⟩ := Option.map_eq_some_iff.mp h
        cases heq
        simp [(scan_literal_append cs hscan).1]
      · cases h
        simp
    · obtain ⟨⟨text', rest'⟩, hscan, heq⟩ := Option.map_eq_some_iff.mp h
      cases heq
      simp [(scan_literal_append (d :: cs) hscan).1]

/-- A piece of a text: code, a literal with its delimiters, or one that is not closed. -/
inductive Piece (α : Type) where
  | code (text : List α)
  | literal (text : List α)
  | unclosed (text : List α)
  deriving DecidableEq

/-- The pieces of a text; outside of the literals only the delimiters mean something. -/
def lex : List α → List (Piece α)
  | [] => []
  | c :: cs =>
    if quote c then
      match _h : scan_literal quote cs with
      | some (text, rest) => .literal (c :: text) :: lex rest
      | none => [.unclosed (c :: cs)]
    else .code (c :: cs.takeWhile (!quote ·)) :: lex (cs.dropWhile (!quote ·))
termination_by xs => xs.length
decreasing_by
  · obtain ⟨rfl, -⟩ := scan_literal_append quote _ _h
    simp only [List.length_cons, List.length_append]
    omega
  · have hle := (List.dropWhile_sublist (!quote ·) (l := cs)).length_le
    simp only [List.length_cons]
    omega

/-- Each run of delimiters, of which the first was met in part, has an even number of those that
count. -/
def even_runs : Bool → List α → Bool
  | odd, [] => !odd
  | odd, c :: cs =>
    if quote c then even_runs (odd ^^ counts c) cs else !odd && even_runs false cs

section Lex

variable {quote counts} {q d : α} {text rest xs : List α}

theorem lex_code (htext : ∀ c ∈ text, quote c = false) (hne : text ≠ []) (hq : quote q = true) :
    lex quote (text ++ q :: rest) = .code text :: lex quote (q :: rest) := by
  cases text with
  | nil => exact absurd rfl hne
  | cons c cs =>
    rw [List.forall_mem_cons] at htext
    have hcs : ∀ c ∈ cs, (!quote c) = true := fun c hc => by simp [htext.2 c hc]
    rw [List.cons_append, lex, if_neg (by simp [htext.1]),
      List.takeWhile_append_of_pos hcs, List.dropWhile_append_of_pos hcs]
    simp [hq]

theorem lex_code_end (htext : ∀ c ∈ text, quote c = false) (hne : text ≠ []) :
    lex quote text = [.code text] := by
  cases text with
  | nil => exact absurd rfl hne
  | cons c cs =>
    rw [List.forall_mem_cons] at htext
    have hcs : ∀ c ∈ cs, (!quote c) = true := fun c hc => by simp [htext.2 c hc]
    rw [lex, if_neg (by simp [htext.1]), List.takeWhile_eq_self_iff.mpr hcs,
      List.dropWhile_eq_nil_iff.mpr hcs, lex]

/-- The literal closes at the delimiter after `text` just when all runs of delimiters in `text`
are of even length. -/
theorem scan_literal_iff (hq : quote q = true) (hd : quote d = false) : ∀ text : List α,
    scan_literal quote (text ++ q :: d :: rest) = some (text ++ [q], d :: rest) ↔
      even_runs quote quote false text = true
  | [] => by simp [scan_literal, even_runs, hq, hd]
  | [c] => by
    cases hc : quote c with
    | true =>
      refine iff_of_false (fun h => ?_) (by simp [even_runs, hc])
      simp only [List.singleton_append, scan_literal, hc, hq, if_true] at h
      obtain ⟨⟨text', rest'⟩, hscan, heq⟩ := Option.map_eq_some_iff.mp h
      cases heq
      exact (scan_literal_append quote _ hscan).2 rfl
    | false => simp [scan_literal, even_runs, hc, hq, hd]
  | c :: c' :: text => by
    have ih := scan_literal_iff hq hd text
    have ih' := scan_literal_iff hq hd (c' :: text)
    cases hc : quote c with
    | true =>
      cases hc' : quote c' with
      | true =>
        have hruns : even_runs quote quote false (c :: c' :: text) =
            even_runs quote quote false text := by simp [even_runs, hc, hc']
        rw [hruns, ← ih]
        simp only [List.cons_append, scan_literal, hc, hc', if_true, Option.map_eq_some_iff]
        constructor
        · rintro ⟨⟨text', rest'⟩, hscan, heq⟩
          cases heq
          exact hscan
        · exact fun hscan => ⟨_, hscan, rfl⟩
      | false => simp [scan_literal, even_runs, hc, hc']
    | false =>
      have hruns : even_runs quote quote false (c :: c' :: text) =
          even_runs quote quote false (c' :: text) := by simp [even_runs, hc]
      rw [hruns, ← ih']
      simp only [List.cons_append, scan_literal, hc, Bool.false_eq_true, if_false,
        Option.map_eq_some_iff]
      constructor
      · rintro ⟨⟨text', rest'⟩, hscan, heq⟩
        cases heq
        exact hscan
      · exact fun hscan => ⟨_, hscan, rfl⟩

theorem lex_literal (hq : quote q = true) (hscan : scan_literal quote rest = some (text, xs)) :
    lex quote (q :: rest) = .literal (q :: text) :: lex quote xs := by
  rw [lex, if_pos hq]
  split
  · rename_i text' rest' h
    rw [hscan] at h
    cases h
    rfl
  · rename_i h
    rw [hscan] at h
    cases h

/-- The text at an opening delimiter is lexed as one literal, with its closing delimiter before
`d`, just when its runs of delimiters are of even length. -/
theorem lex_literal_iff {q' : α} (hq : quote q = true) (hq' : quote q' = true)
    (hd : quote d = false) (pieces : List (Piece α)) :
    lex quote (q :: (text ++ q' :: d :: rest)) = .literal (q :: (text ++ [q'])) :: pieces ↔
      even_runs quote quote false text = true ∧ lex quote (d :: rest) = pieces := by
  rw [← scan_literal_iff hq' hd]
  constructor
  · intro h
    cases hscan : scan_literal quote (text ++ q' :: d :: rest) with
    | none =>
      rw [lex, if_pos hq] at h
      split at h
      · rename_i h'
        rw [hscan] at h'
        cases h'
      · cases h
    | some found =>
      obtain ⟨text', rest'⟩ := found
      rw [lex_literal hq hscan] at h
      simp only [List.cons.injEq, Piece.literal.injEq, true_and] at h
      obtain ⟨rfl, hpieces⟩ := h
      have happend := (scan_literal_append quote _ hscan).1
      rw [show text ++ q' :: d :: rest = text ++ [q'] ++ d :: rest by simp] at happend
      obtain rfl := List.append_cancel_left happend
      exact ⟨rfl, hpieces⟩
  · rintro ⟨hscan, rfl⟩
    exact lex_literal hq hscan

end Lex

section Template

variable {quote counts} {q : α}

/-- A text of code with a literal after each part, and the code at its end. -/
def template_text (q : α) (last : List α) : List (List α × List α) → List α
  | [] => last
  | (code, text) :: parts => code ++ q :: (text ++ q :: template_text q last parts)

/-- The pieces the text is meant to have. -/
def template_pieces (q : α) (last : List α) : List (List α × List α) → List (Piece α)
  | [] => [.code last]
  | (code, text) :: parts =>
    .code code :: .literal (q :: (text ++ [q])) :: template_pieces q last parts

/-- Code without a delimiter. -/
def Plain (quote : α → Bool) (code : List α) : Prop := code ≠ [] ∧ ∀ c ∈ code, quote c = false

theorem Plain.cons {code : List α} (h : Plain quote code) (rest : List α) :
    ∃ d rest', code ++ rest = d :: rest' ∧ quote d = false := by
  cases code with
  | nil => exact absurd rfl h.1
  | cons d code => exact ⟨d, code ++ rest, rfl, h.2 d List.mem_cons_self⟩

theorem template_text_cons {last : List α} {parts : List (List α × List α)}
    (hlast : Plain quote last) (hparts : ∀ part ∈ parts, Plain quote part.1) :
    ∃ d rest, template_text q last parts = d :: rest ∧ quote d = false := by
  cases parts with
  | nil =>
    obtain ⟨d, rest, heq, hd⟩ := hlast.cons []
    exact ⟨d, rest, by rwa [List.append_nil] at heq, hd⟩
  | cons part parts => exact (hparts part List.mem_cons_self).cons _

/-- Code and the literal after it, in front of more code. -/
theorem lex_part {q' : α} {code text next rest : List α} (hq : quote q = true)
    (hq' : quote q' = true) (hcode : Plain quote code)
    (htext : even_runs quote quote false text = true) (hnext : Plain quote next) :
    lex quote (code ++ q :: (text ++ q' :: (next ++ rest))) =
      .code code :: .literal (q :: (text ++ [q'])) :: lex quote (next ++ rest) := by
  obtain ⟨d, rest', heq, hd⟩ := hnext.cons rest
  rw [heq, lex_code hcode.2 hcode.1 hq, (lex_literal_iff hq hq' hd _).mpr ⟨htext, rfl⟩]

/-- A text has the pieces it is meant to have just when the runs of delimiters in its literals are
of even length. -/
theorem lex_template_iff (hq : quote q = true) {last : List α} {parts : List (List α × List α)}
    (hlast : Plain quote last) (hparts : ∀ part ∈ parts, Plain quote part.1) :
    lex quote (template_text q last parts) = template_pieces q last parts ↔
      ∀ part ∈ parts, even_runs quote quote false part.2 = true := by
  induction parts with
  | nil => simpa [template_text, template_pieces] using lex_code_end hlast.2 hlast.1
  | cons part parts ih =>
    obtain ⟨code, text⟩ := part
    rw [List.forall_mem_cons] at hparts
    obtain ⟨hcode, hparts⟩ := hparts
    have hrest := ih hparts
    obtain ⟨d, rest, htext, hd⟩ := @template_text_cons α quote q last parts hlast hparts
    rw [htext] at hrest
    rw [template_text, template_pieces, htext, lex_code hcode.2 hcode.1 hq, List.cons.injEq,
      lex_literal_iff hq hq hd, List.forall_mem_cons, hrest]
    simp

end Template

section Runs

variable {quote counts} {xs : List α}

theorem even_runs_splitOnP (odd : Bool) {run : List α} {runs : List (List α)}
    (hsplit : xs.splitOnP (!quote ·) = run :: runs) : even_runs quote counts odd xs = true ↔
      Even (run.countP counts + odd.toNat) ∧ ∀ run ∈ runs, Even (run.countP counts) := by
  induction xs generalizing odd run runs with
  | nil =>
    simp only [List.splitOnP_nil, List.cons.injEq] at hsplit
    obtain ⟨rfl, rfl⟩ := hsplit
    cases odd <;> simp [even_runs]
  | cons c cs ih =>
    obtain ⟨run', runs', hrest⟩ := List.exists_cons_of_ne_nil (List.splitOnP_ne_nil (!quote ·) cs)
    rw [List.splitOnP_cons_eq_if_modifyHead, hrest] at hsplit
    rw [even_runs]
    cases hc : quote c with
    | true =>
      simp only [hc, Bool.not_true, Bool.false_eq_true, if_false, List.modifyHead_cons,
        List.cons.injEq] at hsplit
      obtain ⟨rfl, rfl⟩ := hsplit
      rw [if_pos rfl, ih _ hrest, List.countP_cons]
      cases odd <;> cases counts c <;> simp [Nat.even_add_one, add_assoc]
    | false =>
      simp only [hc, Bool.not_false, if_true, List.cons.injEq] at hsplit
      obtain ⟨rfl, rfl⟩ := hsplit
      rw [if_neg (by simp), Bool.and_eq_true, ih _ hrest, List.forall_mem_cons]
      cases odd <;> simp

/-- The runs of delimiters stand between the other elements. -/
theorem even_runs_iff : even_runs quote counts false xs = true ↔
    ∀ run ∈ xs.splitOnP (!quote ·), Even (run.countP counts) := by
  obtain ⟨run, runs, hsplit⟩ := List.exists_cons_of_ne_nil (List.splitOnP_ne_nil (!quote ·) xs)
  rw [even_runs_splitOnP _ hsplit, hsplit, List.forall_mem_cons]
  rfl

end Runs

end Text
