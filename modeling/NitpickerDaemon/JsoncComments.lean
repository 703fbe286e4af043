import NitpickerDaemon.LocalConfig
import NitpickerDaemon.Text.JsonPadding

/-!
Comments in the local configuration: wherever they stand between the tokens of a JSON text, it is
loaded as without them.
-/

set_option autoImplicit false

namespace Nitpicker

open Text (CodePoint Json code_point code_points loads Tokens Quoted Lex Padded whitespace)

/-- The newlines of `read_text`: a carriage return, with the line feed after it if there is one,
is a line feed. -/
def universal_newlines : List CodePoint → List CodePoint
  | [] => []
  | c :: cs =>
    if c = code_point '\r' then
      if cs.head? = some (code_point '\n') then universal_newlines cs
      else code_point '\n' :: universal_newlines cs
    else c :: universal_newlines cs

/-- `//` up to the end of the line, or `/*` up to the next `*/`. -/
inductive Comment where
  | line (content : List CodePoint)
      (one_line : ∀ c ∈ content, c ≠ code_point '\n' ∧ c ≠ code_point '\r')
  | block (content : List CodePoint) (unclosed : ¬[code_point '*', code_point '/'] <:+: content)

def Comment.render : Comment → List CodePoint
  | .line content _ => code_point '/' :: code_point '/' :: (content ++ [code_point '\n'])
  | .block content _ =>
    code_point '/' :: code_point '*' :: (content ++ [code_point '*', code_point '/'])

/-- The text with comments inserted at its gaps, those of `notes i` before its character `i`. -/
def weave : Lex → List CodePoint → (Nat → List Comment) → List CodePoint
  | s, [], notes => if s.gap [] then (notes 0).flatMap Comment.render else []
  | s, c :: cs, notes =>
    (if s.gap (c :: cs) then (notes 0).flatMap Comment.render else []) ++
      c :: weave (s.next c) cs fun i => notes (i + 1)

/-- `_load_jsonc` on the characters of the file. -/
def load_jsonc_file (read : List CodePoint → Rat) (characters : List CodePoint) : Option Json :=
  load_jsonc read (universal_newlines characters)

theorem newlines_cons {c : CodePoint} (hc : c ≠ code_point '\r') (cs : List CodePoint) :
    universal_newlines (c :: cs) = c :: universal_newlines cs := by
  rw [universal_newlines, if_neg hc]

theorem newlines_same {cs : List CodePoint} (h : code_point '\r' ∉ cs) :
    universal_newlines cs = cs := by
  induction cs with
  | nil => rfl
  | cons c cs ih =>
    rw [newlines_cons (fun heq => h (by simp [heq])), ih fun hmem => h (List.mem_cons_of_mem c hmem)]

/-- Texts are translated one after the other unless a carriage return and a line feed meet. -/
theorem newlines_append {cs rest : List CodePoint}
    (h : cs.getLast? ≠ some (code_point '\r') ∨ rest.head? ≠ some (code_point '\n')) :
    universal_newlines (cs ++ rest) = universal_newlines cs ++ universal_newlines rest := by
  induction cs with
  | nil => rfl
  | cons c cs ih =>
    cases cs with
    | nil =>
      by_cases hc : c = code_point '\r'
      · have hfeed : rest.head? ≠ some (code_point '\n') := by simpa [hc] using h
        simp [universal_newlines, hc, hfeed]
      · simp [universal_newlines, hc]
    | cons d cs =>
      have hrest := ih (by simpa using h)
      by_cases hc : c = code_point '\r'
      · subst hc
        by_cases hd : d = code_point '\n'
        · simpa [universal_newlines, hd] using hrest
        · have hstep : ∀ t, universal_newlines (code_point '\r' :: d :: t) =
              code_point '\n' :: universal_newlines (d :: t) := by
            intro t
            rw [universal_newlines, if_pos rfl, if_neg (by simpa using hd)]
          rw [List.cons_append, List.cons_append, hstep, ← List.cons_append, hrest, hstep,
            List.cons_append]
      · rw [List.cons_append, newlines_cons hc, newlines_cons hc, hrest, List.cons_append]

theorem newlines_head {cs : List CodePoint} {c : CodePoint} (hc : c ≠ code_point '\n')
    (h : (universal_newlines cs).head? = some c) : cs.head? = some c := by
  cases cs with
  | nil => cases h
  | cons d cs =>
    by_cases hd : d = code_point '\r'
    · rw [universal_newlines, if_pos hd] at h
      split at h
      next hfeed =>
        cases cs with
        | nil => cases hfeed
        | cons e cs =>
          have he : e = code_point '\n' := by simpa using hfeed
          rw [he, newlines_cons (by decide), List.head?_cons, Option.some.injEq] at h
          exact absurd h.symm hc
      next =>
        rw [List.head?_cons, Option.some.injEq] at h
        exact absurd h.symm hc
    · rwa [newlines_cons hd] at h

/-- No end of a comment comes into being. -/
theorem newlines_unclosed {content : List CodePoint}
    (h : ¬[code_point '*', code_point '/'] <:+: content) :
    ¬[code_point '*', code_point '/'] <:+: universal_newlines content := by
  induction content with
  | nil => exact h
  | cons c cs ih =>
    have hcs : ¬[code_point '*', code_point '/'] <:+: cs := fun hin => h (List.infix_cons hin)
    have hnewline : ¬[code_point '*', code_point '/'] <:+:
        code_point '\n' :: universal_newlines cs := by
      rw [List.infix_cons_iff]
      rintro (hstart | hin)
      · rw [List.cons_prefix_cons] at hstart
        exact absurd hstart.1 (by decide)
      · exact ih hcs hin
    rw [universal_newlines]
    split
    · split
      · exact ih hcs
      · exact hnewline
    · rename_i hc
      rw [List.infix_cons_iff]
      rintro (hstart | hin)
      · obtain ⟨hstar, hslash⟩ := List.cons_prefix_cons.mp hstart
        subst hstar
        obtain ⟨after, hafter⟩ := hslash
        have hhead : cs.head? = some (code_point '/') :=
          newlines_head (by decide) (by rw [← hafter]; rfl)
        obtain ⟨tail, rfl⟩ := List.head?_eq_some_iff.mp hhead
        exact h ⟨[], tail, rfl⟩
      · exact ih hcs hin

/-- What is left of a comment: line feeds. -/
def Blanks (cs : List CodePoint) : Prop := ∀ c ∈ cs, c = code_point '\n'

theorem strip_line {content : List CodePoint} (h : ∀ c ∈ content, c ≠ code_point '\n')
    (rest : List CodePoint) :
    strip_comments .line_comment (content ++ code_point '\n' :: rest) =
      code_point '\n' :: strip_comments .outside rest := by
  induction content with
  | nil => rw [List.nil_append, strip_comments.eq_def]; simp
  | cons c content ih =>
    have hc := h c List.mem_cons_self
    rw [List.cons_append, strip_comments.eq_def]
    simp only [hc, if_false]
    exact ih fun d hd => h d (List.mem_cons_of_mem c hd)

theorem strip_block {content : List CodePoint} (h : ¬[code_point '*', code_point '/'] <:+: content) :
    ∃ blanks, Blanks blanks ∧ ∀ rest, strip_comments .block_comment
      (content ++ code_point '*' :: code_point '/' :: rest) =
        blanks ++ strip_comments .outside rest := by
  induction content with
  | nil =>
    refine ⟨[], by simp [Blanks], fun rest => ?_⟩
    rw [List.nil_append, strip_comments.eq_def]
    simp
  | cons c content ih =>
    obtain ⟨blanks, hblanks, hstrip⟩ := ih fun hin => h (List.infix_cons hin)
    have hopen : ∀ rest, ¬(c = code_point '*' ∧
        (content ++ code_point '*' :: code_point '/' :: rest).head? = some (code_point '/')) := by
      rintro rest ⟨hstar, hslash⟩
      cases content with
      | nil => exact absurd (Option.some.inj hslash) (by decide)
      | cons d content =>
        have hd : d = code_point '/' := by simpa using hslash
        exact h ⟨[], content, by simp [hstar, hd]⟩
    have hnext : ∀ rest, strip_comments .block_comment
        (c :: content ++ code_point '*' :: code_point '/' :: rest) =
          if c = code_point '\n' then c :: (blanks ++ strip_comments .outside rest)
          else blanks ++ strip_comments .outside rest := by
      intro rest
      rw [List.cons_append, strip_comments.eq_def]
      simp only [hopen rest, if_false, hstrip rest]
    by_cases hc : c = code_point '\n'
    · refine ⟨c :: blanks, ?_, fun rest => by rw [hnext rest, if_pos hc]; rfl⟩
      intro d hd
      rcases List.mem_cons.mp hd with rfl | hd
      · exact hc
      · exact hblanks d hd
    · exact ⟨blanks, hblanks, fun rest => by rw [hnext rest, if_neg hc]⟩

theorem strip_slash_slash (rest : List CodePoint) :
    strip_comments .outside (code_point '/' :: code_point '/' :: rest) =
      strip_comments .line_comment rest := by
  have hquote : code_point '/' ≠ code_point '"' := by decide
  rw [strip_comments.eq_def]
  simp [hquote]

theorem strip_slash_star (rest : List CodePoint) :
    strip_comments .outside (code_point '/' :: code_point '*' :: rest) =
      strip_comments .block_comment rest := by
  have hquote : code_point '/' ≠ code_point '"' := by decide
  have hstar : code_point '*' ≠ code_point '/' := by decide
  rw [strip_comments.eq_def]
  simp [hquote, hstar]

/-- Of a comment line feeds are left, and what follows is read on outside comments. -/
theorem strip_render (comment : Comment) : ∃ blanks, Blanks blanks ∧
    ∀ rest, strip_comments .outside (universal_newlines (comment.render ++ rest)) =
      blanks ++ strip_comments .outside (universal_newlines rest) := by
  cases comment with
  | line content hline =>
    refine ⟨[code_point '\n'], by simp [Blanks], fun rest => ?_⟩
    have hcontent : universal_newlines (content ++ [code_point '\n']) =
        content ++ [code_point '\n'] := by
      apply newlines_same
      intro hmem
      rcases List.mem_append.mp hmem with h | h
      · exact (hline _ h).2 rfl
      · exact absurd (List.mem_singleton.mp h) (by decide)
    have hlast : (content ++ [code_point '\n']).getLast? ≠ some (code_point '\r') := by
      simp
      decide
    rw [Comment.render, List.cons_append, List.cons_append, newlines_cons (by decide),
      newlines_cons (by decide), newlines_append (.inl hlast), hcontent, strip_slash_slash,
      List.append_assoc, List.singleton_append, strip_line fun c hc => (hline c hc).1]
    rfl
  | block content hopen =>
    obtain ⟨blanks, hblanks, hstrip⟩ := strip_block (newlines_unclosed hopen)
    refine ⟨blanks, hblanks, fun rest => ?_⟩
    have hclose : universal_newlines (content ++ code_point '*' :: code_point '/' :: rest) =
        universal_newlines content ++
          code_point '*' :: code_point '/' :: universal_newlines rest := by
      rw [newlines_append (.inr (by simp; decide)), newlines_cons (by decide),
        newlines_cons (by decide)]
    have hrender : (Comment.block content hopen).render ++ rest =
        code_point '/' :: code_point '*' ::
          (content ++ code_point '*' :: code_point '/' :: rest) := by
      simp [Comment.render]
    rw [hrender, newlines_cons (by decide), newlines_cons (by decide), hclose, strip_slash_star,
      hstrip]

theorem strip_renders (comments : List Comment) : ∃ blanks, Blanks blanks ∧
    ∀ rest, strip_comments .outside (universal_newlines (comments.flatMap Comment.render ++ rest)) =
      blanks ++ strip_comments .outside (universal_newlines rest) := by
  induction comments with
  | nil => exact ⟨[], by simp [Blanks], fun rest => rfl⟩
  | cons comment comments ih =>
    obtain ⟨first, hfirst, hcomment⟩ := strip_render comment
    obtain ⟨blanks, hblanks, hcomments⟩ := ih
    refine ⟨first ++ blanks, ?_, fun rest => ?_⟩
    · intro c hc
      rcases List.mem_append.mp hc with h | h
      · exact hfirst c h
      · exact hblanks c h
    · rw [List.flatMap_cons, List.append_assoc, hcomment, hcomments, List.append_assoc]

/-- The flags of the loop where the text stands. -/
def scan_at : Lex → Scan
  | .in_string escape => .in_string escape
  | _ => .outside

/-- Outside of its strings the text holds no slash. -/
def slashless : Lex → List CodePoint → Bool
  | _, [] => true
  | s, c :: cs => (c != code_point '/' || scan_at s != .outside) && slashless (s.next c) cs

theorem slashless_quoted {body text : List CodePoint} (h : Quoted body)
    (htext : slashless .between text = true) : slashless (.in_string false) (body ++ text) = true := by
  induction h with
  | close =>
    have hnext : (Lex.in_string false).next (code_point '"') = .between := by decide
    rw [List.singleton_append, slashless, hnext, htext]
    decide
  | plain hquote hslash _ ih => simp [slashless, scan_at, Lex.next, hquote, hslash, ih]
  | escaped _ ih =>
    have hnext : (Lex.in_string false).next (code_point '\\') = .in_string true := by decide
    rw [List.cons_append, List.cons_append, slashless, hnext, slashless]
    simp [scan_at, Lex.next, ih]

theorem slashless_tokens {text : List CodePoint} (h : Tokens text) :
    slashless .between text = true ∧ slashless .word text = true := by
  induction h with
  | nil => exact ⟨rfl, rfl⟩
  | @plain c text hquote hslash _ ih =>
    have hall : ∀ s, (s = Lex.between ∨ s = Lex.word) → slashless s text = true := by
      rintro s (rfl | rfl)
      · exact ih.1
      · exact ih.2
    have hnext : ∀ s, s = Lex.between ∨ s = Lex.word →
        (s.next c = Lex.between ∨ s.next c = Lex.word) := by
      rintro s (rfl | rfl) <;> cases hc : Text.separator c <;> simp [Lex.next, hquote, hc]
    have hone : ∀ s, s = Lex.between ∨ s = Lex.word → slashless s (c :: text) = true := by
      intro s hs
      rw [slashless, hall _ (hnext s hs)]
      simp [hslash]
    exact ⟨hone _ (.inl rfl), hone _ (.inr rfl)⟩
  | string hbody _ ih =>
    have hslash : code_point '"' ≠ code_point '/' := by decide
    have hquoted := slashless_quoted hbody ih.1
    constructor <;> simp [slashless, Lex.next, hquoted, hslash]

/-- A character of the text is kept, and the loop goes on where the text does. -/
theorem strip_char {s : Lex} {c : CodePoint} (h : c ≠ code_point '/' ∨ scan_at s ≠ .outside)
    (cs : List CodePoint) :
    strip_comments (scan_at s) (c :: cs) = c :: strip_comments (scan_at (s.next c)) cs := by
  have houtside : ∀ s : Lex, (s = .between ∨ s = .word) → c ≠ code_point '/' →
      strip_comments (scan_at s) (c :: cs) = c :: strip_comments (scan_at (s.next c)) cs := by
    intro s hs hslash
    have hscan : scan_at s = .outside := by rcases hs with rfl | rfl <;> rfl
    rw [hscan]
    by_cases hquote : c = code_point '"'
    · have hnext : s.next c = .in_string false := by
        rcases hs with rfl | rfl <;> simp [Lex.next, hquote]
      rw [hnext, hquote, strip_quote]
      rfl
    · have hnext : scan_at (s.next c) = .outside := by
        rcases hs with rfl | rfl <;> cases hc : Text.separator c <;>
          simp [Lex.next, hquote, hc, scan_at]
      rw [hnext, strip_outside hquote (by simp [comment_start, hslash])]
  cases s with
  | between => exact houtside _ (.inl rfl) (h.resolve_right (by simp [scan_at]))
  | word => exact houtside _ (.inr rfl) (h.resolve_right (by simp [scan_at]))
  | in_string escape =>
    have hnext : scan_at ((Lex.in_string escape).next c) = scan_of (string_step escape c) := by
      cases escape with
      | true => rfl
      | false =>
        by_cases hslash : c = code_point '\\'
        · simp [Lex.next, string_step, scan_of, scan_at, hslash]
        · have hclose : code_point '"' ≠ code_point '\\' := by decide
          by_cases hquote : c = code_point '"' <;>
            simp [Lex.next, string_step, scan_of, scan_at, hslash, hquote, hclose]
    rw [hnext]
    exact strip_in_string escape c cs

theorem blank_newline {blanks : List CodePoint} (h : Blanks blanks) :
    ∀ c ∈ blanks, whitespace c = true := by
  intro c hc
  rw [h c hc]
  decide

theorem scan_at_gap {s : Lex} {cs : List CodePoint} (h : s.gap cs = true) :
    scan_at s = .outside := by
  cases s with
  | in_string escape => cases h
  | between => rfl
  | word => rfl

/-- At a gap any white space may stand. -/
theorem padded_blanks {s : Lex} {cs cs' blanks : List CodePoint} (hgap : s.gap cs = true)
    (hblanks : ∀ c ∈ blanks, whitespace c = true)
    (h : Padded s cs cs') : Padded s cs (blanks ++ cs') := by
  have hbetween : Padded .between cs cs' := by
    cases s with
    | between => exact h
    | word => exact h.ended hgap
    | in_string escape => cases hgap
  have hall : ∀ blanks : List CodePoint, (∀ c ∈ blanks, whitespace c = true) →
      Padded .between cs (blanks ++ cs') := by
    intro blanks hblanks
    induction blanks with
    | nil => exact hbetween
    | cons c blanks ih =>
      exact .blank rfl (hblanks c List.mem_cons_self)
        (ih fun d hd => hblanks d (List.mem_cons_of_mem c hd))
  cases blanks with
  | nil => exact h
  | cons c blanks =>
    exact .blank hgap (hblanks c List.mem_cons_self)
      (hall blanks fun d hd => hblanks d (List.mem_cons_of_mem c hd))

/-- What the loop leaves of a text with comments is the text with white space in their place. -/
theorem strip_weave {s : Lex} {text : List CodePoint} (hslash : slashless s text = true)
    (hreturn : code_point '\r' ∉ text) (notes : Nat → List Comment) :
    Padded s text (strip_comments (scan_at s) (universal_newlines (weave s text notes))) := by
  induction text generalizing s notes with
  | nil =>
    rw [weave]
    split
    next hgap =>
      obtain ⟨blanks, hblanks, hstrip⟩ := strip_renders (notes 0)
      have hnil := hstrip []
      rw [List.append_nil] at hnil
      rw [scan_at_gap hgap, hnil]
      have hempty : strip_comments .outside (universal_newlines []) = [] := by
        simp [universal_newlines, strip_comments]
      rw [hempty]
      exact padded_blanks hgap (blank_newline hblanks) .nil
    next =>
      have hempty : strip_comments (scan_at s) (universal_newlines []) = [] := by
        simp [universal_newlines, strip_comments]
      rw [hempty]
      exact .nil
  | cons c cs ih =>
    rw [slashless, Bool.and_eq_true] at hslash
    have hc : c ≠ code_point '/' ∨ scan_at s ≠ .outside := by simpa using hslash.1
    have hrest := ih hslash.2 (fun hmem => hreturn (List.mem_cons_of_mem c hmem))
      fun i => notes (i + 1)
    have hplain : c ≠ code_point '\r' := fun heq => hreturn (by simp [heq])
    have hkept : ∀ t, strip_comments (scan_at s) (universal_newlines (c :: t)) =
        c :: strip_comments (scan_at (s.next c)) (universal_newlines t) := by
      intro t
      rw [newlines_cons hplain, strip_char hc]
    rw [weave]
    split
    next hgap =>
      obtain ⟨blanks, hblanks, hstrip⟩ := strip_renders (notes 0)
      have hoff := scan_at_gap hgap
      rw [hoff] at hkept ⊢
      rw [hstrip, hkept]
      exact padded_blanks hgap (blank_newline hblanks) (.char hrest)
    next =>
      rw [List.nil_append, hkept]
      exact .char hrest

/-- A JSON text is loaded as before wherever comments are put between its tokens, and without
comments it is left as it is. -/
theorem comments_stripped {read : List CodePoint → Rat} {text : List CodePoint} {v : Json}
    (h : loads read text = some v) (hreturn : code_point '\r' ∉ text) :
    (∀ notes : Nat → List Comment, load_jsonc_file read (weave .between text notes) = some v) ∧
      strip_comments .outside (universal_newlines text) = text := by
  have htokens := Text.loads_tokens h
  constructor
  · intro notes
    exact Text.loads_padded h (strip_weave (slashless_tokens htokens).1 hreturn notes)
  · rw [newlines_same hreturn, strip_tokens htokens]

theorem sample_comments_stripped :
    (∀ notes : Nat → List Comment,
        load_jsonc_file noFloats.read (weave .between plainConfig notes) =
          some (.object sampleConfig)) ∧
      strip_comments .outside (universal_newlines plainConfig) = plainConfig :=
  comments_stripped loads_sample (by decide +kernel)

/-- A comment with a quote in it after the brace, and one at the end that holds no line feed. -/
example : weave .between plainConfig (fun i =>
      if i = 1 then [.block [code_point '"'] (by decide)]
      else if i = 13 then [.block [code_point '*'] (by decide)] else []) =
    code_points "\x7b/*\"*/\"skip\": true/***/\x7d" := by decide +kernel

end Nitpicker
