import NitpickerDaemon.AddedLines

/-!
Unified diffs of one file, and which of them both extractions of the added lines read exactly.
-/

set_option autoImplicit false

namespace Nitpicker

/-- A text that `str.splitlines` leaves whole. -/
structure Plain where
  text : List Char
  whole : ∀ c ∈ text, line_boundary c = false

namespace UnifiedDiff

inductive Line where
  | context (content : Plain)
  | removed (content : Plain)
  | added (content : Plain)
  /-- `\ No newline at end of file` -/
  | no_newline

def Line.sign : Line → Char
  | .context _ => ' '
  | .removed _ => '-'
  | .added _ => '+'
  | .no_newline => '\\'

def Line.content : Line → List Char
  | .context content | .removed content | .added content => content.text
  | .no_newline => " No newline at end of file".toList

def Line.render (line : Line) : List Char := line.sign :: line.content

def Line.in_old : Line → Bool
  | .context _ | .removed _ => true
  | .added _ | .no_newline => false

def Line.in_new : Line → Bool
  | .context _ | .added _ => true
  | .removed _ | .no_newline => false

def Line.added_text : Line → Option (List Char)
  | .added content => some content.text
  | _ => none

structure Hunk where
  old_start : Nat
  new_start : Nat
  heading : Option Plain
  lines : List Line

/-- The start of a range and, when it is not one line, its length. -/
def range (start length : Nat) : List Char :=
  if length = 1 then (toString start).toList
  else (toString start).toList ++ ',' :: (toString length).toList

def Hunk.header (hunk : Hunk) : List Char :=
  "@@ -".toList ++ range hunk.old_start (hunk.lines.countP Line.in_old) ++ " +".toList ++
    range hunk.new_start (hunk.lines.countP Line.in_new) ++ " @@".toList ++
    match hunk.heading with
    | some heading => ' ' :: heading.text
    | none => []

theorem Hunk.header_head (hunk : Hunk) : hunk.header.head? = some '@' := rfl

def Hunk.render (hunk : Hunk) : List (List Char) := hunk.header :: hunk.lines.map Line.render

end UnifiedDiff

open UnifiedDiff

/-- A diff of one file: git's extended header, the names and the hunks. -/
structure UnifiedDiff where
  extended : List Plain
  extended_git : ∀ line ∈ extended, ¬['+'] <+: line.text
  old_name : Plain
  new_name : Plain
  hunks : List Hunk

namespace UnifiedDiff

def lines (diff : UnifiedDiff) : List (List Char) :=
  diff.extended.map (·.text) ++ ["--- ".toList ++ diff.old_name.text,
    "+++ ".toList ++ diff.new_name.text] ++ diff.hunks.flatMap Hunk.render

/-- The text of the diff; its last line may lack the line feed. -/
def render (diff : UnifiedDiff) (ended : Bool) : String :=
  String.ofList (if ended then Text.unlines '\n' diff.lines else Text.joined '\n' diff.lines)

def added_contents (diff : UnifiedDiff) : List (List Char) :=
  diff.hunks.flatMap fun hunk => hunk.lines.filterMap Line.added_text

/-- The added lines, without their plus. -/
def added (diff : UnifiedDiff) : List String := diff.added_contents.map String.ofList

variable {diff : UnifiedDiff}

/-- The added lines the prefix of the file header hides. -/
def Hidden (content : List Char) : Prop := ['+', '+'] <+: content

instance (content : List Char) : Decidable (Hidden content) := by unfold Hidden; infer_instance

theorem added_texts_append (xs ys : List (List Char)) :
    added_texts (xs ++ ys) = added_texts xs ++ added_texts ys := by
  simp [added_texts]

theorem added_texts_cons_not {line : List Char} (h : ¬Added line) (lines : List (List Char)) :
    added_texts (line :: lines) = added_texts lines := by
  simp [added_texts, h]

theorem added_texts_none {lines : List (List Char)} (h : ∀ line ∈ lines, ¬Added line) :
    added_texts lines = [] := by
  induction lines with
  | nil => rfl
  | cons line lines ih =>
    rw [added_texts_cons_not (h line List.mem_cons_self)]
    exact ih fun l hl => h l (List.mem_cons_of_mem _ hl)

theorem not_added_of_head {line : List Char} (h : line.head? ≠ some '+') : ¬Added line := by
  intro hadded
  obtain ⟨content, rfl⟩ := added_plus hadded
  exact h rfl

theorem added_plus_iff {content : List Char} : Added ('+' :: content) ↔ ¬Hidden content := by
  simp [Added, Hidden]

/-- Of the lines of a hunk the prefixes pick the added ones that are not hidden. -/
theorem added_texts_body (lines : List Line) : added_texts (lines.map Line.render) =
    (lines.filterMap Line.added_text).filter fun content => decide (¬Hidden content) := by
  induction lines with
  | nil => rfl
  | cons line lines ih =>
    rw [List.map_cons, Line.render]
    cases hline : line.added_text with
    | some content =>
      cases line with
      | added plain =>
        cases hline
        by_cases h : Hidden plain.text
        · have hnot : ¬Added ((Line.added plain).sign :: (Line.added plain).content) :=
            fun hadded => added_plus_iff.mp hadded h
          rw [added_texts_cons_not hnot, ih]
          simp [Line.added_text, h]
        · have hadded : Added ('+' :: plain.text) := added_plus_iff.mpr h
          have hcons : added_texts (('+' :: plain.text) :: lines.map Line.render) =
              plain.text :: added_texts (lines.map Line.render) := by
            simp [added_texts, hadded]
          have hrender : (Line.added plain).sign :: (Line.added plain).content =
              '+' :: plain.text := rfl
          rw [hrender, hcons, ih]
          simp [Line.added_text, h]
      | _ => cases hline
    | none =>
      have hsign : line.sign ≠ '+' := by
        cases line with
        | added plain => cases hline
        | _ => simp [Line.sign]
      have hnot := @not_added_of_head (line.sign :: line.content) (by simpa using hsign)
      rw [added_texts_cons_not hnot, ih]
      simp [hline]

theorem added_texts_hunks (hunks : List Hunk) : added_texts (hunks.flatMap Hunk.render) =
    (hunks.flatMap fun hunk => hunk.lines.filterMap Line.added_text).filter
      fun content => decide (¬Hidden content) := by
  induction hunks with
  | nil => rfl
  | cons hunk hunks ih =>
    have hheader : ¬Added hunk.header := by
      apply not_added_of_head
      simp [Hunk.header_head]
    rw [List.flatMap_cons, added_texts_append, Hunk.render, added_texts_cons_not hheader,
      added_texts_body, ih, List.flatMap_cons, List.filter_append]

theorem added_texts_lines : added_texts diff.lines =
    diff.added_contents.filter fun content => decide (¬Hidden content) := by
  have hextended : added_texts (diff.extended.map (·.text)) = [] := by
    apply added_texts_none
    intro line hline hadded
    obtain ⟨plain, hplain, rfl⟩ := List.mem_map.mp hline
    exact diff.extended_git plain hplain hadded.1
  have hold : ¬Added ("--- ".toList ++ diff.old_name.text) := not_added_of_head (by simp)
  have hnew : ¬Added ("+++ ".toList ++ diff.new_name.text) := by
    intro h
    exact h.2 ⟨' ' :: diff.new_name.text, rfl⟩
  rw [lines, added_texts_append, added_texts_append, hextended, added_texts_cons_not hold,
    added_texts_cons_not hnew, added_texts_hunks]
  rfl

/-- No character of the text ends a line. -/
def Whole (text : List Char) : Prop := ∀ c ∈ text, line_boundary c = false

theorem Whole.append {xs ys : List Char} (hx : Whole xs) (hy : Whole ys) : Whole (xs ++ ys) := by
  intro c hc
  rcases List.mem_append.mp hc with h | h
  · exact hx c h
  · exact hy c h

theorem Whole.cons {c : Char} {xs : List Char} (hc : line_boundary c = false) (hx : Whole xs) :
    Whole (c :: xs) := by
  intro d hd
  rcases List.mem_cons.mp hd with rfl | h
  · exact hc
  · exact hx d h

theorem whole_number (n : Nat) : Whole (toString n).toList := by
  intro c hc
  rw [Nat.toString_eq_repr, Nat.toList_repr] at hc
  have hdigit := Nat.isDigit_of_mem_toDigits (by decide) (by decide) hc
  simp only [Char.isDigit, Bool.and_eq_true, decide_eq_true_eq] at hdigit
  have hlow : 48 ≤ c.toNat := hdigit.1
  have hhigh : c.toNat ≤ 57 := hdigit.2
  simp only [line_boundary, Bool.or_eq_false_iff, Bool.and_eq_false_iff, decide_eq_false_iff_not,
    beq_eq_false_iff_ne]
  omega

theorem whole_range (start length : Nat) : Whole (range start length) := by
  unfold range
  split
  · exact whole_number start
  · exact (whole_number start).append ((whole_number length).cons (by decide))

theorem whole_header (hunk : Hunk) : Whole hunk.header := by
  have hopen : Whole "@@ -".toList := by simp [Whole, line_boundary]
  have hplus : Whole " +".toList := by simp [Whole, line_boundary]
  have hclose : Whole " @@".toList := by simp [Whole, line_boundary]
  have hheading : Whole (match hunk.heading with
      | some heading => ' ' :: heading.text
      | none => []) := by
    cases hunk.heading with
    | none => exact fun c hc => absurd hc (by simp)
    | some heading => exact Whole.cons (by decide) heading.whole
  unfold Hunk.header
  exact ((((hopen.append (whole_range _ _)).append hplus).append (whole_range _ _)).append
    hclose).append hheading

theorem whole_line (line : Line) : Whole line.render := by
  cases line with
  | no_newline =>
    have hmarker : Whole " No newline at end of file".toList := by simp [Whole, line_boundary]
    exact Whole.cons rfl hmarker
  | context content => exact Whole.cons rfl content.whole
  | removed content => exact Whole.cons rfl content.whole
  | added content => exact Whole.cons rfl content.whole

theorem whole_lines {line : List Char} (h : line ∈ diff.lines) : Whole line := by
  have hold : Whole "--- ".toList := by simp [Whole, line_boundary]
  have hnew : Whole "+++ ".toList := by simp [Whole, line_boundary]
  simp only [lines, List.mem_append, List.mem_map, List.mem_cons, List.not_mem_nil, or_false,
    List.mem_flatMap, Hunk.render] at h
  rcases h with (⟨plain, -, rfl⟩ | rfl | rfl) | ⟨hunk, -, rfl | ⟨line, -, rfl⟩⟩
  · exact plain.whole
  · exact hold.append diff.old_name.whole
  · exact hnew.append diff.new_name.whole
  · exact whole_header hunk
  · exact whole_line line

/-- The last line of a diff is not empty. -/
theorem lines_last : diff.lines.getLast? ≠ some [] := by
  intro h
  rw [lines, List.append_assoc, List.getLast?_append_of_ne_nil _ (by simp)] at h
  have hmem := List.mem_of_getLast? h
  simp only [List.mem_append, List.mem_cons, List.not_mem_nil, or_false, List.mem_flatMap,
    Hunk.render, List.mem_map] at hmem
  rcases hmem with (hold | hnew) | ⟨hunk, -, hheader | ⟨line, -, hline⟩⟩
  · simp at hold
  · simp at hnew
  · have hhead := hunk.header_head
    simp [← hheader] at hhead
  · cases hline

theorem render_toList (ended : Bool) : (diff.render ended).toList =
    if ended then Text.unlines '\n' diff.lines else Text.joined '\n' diff.lines := by
  rw [render, String.toList_ofList]

theorem newline_not_mem {line : List Char} (h : Whole line) : '\n' ∉ line := by
  intro hmem
  have hboundary := h _ hmem
  cases hboundary

/-- The regular expression finds the added lines that are not hidden. -/
theorem matched_lines_render (ended : Bool) : matched_lines (diff.render ended) =
    (diff.added_contents.filter fun content => decide (¬Hidden content)).map String.ofList := by
  have hlines : ∀ line ∈ diff.lines, '\n' ∉ line := fun line hline =>
    newline_not_mem (whole_lines hline)
  have hchars : (ADDED_LINE_RE.finditer 0 [] (diff.render ended).toList).map (·.group 1) =
      added_texts diff.lines := by
    rw [render_toList]
    cases ended with
    | true =>
      have hmore : ∀ line ∈ diff.lines ++ [[]], '\n' ∉ line := by
        intro line hline
        rcases List.mem_append.mp hline with h | h
        · exact hlines line h
        · simp [List.mem_singleton.mp h]
      have hempty : added_texts [[]] = [] := by decide
      rw [if_pos rfl, Text.unlines_eq_joined, matched_lines_joined hmore, added_texts_append,
        hempty, List.append_nil]
    | false => rw [if_neg (by simp), matched_lines_joined hlines]
  rw [← added_texts_lines, ← hchars, List.map_map]
  rfl

/-- So do the prefixes. -/
theorem prefixed_lines_render (ended : Bool) : prefixed_lines (diff.render ended) =
    (diff.added_contents.filter fun content => decide (¬Hidden content)).map String.ofList := by
  have hread : splitlines_chars [] (diff.render ended).toList = diff.lines := by
    rw [render_toList]
    cases ended with
    | true => exact splitlines_unlines fun line hline => whole_lines hline
    | false => exact splitlines_joined (fun line hline => whole_lines hline) lines_last
  rw [prefixed_lines_eq, hread, added_texts_lines]

/-- The domain rules then see the reviewable ones of the added lines that are not hidden. -/
theorem reviewable_render (ended : Bool) :
    DomainRuleAgent.reviewable_added_lines (diff.render ended) = "\n".intercalate
      (((diff.added_contents.filter fun content => decide (¬Hidden content)).map
        String.ofList).filter DomainRuleAgent.reviewable) := by
  rw [DomainRuleAgent.reviewable_added_lines, matched_lines_render]

end UnifiedDiff

/-- Both extractions return the added lines of a diff exactly when no added line begins with
`++`. -/
theorem added_lines_exact_iff (diff : UnifiedDiff) (ended : Bool) :
    (matched_lines (diff.render ended) = diff.added ∧
      prefixed_lines (diff.render ended) = diff.added) ↔
        ∀ content ∈ diff.added, startswith "++" content = false := by
  have hinjective : Function.Injective String.ofList := by
    intro xs ys h
    exact String.ofList_inj.mp h
  have hfilter : (diff.added_contents.filter fun content => decide (¬UnifiedDiff.Hidden content)).map
      String.ofList = diff.added ↔ ∀ content ∈ diff.added_contents, ¬UnifiedDiff.Hidden content := by
    rw [UnifiedDiff.added, (List.map_injective_iff.mpr hinjective).eq_iff, List.filter_eq_self]
    simp
  have hadded : (∀ content ∈ diff.added, startswith "++" content = false) ↔
      ∀ content ∈ diff.added_contents, ¬UnifiedDiff.Hidden content := by
    simp [UnifiedDiff.added, startswith, UnifiedDiff.Hidden, ← Bool.not_eq_true,
      List.isPrefixOf_iff_prefix]
  rw [UnifiedDiff.matched_lines_render, UnifiedDiff.prefixed_lines_render, and_self, hfilter,
    hadded]

/-- A diff that adds the line `++count;`. -/
def increment : UnifiedDiff where
  extended := []
  extended_git := by simp
  old_name := ⟨['a', '/', 'x', '.', 'c'], by simp [line_boundary]⟩
  new_name := ⟨['b', '/', 'x', '.', 'c'], by simp [line_boundary]⟩
  hunks := [⟨7, 7, none, [.context ⟨['l', 'o', 'o', 'p'], by simp [line_boundary]⟩,
    .added ⟨['+', '+', 'c', 'o', 'u', 'n', 't', ';'], by simp [line_boundary]⟩]⟩]

/-- Neither extraction sees the line. -/
theorem increment_hidden : increment.added = ["++count;"] ∧
    matched_lines (increment.render true) = [] ∧ prefixed_lines (increment.render true) = [] := by
  have hfilter : increment.added_contents.filter
      (fun content => decide (¬UnifiedDiff.Hidden content)) = [] := by decide
  rw [UnifiedDiff.matched_lines_render, UnifiedDiff.prefixed_lines_render, hfilter]
  exact ⟨rfl, rfl, rfl⟩

end Nitpicker
