import Mathlib

/-!
Lines of a text over any alphabet: what is left of a list of lines when blank space is cut off
both ends of the text, and in which parts of a text a word can occur.
-/

set_option autoImplicit false

namespace Text

variable {α : Type}

/-- The lines, each ended by `nl`. -/
def unlines (nl : α) : List (List α) → List α
  | [] => []
  | line :: lines => line ++ nl :: unlines nl lines

theorem unlines_append (nl : α) (xs ys : List (List α)) :
    unlines nl (xs ++ ys) = unlines nl xs ++ unlines nl ys := by
  induction xs with
  | nil => rfl
  | cons x xs ih => simp [unlines, ih]

/-- The lines with `nl` between them. -/
def joined (nl : α) : List (List α) → List α
  | [] => []
  | [line] => line
  | line :: line' :: lines => line ++ nl :: joined nl (line' :: lines)

variable (p : α → Bool)

/-- The line holds nothing but blanks. -/
def Blank (line : List α) : Prop := ∀ c ∈ line, p c = true

/-- The lines of a text without the blanks at its start. -/
def trimStart : List (List α) → List (List α)
  | [] => []
  | line :: lines =>
    if line.dropWhile p = [] then trimStart lines else line.dropWhile p :: lines

/-- The lines of a text without the blanks at its end. -/
def trimEnd : List (List α) → List (List α)
  | [] => []
  | line :: lines =>
    if trimEnd lines = [] then
      if line.rdropWhile p = [] then [] else [line.rdropWhile p]
    else line :: trimEnd lines

variable {p} {nl : α}

theorem blank_iff {line : List α} : Blank p line ↔ line.dropWhile p = [] := by
  rw [List.dropWhile_eq_nil_iff]
  rfl

theorem rdropWhile_nil_iff {line : List α} : line.rdropWhile p = [] ↔ Blank p line :=
  List.rdropWhile_eq_nil_iff

theorem rdropWhile_append {xs ys : List α} : (xs ++ ys).rdropWhile p =
    if ys.rdropWhile p = [] then xs.rdropWhile p else xs ++ ys.rdropWhile p := by
  simp only [List.rdropWhile, List.reverse_append, List.dropWhile_append, List.isEmpty_iff,
    List.reverse_eq_nil_iff]
  split
  · rfl
  · simp

theorem joined_cons {line : List α} {lines : List (List α)} (h : lines ≠ []) :
    joined nl (line :: lines) = line ++ nl :: joined nl lines := by
  cases lines with
  | nil => exact absurd rfl h
  | cons line' lines => rfl

theorem joined_ne_nil {lines : List (List α)} (h : trimEnd p lines ≠ []) :
    joined nl (trimEnd p lines) ≠ [] := by
  induction lines with
  | nil => exact absurd rfl h
  | cons line lines ih =>
    rw [trimEnd] at h ⊢
    by_cases hl : trimEnd p lines = []
    · by_cases hline : line.rdropWhile p = []
      · simp [hl, hline] at h
      · simp [hl, hline, joined]
    · rw [if_neg hl, joined_cons hl]
      simp

theorem rdropWhile_unlines (hnl : p nl = true) (lines : List (List α)) :
    (unlines nl lines).rdropWhile p = joined nl (trimEnd p lines) := by
  induction lines with
  | nil => rfl
  | cons line lines ih =>
    have hcons : line ++ nl :: unlines nl lines = (line ++ [nl]) ++ unlines nl lines := by simp
    rw [unlines, hcons, rdropWhile_append, ih, trimEnd]
    by_cases hl : trimEnd p lines = []
    · have hline : (line ++ [nl]).rdropWhile p = line.rdropWhile p := by
        rw [List.rdropWhile_concat, if_pos hnl]
      by_cases hblank : line.rdropWhile p = []
      · simp [hl, hline, hblank, joined]
      · simp [hl, hline, hblank, joined]
    · rw [if_neg (joined_ne_nil hl), if_neg hl, joined_cons hl]
      simp

theorem trimEnd_subset {line : List α} {lines : List (List α)} (h : line ∈ trimEnd p lines) :
    ∃ l ∈ lines, ∀ c ∈ line, c ∈ l := by
  induction lines with
  | nil => cases h
  | cons l lines ih =>
    rw [trimEnd] at h
    split at h
    · split at h
      · cases h
      · rw [List.mem_singleton.mp h]
        exact ⟨l, List.mem_cons_self, fun c hc => (List.rdropWhile_prefix p _).subset hc⟩
    · rcases List.mem_cons.mp h with rfl | h
      · exact ⟨line, List.mem_cons_self, fun c hc => hc⟩
      · obtain ⟨l', hmem, hsub⟩ := ih h
        exact ⟨l', List.mem_cons_of_mem _ hmem, hsub⟩

/-- A word without `c` at the start of `xs ++ c :: ys` ends before `c`. -/
theorem prefix_separated {word xs ys : List α} {c : α} (hc : c ∉ word)
    (h : word <+: xs ++ c :: ys) : word <+: xs := by
  rcases List.prefix_or_prefix_of_prefix h (List.prefix_append xs (c :: ys)) with hword | hxs
  · exact hword
  · obtain ⟨rest, rfl⟩ := hxs
    have hrest : rest <+: c :: ys := (List.prefix_append_right_inj xs).mp h
    cases rest with
    | nil => simp
    | cons x rest =>
      have hx : x = c := (List.cons_prefix_cons.mp hrest).1
      exact absurd (by simp [hx]) hc

/-- A word without `c` that occurs in `xs ++ c :: ys` occurs on one side of `c`. -/
theorem infix_separated {word xs ys : List α} {c : α} (hc : c ∉ word) :
    word <:+: xs ++ c :: ys ↔ word <:+: xs ∨ word <:+: ys := by
  constructor
  · intro h
    induction xs with
    | nil =>
      rw [List.nil_append] at h
      rcases List.infix_cons_iff.mp h with hp | hi
      · cases word with
        | nil => exact .inl (List.nil_infix)
        | cons x word =>
          have hx : x = c := (List.cons_prefix_cons.mp hp).1
          exact absurd (by simp [hx]) hc
      · exact .inr hi
    | cons x xs ih =>
      rw [List.cons_append] at h
      rcases List.infix_cons_iff.mp h with hp | hi
      · have hprefix : word <+: x :: xs := prefix_separated hc hp
        exact .inl hprefix.isInfix
      · rcases ih hi with hl | hr
        · exact .inl (List.infix_cons hl)
        · exact .inr hr
  · intro h
    rcases h with h | h
    · exact h.trans (List.prefix_append xs _).isInfix
    · exact h.trans ((List.suffix_cons c ys).trans (List.suffix_append xs _)).isInfix

variable {β : Type} {f : α → β}

/-- A word that `f c` is not in occurs in the image of a text exactly when it occurs between two
`c` of it. -/
theorem infix_map_splitOn [BEq α] [LawfulBEq α] {word : List β} {xs : List α} {c : α}
    (hc : f c ∉ word) (hne : word ≠ []) :
    word <:+: xs.map f ↔ ∃ line ∈ xs.splitOn c, word <:+: line.map f := by
  have hlines : ∀ lines : List (List α),
      word <:+: ([c].intercalate lines).map f ↔ ∃ line ∈ lines, word <:+: line.map f := by
    intro lines
    induction lines with
    | nil => simp [hne]
    | cons line lines ih =>
      cases lines with
      | nil => simp
      | cons line' lines =>
        have hcons : ([c].intercalate (line :: line' :: lines)).map f =
            line.map f ++ f c :: ([c].intercalate (line' :: lines)).map f := by
          simp [List.intercalate]
        rw [hcons, infix_separated hc, ih]
        simp
  rw [← hlines, List.intercalate_splitOn]

theorem infix_map_rdropWhile [BEq α] [LawfulBEq α] {word : List β} {xs : List α} {c : α}
    (hc : f c ∉ word) : word <:+: (xs.rdropWhile (· == c)).map f ↔ word <:+: xs.map f := by
  induction xs using List.reverseRecOn with
  | nil => simp
  | append_singleton xs x ih =>
    rw [List.rdropWhile_concat]
    by_cases hx : x = c
    · subst hx
      have hlast : word <:+: xs.map f ++ f x :: [] ↔ word <:+: xs.map f := by
        rw [infix_separated hc]
        constructor
        · intro h
          rcases h with h | h
          · exact h
          · rw [List.infix_nil.mp h]
            exact List.nil_infix
        · exact .inl
      simp [ih, hlast]
    · simp [hx]

theorem joined_eq_intercalate (nl : α) (lines : List (List α)) :
    joined nl lines = [nl].intercalate lines := by
  induction lines with
  | nil => rfl
  | cons line lines ih =>
    cases lines with
    | nil => simp [joined]
    | cons line' lines => simp [joined, ih, List.intercalate]

theorem unlines_eq_joined (nl : α) (lines : List (List α)) :
    unlines nl lines = joined nl (lines ++ [[]]) := by
  induction lines with
  | nil => rfl
  | cons line lines ih => rw [unlines, ih, List.cons_append, joined_cons (by simp)]

theorem joined_splitOn [BEq α] [LawfulBEq α] (nl : α) (xs : List α) :
    joined nl (xs.splitOn nl) = xs := by
  rw [joined_eq_intercalate, List.intercalate_splitOn]

theorem not_mem_splitOn [BEq α] [LawfulBEq α] {nl : α} {xs line : List α}
    (h : line ∈ xs.splitOn nl) : nl ∉ line := by
  induction xs generalizing line with
  | nil =>
    rw [List.splitOn_nil, List.mem_singleton] at h
    simp [h]
  | cons x xs ih =>
    rw [List.splitOn_cons_eq_if_modifyHead] at h
    split at h
    · rcases List.mem_cons.mp h with rfl | h
      · simp
      · exact ih h
    · rename_i hx
      cases hs : xs.splitOn nl with
      | nil => simp [hs] at h
      | cons first others =>
        rw [hs, List.modifyHead_cons] at h
        rcases List.mem_cons.mp h with rfl | h
        · have hfirst := @ih first (by simp [hs])
          have hne : nl ≠ x := fun heq => hx (by simp [heq])
          simp [hfirst, hne]
        · exact ih (by simp [hs, h])

end Text
