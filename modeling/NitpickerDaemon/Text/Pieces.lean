import NitpickerDaemon.Text.Components

/-!
The pieces of a text between the occurrences of a word, and the lines of a text that are not
blank.
-/

set_option autoImplicit false

namespace Text

variable {α : Type}

section Pieces

variable {word : List α} {a : α}

/-- A word whose first character is nowhere else in it starts within a text before the word only
if it ends there. -/
theorem prefix_before_word (ha : a ∉ word) {c : α} {cs rest : List α}
    (h : a :: word <+: c :: cs ++ (a :: word ++ rest)) : a :: word <+: c :: cs := by
  rcases List.prefix_or_prefix_of_prefix h (List.prefix_append (c :: cs) _) with hword | ⟨more, hmore⟩
  · exact hword
  · have hover : more <+: a :: word ++ rest :=
      (List.prefix_append_right_inj (c :: cs)).mp (by rw [hmore]; exact h)
    cases more with
    | nil => rw [← hmore, List.append_nil]
    | cons d more =>
      obtain rfl : d = a := (List.cons_prefix_cons.mp hover).1
      injection hmore with hc hcs
      exact absurd (by simp [← hcs]) ha

/-- What does not have the word's first character does not open the word. -/
theorem infix_unopened {xs ys : List α} (h : a ∉ xs) :
    a :: word <:+: xs ++ ys ↔ a :: word <:+: ys := by
  induction xs with
  | nil => rfl
  | cons x xs ih =>
    have hx : ¬a :: word <+: x :: (xs ++ ys) :=
      fun hp => h (by simp [(List.cons_prefix_cons.mp hp).1])
    rw [List.cons_append, List.infix_cons_iff, or_iff_right hx,
      ih fun hmem => h (List.mem_cons_of_mem _ hmem)]

/-- A part that no occurrence of the word reaches into: a character that is not in the word stands
at each of its ends, and it lacks one that is. -/
def Fence (word part : List α) : Prop :=
  (∃ c ∈ part.head?, c ∉ word) ∧ (∃ c ∈ part.getLast?, c ∉ word) ∧ ∃ d ∈ word, d ∉ part

instance [DecidableEq α] (word part : List α) : Decidable (Fence word part) :=
  inferInstanceAs (Decidable (_ ∧ _ ∧ _))

theorem infix_fence {part xs ys : List α} (h : Fence word part) :
    word <:+: xs ++ (part ++ ys) ↔ word <:+: xs ∨ word <:+: ys := by
  obtain ⟨⟨c, hhead, hc⟩, ⟨e, hlast, he⟩, d, hd, hpart⟩ := h
  obtain ⟨first, rfl⟩ := List.getLast?_eq_some_iff.mp hlast
  have hleft : word <:+: xs ++ first ↔ word <:+: xs := by
    cases first with
    | nil => rw [List.append_nil]
    | cons c' first =>
      obtain rfl : c' = c := by simpa using hhead
      rw [infix_separated hc]
      exact or_iff_left fun hin => hpart (by simp [hin.subset hd])
  rw [List.append_assoc, List.singleton_append, ← List.append_assoc, infix_separated he, hleft]

/-- A text of values, each with its part behind it, has the word where a value has it. -/
theorem infix_values {ι : Type} {values : List ι} {value part : ι → List α} (hword : word ≠ [])
    (h : ∀ i ∈ values, Fence word (part i)) :
    word <:+: values.flatMap (fun i => value i ++ part i) ↔ ∃ i ∈ values, word <:+: value i := by
  induction values with
  | nil => simp [hword]
  | cons i values ih =>
    have hrest := ih fun i hi => h i (List.mem_cons_of_mem _ hi)
    rw [List.flatMap_cons, List.append_assoc, infix_fence (h i List.mem_cons_self), hrest]
    simp

variable [DecidableEq α]

/-- The pieces of a text between the occurrences of a word, where `skip` characters of an
occurrence are still to be passed. -/
def pieces_from (word : List α) : Nat → List α → List (List α)
  | _, [] => [[]]
  | skip + 1, _ :: cs => pieces_from word skip cs
  | 0, c :: cs =>
    if word <+: c :: cs then [] :: pieces_from word (word.length - 1) cs
    else (pieces_from word 0 cs).modifyHead (c :: ·)

/-- The pieces between the occurrences of a word, which are found from the left. -/
def pieces (word text : List α) : List (List α) := pieces_from word 0 text

theorem pieces_from_eq (skip : Nat) (text : List α) :
    pieces_from word skip text = pieces word (text.drop skip) := by
  induction text generalizing skip with
  | nil => cases skip <;> rfl
  | cons c cs ih =>
    cases skip with
    | zero => rfl
    | succ skip => exact ih skip

theorem pieces_cons {c : α} {cs : List α} (h : ¬word <+: c :: cs) :
    pieces word (c :: cs) = (pieces word cs).modifyHead (c :: ·) := by
  rw [pieces, pieces_from, if_neg h]
  rfl

theorem pieces_word (a : α) (word rest : List α) :
    pieces (a :: word) (a :: word ++ rest) = [] :: pieces (a :: word) rest := by
  have hword : a :: word <+: a :: (word ++ rest) := List.prefix_append (a :: word) rest
  rw [pieces, List.cons_append, pieces_from, if_pos hword, pieces_from_eq]
  simp

theorem pieces_ne_nil (a : α) (word text : List α) : pieces (a :: word) text ≠ [] := by
  induction text with
  | nil => simp [pieces, pieces_from]
  | cons c cs ih =>
    by_cases h : a :: word <+: c :: cs
    · obtain ⟨rest, hrest⟩ := h
      rw [← hrest, pieces_word]
      exact List.cons_ne_nil _ _
    · rw [pieces_cons h]
      simpa using ih

theorem head_pieces {piece : List α} {text : List α}
    (h : (pieces (a :: word) text).head? = some piece) : piece <+: text := by
  induction text generalizing piece with
  | nil =>
    cases h
    exact List.nil_prefix
  | cons c cs ih =>
    by_cases hword : a :: word <+: c :: cs
    · obtain ⟨rest, hrest⟩ := hword
      rw [← hrest, pieces_word] at h
      cases h
      exact List.nil_prefix
    · rw [pieces_cons hword, List.head?_modifyHead, Option.map_eq_some_iff] at h
      obtain ⟨first, hfirst, rfl⟩ := h
      exact (List.prefix_cons_inj c).mpr (ih hfirst)

/-- The pieces on both sides of an occurrence. -/
theorem pieces_append (ha : a ∉ word) (text rest : List α) :
    pieces (a :: word) (text ++ (a :: word ++ rest)) =
      pieces (a :: word) text ++ pieces (a :: word) rest := by
  induction hlen : text.length using Nat.strongRecOn generalizing text with
  | _ n ih =>
    cases text with
    | nil =>
      rw [List.nil_append, pieces_word]
      rfl
    | cons c cs =>
      by_cases hword : a :: word <+: c :: cs
      · obtain ⟨more, hmore⟩ := hword
        have hless : more.length < n := by
          rw [← hlen, ← hmore, List.length_append, List.length_cons]
          omega
        rw [← hmore, List.append_assoc, pieces_word, pieces_word, ih more.length hless more rfl]
        rfl
      · have hlong : ¬a :: word <+: c :: cs ++ (a :: word ++ rest) :=
          fun h => hword (prefix_before_word ha h)
        have hless : cs.length < n := by
          rw [← hlen, List.length_cons]
          omega
        rw [List.cons_append] at hlong ⊢
        rw [pieces_cons hlong, pieces_cons hword, ih cs.length hless cs rfl]
        cases hcs : pieces (a :: word) cs with
        | nil => exact absurd hcs (pieces_ne_nil a word cs)
        | cons piece ps => rfl

theorem pieces_free {text : List α} (h : ¬a :: word <:+: text) :
    pieces (a :: word) text = [text] := by
  induction text with
  | nil => rfl
  | cons c cs ih =>
    have hcs : ¬a :: word <:+: cs := fun hin => h (List.infix_cons hin)
    rw [pieces_cons fun hword => h hword.isInfix, ih hcs]
    rfl

/-- The word is in none of the pieces. -/
theorem not_infix_piece {text piece : List α} (h : piece ∈ pieces (a :: word) text) :
    ¬a :: word <:+: piece := by
  induction hlen : text.length using Nat.strongRecOn generalizing text piece with
  | _ n ih =>
    cases text with
    | nil =>
      obtain rfl := List.mem_singleton.mp h
      simp
    | cons c cs =>
      by_cases hword : a :: word <+: c :: cs
      · obtain ⟨more, hmore⟩ := hword
        have hless : more.length < n := by
          rw [← hlen, ← hmore, List.length_append, List.length_cons]
          omega
        rw [← hmore, pieces_word] at h
        rcases List.mem_cons.mp h with rfl | h
        · simp
        · exact ih more.length hless h rfl
      · have hless : cs.length < n := by
          rw [← hlen, List.length_cons]
          omega
        rw [pieces_cons hword] at h
        cases hcs : pieces (a :: word) cs with
        | nil => exact absurd hcs (pieces_ne_nil a word cs)
        | cons first ps =>
          rw [hcs, List.modifyHead_cons] at h
          rcases List.mem_cons.mp h with rfl | h
          · intro hin
            rcases List.infix_cons_iff.mp hin with hstart | hin
            · have hfirst : first <+: cs := head_pieces (by rw [hcs]; rfl)
              exact hword (hstart.trans ((List.prefix_cons_inj c).mpr hfirst))
            · exact ih cs.length hless (by rw [hcs]; exact List.mem_cons_self) rfl hin
          · exact ih cs.length hless (by rw [hcs]; exact List.mem_cons_of_mem _ h) rfl

/-- A text with the word in it has a piece on each side of an occurrence. -/
theorem infix_iff_pieces (ha : a ∉ word) {text : List α} :
    a :: word <:+: text ↔ 2 ≤ (pieces (a :: word) text).length := by
  constructor
  · rintro ⟨before, after, htext⟩
    have hbefore := List.length_pos_iff.mpr (pieces_ne_nil a word before)
    have hafter := List.length_pos_iff.mpr (pieces_ne_nil a word after)
    rw [← htext, List.append_assoc, pieces_append ha, List.length_append]
    omega
  · intro h
    by_contra hfree
    rw [pieces_free hfree, List.length_singleton] at h
    omega

end Pieces

section Lines

variable {p : α → Bool} {nl : α}

/-- The lines that are not blank. -/
def filled [BEq α] (p : α → Bool) (nl : α) (text : List α) : List (List α) :=
  (text.splitOn nl).filter fun line => !line.all p

theorem rdropWhile_joined (hnl : p nl = true) {lines : List (List α)} (h : lines ≠ []) :
    (joined nl lines).rdropWhile p = joined nl (trimEnd p lines) := by
  have hended := rdropWhile_unlines hnl lines
  rwa [unlines_eq_joined, joined_append h (List.cons_ne_nil _ _), joined,
    List.rdropWhile_concat_pos _ _ _ hnl] at hended

theorem all_iff_rdropWhile {line : List α} : line.all p = true ↔ line.rdropWhile p = [] := by
  rw [rdropWhile_nil_iff, List.all_eq_true]
  rfl

theorem trimEnd_nil_iff {lines : List (List α)} : trimEnd p lines = [] ↔
    lines.filter (fun line => !line.all p) = [] := by
  induction lines with
  | nil => simp [trimEnd]
  | cons line lines ih =>
    rw [trimEnd, List.filter_cons]
    by_cases hl : trimEnd p lines = []
    · rw [if_pos hl, ih.mp hl]
      by_cases hline : line.rdropWhile p = []
      · simp [hline, all_iff_rdropWhile.mpr hline]
      · have hall : line.all p = false := by
          rw [Bool.eq_false_iff]
          exact fun hall => hline (all_iff_rdropWhile.mp hall)
        simp [hline, hall]
    · rw [if_neg hl]
      refine iff_of_false (List.cons_ne_nil _ _) ?_
      have hrest : lines.filter (fun line => !line.all p) ≠ [] := fun hnil => hl (ih.mpr hnil)
      split
      · exact List.cons_ne_nil _ _
      · exact hrest

/-- The trim at the end of a text trims the last line that is not blank. -/
theorem filter_trimEnd (lines : List (List α)) :
    (trimEnd p lines).filter (fun line => !line.all p) =
      (lines.filter fun line => !line.all p).modifyLast (List.rdropWhile p) := by
  induction lines with
  | nil => rfl
  | cons line lines ih =>
    rw [trimEnd]
    by_cases hl : trimEnd p lines = []
    · rw [if_pos hl, List.filter_cons, trimEnd_nil_iff.mp hl]
      by_cases hline : line.rdropWhile p = []
      · simp [hline, all_iff_rdropWhile.mpr hline]
        rfl
      · have hall : line.all p = false := by
          rw [Bool.eq_false_iff]
          exact fun hall => hline (all_iff_rdropWhile.mp hall)
        have htrimmed : (line.rdropWhile p).all p = false := by
          rw [Bool.eq_false_iff]
          intro hall
          rw [all_iff_rdropWhile, List.rdropWhile_idempotent] at hall
          exact hline hall
        have hone := List.modifyLast_concat (List.rdropWhile p) line []
        simpa [hline, hall, htrimmed] using hone.symm
    · have hne : lines.filter (fun line => !line.all p) ≠ [] := fun hnil => hl (trimEnd_nil_iff.mpr hnil)
      rw [if_neg hl, List.filter_cons, List.filter_cons, ih]
      split
      · exact (List.modifyLast_append_of_right_ne_nil _ [line] _ hne).symm
      · rfl

variable [BEq α]

theorem filled_nil : filled p nl [] = [] := by
  simp [filled]

variable [LawfulBEq α]

theorem filled_append (xs ys : List α) :
    filled p nl (xs ++ nl :: ys) = filled p nl xs ++ filled p nl ys := by
  rw [filled, List.splitOn_append_cons_self, List.filter_append]
  rfl

theorem filled_dropWhile (text : List α) :
    filled p nl (text.dropWhile (· == nl)) = filled p nl text := by
  induction text with
  | nil => rfl
  | cons c cs ih =>
    by_cases hc : c = nl
    · subst hc
      have hempty := @filled_append α p c _ _ [] cs
      rw [filled_nil, List.nil_append, List.nil_append] at hempty
      rw [List.dropWhile_cons_of_pos (by simp), ih, hempty]
    · rw [List.dropWhile_cons_of_neg (by simpa using hc)]

theorem filled_rdropWhile (hnl : p nl = true) (text : List α) :
    filled p nl (text.rdropWhile p) = (filled p nl text).modifyLast (List.rdropWhile p) := by
  have hlines : text.splitOn nl ≠ [] := List.splitOn_ne_nil _ _
  have htrim := rdropWhile_joined hnl hlines
  rw [joined_splitOn] at htrim
  rw [filled, filled, htrim, ← filter_trimEnd]
  by_cases hnil : trimEnd p (text.splitOn nl) = []
  · simp [hnil, joined]
  · have hfree : ∀ line ∈ trimEnd p (text.splitOn nl), nl ∉ line := by
      intro line hline hmem
      obtain ⟨whole, hwhole, hsub⟩ := trimEnd_subset hline
      exact not_mem_splitOn hwhole (hsub nl hmem)
    rw [joined_eq_intercalate, List.splitOn_intercalate nl hfree hnil]

end Lines

end Text
