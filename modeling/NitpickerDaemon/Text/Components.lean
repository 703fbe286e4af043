import NitpickerDaemon.Text.Lines

/-!
The pieces of a list between its separators, without the empty ones at its end.
-/

set_option autoImplicit false

namespace Text

variable {α : Type} {sep : α} {xs ys : List α}

theorem joined_append {nl : α} {lines lines' : List (List α)} (h : lines ≠ [])
    (h' : lines' ≠ []) : joined nl (lines ++ lines') = joined nl lines ++ nl :: joined nl lines' := by
  induction lines with
  | nil => exact absurd rfl h
  | cons line lines ih =>
    rw [List.cons_append, joined_cons (by simp [h'])]
    cases lines with
    | nil => simp [joined]
    | cons next lines =>
      rw [ih (List.cons_ne_nil _ _), joined_cons (List.cons_ne_nil _ _)]
      simp

/-- `ys` is `xs`, or goes on from it with a separator. -/
def GoesOn (sep : α) (xs ys : List α) : Prop := ∃ zs, ys = xs ++ zs ∧ ∀ z ∈ zs.head?, z = sep

theorem goesOn_iff : GoesOn sep xs ys ↔ ys = xs ∨ xs ++ [sep] <+: ys := by
  constructor
  · rintro ⟨zs, rfl, hzs⟩
    cases zs with
    | nil => simp
    | cons z zs =>
      obtain rfl := hzs z rfl
      exact .inr ⟨zs, by simp⟩
  · rintro (rfl | ⟨zs, rfl⟩)
    · exact ⟨[], by simp, by simp⟩
    · exact ⟨sep :: zs, by simp, by simp⟩

theorem GoesOn.append_replicate (h : GoesOn sep xs ys) (n : Nat) :
    GoesOn sep xs (ys ++ List.replicate n sep) := by
  obtain ⟨zs, rfl, hzs⟩ := h
  refine ⟨zs ++ List.replicate n sep, by simp, fun z hz => ?_⟩
  cases zs with
  | nil =>
    rw [List.nil_append] at hz
    exact List.eq_of_mem_replicate (List.mem_of_head? hz)
  | cons c zs => exact hzs z hz

section Split

variable [BEq α] [LawfulBEq α]

theorem splitOn_prefix_iff : xs.splitOn sep <+: ys.splitOn sep ↔ GoesOn sep xs ys := by
  rw [goesOn_iff]
  constructor
  · rintro ⟨rest, hrest⟩
    have hys := joined_splitOn sep ys
    rw [← hrest] at hys
    cases rest with
    | nil =>
      rw [List.append_nil, joined_splitOn] at hys
      exact .inl hys.symm
    | cons piece pieces =>
      rw [joined_append (List.splitOn_ne_nil _ _) (List.cons_ne_nil _ _), joined_splitOn] at hys
      exact .inr ⟨joined sep (piece :: pieces), by simpa using hys⟩
  · rintro (rfl | ⟨rest, rfl⟩)
    · exact List.prefix_rfl
    · rw [List.append_assoc, List.singleton_append, List.splitOn_append_cons_self]
      exact List.prefix_append _ _

/-- The list without the separators at its end. -/
def trimmed (sep : α) (xs : List α) : List α := xs.rdropWhile (· == sep)

theorem trimmed_append (sep : α) (xs : List α) :
    ∃ n, xs = trimmed sep xs ++ List.replicate n sep := by
  refine ⟨(xs.rtakeWhile (· == sep)).length, ?_⟩
  have hseps : xs.rtakeWhile (· == sep) =
      List.replicate (xs.rtakeWhile (· == sep)).length sep := by
    refine List.eq_replicate_iff.mpr ⟨rfl, fun c hc => ?_⟩
    have hsep := List.mem_rtakeWhile_imp hc
    exact beq_iff_eq.mp hsep
  rw [← hseps, trimmed, List.rdropWhile_append_rtakeWhile]

theorem trimmed_last : (trimmed sep xs).getLast? ≠ some sep := by
  intro hlast
  have hne : trimmed sep xs ≠ [] := by
    intro hnil
    rw [hnil] at hlast
    cases hlast
  have hkept := List.rdropWhile_last_not (· == sep) xs hne
  rw [List.getLast?_eq_some_getLast hne] at hlast
  exact hkept (beq_iff_eq.mpr (Option.some.inj hlast))

theorem trimmed_self (h : xs.getLast? ≠ some sep) : trimmed sep xs = xs := by
  obtain ⟨n, hn⟩ := trimmed_append sep xs
  cases n with
  | zero => simpa using hn.symm
  | succ n =>
    refine absurd ?_ h
    rw [hn, List.replicate_succ', ← List.append_assoc]
    simp

/-- The pieces between the separators; those at the end of the list end nothing. -/
def components (sep : α) (xs : List α) : List (List α) := (trimmed sep xs).splitOn sep

/-- The components of `xs` begin those of `ys` just when `ys` goes on from `xs`, up to the
separators at the end of `xs`. -/
theorem components_prefix_iff :
    components sep xs <+: components sep ys ↔ GoesOn sep (trimmed sep xs) ys := by
  unfold components
  rw [splitOn_prefix_iff]
  obtain ⟨n, hn⟩ := trimmed_append sep ys
  constructor
  · intro h
    rw [hn]
    exact h.append_replicate n
  · rintro ⟨zs, hys, hzs⟩
    have hsame : trimmed sep xs ++ zs = trimmed sep ys ++ List.replicate n sep := by rw [← hys, ← hn]
    rcases List.append_eq_append_iff.mp hsame with ⟨more, htrim, hrest⟩ | ⟨more, htrim, hrest⟩
    · refine ⟨more, htrim, fun z hz => hzs z ?_⟩
      rw [hrest, List.head?_append, Option.mem_def.mp hz]
      rfl
    · -- the trimmed list would end in a separator
      cases hlast : more.getLast? with
      | none =>
        rw [List.getLast?_eq_none_iff.mp hlast, List.append_nil] at htrim
        exact ⟨[], by simp [htrim], by simp⟩
      | some c =>
        have hmem : c ∈ List.replicate n sep := by
          rw [hrest]
          exact List.mem_append_left _ (List.mem_of_getLast? hlast)
        refine absurd ?_ (@trimmed_last α sep xs _ _)
        rw [htrim, List.getLast?_append, hlast, List.eq_of_mem_replicate hmem]
        rfl

end Split

end Text
