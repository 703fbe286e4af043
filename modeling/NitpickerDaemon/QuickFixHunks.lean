import NitpickerDaemon.GitDiff
import NitpickerDaemon.LineNotions
import NitpickerDaemon.QuickFix

/-!
How `_parse_hunk_ranges` reads a diff of git.
-/

set_option autoImplicit false

namespace Nitpicker

open Text GitDiff
open UnifiedDiff (range Whole whole_range)

section Header

variable {before rest : List Char} {groups : List (Nat × List Char)}

end Header

/-- What `str.splitlines` makes of a line with its line feed. -/
def pieces (line : List Char) : List (List Char) := splitlines_chars [] (line ++ ['\n'])

section Pieces

variable {begun line rest : List Char} {c : Char}

theorem splitlines_chars_cr (begun : List Char) (h : rest.head? ≠ some '\n') :
    splitlines_chars begun ('\r' :: rest) = begun :: splitlines_chars [] rest := by
  rw [splitlines_chars]
  · rw [if_pos (by decide)]
  · rintro cs - rfl
    exact h rfl

theorem splitlines_begun (hline : '\n' ∉ line) (begun : List Char) :
    splitlines_chars begun (line ++ ['\n']) = (pieces line).modifyHead (begun ++ ·) := by
  unfold pieces
  induction line generalizing begun with
  | nil => simp [splitlines_chars, line_boundary]
  | cons c line ih =>
    have hnewline : '\n' ∉ line := fun hmem => hline (List.mem_cons_of_mem _ hmem)
    rw [List.cons_append]
    cases hb : line_boundary c with
    | false =>
      rw [splitlines_chars_plain hb, splitlines_chars_plain hb, ih hnewline, ih hnewline ([] ++ [c]),
        List.modifyHead_modifyHead]
      simp [Function.comp_def]
    | true =>
      by_cases hcr : c = '\r'
      · subst hcr
        cases line with
        | nil => simp [splitlines_chars]
        | cons d line =>
          have hd : d ≠ '\n' := fun heq => hnewline (by simp [heq])
          have hhead : (d :: line ++ ['\n']).head? ≠ some '\n' := by simp [hd]
          rw [splitlines_chars_cr begun hhead, splitlines_chars_cr [] hhead]
          simp
      · rw [splitlines_chars_boundary hb hcr, splitlines_chars_boundary hb hcr]
        simp

/-- The first piece begins with what no boundary is in. -/
theorem pieces_append {whole : List Char} (hwhole : Whole whole) (hline : '\n' ∉ line) :
    pieces (whole ++ line) = (pieces line).modifyHead (whole ++ ·) := by
  rw [pieces, List.append_assoc, splitlines_chars_append hwhole, List.nil_append,
    splitlines_begun hline]

theorem splitlines_ne_nil {cs : List Char} (h : begun ≠ [] ∨ cs ≠ []) :
    splitlines_chars begun cs ≠ [] := by
  fun_induction splitlines_chars begun cs with
  | case1 => simp at h
  | case2 => simp
  | case3 => simp
  | case4 => simp
  | case5 begun c cs hcr hb ih => exact ih (.inl (by simp))

theorem pieces_ne_nil (line : List Char) : pieces line ≠ [] := splitlines_ne_nil (.inr (by simp))

end Pieces

namespace GitDiff

/-- The pieces of a hunk after the ranges, which the parser takes line by line. -/
def Hunk.body (hunk : Hunk) : List (List Char) := (hunk.render.flatMap pieces).tail

/-- What the parser returns for a hunk. -/
def Hunk.parsed (hunk : Hunk) : HunkRange :=
  ⟨hunk.old_start - 1, hunk.old_start - 1 + hunk.old_side.length, hunk.body.flatMap new_line⟩

/-- No header stands behind another line boundary in the middle of a line. -/
def Readable (diff : GitDiff) : Prop :=
  ∀ line ∈ diff.rendered, ∀ piece ∈ (pieces line).tail, hunk_header piece = none

end GitDiff

namespace HunkParser

variable {lines : List (List Char)}

end HunkParser

section Parse

variable {diff : GitDiff} {hunk : Hunk}

theorem number_no_feed (n : Nat) : '\n' ∉ (toString n).toList :=
  UnifiedDiff.newline_not_mem (UnifiedDiff.whole_number n)

end Parse

end Nitpicker
