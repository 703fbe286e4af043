import NitpickerDaemon.QuickFixHunks

/-!
What a client makes of a document with the edits of the published patch, and when that is what the
patch makes of it.
-/

set_option autoImplicit false

namespace Nitpicker

open Text GitDiff
open UnifiedDiff (Whole)

/-- An edit of whole lines. -/
def TextEdit.whole_lines (edit : TextEdit) : Option (Edit Char) :=
  match edit.start_line, edit.end_line with
  | .int start, .int stop =>
    if 0 ≤ start ∧ 0 ≤ stop ∧ edit.start_character = 0 ∧ edit.end_character = 0 then
      some ⟨start.toNat, stop.toNat, edit.new_text.toList⟩
    else none
  | _, _ => none

namespace GitDiff

/-- The pieces of the heading and of the removed lines behind another line boundary. -/
def Hunk.hidden (hunk : Hunk) : List (List Char) :=
  (pieces hunk.after_ranges).tail ++ hunk.lines.flatMap fun line => match line with
    | .removed _ => (pieces line.render).tail
    | _ => []

/-- The edit of the hunk does what the hunk does. -/
structure Hunk.Exact (hunk : Hunk) (file : List GitLine) : Prop where
  nonempty : hunk.new_side ≠ []
  whole : ∀ line ∈ hunk.new_side, Whole line.text
  silent : ∀ piece ∈ hunk.hidden, new_line piece = []
  inserted : hunk.old_side = [] → 1 ≤ hunk.old_start ∧ ∃ before,
    file[hunk.old_start - 1]? = some before ∧ ∀ line ∈ hunk.new_side, line = before

end GitDiff

section Document

variable {line rest : List Char} {file : List GitLine}

end Document

section Kept

variable {hunk : Hunk}

/-- What is kept of a line. -/
def GitDiff.Line.kept (line : Line) : List (List Char) := (pieces line.render).flatMap new_line

end Kept

section Texts

variable {hunk : Hunk} {xs ys : List (List Char)}

/-- The new text of the edit. -/
def GitDiff.Hunk.new_text (hunk : Hunk) : List Char :=
  joined '\n' hunk.parsed.new_lines ++ ['\n']

end Texts

section Applied

variable {file lines : List GitLine} {hunks : List Hunk} {hunk : Hunk}

end Applied

section Main

variable {diff : GitDiff} {file : List GitLine} {text : List Char}

end Main

section Samples

def lineA : GitLine := ⟨['a'], by decide⟩

def lineB : GitLine := ⟨['b'], by decide⟩

/-- `@@ -1 +1 @@`, a line for another. -/
def replacement : Hunk := ⟨1, 1, none, [.removed lineA, .added lineB], .inr (by decide)⟩

end Samples

end Nitpicker
