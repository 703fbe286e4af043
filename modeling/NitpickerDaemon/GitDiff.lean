import NitpickerDaemon.UnifiedDiff
import NitpickerDaemon.Text.Edits

/-!
Diffs as git writes them, with whatever characters the files hold, and what they make of a file.
-/

set_option autoImplicit false

namespace Nitpicker

/-- A line of a file, without its line feed. -/
@[ext] structure GitLine where
  text : List Char
  no_feed : '\n' ∉ text
  deriving DecidableEq

namespace GitDiff

inductive Line where
  | context (content : GitLine)
  /-- An empty line that both files have, without the space of a context line. -/
  | blank
  | removed (content : GitLine)
  | added (content : GitLine)
  deriving DecidableEq

def Line.render : Line → List Char
  | .context content => ' ' :: content.text
  | .blank => []
  | .removed content => '-' :: content.text
  | .added content => '+' :: content.text

def Line.in_old : Line → Option GitLine
  | .context content | .removed content => some content
  | .blank => some ⟨[], List.not_mem_nil⟩
  | .added _ => none

def Line.in_new : Line → Option GitLine
  | .context content | .added content => some content
  | .blank => some ⟨[], List.not_mem_nil⟩
  | .removed _ => none

/-- A hunk; the old range begins at line one or later, unless it is empty. -/
structure Hunk where
  old_start : Nat
  new_start : Nat
  heading : Option GitLine
  lines : List Line
  stated : lines.filterMap Line.in_old = [] ∨ 1 ≤ old_start

namespace Hunk

variable (hunk : Hunk)

def old_side : List GitLine := hunk.lines.filterMap Line.in_old

def new_side : List GitLine := hunk.lines.filterMap Line.in_new

/-- The number of lines before the hunk; an empty range stands after the line it names. -/
def first : Nat := if hunk.old_side = [] then hunk.old_start else hunk.old_start - 1

def last : Nat := hunk.first + hunk.old_side.length

/-- The header up to its second `@@`. -/
def ranges : List Char :=
  "@@ -".toList ++ (UnifiedDiff.range hunk.old_start hunk.old_side.length ++ (" +".toList ++
    (UnifiedDiff.range hunk.new_start hunk.new_side.length ++ " @@".toList)))

def after_ranges : List Char :=
  match hunk.heading with
  | some heading => ' ' :: heading.text
  | none => []

def render : List (List Char) :=
  (hunk.ranges ++ hunk.after_ranges) :: hunk.lines.map Line.render

end Hunk

end GitDiff

open GitDiff

/-- A diff of one file. Its hunks stand in order with a line between any two of them. When the new
file does not end in a line feed, the diff ends with its last line and the marker. -/
structure GitDiff where
  extended : List GitLine
  extended_git : ∀ line ∈ extended, line.text.head? ≠ some '@'
  old_name : GitLine
  new_name : GitLine
  hunks : List Hunk
  apart : hunks.IsChain fun hunk hunk' => hunk.last + 1 ≤ hunk'.first
  open_end : Bool
  open_last : open_end = true → ∃ hunk ∈ hunks.getLast?, ∃ content : GitLine,
    hunk.lines.getLast? = some (.added content)

namespace GitDiff

def header_lines (diff : GitDiff) : List (List Char) :=
  diff.extended.map (·.text) ++ ["--- ".toList ++ diff.old_name.text,
    "+++ ".toList ++ diff.new_name.text]

def marker_lines (diff : GitDiff) : List (List Char) :=
  if diff.open_end then ["\\ No newline at end of file".toList] else []

def rendered (diff : GitDiff) : List (List Char) :=
  diff.header_lines ++ (diff.hunks.flatMap Hunk.render ++ diff.marker_lines)

/-- The text of the diff. -/
def render (diff : GitDiff) : String := String.ofList (Text.unlines '\n' diff.rendered)

/-- The text of a file of which every line ends with a line feed. -/
def file_text (file : List GitLine) : List Char := Text.unlines '\n' (file.map (·.text))

/-- The file from line `pos` on after the hunks, when they apply at their stated positions. -/
def apply_hunks (file : List GitLine) : Nat → List Hunk → Option (List GitLine)
  | pos, [] => some (file.drop pos)
  | pos, hunk :: hunks =>
    if pos ≤ hunk.first ∧ hunk.last ≤ file.length ∧
        (file.drop hunk.first).take hunk.old_side.length = hunk.old_side then
      (apply_hunks file hunk.last hunks).map fun rest =>
        (file.drop pos).take (hunk.first - pos) ++ (hunk.new_side ++ rest)
    else none

/-- The text that `git apply` makes of a file. -/
def patched (diff : GitDiff) (file : List GitLine) : Option (List Char) :=
  (apply_hunks file 0 diff.hunks).bind fun lines =>
    if diff.open_end then
      if (diff.hunks.getLast?.map Hunk.last) = some file.length then
        some (Text.joined '\n' (lines.map (·.text)))
      else none
    else some (file_text lines)

/-- The lines of a file with their line feeds, and the empty rest after the last. -/
def chunks (file : List GitLine) : List (List Char) :=
  file.map (fun line => line.text ++ ['\n']) ++ [[]]

/-- The edit that a hunk stands for. -/
def Hunk.edit (hunk : Hunk) : Text.Edit Char := ⟨hunk.first, hunk.last, file_text hunk.new_side⟩

section Apply

open Text

variable {file lines : List GitLine} {hunks : List Hunk} {pos : Nat}

end Apply

end GitDiff

end Nitpicker
