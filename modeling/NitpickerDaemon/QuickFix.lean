import NitpickerDaemon.LspServer
import NitpickerDaemon.Models
import NitpickerDaemon.AddedLines

/-!
The document `publish_quick_fix` writes, with the hunks of a patch, and what the language server
makes of it.
-/

set_option autoImplicit false

namespace Nitpicker

open Text (Regex)

/-- `\d+` -/
def digits : Regex Char := .run true 1 none Char.isDigit

/-- `(\d+)(?:,(\d+))?` -/
def range_re (start length : Nat) : Regex Char :=
  .seq (.group start digits) (.opt (.seq (literal ",") (.group length digits)))

/-- `^@@ -(\d+)(?:,(\d+))? \+(\d+)(?:,(\d+))? @@` -/
def HUNK_RE : Regex Char :=
  .seq (.place fun before _ => before = none) (.seq (literal "@@ -") (.seq (range_re 1 2)
    (.seq (literal " +") (.seq (range_re 3 4) (literal " @@")))))

/-- `int` of a string of digits -/
def int_of_digits (cs : List Char) : Nat := Nat.ofDigitChars 10 cs 0

/-- The start and the length of the old range in a header. -/
def hunk_header (raw_line : List Char) : Option (Nat × Nat) :=
  (HUNK_RE.first [] raw_line).map fun m =>
    (int_of_digits (m.group 1), match m.group 2 with
      | [] => 1
      | length => int_of_digits length)

structure HunkRange where
  start_line : Int
  end_line : Int
  new_lines : List (List Char)
  deriving DecidableEq

/-- The text a line of a hunk stands for in the new file. -/
def new_line : List Char → List (List Char)
  | '+' :: rest | ' ' :: rest => [rest]
  | _ => []

structure HunkParser where
  hunks : List HunkRange := []
  current_hunk : Option HunkRange := none

namespace HunkParser

def step (parser : HunkParser) (raw_line : List Char) : HunkParser :=
  match hunk_header raw_line with
  | some (old_start, old_len) =>
    { hunks := parser.hunks ++ parser.current_hunk.toList
      current_hunk := some ⟨old_start - 1, old_start - 1 + old_len, []⟩ }
  | none => match parser.current_hunk with
    | none => parser
    | some hunk => { parser with
        current_hunk := some { hunk with new_lines := hunk.new_lines ++ new_line raw_line } }

/-- The hunks that were read, with the one that is open. -/
def ranges (parser : HunkParser) : List HunkRange := parser.hunks ++ parser.current_hunk.toList

end HunkParser

def HunkRange.value (hunk : HunkRange) : PyVal :=
  .dict [("start_line", .int hunk.start_line), ("end_line", .int hunk.end_line),
    ("new_lines", .list (hunk.new_lines.map fun line => .str (String.ofList line)))]

section Document

variable (py : Python)

def finding_line (finding : PyDict) : PyVal := (PyDict.get finding "line_number").or (.int 1)

end Document

/-- The text edit of a hunk. -/
def HunkRange.edit (hunk : HunkRange) : TextEdit :=
  ⟨.int hunk.start_line, 0, .int hunk.end_line, 0,
    String.ofList (Text.joined '\n' hunk.new_lines ++ ['\n'])⟩

section Offered

open Traverse

variable {py : Python} {uri : String} {ctx : List PyVal} {s e : PyVal}

end Offered

end Nitpicker
