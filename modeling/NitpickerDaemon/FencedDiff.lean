import NitpickerDaemon.PatchVerification
import NitpickerDaemon.Text.Search

/-!
The diff in a reply of the model: which block of the text is extracted, and what becomes of the
lines of a diff that is fenced.
-/

set_option autoImplicit false

namespace Nitpicker

open Text (Regex)

/-- The three backquotes of a fence. -/
def FENCE : List Char := ['`', '`', '`']

/-- The word that opens a block, in any case. -/
def Opens (word : List Char) : Prop :=
  word.map ignore_case = ['`', '`', '`', 'd', 'i', 'f', 'f']

instance (word : List Char) : Decidable (Opens word) := inferInstanceAs (Decidable (_ = _))

/-- A block is opened somewhere in the text. -/
def HasOpening (text : List Char) : Prop :=
  ∃ before word after, text = before ++ word ++ after ∧ Opens word

section Patterns

variable {before rest text after : List Char} {groups : List (Nat × List Char)}

end Patterns

section Fence

end Fence

section Opening

theorem Opens.length {word : List Char} (h : Opens word) : word.length = 7 := by
  have hlength := congrArg List.length h
  simpa using hlength

end Opening

/-- A reply with a diff in a fence: the diff starts with `---` and holds no fence, and there is no
block in what stands before. -/
structure FencedReply where
  before : String
  diff : String
  rest : String
  starts : ['-', '-', '-'] <+: diff.toList
  no_fence : ¬FENCE <:+: diff.toList
  no_block : PatchService.DIFF_BLOCK_RE.found before.toList = false

namespace FencedReply

def text (reply : FencedReply) : String :=
  reply.before ++ "```diff\n" ++ reply.diff ++ "```" ++ reply.rest

variable {reply : FencedReply}

end FencedReply

end Nitpicker
