import NitpickerDaemon.LineNotions
import NitpickerDaemon.UnifiedDiff

/-!
Unified diffs of any number of files, with lines that hold any character but the line feed, and
the lines of them that the regular expression for added lines finds.
-/

set_option autoImplicit false

namespace Nitpicker

/-- A line of a text. -/
structure TextLine where
  text : List Char
  single : '\n' ∉ text

namespace DiffFiles

inductive Line where
  | context (content : TextLine)
  /-- An empty line of both files, without its blank. -/
  | empty
  | removed (content : TextLine)
  | added (content : TextLine)
  /-- `\ No newline at end of file` -/
  | no_newline

def no_newline_text : List Char := "\\ No newline at end of file".toList

def Line.render : Line → List Char
  | .context content => ' ' :: content.text
  | .empty => []
  | .removed content => '-' :: content.text
  | .added content => '+' :: content.text
  | .no_newline => no_newline_text

def Line.in_old : Line → Bool
  | .context _ | .empty | .removed _ => true
  | .added _ | .no_newline => false

def Line.in_new : Line → Bool
  | .context _ | .empty | .added _ => true
  | .removed _ | .no_newline => false

def Line.added_text : Line → Option (List Char)
  | .added content => some content.text
  | _ => none

structure Hunk where
  old_start : Nat
  new_start : Nat
  heading : Option TextLine
  lines : List Line

def heading_text : Option TextLine → List Char
  | some heading => ' ' :: heading.text
  | none => []

def Hunk.header (hunk : Hunk) : List Char :=
  ['@', '@', ' ', '-'] ++ UnifiedDiff.range hunk.old_start (hunk.lines.countP Line.in_old) ++
    [' ', '+'] ++ UnifiedDiff.range hunk.new_start (hunk.lines.countP Line.in_new) ++
    [' ', '@', '@'] ++ heading_text hunk.heading

def Hunk.render (hunk : Hunk) : List (List Char) := hunk.header :: hunk.lines.map Line.render

def Hunk.added_contents (hunk : Hunk) : List (List Char) := hunk.lines.filterMap Line.added_text

/-- The part of a diff about one file: git's extended header, the names and the hunks. -/
structure FileDiff where
  extended : List TextLine
  extended_git : ∀ line ∈ extended, ¬['+'] <+: line.text
  names : Option (TextLine × TextLine)
  hunks : List Hunk

def name_lines : Option (TextLine × TextLine) → List (List Char)
  | some (old_name, new_name) => ["--- ".toList ++ old_name.text, "+++ ".toList ++ new_name.text]
  | none => []

def FileDiff.lines (file : FileDiff) : List (List Char) :=
  file.extended.map (·.text) ++ name_lines file.names ++ file.hunks.flatMap Hunk.render

def lines (files : List FileDiff) : List (List Char) := files.flatMap FileDiff.lines

/-- The text of the diff; its last line may lack the line feed. -/
def render (files : List FileDiff) (ended : Bool) : String :=
  String.ofList (if ended then Text.unlines '\n' (lines files) else Text.joined '\n' (lines files))

/-- The added lines, without their plus. -/
def added_contents (files : List FileDiff) : List (List Char) :=
  files.flatMap fun file => file.hunks.flatMap Hunk.added_contents

/-- The added lines that the prefix of the file header does not hide. -/
def shown (contents : List (List Char)) : List (List Char) :=
  contents.filter fun content => decide (¬UnifiedDiff.Hidden content)

open UnifiedDiff (added_texts_append added_texts_cons_not added_texts_none not_added_of_head
  added_plus_iff)

theorem shown_append (xs ys : List (List Char)) : shown (xs ++ ys) = shown xs ++ shown ys := by
  simp [shown]

theorem added_texts_line (line : Line) :
    added_texts [line.render] = shown (line.added_text.toList) := by
  cases line with
  | added content =>
    have hiff := @added_plus_iff content.text
    by_cases h : UnifiedDiff.Hidden content.text
    · simp [added_texts, shown, Line.render, Line.added_text, hiff, h]
    · simp [added_texts, shown, Line.render, Line.added_text, hiff, h]
  | context content => exact added_texts_cons_not (not_added_of_head (by simp [Line.render])) []
  | empty => rfl
  | removed content => exact added_texts_cons_not (not_added_of_head (by simp [Line.render])) []
  | no_newline => exact added_texts_cons_not (not_added_of_head (by decide)) []

theorem added_texts_body (lines : List Line) :
    added_texts (lines.map Line.render) = shown (lines.filterMap Line.added_text) := by
  induction lines with
  | nil => rfl
  | cons line lines ih =>
    have hsplit : (line :: lines).filterMap Line.added_text =
        line.added_text.toList ++ lines.filterMap Line.added_text := by
      cases h : line.added_text <;> simp [h]
    rw [List.map_cons, ← List.singleton_append, added_texts_append, added_texts_line, ih, hsplit,
      shown_append]

theorem added_texts_hunk (hunk : Hunk) : added_texts hunk.render = shown hunk.added_contents := by
  have hhead : hunk.header.head? = some '@' := rfl
  have hheader : ¬Added hunk.header := not_added_of_head (by simp [hhead])
  rw [Hunk.render, added_texts_cons_not hheader, added_texts_body, Hunk.added_contents]

theorem added_texts_file (file : FileDiff) :
    added_texts file.lines = shown (file.hunks.flatMap Hunk.added_contents) := by
  have hextended : added_texts (file.extended.map (·.text)) = [] := by
    apply added_texts_none
    intro line hline hadded
    obtain ⟨plain, hplain, rfl⟩ := List.mem_map.mp hline
    exact file.extended_git plain hplain hadded.1
  have hnames : added_texts (name_lines file.names) = [] := by
    cases file.names with
    | none => rfl
    | some names =>
      have hold : ¬Added ("--- ".toList ++ names.1.text) := not_added_of_head (by simp)
      have hnew : ¬Added ("+++ ".toList ++ names.2.text) :=
        fun h => h.2 ⟨' ' :: names.2.text, rfl⟩
      rw [name_lines, added_texts_cons_not hold, added_texts_cons_not hnew]
      rfl
  have hhunks : ∀ hunks : List Hunk, added_texts (hunks.flatMap Hunk.render) =
      shown (hunks.flatMap Hunk.added_contents) := by
    intro hunks
    induction hunks with
    | nil => rfl
    | cons hunk hunks ih =>
      rw [List.flatMap_cons, added_texts_append, added_texts_hunk, ih, List.flatMap_cons,
        shown_append]
  rw [FileDiff.lines, added_texts_append, added_texts_append, hextended, hnames, hhunks]
  rfl

theorem added_texts_lines (files : List FileDiff) :
    added_texts (lines files) = shown (added_contents files) := by
  induction files with
  | nil => rfl
  | cons file files ih =>
    have hlines : lines (file :: files) = file.lines ++ lines files := by simp [lines]
    have hadded : added_contents (file :: files) =
        file.hunks.flatMap Hunk.added_contents ++ added_contents files := by simp [added_contents]
    rw [hlines, hadded, added_texts_append, added_texts_file, ih, shown_append]

theorem single_header (hunk : Hunk) : '\n' ∉ hunk.header := by
  have hold := UnifiedDiff.newline_not_mem
    (UnifiedDiff.whole_range hunk.old_start (hunk.lines.countP Line.in_old))
  have hnew := UnifiedDiff.newline_not_mem
    (UnifiedDiff.whole_range hunk.new_start (hunk.lines.countP Line.in_new))
  have hheading : '\n' ∉ heading_text hunk.heading := by
    cases hunk.heading with
    | none => simp [heading_text]
    | some heading => simp [heading_text, heading.single]
  simp [Hunk.header, hold, hnew, hheading]

theorem single_line (line : Line) : '\n' ∉ line.render := by
  cases line with
  | context content => simp [Line.render, content.single]
  | empty => simp [Line.render]
  | removed content => simp [Line.render, content.single]
  | added content => simp [Line.render, content.single]
  | no_newline => decide

theorem single_lines {files : List FileDiff} {line : List Char} (h : line ∈ lines files) :
    '\n' ∉ line := by
  obtain ⟨file, -, hline⟩ := List.mem_flatMap.mp h
  rcases List.mem_append.mp hline with hfirst | hhunk
  · rcases List.mem_append.mp hfirst with hextended | hname
    · obtain ⟨content, -, rfl⟩ := List.mem_map.mp hextended
      exact content.single
    · cases hnames : file.names with
      | none => simp [hnames, name_lines] at hname
      | some names =>
        have hcases : line = "--- ".toList ++ names.1.text ∨
            line = "+++ ".toList ++ names.2.text := by simpa [hnames, name_lines] using hname
        rcases hcases with rfl | rfl
        · simp [names.1.single]
        · simp [names.2.single]
  · obtain ⟨hunk, -, hmem⟩ := List.mem_flatMap.mp hhunk
    rcases List.mem_cons.mp hmem with rfl | hbody
    · exact single_header hunk
    · obtain ⟨l, -, rfl⟩ := List.mem_map.mp hbody
      exact single_line l

/-- The regular expression finds the added lines that are shown. -/
theorem matched_lines_render (files : List FileDiff) (ended : Bool) :
    matched_lines (render files ended) = (shown (added_contents files)).map String.ofList := by
  have hjoined : ∃ ls : List (List Char), (∀ line ∈ ls, '\n' ∉ line) ∧
      (render files ended).toList = Text.joined '\n' ls ∧
        added_texts ls = added_texts (lines files) := by
    cases ended with
    | true =>
      refine ⟨lines files ++ [[]], ?_, ?_, ?_⟩
      · intro line hline
        rcases List.mem_append.mp hline with h | h
        · exact single_lines h
        · simp [List.mem_singleton.mp h]
      · rw [render, String.toList_ofList, if_pos rfl, Text.unlines_eq_joined]
      · rw [added_texts_append, added_texts_empty, List.append_nil]
    | false => exact ⟨lines files, fun line => single_lines, by simp [render], rfl⟩
  obtain ⟨ls, hsingle, htext, htexts⟩ := hjoined
  rw [← added_texts_lines, ← htexts, ← matched_lines_joined hsingle, ← htext, List.map_map]
  rfl

end DiffFiles

end Nitpicker
