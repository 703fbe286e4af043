import NitpickerDaemon.LoopRules
import NitpickerDaemon.Text.Pieces

/-!
The setup wizard's review instructions in a CLAUDE.md or agent file: the marked block, what a
second run makes of the first one's file, and the user's lines outside of the block.
-/

set_option autoImplicit false

namespace Nitpicker.SetupWizard

open Text (filled)

def CLAUDE_MD_MARKER : String := "<!-- nitpicker-review-instructions -->"

/-- What `_CLAUDE_MD_TEMPLATE` has between its markers: each value, or none, with the text behind
it. -/
def section_parts (nitpicker_root provider : String) : List (String × String) :=
  [("", "\n## Code Review (Nitpicker Daemon)\n\n### Review Workflow\n1. Complete code changes\n"),
    ("", "2. Run Nitpicker review on changed files\n"),
    ("", "3. If REJECTED → fix issues and re-run until ALL PASS\n"),
    ("", "4. Report \"Review PASSED. Ready to commit.\" with review results\n"),
    ("", "5. User confirms → commit with `--no-verify` (pre-commit hook already reviewed)\n\n"),
    ("", "### Review Command\n```bash\ndel \""),
    (nitpicker_root, "\\.jemmin\\spool.db\"\nset PYTHONIOENCODING=utf-8\n\""),
    (nitpicker_root, "\\.venv\\Scripts\\python.exe\" \""),
    (nitpicker_root, "\\bin\\jemmin_cli.py\" ^"),
    ("", "\n  --file <changed_file> ^\n  --diff \"<diff_text>\" ^\n"),
    ("  --no-daemon --provider " ++ provider, "\n```\n\n### Notes\n- Review result: `"),
    (nitpicker_root, "\\.jemmin\\logs\\LATEST_REVIEW.txt`\n- Review persona/rules: `"),
    (nitpicker_root, "\\config\\system_prompt.md`"),
    ("", "\n- User's direct `git commit` triggers pre-commit hook automatically (y/n confirmation)"),
    ("", "\n- Skip review: `git commit --no-verify`\n")]

def section_text (nitpicker_root provider : String) : String :=
  String.join ((section_parts nitpicker_root provider).map fun value => value.1 ++ value.2)

/-- `_CLAUDE_MD_TEMPLATE.format(marker=…, nitpicker_root=…, provider=…)` -/
def CLAUDE_MD_TEMPLATE (marker nitpicker_root provider : String) : String :=
  "\n" ++ marker ++ section_text nitpicker_root provider ++ marker ++ "\n"

/-- `s.rstrip()` -/
def rstrip (s : String) : String := String.ofList (s.toList.rdropWhile isspace)

/-- `s.lstrip("\n")` -/
def lstrip_newlines (s : String) : String := String.ofList (s.toList.dropWhile (· == '\n'))

/-- `s.split(sep)` for a `sep` that is not empty. -/
def split (s sep : String) : List String := (Text.pieces sep.toList s.toList).map String.ofList

/-- What `_inject_instructions` writes, for the text that the file has if it exists. -/
def inject_instructions (existing : Option String) (nitpicker_root provider : String) : String :=
  let content := existing.getD ""
  let block := CLAUDE_MD_TEMPLATE CLAUDE_MD_MARKER nitpicker_root provider
  if contains content CLAUDE_MD_MARKER then
    match split content CLAUDE_MD_MARKER with
    | before :: _ :: after :: _ => rstrip before ++ block ++ lstrip_newlines after
    | _ => content
  else if strip content ≠ "" then rstrip content ++ "\n" ++ block
  else lstrip block

/-- The pieces that are not between two markers of a block: every other one, and the last one
where its marker stays alone. -/
def user_pieces {α : Type} : List α → List α
  | [] => []
  | [piece] => [piece]
  | [piece, open_piece] => [piece, open_piece]
  | piece :: _ :: after :: rest => piece :: user_pieces (after :: rest)

/-- The lines of a text that are not blank. -/
def written (text : List Char) : List (List Char) := filled isspace '\n' text

/-- The user's lines, outside of the marked blocks. -/
def user_lines (content : String) : List (List Char) :=
  (user_pieces (Text.pieces CLAUDE_MD_MARKER.toList content.toList)).flatMap written

/-- A second run writes what the first one did, and the user's lines stay, in their order. -/
structure Settles (existing : Option String) (nitpicker_root provider : String) : Prop where
  same : inject_instructions (some (inject_instructions existing nitpicker_root provider))
    nitpicker_root provider = inject_instructions existing nitpicker_root provider
  kept : (user_lines (existing.getD "")).Sublist
    (user_lines (inject_instructions existing nitpicker_root provider))
  kept_again : (user_lines (existing.getD "")).Sublist
    (user_lines (inject_instructions (some (inject_instructions existing nitpicker_root provider))
      nitpicker_root provider))

/-- The last line that is not blank has no white space at its end. -/
def Unpadded (text : List Char) : Prop :=
  ∀ line ∈ (written text).getLast?, line.rdropWhile isspace = line

/-- The marker is in the values that the block shows. -/
def Marked (nitpicker_root provider : String) : Prop :=
  contains nitpicker_root CLAUDE_MD_MARKER = true ∨ contains provider CLAUDE_MD_MARKER = true

/-- The text after the second marker is what a block with the marker inside has there, and the
user's lines are among those around that block's own pieces. -/
def Repeats (before after : List Char) (rest : List (List Char))
    (nitpicker_root provider : String) : Prop :=
  ∃ first third others,
    Text.pieces CLAUDE_MD_MARKER.toList (section_text nitpicker_root provider).toList =
      first :: third :: others ∧
    third.dropWhile (· == '\n') = after.dropWhile (· == '\n') ∧
    (written before ++ (user_pieces (after :: rest)).flatMap written).Sublist
      (written (before.rdropWhile isspace) ++
        (user_pieces (third :: (others ++ ['\n' :: after.dropWhile (· == '\n')]))).flatMap written)

/-- The layouts that a run leaves as they are, up to the block itself. -/
def Settled (existing : Option String) (nitpicker_root provider : String) : Prop :=
  match Text.pieces CLAUDE_MD_MARKER.toList (existing.getD "").toList with
  | [_, _] => True
  | before :: _ :: after :: rest =>
    (¬Marked nitpicker_root provider ∧ Unpadded before ∧
      ∀ piece ∈ (user_pieces (after :: rest)).tail, written piece = []) ∨
    Repeats before after rest nitpicker_root provider
  | _ => False

section Marker

/-- The marker behind its first character. -/
def marker_rest : List Char := "!-- nitpicker-review-instructions -->".toList

theorem marker_chars : CLAUDE_MD_MARKER.toList = '<' :: marker_rest := rfl

theorem not_mem_ofList {c : Char} {cs : List Char} (h : c ∉ cs) :
    c ∉ (String.ofList cs).toList := by
  rwa [String.toList_ofList]

theorem fence_ofList {word part : List Char} (h : Text.Fence word part) :
    Text.Fence (String.ofList word).toList (String.ofList part).toList := by
  rwa [String.toList_ofList, String.toList_ofList]

theorem marker_opens : '<' ∉ marker_rest := not_mem_ofList (by decide)

theorem newline_marker : '\n' ∉ CLAUDE_MD_MARKER.toList := not_mem_ofList (by decide)

variable {nitpicker_root provider : String}

theorem parts_fenced : ∀ value ∈ section_parts nitpicker_root provider,
    Text.Fence CLAUDE_MD_MARKER.toList value.2.toList := by
  simp only [section_parts, List.forall_mem_cons]
  refine ⟨?_, ?_, ?_, ?_, ?_, ?_, ?_, ?_, ?_, ?_, ?_, ?_, ?_, ?_, ?_, by simp⟩ <;>
    apply fence_ofList <;> decide +kernel

/-- The block shows the marker inside only where one of its values has it. -/
theorem marked_iff : CLAUDE_MD_MARKER.toList <:+: (section_text nitpicker_root provider).toList ↔
    Marked nitpicker_root provider := by
  have hword : CLAUDE_MD_MARKER.toList ≠ [] := by
    rw [marker_chars]
    exact List.cons_ne_nil _ _
  have hprovider : CLAUDE_MD_MARKER.toList <:+: ("  --no-daemon --provider " ++ provider).toList ↔
      CLAUDE_MD_MARKER.toList <:+: provider.toList := by
    rw [String.toList_append, marker_chars]
    exact Text.infix_unopened (not_mem_ofList (by decide))
  have hempty : ¬CLAUDE_MD_MARKER.toList <:+: "".toList := by
    rw [marker_chars]
    simp
  rw [section_text, String.toList_join, List.flatMap_map]
  simp only [String.toList_append, -String.reduceToList]
  rw [Text.infix_values hword parts_fenced]
  simp only [section_parts, List.exists_mem_cons_iff, hprovider, hempty, Marked, contains,
    decide_eq_true_eq, -String.reduceToList]
  simp only [List.not_mem_nil, false_and, exists_false, or_false, false_or]
  tauto

theorem pieces_around (text rest : List Char) :
    Text.pieces CLAUDE_MD_MARKER.toList (text ++ (CLAUDE_MD_MARKER.toList ++ rest)) =
      Text.pieces CLAUDE_MD_MARKER.toList text ++ Text.pieces CLAUDE_MD_MARKER.toList rest := by
  rw [marker_chars]
  exact Text.pieces_append marker_opens text rest

theorem pieces_ne_nil (text : List Char) : Text.pieces CLAUDE_MD_MARKER.toList text ≠ [] := by
  rw [marker_chars]
  exact Text.pieces_ne_nil '<' marker_rest text

theorem not_infix_nil : ¬CLAUDE_MD_MARKER.toList <:+: [] := by
  rw [marker_chars]
  simp

theorem pieces_unmarked {text : List Char} (h : ¬CLAUDE_MD_MARKER.toList <:+: text) :
    Text.pieces CLAUDE_MD_MARKER.toList text = [text] := by
  rw [marker_chars] at h ⊢
  exact Text.pieces_free h

theorem unmarked_piece {text piece : List Char}
    (h : piece ∈ Text.pieces CLAUDE_MD_MARKER.toList text) : ¬CLAUDE_MD_MARKER.toList <:+: piece := by
  rw [marker_chars] at h ⊢
  exact Text.not_infix_piece h

theorem marker_iff_pieces {text : List Char} : CLAUDE_MD_MARKER.toList <:+: text ↔
    2 ≤ (Text.pieces CLAUDE_MD_MARKER.toList text).length := by
  rw [marker_chars]
  exact Text.infix_iff_pieces marker_opens

end Marker

section Runs

variable {existing : Option String} {nitpicker_root provider content : String}
variable {before inside after first third : List Char} {rest others : List (List Char)}

/-- A marked block with its line feeds, and what follows it. -/
def block_chars (nitpicker_root provider : String) (after : List Char) : List Char :=
  '\n' :: (CLAUDE_MD_MARKER.toList ++ ((section_text nitpicker_root provider).toList ++
    (CLAUDE_MD_MARKER.toList ++ '\n' :: after)))

theorem template_chars : (CLAUDE_MD_TEMPLATE CLAUDE_MD_MARKER nitpicker_root provider).toList =
    block_chars nitpicker_root provider [] := by
  simp [CLAUDE_MD_TEMPLATE, block_chars]

theorem strip_nil_iff : strip content = "" ↔ content.toList.rdropWhile isspace = [] := by
  have hstrip : strip_chars content.toList = [] ↔ ∀ c ∈ content.toList, isspace c = true := by
    rw [strip_chars, List.reverse_eq_nil_iff, List.dropWhile_eq_nil_iff]
    constructor
    · intro h c hc
      rw [← List.takeWhile_append_dropWhile (p := isspace) (l := content.toList)] at hc
      rcases List.mem_append.mp hc with hc | hc
      · exact List.mem_takeWhile_imp hc
      · exact h c (List.mem_reverse.mpr hc)
    · intro h c hc
      exact h c ((List.dropWhile_sublist _).subset (List.mem_reverse.mp hc))
  rw [List.rdropWhile_eq_nil_iff, ← hstrip, strip]
  constructor
  · intro h
    simpa using congrArg String.toList h
  · intro h
    rw [h]

/-- A file without a marker gets the block behind its text. -/
theorem inject_fresh (h : ¬CLAUDE_MD_MARKER.toList <:+: content.toList) :
    (inject_instructions (some content) nitpicker_root provider).toList =
      if content.toList.rdropWhile isspace = [] then (block_chars nitpicker_root provider []).tail
      else content.toList.rdropWhile isspace ++ '\n' :: block_chars nitpicker_root provider [] := by
  have hno : contains content CLAUDE_MD_MARKER = false := by
    rw [contains, decide_eq_false_iff_not]
    exact h
  simp only [inject_instructions, Option.getD_some, hno, Bool.false_eq_true, if_false, ne_eq,
    strip_nil_iff]
  by_cases hblank : content.toList.rdropWhile isspace = []
  · have hfirst : isspace '<' = false := by decide
    rw [if_neg (not_not.mpr hblank), if_pos hblank, lstrip, String.toList_ofList, template_chars,
      block_chars, marker_chars, List.dropWhile_cons_of_pos (by decide)]
    simp [hfirst]
  · rw [if_pos hblank, if_neg hblank]
    simp [rstrip, template_chars]

/-- A marker without a second one leaves the file as it is. -/
theorem inject_open
    (h : Text.pieces CLAUDE_MD_MARKER.toList content.toList = [before, after]) :
    inject_instructions (some content) nitpicker_root provider = content := by
  have hmark : contains content CLAUDE_MD_MARKER = true := by
    rw [contains, decide_eq_true_iff, marker_iff_pieces, h]
    rfl
  simp [inject_instructions, hmark, split, h]

theorem inject_block
    (h : Text.pieces CLAUDE_MD_MARKER.toList content.toList = before :: inside :: after :: rest) :
    (inject_instructions (some content) nitpicker_root provider).toList =
      before.rdropWhile isspace ++
        block_chars nitpicker_root provider (after.dropWhile (· == '\n')) := by
  have hmark : contains content CLAUDE_MD_MARKER = true := by
    rw [contains, decide_eq_true_iff, marker_iff_pieces, h]
    simp
  simp [inject_instructions, hmark, split, h, rstrip, lstrip_newlines, template_chars, block_chars]

theorem pieces_section (hafter : ¬CLAUDE_MD_MARKER.toList <:+: after) :
    Text.pieces CLAUDE_MD_MARKER.toList ((section_text nitpicker_root provider).toList ++
      (CLAUDE_MD_MARKER.toList ++ '\n' :: after)) =
        Text.pieces CLAUDE_MD_MARKER.toList (section_text nitpicker_root provider).toList ++
          ['\n' :: after] := by
  have hend : ¬CLAUDE_MD_MARKER.toList <:+: '\n' :: after := by
    rw [← List.nil_append (_ :: _), Text.infix_separated newline_marker]
    exact not_or.mpr ⟨not_infix_nil, hafter⟩
  rw [pieces_around, pieces_unmarked hend]

theorem pieces_written (hbefore : ¬CLAUDE_MD_MARKER.toList <:+: before)
    (hafter : ¬CLAUDE_MD_MARKER.toList <:+: after) :
    Text.pieces CLAUDE_MD_MARKER.toList (before ++ block_chars nitpicker_root provider after) =
      (before ++ ['\n']) ::
        (Text.pieces CLAUDE_MD_MARKER.toList (section_text nitpicker_root provider).toList ++
          ['\n' :: after]) := by
  have hstart : ¬CLAUDE_MD_MARKER.toList <:+: before ++ ['\n'] := by
    rw [Text.infix_separated newline_marker]
    exact not_or.mpr ⟨hbefore, not_infix_nil⟩
  have hblock : before ++ block_chars nitpicker_root provider after = (before ++ ['\n']) ++
      (CLAUDE_MD_MARKER.toList ++ ((section_text nitpicker_root provider).toList ++
        (CLAUDE_MD_MARKER.toList ++ '\n' :: after))) := by
    simp [block_chars]
  rw [hblock, pieces_around, pieces_section hafter, pieces_unmarked hstart, List.singleton_append]

/-- A run on a file with a block that a run has written. -/
theorem inject_written (hcontent : content.toList = before ++ block_chars nitpicker_root provider after)
    (hbefore : ¬CLAUDE_MD_MARKER.toList <:+: before)
    (hafter : ¬CLAUDE_MD_MARKER.toList <:+: after)
    (hsection : Text.pieces CLAUDE_MD_MARKER.toList (section_text nitpicker_root provider).toList =
      first :: others) (hothers : others ++ ['\n' :: after] = third :: rest) :
    (inject_instructions (some content) nitpicker_root provider).toList =
      before.rdropWhile isspace ++
        block_chars nitpicker_root provider (third.dropWhile (· == '\n')) := by
  have hpieces := @pieces_written nitpicker_root provider before after hbefore hafter
  rw [← hcontent, hsection, List.cons_append, hothers] at hpieces
  rw [inject_block hpieces, List.rdropWhile_concat_pos _ _ _ (by decide)]

/-- A file that had no marker is written anew by a second run: the line feed before the block is
another one. -/
theorem fresh_changes (h : ¬CLAUDE_MD_MARKER.toList <:+: content.toList) :
    inject_instructions (some (inject_instructions (some content) nitpicker_root provider))
      nitpicker_root provider ≠ inject_instructions (some content) nitpicker_root provider := by
  intro hsame
  obtain ⟨first, others, hsection⟩ := List.exists_cons_of_ne_nil
    (pieces_ne_nil (section_text nitpicker_root provider).toList)
  obtain ⟨third, rest, hothers⟩ := List.exists_cons_of_ne_nil
    (List.append_ne_nil_of_right_ne_nil others (List.cons_ne_nil ['\n'] []))
  have hwritten := @inject_fresh nitpicker_root provider content h
  by_cases hblank : content.toList.rdropWhile isspace = []
  · rw [if_pos hblank] at hwritten
    have hpieces : Text.pieces CLAUDE_MD_MARKER.toList
        (inject_instructions (some content) nitpicker_root provider).toList =
          [] :: first :: third :: rest := by
      rw [hwritten, block_chars, List.tail_cons, ← List.nil_append (_ ++ _), pieces_around,
        pieces_section not_infix_nil, hsection, pieces_unmarked not_infix_nil, ← hothers]
      rfl
    have hagain := @inject_block nitpicker_root provider _ _ _ _ _ hpieces
    rw [hsame, hwritten] at hagain
    simp [block_chars, marker_chars] at hagain
  · rw [if_neg hblank] at hwritten
    have hkept : ¬CLAUDE_MD_MARKER.toList <:+: content.toList.rdropWhile isspace ++ ['\n'] := by
      rw [Text.infix_separated newline_marker]
      exact not_or.mpr ⟨fun hin => h (hin.trans (List.rdropWhile_prefix _ _).isInfix), not_infix_nil⟩
    have hagain := inject_written (by rw [hwritten]; simp) hkept not_infix_nil hsection hothers
    rw [hsame, hwritten, List.rdropWhile_concat_pos _ _ _ (by decide),
      List.rdropWhile_idempotent] at hagain
    have hblocks := List.append_cancel_left hagain
    simp [block_chars, marker_chars] at hblocks

/-- White space at the end of a text is of a line only where the last line that is not blank has
it. -/
theorem written_rstrip_iff {text : List Char} :
    written (text.rdropWhile isspace) = written text ↔ Unpadded text := by
  rw [written, Text.filled_rdropWhile (by decide), Unpadded, written]
  rcases List.eq_nil_or_concat' (filled isspace '\n' text) with hnil | ⟨lines, last, hlast⟩
  · rw [hnil]
    simp
    rfl
  · rw [hlast, List.modifyLast_concat]
    simp

theorem length_written_rstrip {text : List Char} :
    (written (text.rdropWhile isspace)).length = (written text).length := by
  rw [written, Text.filled_rdropWhile (by decide), written]
  rcases List.eq_nil_or_concat' (filled isspace '\n' text) with hnil | ⟨lines, last, hlast⟩
  · rw [hnil]
    rfl
  · rw [hlast, List.modifyLast_concat]
    simp

theorem written_feed (text : List Char) : written ('\n' :: text) = written text := by
  rw [written, ← List.nil_append (_ :: _), Text.filled_append, Text.filled_nil]
  rfl

theorem written_ended (text : List Char) : written (text ++ ['\n']) = written text := by
  rw [written, Text.filled_append, Text.filled_nil, List.append_nil]
  rfl

theorem user_lines_block
    (h : Text.pieces CLAUDE_MD_MARKER.toList content.toList = before :: inside :: after :: rest) :
    user_lines content = written before ++ (user_pieces (after :: rest)).flatMap written := by
  rw [user_lines, h]
  rfl

theorem user_pieces_cons {α : Type} (piece : α) (pieces : List α) :
    ∃ more, user_pieces (piece :: pieces) = piece :: more := by
  cases pieces with
  | nil => exact ⟨[], rfl⟩
  | cons next pieces =>
    cases pieces with
    | nil => exact ⟨[next], rfl⟩
    | cons after rest => exact ⟨user_pieces (after :: rest), rfl⟩

/-- What a plain block leaves of the user's lines. -/
theorem plain_kept_iff : (written before ++ (user_pieces (after :: rest)).flatMap written).Sublist
      (written (before.rdropWhile isspace) ++ written after) ↔
    Unpadded before ∧ ∀ piece ∈ (user_pieces (after :: rest)).tail, written piece = [] := by
  obtain ⟨more, hmore⟩ := user_pieces_cons after rest
  rw [hmore, List.flatMap_cons, List.tail_cons, ← written_rstrip_iff]
  constructor
  · intro h
    have hlength := h.length_le
    simp only [List.length_append, length_written_rstrip] at hlength
    have hnone : more.flatMap written = [] := List.length_eq_zero_iff.mp (by omega)
    have heq := h.eq_of_length_le (by simp only [List.length_append, length_written_rstrip]; omega)
    rw [hnone, List.append_nil] at heq
    exact ⟨(List.append_cancel_right heq).symm, List.flatMap_eq_nil_iff.mp hnone⟩
  · rintro ⟨hsame, hnone⟩
    rw [hsame, List.flatMap_eq_nil_iff.mpr hnone, List.append_nil]

theorem block_chars_inj {after after' : List Char} :
    block_chars nitpicker_root provider after = block_chars nitpicker_root provider after' ↔
      after = after' := by
  simp [block_chars]

/-- A file with a block settles where the block's third piece is the file's, and the user's lines
are among those around it. -/
theorem settles_block_iff
    (h : Text.pieces CLAUDE_MD_MARKER.toList content.toList = before :: inside :: after :: rest)
    (hsection : Text.pieces CLAUDE_MD_MARKER.toList (section_text nitpicker_root provider).toList =
      first :: others) {more : List (List Char)}
    (hothers : others ++ ['\n' :: after.dropWhile (· == '\n')] = third :: more) :
    Settles (some content) nitpicker_root provider ↔
      third.dropWhile (· == '\n') = after.dropWhile (· == '\n') ∧
      (written before ++ (user_pieces (after :: rest)).flatMap written).Sublist
        (written (before.rdropWhile isspace) ++ (user_pieces (third :: more)).flatMap written) := by
  have hbefore : ¬CLAUDE_MD_MARKER.toList <:+: before.rdropWhile isspace := fun hin =>
    @unmarked_piece content.toList _ (by rw [h]; simp)
      (hin.trans (List.rdropWhile_prefix _ _).isInfix)
  have hafter : ¬CLAUDE_MD_MARKER.toList <:+: after.dropWhile (· == '\n') := fun hin =>
    @unmarked_piece content.toList _ (by rw [h]; simp)
      (hin.trans (List.dropWhile_suffix _).isInfix)
  have honce := @inject_block nitpicker_root provider _ _ _ _ _ h
  have htwice := inject_written honce hbefore hafter hsection hothers
  have hpieces := @pieces_written nitpicker_root provider _ _ hbefore hafter
  rw [← honce, hsection, List.cons_append, hothers] at hpieces
  have hlines := user_lines_block hpieces
  rw [written_ended] at hlines
  have hsame : inject_instructions
      (some (inject_instructions (some content) nitpicker_root provider)) nitpicker_root provider =
        inject_instructions (some content) nitpicker_root provider ↔
      third.dropWhile (· == '\n') = after.dropWhile (· == '\n') := by
    rw [← String.toList_inj, htwice, honce, List.rdropWhile_idempotent, List.append_cancel_left_eq,
      block_chars_inj]
  rw [← hsame, ← hlines, ← user_lines_block h]
  constructor
  · rintro ⟨hsame, hkept, -⟩
    exact ⟨hsame, hkept⟩
  · rintro ⟨hsame, hkept⟩
    exact ⟨hsame, hkept, by rw [hsame]; exact hkept⟩

/-- A run settles a file if and only if it has a single marker; or it has more of them, the
section shows none inside, no white space ends the last line before the first marker and only blank
text stands outside behind the piece after the second one; or the section does show markers and the
file repeats its pieces. -/
theorem injection_settles_iff (existing : Option String) (nitpicker_root provider : String) :
    Settles existing nitpicker_root provider ↔ Settled existing nitpicker_root provider := by
  have hgetD : Settles existing nitpicker_root provider ↔
      Settles (some (existing.getD "")) nitpicker_root provider := by
    cases existing with
    | none => exact ⟨fun ⟨h, h', h''⟩ => ⟨h, h', h''⟩, fun ⟨h, h', h''⟩ => ⟨h, h', h''⟩⟩
    | some content => rfl
  rw [hgetD, Settled]
  generalize existing.getD "" = content
  obtain ⟨first, others, hsection⟩ := List.exists_cons_of_ne_nil
    (pieces_ne_nil (section_text nitpicker_root provider).toList)
  have hmarked : Marked nitpicker_root provider ↔ others ≠ [] := by
    rw [← marked_iff, marker_iff_pieces, hsection, List.length_cons, ← List.length_pos_iff]
    omega
  split
  · rename_i before after h
    have hopen := @inject_open nitpicker_root provider _ _ _ h
    refine iff_of_true ⟨by rw [hopen, hopen], ?_, ?_⟩ trivial
    · rw [hopen, Option.getD_some]
    · rw [hopen, hopen, Option.getD_some]
  · rename_i before inside after rest h
    cases others with
    | nil =>
      have hplain : ¬Marked nitpicker_root provider := fun hm => hmarked.mp hm rfl
      have hrepeats : ¬Repeats before after rest nitpicker_root provider := by
        rintro ⟨_, _, _, hmore, -⟩
        rw [hsection] at hmore
        cases hmore
      have hthird : ('\n' :: after.dropWhile (· == '\n')).dropWhile (· == '\n') =
          after.dropWhile (· == '\n') := by
        rw [List.dropWhile_cons_of_pos (by rfl), List.dropWhile_idempotent]
      have hlines : (user_pieces ['\n' :: after.dropWhile (· == '\n')]).flatMap written =
          written after := by
        rw [user_pieces, List.flatMap_singleton, written_feed]
        exact Text.filled_dropWhile after
      rw [settles_block_iff h hsection rfl, hlines, plain_kept_iff, or_iff_left hrepeats]
      exact ⟨fun hs => ⟨hplain, hs.2⟩, fun hs => ⟨hthird, hs.2⟩⟩
    | cons third others =>
      have hshown : Marked nitpicker_root provider := hmarked.mpr (List.cons_ne_nil _ _)
      rw [settles_block_iff h hsection (List.cons_append ..), or_iff_right fun hs => hs.1 hshown]
      constructor
      · intro hs
        exact ⟨first, third, others, hsection, hs⟩
      · rintro ⟨first', third', others', hsection', hs⟩
        rw [hsection] at hsection'
        cases hsection'
        exact hs
  · rename_i hopen hblock
    refine iff_of_false (fun hs => fresh_changes ?_ hs.same) id
    rw [marker_iff_pieces]
    rcases hpieces : Text.pieces CLAUDE_MD_MARKER.toList content.toList with _ | ⟨_, _ | ⟨_, _ | ⟨_, _⟩⟩⟩
    · simp
    · simp
    · exact absurd hpieces (hopen _ _)
    · exact absurd hpieces (hblock _ _ _ _)

end Runs

/-- The second run on a file that did not exist puts a line feed before the block. -/
theorem absent_file_changes : ¬Settles none "/opt/nitpicker" "gemini" := by
  have hempty : ¬CLAUDE_MD_MARKER.toList <:+: "".toList := not_infix_nil
  exact fun h => fresh_changes hempty h.same

end Nitpicker.SetupWizard
