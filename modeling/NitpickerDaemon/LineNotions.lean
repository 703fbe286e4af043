import NitpickerDaemon.AddedLines

/-!
The two notions of line among the extractions of added lines, and the hunk state of one of them:
on which texts they all see the same lines.
-/

set_option autoImplicit false

namespace Nitpicker

open Text (Regex)

/-- The line that `splitlines_chars` has begun is kept or dropped with what is read first. -/
theorem added_texts_cons (line : List Char) (lines : List (List Char)) :
    added_texts (line :: lines) = added_texts [line] ++ added_texts lines := by
  simp [added_texts, List.filter_cons]
  split <;> rfl

theorem added_texts_empty : added_texts [[]] = [] := by decide

/-- What `str.splitlines` picks from a line and from the lines after it. -/
theorem added_texts_newline {line : List Char} (hline : '\n' ∉ line) (begun rest : List Char) :
    added_texts (splitlines_chars begun (line ++ '\n' :: rest)) =
      added_texts (splitlines_chars begun line) ++ added_texts (splitlines_chars [] rest) := by
  induction line generalizing begun with
  | nil =>
    rw [List.nil_append, splitlines_chars_boundary (by decide) (by decide), added_texts_cons]
    cases begun with
    | nil => rw [added_texts_empty]; rfl
    | cons c begun => rfl
  | cons c line ih =>
    have hc : c ≠ '\n' := fun heq => hline (by simp [heq])
    have htail : '\n' ∉ line := fun hmem => hline (List.mem_cons_of_mem _ hmem)
    cases hb : line_boundary c with
    | false =>
      rw [List.cons_append, splitlines_chars_plain hb, splitlines_chars_plain hb, ih htail]
    | true =>
      by_cases hcr : c = '\r'
      · subst hcr
        cases line with
        | nil =>
          have hleft : splitlines_chars begun ('\r' :: '\n' :: rest) =
              begun :: splitlines_chars [] rest := by simp [splitlines_chars]
          have hright : splitlines_chars begun ['\r'] = [begun] := by
            simp [splitlines_chars, hb]
          rw [List.singleton_append, hleft, hright, added_texts_cons]
        | cons d line =>
          have hd : d ≠ '\n' := fun heq => htail (by simp [heq])
          have hread : ∀ cs, splitlines_chars begun ('\r' :: d :: cs) =
              begun :: splitlines_chars [] (d :: cs) := by
            intro cs
            rw [splitlines_chars]
            · simp [hb]
            · intro cs' heq
              simp [hd]
          rw [List.cons_append, List.cons_append, hread, hread, added_texts_cons,
            added_texts_cons begun (splitlines_chars [] (d :: line))]
          have hrest := ih htail []
          rw [List.cons_append] at hrest
          rw [hrest, List.append_assoc]
      · rw [List.cons_append, splitlines_chars_boundary hb hcr, splitlines_chars_boundary hb hcr,
          added_texts_cons, added_texts_cons begun (splitlines_chars [] line), ih htail,
          List.append_assoc]

/-- `str.splitlines` picks from a text what it picks from its lines. -/
theorem added_texts_splitlines {lines : List (List Char)} (h : ∀ line ∈ lines, '\n' ∉ line) :
    added_texts (splitlines_chars [] (Text.joined '\n' lines)) =
      lines.flatMap fun line => added_texts (splitlines_chars [] line) := by
  induction lines with
  | nil => rfl
  | cons line lines ih =>
    have hline := h line List.mem_cons_self
    have hrest := ih fun l hl => h l (List.mem_cons_of_mem _ hl)
    cases lines with
    | nil => simp [Text.joined]
    | cons line' lines =>
      rw [Text.joined, added_texts_newline hline, hrest]
      simp

theorem added_texts_flatMap (lines : List (List Char)) :
    added_texts lines = lines.flatMap fun line => added_texts [line] := by
  induction lines with
  | nil => rfl
  | cons line lines ih => rw [added_texts_cons, ih, List.flatMap_cons]

/-- The lines of `str.splitlines` hold no boundary. -/
theorem splitlines_whole {begun cs piece : List Char}
    (hbegun : ∀ c ∈ begun, line_boundary c = false) (h : piece ∈ splitlines_chars begun cs) :
    ∀ c ∈ piece, line_boundary c = false := by
  fun_induction splitlines_chars begun cs with
  | case1 => cases h
  | case2 begun hne =>
    rw [List.mem_singleton.mp h]
    exact hbegun
  | case3 begun cs ih =>
    rcases List.mem_cons.mp h with rfl | h
    · exact hbegun
    · exact ih (by simp) h
  | case4 begun c cs hcr hb ih =>
    rcases List.mem_cons.mp h with rfl | h
    · exact hbegun
    · exact ih (by simp) h
  | case5 begun c cs hcr hb ih =>
    have hmore : ∀ d ∈ begun ++ [c], line_boundary d = false := by
      intro d hd
      rcases List.mem_append.mp hd with hd | hd
      · exact hbegun d hd
      · rw [List.mem_singleton.mp hd]
        simpa using hb
    exact ih hmore h

/-- A line between line feeds that both notions of line take alike: when it is added, it holds
no other boundary, and otherwise no part of it between boundaries looks added. -/
def ReadAlike (line : List Char) : Prop :=
  (Added line → ∀ c ∈ line, line_boundary c = false) ∧
    (¬Added line → ∀ piece ∈ splitlines_chars [] line, ¬Added piece)

theorem added_texts_nil_iff {lines : List (List Char)} :
    added_texts lines = [] ↔ ∀ line ∈ lines, ¬Added line := by
  simp [added_texts, List.filter_eq_nil_iff]

theorem read_alike {line : List Char} (h : ReadAlike line) :
    added_texts [line] = added_texts (splitlines_chars [] line) := by
  by_cases hadded : Added line
  · have hne : line ≠ [] := by
      obtain ⟨content, rfl⟩ := added_plus hadded
      simp
    rw [splitlines_chars_line (h.1 hadded) hne]
  · have hleft : added_texts [line] = [] := added_texts_nil_iff.mpr (by simpa using hadded)
    rw [hleft, added_texts_nil_iff.mpr (h.2 hadded)]

/-- Lists that are nowhere shorter and together as long are everywhere as long. -/
theorem flatMap_length_eq {α β : Type} {xs : List α} {f g : α → List β}
    (hle : ∀ x ∈ xs, (f x).length ≤ (g x).length)
    (h : (xs.flatMap f).length = (xs.flatMap g).length) :
    ∀ x ∈ xs, (f x).length = (g x).length := by
  induction xs with
  | nil => simp
  | cons x xs ih =>
    have hx := hle x List.mem_cons_self
    have hxs := fun y hy => hle y (List.mem_cons_of_mem _ hy)
    have hrest : (xs.flatMap f).length ≤ (xs.flatMap g).length := by
      rw [List.length_flatMap, List.length_flatMap]
      exact List.sum_le_sum (by simpa using hxs)
    simp only [List.flatMap_cons, List.length_append] at h
    have hhead : (f x).length = (g x).length := by omega
    have htail := ih hxs (by omega)
    intro y hy
    rcases List.mem_cons.mp hy with rfl | hy
    · exact hhead
    · exact htail y hy

/-- The regular expression and the prefixes pick the same lines exactly from the texts all of
whose lines are taken alike. -/
theorem matched_prefixed_iff (diff_text : String) :
    matched_lines diff_text = prefixed_lines diff_text ↔
      ∀ line ∈ diff_text.toList.splitOn '\n', ReadAlike line := by
  have hlines : ∀ line ∈ diff_text.toList.splitOn '\n', '\n' ∉ line := fun line hline =>
    Text.not_mem_splitOn hline
  have hsplit := added_texts_splitlines hlines
  rw [Text.joined_splitOn] at hsplit
  have hinjective : Function.Injective String.ofList := fun xs ys h => String.ofList_inj.mp h
  rw [matched_lines_eq, prefixed_lines_eq, (List.map_injective_iff.mpr hinjective).eq_iff, hsplit,
    added_texts_flatMap]
  constructor
  · intro h
    have hwhole : ∀ line ∈ diff_text.toList.splitOn '\n', Added line →
        ∀ c ∈ line, line_boundary c = false := by
      intro line hline hadded
      obtain ⟨content, rfl⟩ := added_plus hadded
      have hmem : content ∈ (diff_text.toList.splitOn '\n').flatMap fun line =>
          added_texts [line] := by
        apply List.mem_flatMap.mpr
        exact ⟨_, hline, by simp [added_texts, hadded]⟩
      rw [h] at hmem
      obtain ⟨line', -, hmem⟩ := List.mem_flatMap.mp hmem
      obtain ⟨piece, hpiece, rfl⟩ := List.mem_map.mp hmem
      have hpieces := splitlines_whole (by simp) (List.mem_of_mem_filter hpiece)
      intro c hc
      rcases List.mem_cons.mp hc with rfl | hc
      · rfl
      · exact hpieces c (List.mem_of_mem_drop hc)
    have hlength : ∀ line ∈ diff_text.toList.splitOn '\n',
        (added_texts [line]).length = (added_texts (splitlines_chars [] line)).length := by
      apply flatMap_length_eq _ (congrArg List.length h)
      intro line hline
      by_cases hadded : Added line
      · have halike : ReadAlike line :=
          ⟨fun _ => hwhole line hline hadded, fun hnot => absurd hadded hnot⟩
        rw [read_alike halike]
      · simp [added_texts, hadded]
    intro line hline
    refine ⟨hwhole line hline, fun hnot => added_texts_nil_iff.mp ?_⟩
    have hzero := hlength line hline
    rw [added_texts_nil_iff.mpr (by simpa using hnot)] at hzero
    exact List.length_eq_zero_iff.mp hzero.symm
  · intro h
    apply List.flatMap_congr
    intro line hline
    exact read_alike (h line hline)

namespace ArchitectureAgent

/-- The texts of the added ones among `lines`. -/
def texts (lines : List String) : List String :=
  (lines.filter fun line => startswith "+" line && !startswith "+++" line).map
    fun line => String.ofList (line.toList.drop 1)

/-- What the generator has yielded in the end, in one list. -/
def HunkLoop.all (loop : HunkLoop) : List String :=
  (if loop.saw_hunk || !loop.current_hunk.isEmpty then loop.yielded ++ [loop.current_hunk]
    else loop.yielded).flatten

theorem HunkLoop.all_eq (loop : HunkLoop) :
    loop.all = loop.yielded.flatten ++ loop.current_hunk := by
  unfold all
  split
  · simp
  · rename_i h
    simp only [Bool.or_eq_true, Bool.not_eq_true', not_or, Bool.not_eq_true,
      Bool.not_eq_false, List.isEmpty_iff] at h
    simp [h.2]

theorem texts_cons (line : String) (lines : List String) :
    texts (line :: lines) = texts [line] ++ texts lines := by
  simp only [texts, List.filter_cons]
  split <;> rfl

theorem texts_append (xs ys : List String) : texts (xs ++ ys) = texts xs ++ texts ys := by
  simp [texts]

/-- A line that opens a hunk is not added. -/
theorem opens_hunk_texts {line : String} (h : opens_hunk line = true) : texts [line] = [] := by
  have hhead : line.toList.head? = some '@' := by
    cases hl : line.toList with
    | nil => simp [opens_hunk, hl, Regex.first, DIFF_HUNK_RE, literal, Regex.word,
        Regex.ways_char_nil, bol, Regex.ways_place] at h
    | cons c cs =>
      by_cases hc : c = '@'
      · simp [hc]
      · simp [opens_hunk, hl, Regex.first, DIFF_HUNK_RE, literal, Regex.word, Regex.ways_char,
          bol, Regex.ways_place, hc] at h
  have hplus : startswith "+" line = false := by
    cases hl : line.toList with
    | nil => simp [hl] at hhead
    | cons c cs =>
      have hc : c = '@' := by simpa [hl] using hhead
      rw [startswith, hl, hc]
      rfl
  simp [texts, hplus]

theorem step_opens {loop : HunkLoop} {line : String} (h : opens_hunk line = true) :
    loop.step line = ⟨if loop.saw_hunk then loop.yielded ++ [loop.current_hunk] else loop.yielded,
      [], true⟩ := by
  rw [HunkLoop.step, if_pos h]

theorem step_inside {loop : HunkLoop} {line : String} (h : opens_hunk line = false) :
    loop.step line = { loop with current_hunk := loop.current_hunk ++ texts [line] } := by
  rw [HunkLoop.step, if_neg (by simp [h])]
  split
  · rename_i hadded
    simp [texts, hadded]
  · rename_i hnot
    have hfalse : (startswith "+" line && !startswith "+++" line) = false := by simpa using hnot
    simp [texts, hfalse]

/-- Once a hunk is open, every added line is yielded. -/
theorem loop_saw (lines : List String) {loop : HunkLoop} (h : loop.saw_hunk = true) :
    (lines.foldl HunkLoop.step loop).all = loop.all ++ texts lines := by
  induction lines generalizing loop with
  | nil => simp [texts]
  | cons line lines ih =>
    rw [List.foldl_cons, texts_cons]
    cases hopen : opens_hunk line with
    | true =>
      rw [step_opens hopen, ih rfl, opens_hunk_texts hopen]
      simp [HunkLoop.all_eq, h]
    | false =>
      have hnext := @ih { loop with current_hunk := loop.current_hunk ++ texts [line] } h
      rw [step_inside hopen, hnext]
      simp [HunkLoop.all_eq]

/-- Before that, they are kept only when no hunk is opened. -/
theorem loop_unseen (lines : List String) {loop : HunkLoop} (h : loop.saw_hunk = false)
    (hyielded : loop.yielded = []) : (lines.foldl HunkLoop.step loop).all =
      if lines.any opens_hunk then texts (lines.dropWhile (!opens_hunk ·))
      else loop.current_hunk ++ texts lines := by
  induction lines generalizing loop with
  | nil => simp [HunkLoop.all_eq, hyielded, texts]
  | cons line lines ih =>
    rw [List.foldl_cons]
    cases hopen : opens_hunk line with
    | true =>
      have hdrop : (line :: lines).dropWhile (!opens_hunk ·) = line :: lines := by simp [hopen]
      rw [step_opens hopen, loop_saw lines rfl, hdrop, texts_cons, opens_hunk_texts hopen]
      simp [HunkLoop.all_eq, h, hyielded, hopen]
    | false =>
      have hnext := @ih { loop with current_hunk := loop.current_hunk ++ texts [line] } h hyielded
      have hany : (line :: lines).any opens_hunk = lines.any opens_hunk := by simp [hopen]
      have hdrop : (line :: lines).dropWhile (!opens_hunk ·) =
          lines.dropWhile (!opens_hunk ·) := by simp [hopen]
      rw [step_inside hopen, hnext, hany, hdrop, texts_cons line lines, List.append_assoc]

/-- No added line before the first hunk, when there is one. -/
def NoneBefore (diff_text : String) : Prop :=
  (splitlines diff_text).any opens_hunk = true →
    texts ((splitlines diff_text).takeWhile (!opens_hunk ·)) = []

/-- The hunks hold the lines the prefixes pick exactly when none stands before the first. -/
theorem iter_added_hunks_iff (diff_text : String) :
    prefixed_lines diff_text = (iter_added_hunks diff_text).flatten ↔ NoneBefore diff_text := by
  have hall : (iter_added_hunks diff_text).flatten =
      ((splitlines diff_text).foldl HunkLoop.step ⟨[], [], false⟩).all := rfl
  have htexts : prefixed_lines diff_text = texts (splitlines diff_text) := rfl
  rw [hall, htexts, loop_unseen _ rfl rfl, NoneBefore]
  cases (splitlines diff_text).any opens_hunk with
  | false => simp
  | true =>
    have happend := texts_append ((splitlines diff_text).takeWhile (!opens_hunk ·))
      ((splitlines diff_text).dropWhile (!opens_hunk ·))
    rw [List.takeWhile_append_dropWhile] at happend
    rw [happend]
    simp

end ArchitectureAgent

/-- The five extractions see the same lines exactly in the texts whose lines are all read alike
and which have no added line before the first of their hunks. -/
theorem extractions_agree_iff (diff_text : String) :
    (SecurityAgent.added_lines diff_text = ArchitectureAgent.added_block_lines diff_text ∧
      SecurityAgent.added_lines diff_text =
        (ArchitectureAgent.iter_added_hunks diff_text).flatten ∧
      SecurityAgent.added_lines diff_text = AstSecurity.added_lines diff_text ∧
      SecurityAgent.added_lines diff_text = SymbolProvider.added_lines diff_text) ↔
    (∀ line ∈ diff_text.toList.splitOn '\n', ReadAlike line) ∧
      ArchitectureAgent.NoneBefore diff_text := by
  rw [← matched_prefixed_iff, ← ArchitectureAgent.iter_added_hunks_iff]
  unfold SecurityAgent.added_lines ArchitectureAgent.added_block_lines AstSecurity.added_lines
    SymbolProvider.added_lines
  constructor
  · intro ⟨_, hhunks, hsame, _⟩
    exact ⟨hsame, hsame.symm.trans hhunks⟩
  · intro ⟨hsame, hhunks⟩
    exact ⟨rfl, hsame.trans hhunks, hsame, hsame⟩

/-- A carriage return is kept by one notion of line, a line separator makes an added line for the
other, and the hunks lose what stands before the first of them. -/
theorem extractions_differ :
    (SecurityAgent.added_lines "@@ -1 +1,2 @@\n x\n+a\r\n" = ["a\r"] ∧
      AstSecurity.added_lines "@@ -1 +1,2 @@\n x\n+a\r\n" = ["a"]) ∧
    (SecurityAgent.added_lines "@@ -1 +1 @@\n x\u2028+a\n" = [] ∧
      AstSecurity.added_lines "@@ -1 +1 @@\n x\u2028+a\n" = ["a"]) ∧
    (SecurityAgent.added_lines "+a\n@@ -1 +1 @@\n x\n" = ["a"] ∧
      (ArchitectureAgent.iter_added_hunks "+a\n@@ -1 +1 @@\n x\n").flatten = []) := by
  decide +kernel

end Nitpicker
