import Mathlib

/-!
Text in HTML: escaping, a tokenizer of tags and character data, and a reader of the table rows of a
page.
-/

set_option autoImplicit false

namespace Text

namespace Html

def escape_char (c : Char) : List Char :=
  if c = '&' then "&amp;".toList
  else if c = '<' then "&lt;".toList
  else if c = '>' then "&gt;".toList
  else if c = '"' then "&quot;".toList
  else if c = '\'' then "&#x27;".toList
  else [c]

def escape (text : List Char) : List Char := text.flatMap escape_char

/-- The five references that `escape` writes, read back. -/
def unescape : List Char → List Char
  | '&' :: 'a' :: 'm' :: 'p' :: ';' :: cs => '&' :: unescape cs
  | '&' :: 'l' :: 't' :: ';' :: cs => '<' :: unescape cs
  | '&' :: 'g' :: 't' :: ';' :: cs => '>' :: unescape cs
  | '&' :: 'q' :: 'u' :: 'o' :: 't' :: ';' :: cs => '"' :: unescape cs
  | '&' :: '#' :: 'x' :: '2' :: '7' :: ';' :: cs => '\'' :: unescape cs
  | c :: cs => c :: unescape cs
  | [] => []

theorem unescape_plain {c : Char} (h : c ≠ '&') (cs : List Char) :
    unescape (c :: cs) = c :: unescape cs := by
  rw [unescape] <;> simp [h]

theorem unescape_escape_char (c : Char) (cs : List Char) :
    unescape (escape_char c ++ cs) = c :: unescape cs := by
  unfold escape_char
  split_ifs with hamp hlt hgt hquot hapos
  · subst hamp; rfl
  · subst hlt; rfl
  · subst hgt; rfl
  · subst hquot; rfl
  · subst hapos; rfl
  · exact unescape_plain hamp cs

theorem unescape_escape (text : List Char) : unescape (escape text) = text := by
  induction text with
  | nil => rfl
  | cons c cs ih => rw [escape, List.flatMap_cons, unescape_escape_char, ← escape, ih]

theorem escape_no_tag (text : List Char) : '<' ∉ escape text := by
  induction text with
  | nil => simp [escape]
  | cons c cs ih =>
    rw [escape, List.flatMap_cons, ← escape, List.mem_append]
    rintro (h | h)
    · unfold escape_char at h
      split_ifs at h with hamp hlt
      · revert h; decide
      · revert h; decide
      · revert h; decide
      · revert h; decide
      · revert h; decide
      · exact hlt (List.mem_singleton.mp h).symm
    · exact ih h

theorem escape_plain {text : List Char}
    (h : ∀ c ∈ text, c ∉ ['&', '<', '>', '"', '\'']) : escape text = text := by
  induction text with
  | nil => rfl
  | cons c cs ih =>
    rw [List.forall_mem_cons] at h
    have hc := h.1
    simp only [List.mem_cons, List.not_mem_nil, or_false, not_or] at hc
    have hchar : escape_char c = [c] := by simp [escape_char, hc]
    rw [escape, List.flatMap_cons, ← escape, hchar, ih h.2]
    rfl

theorem escape_eq_nil {text : List Char} : escape text = [] ↔ text = [] := by
  constructor
  · intro h
    rw [← unescape_escape text, h]
    rfl
  · rintro rfl
    rfl

inductive Token where
  | tag (body : List Char)
  | text (text : List Char)
  deriving DecidableEq

/-- Where a reader of a page is: between the tags, in one, or in a quoted value of one. -/
inductive Mode where
  | data | tag | quoted
  deriving DecidableEq

def flush (acc : List Char) : List Token := if acc.isEmpty then [] else [.text acc.reverse]

def tokens : Mode → List Char → List Char → List Token
  | .data, acc, [] => flush acc
  | .data, acc, c :: cs =>
    if c = '<' then flush acc ++ tokens .tag [] cs else tokens .data (c :: acc) cs
  | .tag, _, [] => []
  | .tag, acc, c :: cs =>
    if c = '>' then .tag acc.reverse :: tokens .data [] cs
    else if c = '"' then tokens .quoted (c :: acc) cs
    else tokens .tag (c :: acc) cs
  | .quoted, _, [] => []
  | .quoted, acc, c :: cs =>
    if c = '"' then tokens .tag (c :: acc) cs else tokens .quoted (c :: acc) cs

theorem tokens_text {text : List Char} (h : '<' ∉ text) (acc rest : List Char) :
    tokens .data acc (text ++ rest) = tokens .data (text.reverse ++ acc) rest := by
  induction text generalizing acc with
  | nil => rfl
  | cons c cs ih =>
    have hc : c ≠ '<' := fun heq => h (by simp [heq])
    rw [List.cons_append, tokens, if_neg hc, ih fun hmem => h (List.mem_cons_of_mem _ hmem)]
    simp

/-- The name of a tag. -/
def tag_name (body : List Char) : List Char := body.takeWhile (· ≠ ' ')

def opens_cell (body : List Char) : Bool :=
  tag_name body == ['t', 'd'] || tag_name body == ['t', 'h']

def closes_cell (body : List Char) : Bool := body == ['/', 't', 'd'] || body == ['/', 't', 'h']

/-- The rows of the tables on a page; `cell` is the text of an open cell and `cells` are those of
the open row. -/
def read_rows : Option (List Char) → List (List Char) → List Token → List (List (List Char))
  | _, _, [] => []
  | cell, cells, .text text :: ts => read_rows (cell.map (· ++ unescape text)) cells ts
  | cell, cells, .tag body :: ts =>
    if body = ['t', 'r'] then read_rows none [] ts
    else if opens_cell body then read_rows (some []) cells ts
    else if closes_cell body then read_rows none (cells ++ cell.toList) ts
    else if body = ['/', 't', 'r'] then cells :: read_rows none [] ts
    else read_rows cell cells ts

def table_rows (page : List Char) : List (List (List Char)) := read_rows none [] (tokens .data [] page)

/-- A part of a page that adds these rows to those after it. -/
def Shows (part : List Char) (rows : List (List (List Char))) : Prop :=
  ∀ rest, table_rows (part ++ rest) = rows ++ table_rows rest

theorem Shows.append {part part' : List Char} {rows rows' : List (List (List Char))}
    (h : Shows part rows) (h' : Shows part' rows') : Shows (part ++ part') (rows ++ rows') := by
  intro rest
  rw [List.append_assoc, h, h', List.append_assoc]

theorem Shows.nil : Shows [] [] := fun _ => rfl

theorem Shows.flatMap {ι : Type} {part : ι → List Char} {rows : ι → List (List (List Char))}
    {xs : List ι} (h : ∀ x ∈ xs, Shows (part x) (rows x)) :
    Shows (xs.flatMap part) (xs.flatMap rows) := by
  induction xs with
  | nil => exact .nil
  | cons x xs ih =>
    rw [List.forall_mem_cons] at h
    exact h.1.append (ih h.2)

theorem Shows.page {part : List Char} {rows : List (List (List Char))} (h : Shows part rows) :
    table_rows part = rows := by
  have hpage := h []
  have hempty : table_rows [] = [] := rfl
  rw [List.append_nil, hempty, List.append_nil] at hpage
  exact hpage

/-- Character data outside of the cells means nothing. -/
theorem read_data (acc rest : List Char) :
    read_rows none [] (tokens .data acc rest) = read_rows none [] (tokens .data [] rest) := by
  have hflush : ∀ acc ts, read_rows none [] (flush acc ++ ts) = read_rows none [] ts := by
    intro acc ts
    unfold flush
    split
    · rfl
    · rw [List.singleton_append, read_rows]
      rfl
  induction rest generalizing acc with
  | nil => simpa [tokens, flush] using hflush acc []
  | cons c cs ih =>
    simp only [tokens]
    split
    · rw [hflush, hflush]
    · rw [ih, ih [c]]

theorem shows_data {text : List Char} (h : '<' ∉ text) : Shows text [] := by
  intro rest
  rw [table_rows, tokens_text h, read_data, List.nil_append, table_rows]

/-- A cell: the body of its tag and its text. -/
abbrev Cell := List Char × List Char

def Cell.html (cell : Cell) : List Char :=
  '<' :: (cell.1 ++ '>' :: (escape cell.2 ++ "</td>".toList))

def row_html (cells : List Cell) : List Char :=
  "<tr>".toList ++ (cells.flatMap Cell.html ++ "</tr>".toList)

/-- The body of a tag that opens a cell. -/
structure OpensCell (body : List Char) : Prop where
  whole : ∀ rest, tokens .tag [] (body ++ '>' :: rest) = .tag body :: tokens .data [] rest
  opens : opens_cell body = true

theorem OpensCell.ne_row {body : List Char} (h : OpensCell body) : body ≠ ['t', 'r'] := by
  rintro rfl
  have hopens := h.opens
  revert hopens
  decide

/-- What is read at a closing tag, after the text of its cell. -/
theorem read_close (cells : List (List Char)) (text rest : List Char) :
    read_rows (some []) cells (tokens .data [] (escape text ++ ("</td>".toList ++ rest))) =
      read_rows none (cells ++ [text]) (tokens .data [] rest) := by
  have hclose : ∀ acc, tokens .data acc ("</td>".toList ++ rest) =
      flush acc ++ .tag ['/', 't', 'd'] :: tokens .data [] rest := fun _ => rfl
  rw [tokens_text (escape_no_tag text), hclose, List.append_nil]
  cases htext : escape text with
  | nil =>
    obtain rfl := escape_eq_nil.mp htext
    rfl
  | cons c cs =>
    have hflush : flush (c :: cs).reverse = [.text (escape text)] := by simp [flush, htext]
    rw [hflush, List.singleton_append, read_rows, unescape_escape]
    rfl

theorem read_cell {cell : Cell} (h : OpensCell cell.1) (cells : List (List Char))
    (rest : List Char) : read_rows none cells (tokens .data [] (cell.html ++ rest)) =
      read_rows none (cells ++ [cell.2]) (tokens .data [] rest) := by
  have hopen : tokens .data [] (cell.html ++ rest) = .tag cell.1 ::
      tokens .data [] (escape cell.2 ++ ("</td>".toList ++ rest)) := by
    rw [Cell.html, List.cons_append, tokens, if_pos rfl, List.append_assoc, List.cons_append,
      h.whole, List.append_assoc]
    rfl
  rw [hopen, read_rows, if_neg h.ne_row, if_pos h.opens, read_close]

theorem read_cells {cells : List Cell} (h : ∀ cell ∈ cells, OpensCell cell.1)
    (before : List (List Char)) (rest : List Char) :
    read_rows none before (tokens .data [] (cells.flatMap Cell.html ++ rest)) =
      read_rows none (before ++ cells.map Prod.snd) (tokens .data [] rest) := by
  induction cells generalizing before with
  | nil => simp
  | cons cell cells ih =>
    rw [List.forall_mem_cons] at h
    rw [List.flatMap_cons, List.append_assoc, read_cell h.1, ih h.2]
    simp

/-- Whatever the cells of a row hold, the row is read back. -/
theorem shows_row {cells : List Cell} (h : ∀ cell ∈ cells, OpensCell cell.1) :
    Shows (row_html cells) [cells.map Prod.snd] := by
  intro rest
  have hopen : ∀ cs, table_rows ("<tr>".toList ++ cs) = read_rows none [] (tokens .data [] cs) :=
    fun _ => rfl
  have hclose : ∀ before, read_rows none before (tokens .data [] ("</tr>".toList ++ rest)) =
      before :: table_rows rest := fun _ => rfl
  rw [row_html, List.append_assoc, hopen, List.append_assoc, read_cells h, hclose]
  simp

end Html

end Text
