import NitpickerDaemon.Text.Utf16

/-!
The reading of a diff file whose encoding is guessed, and the encodings in which it reads what was
written.
-/

set_option autoImplicit false

namespace Nitpicker

open Text (CodePoint)

namespace DiffInput

/-- The codec `cp949`, of which only this is fixed, that it writes ASCII as it is. -/
structure Cp949 where
  encode : List CodePoint → Option (List UInt8)
  decode : List UInt8 → Option (List CodePoint)
  encode_ascii : ∀ s : List CodePoint, (∀ c ∈ s, c.val < 128) →
    encode s = some (s.map fun c => UInt8.ofNat c.val)

def UTF_8_BOM : List UInt8 := [0xEF, 0xBB, 0xBF]

def UTF_16_LE_BOM : List UInt8 := [0xFF, 0xFE]

def UTF_16_BE_BOM : List UInt8 := [0xFE, 0xFF]

/-- `raw.decode("utf-8-sig")` -/
def decode_utf_8_sig (raw : List UInt8) : Option (List CodePoint) :=
  Text.decode_strict (if UTF_8_BOM <+: raw then raw.drop 3 else raw)

/-- `raw.decode("utf-16")`, without a mark in the order of the machine. -/
def decode_utf_16 (raw : List UInt8) : Option (List CodePoint) :=
  if UTF_16_LE_BOM <+: raw then Text.decode_utf16 false (raw.drop 2)
  else if UTF_16_BE_BOM <+: raw then Text.decode_utf16 true (raw.drop 2)
  else Text.decode_utf16 false raw

/-- `nul_ratio > 0.2` -/
def many_nuls (raw : List UInt8) : Bool := max raw.length 1 < 5 * raw.count 0

/-- `_read_diff_file` on the bytes of the file. -/
def read_diff_file (cp949 : Cp949) (raw : List UInt8) : Option (List CodePoint) :=
  if UTF_8_BOM <+: raw then decode_utf_8_sig raw
  else if UTF_16_LE_BOM <+: raw ∨ UTF_16_BE_BOM <+: raw then decode_utf_16 raw
  else
    let guessed := if many_nuls raw then Text.decode_utf16 false raw <|> Text.decode_utf16 true raw
      else none
    guessed <|> Text.decode_strict raw <|> cp949.decode raw <|> some (Text.decode_replace raw)

/-- The encodings of a diff file. -/
inductive DiffEncoding where
  | utf_8 | utf_8_sig | utf_16_le_bom | utf_16_be_bom | utf_16_le | utf_16_be | cp949
  deriving DecidableEq, Repr

/-- The bytes of a text in an encoding. -/
def DiffEncoding.encode (cp949 : Cp949) (s : List CodePoint) : DiffEncoding → Option (List UInt8)
  | .utf_8 => Text.encode s
  | .utf_8_sig => (Text.encode s).map (UTF_8_BOM ++ ·)
  | .utf_16_le_bom => (Text.encode_utf16 false s).map (UTF_16_LE_BOM ++ ·)
  | .utf_16_be_bom => (Text.encode_utf16 true s).map (UTF_16_BE_BOM ++ ·)
  | .utf_16_le => Text.encode_utf16 false s
  | .utf_16_be => Text.encode_utf16 true s
  | .cp949 => cp949.encode s

/-- The text holds ASCII characters other than NUL. -/
def PlainAscii (s : List CodePoint) : Prop := ∀ c ∈ s, 0 < c.val ∧ c.val < 128

def ascii_bytes (s : List CodePoint) : List UInt8 := s.map fun c => UInt8.ofNat c.val

section Ascii

variable {s : List CodePoint} (h : PlainAscii s)

include h

theorem PlainAscii.clean : Text.Clean s := fun c hc => Text.surrogate_lt (by have := h c hc; omega)

theorem PlainAscii.encode : Text.encode s = some (ascii_bytes s) := by
  have hbytes : s.flatMap Text.utf8_bytes = ascii_bytes s := by
    rw [ascii_bytes, ← List.flatMap_singleton' (s.map _), List.flatMap_map]
    apply List.flatMap_congr
    intro c hc
    have hlt := (h c hc).2
    simp only [Text.utf8_bytes]
    rw [if_pos (by omega)]
  rw [Text.encode, if_pos h.clean, hbytes]

theorem PlainAscii.encode_utf16 (big : Bool) : Text.encode_utf16 big s =
    some ((s.map (·.val)).flatMap (Text.unit_bytes big)) := by
  have hunits : s.flatMap Text.utf16_units = s.map (·.val) := by
    rw [← List.flatMap_singleton' (s.map _), List.flatMap_map]
    apply List.flatMap_congr
    intro c hc
    have hlt := (h c hc).2
    simp only [Text.utf16_units]
    rw [if_pos (by omega)]
  rw [Text.encode_utf16, if_pos h.clean, hunits]

theorem PlainAscii.no_nul : (ascii_bytes s).count 0 = 0 := by
  rw [List.count_eq_zero]
  intro hmem
  obtain ⟨c, hc, hzero⟩ := List.mem_map.mp hmem
  have hval := congrArg UInt8.toNat hzero
  rw [Text.toNat_ofNat_lt (by have := h c hc; omega)] at hval
  have hpos := (h c hc).1
  simp at hval
  omega

/-- Half of the bytes are zero. -/
theorem PlainAscii.count_units (big : Bool) :
    ((s.map (·.val)).flatMap (Text.unit_bytes big)).count 0 = s.length ∧
      ((s.map (·.val)).flatMap (Text.unit_bytes big)).length = 2 * s.length := by
  induction s with
  | nil => simp
  | cons c s ih =>
    obtain ⟨hcount, hlength⟩ := ih fun d hd => h d (List.mem_cons_of_mem c hd)
    obtain ⟨hpos, hlt⟩ := h c List.mem_cons_self
    have hhigh : c.val / 256 = 0 := by omega
    have hlow : (UInt8.ofNat (c.val % 256)) ≠ 0 := by
      intro hzero
      have hval := congrArg UInt8.toNat hzero
      rw [Text.toNat_ofNat_lt (by omega)] at hval
      simp at hval
      omega
    rw [List.map_cons, List.flatMap_cons, List.count_append, List.length_append, hcount, hlength]
    cases big <;> simp [Text.unit_bytes, hhigh, hlow] <;> omega

/-- In the other byte order each unit is another character. -/
theorem PlainAscii.swapped :
    Text.decode_utf16 false ((s.map (·.val)).flatMap (Text.unit_bytes true)) =
      some (s.map fun c => Fin.ofNat 0x110000 (256 * c.val)) := by
  induction s with
  | nil => rfl
  | cons c s ih =>
    have hrest := ih fun d hd => h d (List.mem_cons_of_mem c hd)
    obtain ⟨hpos, hlt⟩ := h c List.mem_cons_self
    have hhigh : (UInt8.ofNat (c.val / 256)).toNat = c.val / 256 := Text.toNat_ofNat_lt (by omega)
    have hlow : (UInt8.ofNat (c.val % 256)).toNat = c.val % 256 := Text.toNat_ofNat_lt (by omega)
    have hunit : 256 * (c.val % 256) + c.val / 256 = 256 * c.val := by omega
    have hplain : Text.high_unit (256 * c.val) = false ∧ Text.low_unit (256 * c.val) = false := by
      simp [Text.high_unit, Text.low_unit]
      omega
    rw [Text.decode_utf16] at hrest ⊢
    simp only [List.map_cons, List.flatMap_cons, Text.unit_bytes, if_true, List.cons_append,
      List.nil_append, Text.read_units, Bool.false_eq_true, if_false, hhigh, hlow, hunit] at hrest ⊢
    cases hread : Text.read_units false ((s.map (·.val)).flatMap (Text.unit_bytes true)) with
    | none => simp [hread] at hrest
    | some us =>
      rw [hread, Option.bind_some] at hrest
      rw [Option.map_some, Option.bind_some, Text.join_units_plain hplain.1 hplain.2, hrest]
      rfl

end Ascii

/-- Bytes whose first is ASCII begin with no byte order mark. -/
theorem unmarked {raw : List UInt8} (h : ∀ b, raw.head? = some b → b.toNat < 128) :
    ¬UTF_8_BOM <+: raw ∧ ¬(UTF_16_LE_BOM <+: raw ∨ UTF_16_BE_BOM <+: raw) := by
  have hnone : ∀ b bom, 128 ≤ UInt8.toNat b → ¬(b :: bom) <+: raw := by
    intro b bom hb hstart
    obtain ⟨rest, hrest⟩ := hstart
    have hlt := h b (by rw [← hrest]; rfl)
    omega
  exact ⟨hnone _ _ (by decide), not_or.mpr ⟨hnone _ _ (by decide), hnone _ _ (by decide)⟩⟩

section Read

variable {cp949 : Cp949} {s : List CodePoint}

theorem read_ascii (h : PlainAscii s) : read_diff_file cp949 (ascii_bytes s) = some s := by
  have hhead : ∀ b, (ascii_bytes s).head? = some b → b.toNat < 128 := by
    intro b hb
    obtain ⟨c, hc, rfl⟩ := List.mem_map.mp (List.mem_of_mem_head? hb)
    have hlt := (h c hc).2
    rw [Text.toNat_ofNat_lt (by omega)]
    exact hlt
  obtain ⟨hbom, hboms⟩ := unmarked hhead
  have hnuls : many_nuls (ascii_bytes s) = false := by simp [many_nuls, h.no_nul]
  rw [read_diff_file, if_neg hbom, if_neg hboms, hnuls, Text.decode_strict_encode h.encode]
  rfl

/-- Without a mark, what is written in UTF-16 is read with the low byte first. -/
theorem read_units_unmarked (h : PlainAscii s) (hne : s ≠ []) (big : Bool) {t : List CodePoint}
    (hdecode : Text.decode_utf16 false ((s.map (·.val)).flatMap (Text.unit_bytes big)) = some t) :
    read_diff_file cp949 ((s.map (·.val)).flatMap (Text.unit_bytes big)) = some t := by
  have hhead : ∀ b, ((s.map (·.val)).flatMap (Text.unit_bytes big)).head? = some b →
      b.toNat < 128 := by
    intro b hb
    cases s with
    | nil => simp at hb
    | cons c s =>
      obtain ⟨hpos, hlt⟩ := h c List.mem_cons_self
      cases big with
      | false =>
        have hval : UInt8.ofNat (c.val % 256) = b := by simpa [Text.unit_bytes] using hb
        rw [← hval, Text.toNat_ofNat_lt (by omega)]
        omega
      | true =>
        have hval : UInt8.ofNat (c.val / 256) = b := by simpa [Text.unit_bytes] using hb
        rw [← hval, Text.toNat_ofNat_lt (by omega)]
        omega
  obtain ⟨hbom, hboms⟩ := unmarked hhead
  obtain ⟨hcount, hlength⟩ := h.count_units big
  have hpos := List.length_pos_iff.mpr hne
  have hnuls : many_nuls ((s.map (·.val)).flatMap (Text.unit_bytes big)) = true := by
    rw [many_nuls, hcount, hlength, decide_eq_true_iff]
    omega
  rw [read_diff_file, if_neg hbom, if_neg hboms, hnuls, if_pos rfl, hdecode]
  rfl

theorem read_utf_8_sig (h : PlainAscii s) :
    read_diff_file cp949 (UTF_8_BOM ++ ascii_bytes s) = some s := by
  have hbom : UTF_8_BOM <+: UTF_8_BOM ++ ascii_bytes s := List.prefix_append _ _
  rw [read_diff_file, if_pos hbom, decode_utf_8_sig, if_pos hbom]
  exact Text.decode_strict_encode h.encode

theorem read_utf_16_le {bs : List UInt8} (h : Text.encode_utf16 false s = some bs) :
    read_diff_file cp949 (UTF_16_LE_BOM ++ bs) = some s := by
  have hother : ¬UTF_8_BOM <+: UTF_16_LE_BOM ++ bs := by
    simp [UTF_8_BOM, UTF_16_LE_BOM]
  have hbom : UTF_16_LE_BOM <+: UTF_16_LE_BOM ++ bs := List.prefix_append _ _
  rw [read_diff_file, if_neg hother, if_pos (.inl hbom), decode_utf_16, if_pos hbom]
  exact Text.decode_utf16_encode h

theorem read_utf_16_be {bs : List UInt8} (h : Text.encode_utf16 true s = some bs) :
    read_diff_file cp949 (UTF_16_BE_BOM ++ bs) = some s := by
  have hother : ¬UTF_8_BOM <+: UTF_16_BE_BOM ++ bs := by
    simp [UTF_8_BOM, UTF_16_BE_BOM]
  have hle : ¬UTF_16_LE_BOM <+: UTF_16_BE_BOM ++ bs := by
    simp [UTF_16_LE_BOM, UTF_16_BE_BOM]
  have hbom : UTF_16_BE_BOM <+: UTF_16_BE_BOM ++ bs := List.prefix_append _ _
  rw [read_diff_file, if_neg hother, if_pos (.inr hbom), decode_utf_16, if_neg hle, if_pos hbom]
  exact Text.decode_utf16_encode h

/-- What is written in big-endian UTF-16 without a mark is read as other characters. -/
theorem read_utf_16_be_unmarked (h : PlainAscii s) (hne : s ≠ []) :
    read_diff_file cp949 ((s.map (·.val)).flatMap (Text.unit_bytes true)) ≠ some s := by
  rw [read_units_unmarked h hne true h.swapped]
  intro heq
  cases s with
  | nil => exact hne rfl
  | cons c s =>
    obtain ⟨hpos, hlt⟩ := h c List.mem_cons_self
    have hval : (256 * c.val) % 0x110000 = c.val := by
      have hfirst := congrArg (fun t : List CodePoint => t.head?.map (·.val)) (Option.some.inj heq)
      simpa [Fin.ofNat] using hfirst
    omega

/-- A text in ASCII is read as it was written in every encoding but big-endian UTF-16 without a
mark. -/
theorem read_encoded_iff (cp949 : Cp949) {s : List CodePoint} (hne : s ≠ []) (h : PlainAscii s)
    (e : DiffEncoding) :
    (e.encode cp949 s).bind (read_diff_file cp949) = some s ↔ e ≠ .utf_16_be := by
  cases e with
  | utf_8 => simp [DiffEncoding.encode, h.encode, read_ascii h]
  | utf_8_sig => simp [DiffEncoding.encode, h.encode, read_utf_8_sig h]
  | utf_16_le_bom =>
    simp [DiffEncoding.encode, h.encode_utf16, read_utf_16_le (h.encode_utf16 false)]
  | utf_16_be_bom =>
    simp [DiffEncoding.encode, h.encode_utf16, read_utf_16_be (h.encode_utf16 true)]
  | utf_16_le =>
    have hdecode := Text.decode_utf16_encode (h.encode_utf16 false)
    simp [DiffEncoding.encode, h.encode_utf16, read_units_unmarked h hne false hdecode]
  | utf_16_be =>
    simp [DiffEncoding.encode, h.encode_utf16, read_utf_16_be_unmarked h hne]
  | cp949 =>
    have hencode := cp949.encode_ascii s fun c hc => (h c hc).2
    have hread := @read_ascii cp949 s h
    simp only [DiffEncoding.encode, hencode, Option.bind_some]
    exact iff_of_true hread (by decide)

end Read

/-- A codec that agrees with `cp949` on ASCII. -/
def ascii_codec : Cp949 where
  encode s := if s.all (·.val < 128) then some (ascii_bytes s) else none
  decode bs := if bs.all (·.toNat < 128) then some (bs.map fun b => Fin.ofNat 0x110000 b.toNat)
    else none
  encode_ascii s h := if_pos (by simpa using h)

theorem plain_names : PlainAscii (Text.code_points "--- a/x") := by
  have hall : (Text.code_points "--- a/x").all (fun c => 0 < c.val && c.val < 128) = true := by
    decide
  intro c hc
  simpa using List.all_eq_true.mp hall c hc

/-- `--- a/x` is read back from little-endian UTF-16. -/
theorem names_read : (DiffEncoding.utf_16_le.encode ascii_codec (Text.code_points "--- a/x")).bind
      (read_diff_file ascii_codec) = some (Text.code_points "--- a/x") ↔
    DiffEncoding.utf_16_le ≠ .utf_16_be :=
  read_encoded_iff ascii_codec (by decide) plain_names .utf_16_le

/-- From big-endian UTF-16 it is not. -/
theorem names_misread :
    (DiffEncoding.utf_16_be.encode ascii_codec (Text.code_points "--- a/x")).bind
      (read_diff_file ascii_codec) ≠ some (Text.code_points "--- a/x") := by
  have hread := @read_utf_16_be_unmarked ascii_codec _ plain_names (by decide)
  rwa [DiffEncoding.encode, plain_names.encode_utf16, Option.bind_some]

end DiffInput

end Nitpicker
