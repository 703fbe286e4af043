import NitpickerDaemon.Text.JsonParser
import NitpickerDaemon.Text.Utf8

/-!
The framing of JSON-RPC messages in the language server: what is written is read back.
-/

set_option autoImplicit false

namespace Nitpicker

open Text (CodePoint Json Floats)

abbrev JsonObject := List (List CodePoint × Json)

def ascii (s : String) : List UInt8 := s.toList.map fun c => UInt8.ofNat c.toNat

/-- `_write_message`; a lone surrogate has no bytes. -/
def write_message (floats : Floats) (msg : JsonObject) : Option (List UInt8) := do
  let body := (Json.object msg).dumps floats.repr
  let encoded ← Text.encode body
  let header := "Content-Length: " ++ toString encoded.length ++ "\r\n\r\n"
  return ascii header ++ encoded

/-- `stream.readline()`, and what is left of the stream. -/
def readline : List UInt8 → List UInt8 × List UInt8
  | [] => ([], [])
  | b :: stream =>
    if b = 10 then ([b], stream) else (b :: (readline stream).1, (readline stream).2)

/-- `stream.read(n)`, and what is left of the stream. -/
def stream_read (n : Int) (stream : List UInt8) : Option (List UInt8 × List UInt8) :=
  if n < -1 then none
  else if n = -1 then some (stream, [])
  else some (stream.take n.toNat, stream.drop n.toNat)

def byte_space (b : UInt8) : Bool := b == 32 || (9 ≤ b && b ≤ 13)

/-- `bytes.strip` -/
def strip_bytes (bs : List UInt8) : List UInt8 :=
  ((bs.dropWhile byte_space).reverse.dropWhile byte_space).reverse

/-- `str.isspace` of one character. -/
def text_space (c : CodePoint) : Bool :=
  let n := c.val
  (9 ≤ n && n ≤ 13) || (28 ≤ n && n ≤ 32) || n == 0x85 || n == 0xa0 || n == 0x1680 ||
    (0x2000 ≤ n && n ≤ 0x200a) || n == 0x2028 || n == 0x2029 || n == 0x202f || n == 0x205f ||
    n == 0x3000

/-- `str.strip` -/
def strip_text (cs : List CodePoint) : List CodePoint :=
  ((cs.dropWhile text_space).reverse.dropWhile text_space).reverse

/-- `str.lower`, as far as letters of ASCII come of it that are not lower already. -/
def lower_text (cs : List CodePoint) : List CodePoint :=
  cs.map fun c => if 65 ≤ c.val ∧ c.val ≤ 90 then Fin.ofNat 0x110000 (c.val + 32) else c

def underscore : CodePoint := Text.code_point '_'

/-- `int(text)`: underscores may stand between two digits. -/
def int_of_text (text : List CodePoint) : Option Int :=
  let (sign, digits) := Text.scan_sign [Text.code_point '+', Text.code_point '-'] (strip_text text)
  let plain := digits.filter (· ≠ underscore)
  if plain ≠ [] ∧ plain.all Text.digit ∧ digits.head? ≠ some underscore ∧
      digits.getLast? ≠ some underscore ∧ ¬ [underscore, underscore] <:+: digits then
    some (if sign = [Text.code_point '-'] then -(Text.nat_of_digits plain : Int)
      else Text.nat_of_digits plain)
  else none

/-- `header_line.lower().startswith("content-length:")` -/
def content_length_header (header_line : List CodePoint) : Prop :=
  Text.code_points "content-length:" <+: lower_text header_line

instance (header_line : List CodePoint) : Decidable (content_length_header header_line) :=
  inferInstanceAs (Decidable (_ <+: _))

/-- `header_line.split(":", 1)[1]` -/
def after_colon (header_line : List CodePoint) : List CodePoint :=
  (header_line.dropWhile (· ≠ Text.code_point ':')).drop 1

/-- What `_read_message` raises: a `ValueError` of a number, or of a body that is no JSON. -/
inductive FramingError where
  | value_error
  | json_decode_error

/-- The loop over the header lines, each of at least a byte: the length they give, unless the
stream ends before a blank line. -/
def read_headers : Nat → Int → List UInt8 → Except FramingError (Option Int × List UInt8)
  | 0, _, stream => .ok (none, stream)
  | fuel + 1, content_length, stream =>
    let (header_line, rest) := readline stream
    if header_line = [] then .ok (none, rest)
    else
      let header_line := strip_bytes header_line
      if header_line = [] then .ok (some content_length, rest)
      else
        let header_line := Text.decode_replace header_line
        if content_length_header header_line then
          match int_of_text (strip_text (after_colon header_line)) with
          | none => .error .value_error
          | some n => read_headers fuel n rest
        else read_headers fuel content_length rest

/-- `_read_message`, and what is left of the stream. -/
def read_message (floats : Floats) (stream : List UInt8) :
    Except FramingError (Option Json × List UInt8) := do
  match ← read_headers stream.length 0 stream with
  | (none, rest) => return (none, rest)
  | (some content_length, rest) =>
    if content_length = 0 then return (none, rest)
    else
      match stream_read content_length rest with
      | none => throw .value_error
      | some (body, rest) =>
        match Text.loads floats.read (Text.decode_replace body) with
        | none => throw .json_decode_error
        | some msg => return (some msg, rest)

/-- `_read_message` so many times. -/
def read_messages (floats : Floats) :
    Nat → List UInt8 → Except FramingError (List (Option Json))
  | 0, _ => .ok []
  | n + 1, stream => do
    let (msg, rest) ← read_message floats stream
    let msgs ← read_messages floats n rest
    return msg :: msgs

/-- A header line, without its line end, that says nothing of the length. -/
structure HeaderLine where
  bytes : List UInt8
  one_line : 10 ∉ bytes
  not_blank : strip_bytes bytes ≠ []
  no_length : ¬ content_length_header (Text.decode_replace (strip_bytes bytes))

def header_lines (headers : List HeaderLine) : List UInt8 :=
  headers.flatMap fun header => header.bytes ++ ascii "\r\n"

/-- Further header lines before the blank line of a written message. -/
def insert_headers (headers : List HeaderLine) (written : List UInt8) : List UInt8 :=
  (readline written).1 ++ header_lines headers ++ (readline written).2

/-- A message, and the header lines it is sent with beside its length. -/
structure Framed where
  msg : JsonObject
  headers : List HeaderLine

def Framed.write (floats : Floats) (frame : Framed) : Option (List UInt8) :=
  (write_message floats frame.msg).map (insert_headers frame.headers)

/-- The messages one after the other. -/
def write_messages (floats : Floats) : List Framed → Option (List UInt8)
  | [] => some []
  | frame :: frames => do
    let written ← frame.write floats
    let rest ← write_messages floats frames
    return written ++ rest

theorem readline_line {line : List UInt8} (h : 10 ∉ line) (rest : List UInt8) :
    readline (line ++ 10 :: rest) = (line ++ [10], rest) := by
  induction line with
  | nil => simp [readline]
  | cons b line ih =>
    simp only [List.mem_cons, not_or] at h
    have hb : b ≠ 10 := fun heq => h.1 heq.symm
    simp [readline, hb, ih h.2]

theorem strip_bytes_ended {line spaces : List UInt8} (h : ∀ b ∈ spaces, byte_space b = true) :
    strip_bytes (line ++ spaces) = strip_bytes line := by
  by_cases hline : line.dropWhile byte_space = []
  · have hall : ∀ b ∈ line, byte_space b = true := by simpa [List.dropWhile_eq_nil_iff] using hline
    have hboth : (line ++ spaces).dropWhile byte_space = [] := by
      rw [List.dropWhile_eq_nil_iff]
      intro b hb
      rcases List.mem_append.mp hb with hb | hb
      · exact hall b hb
      · exact h b hb
    simp [strip_bytes, hline, hboth]
  · have hspaces : ∀ b ∈ spaces.reverse, byte_space b = true := by simpa using h
    have hdrop : (line ++ spaces).dropWhile byte_space = line.dropWhile byte_space ++ spaces := by
      rw [List.dropWhile_append, if_neg (by simpa using hline)]
    rw [strip_bytes, strip_bytes, hdrop, List.reverse_append,
      List.dropWhile_append_of_pos hspaces]

theorem strip_bytes_plain {line : List UInt8} (hhead : ∀ b, line.head? = some b → byte_space b = false)
    (hlast : ∀ b, line.getLast? = some b → byte_space b = false) : strip_bytes line = line := by
  have hdrop {bs : List UInt8} (h : ∀ b, bs.head? = some b → byte_space b = false) :
      bs.dropWhile byte_space = bs := by
    cases bs with
    | nil => rfl
    | cons b bs => simp [h b rfl]
  rw [strip_bytes, hdrop hhead, hdrop (by simpa using hlast), List.reverse_reverse]

theorem line_end_spaces : ∀ b ∈ ascii "\r\n", byte_space b = true :=
  List.all_eq_true.mp (by decide)

section Headers

variable {fuel : Nat} {n : Int} {rest : List UInt8}

theorem readline_ended {line : List UInt8} (h : 10 ∉ line) :
    readline (line ++ ascii "\r\n" ++ rest) = (line ++ ascii "\r\n", rest) := by
  have hcr : 10 ∉ line ++ [13] := by simpa using h
  have hline := readline_line hcr rest
  simpa [ascii] using hline

theorem read_headers_blank :
    read_headers (fuel + 1) n (ascii "\r\n" ++ rest) = .ok (some n, rest) := by
  have hline := @readline_ended rest [] (by simp)
  rw [List.nil_append] at hline
  rw [read_headers, hline]
  rfl

theorem read_headers_line (header : HeaderLine) :
    read_headers (fuel + 1) n (header.bytes ++ ascii "\r\n" ++ rest) =
      read_headers fuel n rest := by
  have hne : header.bytes ++ ascii "\r\n" ≠ [] := by simp [ascii]
  rw [read_headers, readline_ended header.one_line]
  simp only [hne, if_false, strip_bytes_ended line_end_spaces, header.not_blank, header.no_length]

theorem read_headers_lines (headers : List HeaderLine) :
    read_headers (headers.length + fuel) n (header_lines headers ++ rest) =
      read_headers fuel n rest := by
  induction headers with
  | nil => simp [header_lines]
  | cons header headers ih =>
    have hfuel : (header :: headers).length + fuel = headers.length + fuel + 1 := by
      rw [List.length_cons]
      omega
    have hlines : header_lines (header :: headers) ++ rest =
        header.bytes ++ ascii "\r\n" ++ (header_lines headers ++ rest) := by
      simp [header_lines]
    rw [hfuel, hlines, read_headers_line, ih]

theorem ascii_append (s t : String) : ascii (s ++ t) = ascii s ++ ascii t := by
  simp [ascii, String.toList_append]

theorem encode_ascii {s : String} (h : ∀ c ∈ s.toList, c.toNat < 0x80) :
    Text.encode (Text.code_points s) = some (ascii s) := by
  rw [Text.encode, if_pos (Text.clean_code_points s), Option.some.injEq, Text.code_points, ascii,
    List.flatMap_map, List.map_eq_flatMap]
  apply List.flatMap_congr
  intro c hc
  simp [Text.utf8_bytes, Text.code_point_val, h c hc]

theorem decode_ascii {s : String} (h : ∀ c ∈ s.toList, c.toNat < 0x80) :
    Text.decode_replace (ascii s) = Text.code_points s := Text.decode_encode (encode_ascii h)

def length_line (k : Nat) : String := "Content-Length: " ++ toString k

theorem length_line_toList (k : Nat) :
    (length_line k).toList = "Content-Length: ".toList ++ Nat.toDigits 10 k := by
  have hnumber : (toString k).toList = Nat.toDigits 10 k := by simp [Nat.toString_eq_repr]
  unfold length_line
  rw [String.toList_append, hnumber]

theorem length_line_code_points (k : Nat) :
    Text.code_points (length_line k) = Text.code_points "Content-Length: " ++ Text.digits_of k := by
  rw [Text.code_points, length_line_toList, List.map_append, Text.digits_of_eq]
  rfl

/-- The characters of the line are printable ones of ASCII. -/
theorem length_line_printable (k : Nat) :
    ∀ c ∈ (length_line k).toList, 32 ≤ c.toNat ∧ c.toNat < 0x80 := by
  have hname : "Content-Length: ".toList.all (fun c => 32 ≤ c.toNat && c.toNat < 0x80) = true := by
    decide
  intro c hc
  rw [length_line_toList, List.mem_append] at hc
  rcases hc with hc | hc
  · simpa using List.all_eq_true.mp hname c hc
  · have hdigit := Text.digit_code_point (Nat.isDigit_of_mem_toDigits (by decide) (by decide) hc)
    rw [Text.digit_iff, Text.code_point_val] at hdigit
    omega

theorem length_line_one_line (k : Nat) : 10 ∉ ascii (length_line k) := by
  intro h
  obtain ⟨c, hc, hb⟩ := List.mem_map.mp h
  have hprint := length_line_printable k c hc
  have hval : (UInt8.ofNat c.toNat).toNat = c.toNat := Text.toNat_ofNat_lt (by omega)
  rw [hb] at hval
  have hten : (10 : UInt8).toNat = 10 := rfl
  omega

theorem byte_space_printable {c : Char} (h : 32 < c.toNat ∧ c.toNat < 0x80) :
    byte_space (UInt8.ofNat c.toNat) = false := by
  have hval : (UInt8.ofNat c.toNat).toNat = c.toNat := Text.toNat_ofNat_lt (by omega)
  simp only [byte_space, Bool.or_eq_false_iff, Bool.and_eq_false_iff, beq_eq_false_iff_ne,
    decide_eq_false_iff_not, UInt8.le_iff_toNat_le, ne_eq, ← UInt8.toNat_inj, hval,
    UInt8.reduceToNat]
  omega

theorem length_line_strip (k : Nat) :
    strip_bytes (ascii (length_line k)) = ascii (length_line k) := by
  apply strip_bytes_plain
  · intro b hb
    have hC : b = 67 := by simpa [ascii, length_line_toList] using hb.symm
    rw [hC]
    decide
  · intro b hb
    rw [ascii, length_line_toList, List.map_append, List.getLast?_append, List.getLast?_map] at hb
    cases hd : (Nat.toDigits 10 k).getLast? with
    | none => exact absurd (List.getLast?_eq_none_iff.mp hd) Nat.toDigits_ne_nil
    | some c =>
      have hc := List.mem_of_getLast? hd
      have hdigit := Text.digit_code_point (Nat.isDigit_of_mem_toDigits (by decide) (by decide) hc)
      rw [Text.digit_iff, Text.code_point_val] at hdigit
      have hb : UInt8.ofNat c.toNat = b := by simpa [hd] using hb
      rw [← hb]
      exact byte_space_printable (by omega)

theorem strip_text_digits {digits : List CodePoint} (h : ∀ c ∈ digits, Text.digit c = true) :
    strip_text digits = digits := by
  have hspace {c : CodePoint} (hc : Text.digit c = true) : text_space c = false := by
    rw [Text.digit_iff] at hc
    simp [text_space]
    omega
  have hdrop {cs : List CodePoint} (hcs : ∀ c ∈ cs, Text.digit c = true) :
      cs.dropWhile text_space = cs := by
    cases cs with
    | nil => rfl
    | cons c cs => simp [hspace (hcs c List.mem_cons_self)]
  rw [strip_text, hdrop h, hdrop (by simpa using h), List.reverse_reverse]

theorem int_of_digits_text (k : Nat) : int_of_text (Text.digits_of k) = some (k : Int) := by
  have hdigits : ∀ c ∈ Text.digits_of k, Text.digit c = true := fun c hc => Text.digit_of_mem hc
  have hne {c d : CodePoint} (hc : c ∈ Text.digits_of k) (hd : Text.digit d = false) : c ≠ d :=
    Text.digit_ne (hdigits c hc) hd
  have hsign : Text.scan_sign [Text.code_point '+', Text.code_point '-'] (Text.digits_of k) =
      ([], Text.digits_of k) := by
    apply Text.scan_sign_none
    intro c hc hmem
    have hc := List.mem_of_head? hc
    simp only [List.mem_cons, List.not_mem_nil, or_false] at hmem
    rcases hmem with hplus | hminus
    · exact hne hc (by decide) hplus
    · exact hne hc (by decide) hminus
  have hplain : (Text.digits_of k).filter (· ≠ underscore) = Text.digits_of k := by
    rw [List.filter_eq_self]
    intro c hc
    simpa using hne hc (by decide)
  have hunder : underscore ∉ Text.digits_of k := fun h => hne h (by decide) rfl
  have hhead : (Text.digits_of k).head? ≠ some underscore :=
    fun h => hunder (List.mem_of_head? h)
  have hlast : (Text.digits_of k).getLast? ≠ some underscore :=
    fun h => hunder (List.mem_of_getLast? h)
  have htwo : ¬ [underscore, underscore] <:+: Text.digits_of k :=
    fun h => hunder (h.subset List.mem_cons_self)
  have hall : (Text.digits_of k).all Text.digit = true := List.all_eq_true.mpr hdigits
  rw [int_of_text, strip_text_digits hdigits, hsign]
  simp only [hplain]
  rw [if_pos ⟨Text.digits_of_ne_nil k, hall, hhead, hlast, htwo⟩, Text.nat_of_digits_of,
    if_neg (by simp)]

/-- The length is read off its line. -/
theorem length_of_line (k : Nat) :
    content_length_header (Text.code_points (length_line k)) ∧
      int_of_text (strip_text (after_colon (Text.code_points (length_line k)))) = some (k : Int) := by
  rw [length_line_code_points]
  constructor
  · rw [content_length_header, lower_text, List.map_append]
    refine List.IsPrefix.trans ?_ (List.prefix_append _ _)
    decide
  · have hafter : after_colon (Text.code_points "Content-Length: " ++ Text.digits_of k) =
        Text.code_point ' ' :: Text.digits_of k := rfl
    have hblank : strip_text (Text.code_point ' ' :: Text.digits_of k) = Text.digits_of k := by
      have hspace : text_space (Text.code_point ' ') = true := by decide
      have hstrip := strip_text_digits fun c hc => Text.digit_of_mem (n := k) hc
      rw [strip_text] at hstrip ⊢
      rw [List.dropWhile_cons_of_pos hspace]
      exact hstrip
    rw [hafter, hblank, int_of_digits_text]

theorem read_headers_length (k : Nat) :
    read_headers (fuel + 1) n (ascii (length_line k) ++ ascii "\r\n" ++ rest) =
      read_headers fuel k rest := by
  have hne : ascii (length_line k) ++ ascii "\r\n" ≠ [] := by simp [ascii]
  have hline : ascii (length_line k) ≠ [] := by simp [ascii, length_line_toList]
  have hascii := decode_ascii fun c hc => (length_line_printable k c hc).2
  obtain ⟨hheader, hint⟩ := length_of_line k
  rw [read_headers, readline_ended (length_line_one_line k)]
  simp only [hne, if_false, strip_bytes_ended line_end_spaces, length_line_strip, hline, hascii,
    hheader, if_true, hint]

end Headers

section RoundTrip

variable {floats : Floats}

theorem write_message_eq {msg : JsonObject} {encoded : List UInt8}
    (h : Text.encode ((Json.object msg).dumps floats.repr) = some encoded) :
    write_message floats msg = some (ascii (length_line encoded.length) ++ ascii "\r\n" ++
      (ascii "\r\n" ++ encoded)) := by
  have hends : ascii "\r\n\r\n" = ascii "\r\n" ++ ascii "\r\n" := by decide
  simp [write_message, h, length_line, ascii_append, hends]

theorem frame_write_eq {frame : Framed} {encoded : List UInt8}
    (h : Text.encode ((Json.object frame.msg).dumps floats.repr) = some encoded) :
    frame.write floats = some (ascii (length_line encoded.length) ++ ascii "\r\n" ++
      (header_lines frame.headers ++ (ascii "\r\n" ++ encoded))) := by
  rw [Framed.write, write_message_eq h, Option.map_some, insert_headers,
    readline_ended (length_line_one_line _)]
  simp

theorem length_le_header_lines (headers : List HeaderLine) :
    headers.length ≤ (header_lines headers).length := by
  induction headers with
  | nil => simp
  | cons header headers ih =>
    have hline : (header_lines (header :: headers)).length =
        header.bytes.length + 2 + (header_lines headers).length := by
      simp [header_lines, ascii]
      omega
    rw [hline, List.length_cons]
    omega

/-- The headers of a written message give the length of its body. -/
theorem read_headers_written (k : Nat) (headers : List HeaderLine) (body : List UInt8) :
    read_headers (ascii (length_line k) ++ ascii "\r\n" ++
        (header_lines headers ++ (ascii "\r\n" ++ body))).length 0
      (ascii (length_line k) ++ ascii "\r\n" ++
        (header_lines headers ++ (ascii "\r\n" ++ body))) = .ok (some (k : Int), body) := by
  have hlines := length_le_header_lines headers
  have hend : (ascii "\r\n").length = 2 := rfl
  obtain ⟨m, hm⟩ : ∃ m, (ascii (length_line k) ++ ascii "\r\n" ++
      (header_lines headers ++ (ascii "\r\n" ++ body))).length =
        headers.length + (m + 1) + 1 := by
    simp only [List.length_append, hend]
    exact ⟨(ascii (length_line k)).length + ((header_lines headers).length - headers.length) +
      2 + body.length, by omega⟩
  rw [hm, read_headers_length, read_headers_lines, read_headers_blank]

theorem stream_read_body (body rest : List UInt8) :
    stream_read body.length (body ++ rest) = some (body, rest) := by
  rw [stream_read, if_neg (by omega), if_neg (by omega), Int.toNat_natCast, List.take_left,
    List.drop_left]

/-- One message is read, and the stream stands after it. -/
theorem read_frame {frame : Framed} (hheld : (Json.object frame.msg).Held floats)
    (hscalar : (Json.object frame.msg).Scalar) : ∃ written, frame.write floats = some written ∧
      ∀ rest, read_message floats (written ++ rest) = .ok (some (.object frame.msg), rest) := by
  obtain ⟨encoded, hencoded⟩ := Option.isSome_iff_exists.mp
    ((@Json.encode_dumps floats.repr _).mpr hscalar)
  have hdecode := Text.decode_encode hencoded
  have hlength : (encoded.length : Int) ≠ 0 := by
    intro h
    rw [Int.natCast_eq_zero, List.length_eq_zero_iff] at h
    obtain ⟨c, cs, hcons, -⟩ := Text.dumps_cons hheld
    rw [h, hcons] at hdecode
    cases hdecode
  refine ⟨_, frame_write_eq hencoded, fun rest => ?_⟩
  have hheaders := read_headers_written encoded.length frame.headers (encoded ++ rest)
  simp only [List.append_assoc] at hheaders ⊢
  simp only [read_message, hheaders, bind, Except.bind, hlength, if_false, stream_read_body,
    hdecode, Text.loads_dumps hheld]
  rfl

theorem read_messages_end (n : Nat) :
    read_messages floats n [] = .ok (List.replicate n none) := by
  induction n with
  | zero => rfl
  | succ n ih =>
    have hend : read_message floats [] = .ok (none, []) := rfl
    simp [read_messages, hend, ih, List.replicate_succ, bind, Except.bind, pure, Except.pure]

/-- What is written is read back, message by message, and then nothing any more. -/
theorem messages_read_back {frames : List Framed}
    (hheld : ∀ frame ∈ frames, (Json.object frame.msg).Held floats)
    (hscalar : ∀ frame ∈ frames, (Json.object frame.msg).Scalar) :
    ∃ stream, write_messages floats frames = some stream ∧
      ∀ n, read_messages floats (frames.length + n) stream = .ok
        (frames.map (fun frame => some (.object frame.msg)) ++ List.replicate n none) := by
  induction frames with
  | nil => exact ⟨[], rfl, fun n => by simp [read_messages_end]⟩
  | cons frame frames ih =>
    obtain ⟨rest, hrest, hread⟩ := ih (fun f hf => hheld f (List.mem_cons_of_mem _ hf))
      (fun f hf => hscalar f (List.mem_cons_of_mem _ hf))
    obtain ⟨written, hwritten, hframe⟩ :=
      read_frame (hheld frame List.mem_cons_self) (hscalar frame List.mem_cons_self)
    refine ⟨written ++ rest, by simp [write_messages, hwritten, hrest], fun n => ?_⟩
    have hcount : (frame :: frames).length + n = frames.length + n + 1 := by
      rw [List.length_cons]
      omega
    rw [hcount, read_messages, hframe]
    simp [hread, bind, Except.bind, pure, Except.pure]

end RoundTrip

/-- The one float of the sample messages. -/
def sampleFloats : Floats where
  repr _ := "2.5"
  read _ := 5 / 2
  Double q := q = 5 / 2
  repr_float := by
    rintro q rfl
    refine ⟨⟨false, [Text.code_point '2'], [Text.code_point '5'], none⟩, ?_, rfl, rfl, rfl⟩
    constructor
    · simp
      decide
    · simp
    · right
      simp
      decide
    · simp
      decide
    · simp

def sampleHeader : HeaderLine where
  bytes := ascii "content-TYPE: application/vscode-jsonrpc"
  one_line := by decide
  not_blank := by decide
  no_length := by decide

/-- A body with a character of two bytes, and with what looks like a header. -/
def sampleFrames : List Framed :=
  [⟨[(Text.code_points "id", .int 7), (Text.code_points "delay", .float (5 / 2)),
      (Text.code_points "text", .str (Text.code_points "é\nContent-Length: 3\n\n"))],
      [sampleHeader]⟩,
    ⟨[], []⟩]

theorem sample_messages_read_back : ∃ stream, write_messages sampleFloats sampleFrames = some stream ∧
    ∀ n, read_messages sampleFloats (2 + n) stream = .ok
      (sampleFrames.map (fun frame => some (.object frame.msg)) ++ List.replicate n none) := by
  apply @messages_read_back sampleFloats sampleFrames
  · simp [sampleFrames, Json.Held, Json.Held_members, Dict.Keyed, sampleFloats]
    decide
  · simp [sampleFrames, Json.Scalar, Json.Scalar_members]

end Nitpicker
