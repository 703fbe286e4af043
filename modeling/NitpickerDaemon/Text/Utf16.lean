import NitpickerDaemon.Text.Utf8

/-!
Bytes as text: UTF-16 in either byte order, and UTF-8 that must be valid.
-/

set_option autoImplicit false

namespace Text

/-- `bs.decode("utf-8")`: bytes are valid when they are the encoding of what is read from them. -/
def decode_strict (bs : List UInt8) : Option (List CodePoint) :=
  if encode (decode_replace bs) = some bs then some (decode_replace bs) else none

theorem decode_strict_encode {s : List CodePoint} {bs : List UInt8} (h : encode s = some bs) :
    decode_strict bs = some s := by
  have hread := decode_encode h
  rw [decode_strict, hread, if_pos h]

/-- The 16-bit units of a code point. -/
def utf16_units (c : CodePoint) : List Nat :=
  if c.val < 0x10000 then [c.val]
  else [0xD800 + (c.val - 0x10000) / 1024, 0xDC00 + (c.val - 0x10000) % 1024]

def high_unit (u : Nat) : Bool := 0xD800 ≤ u && u < 0xDC00

def low_unit (u : Nat) : Bool := 0xDC00 ≤ u && u < 0xE000

def unit_bytes (big : Bool) (u : Nat) : List UInt8 :=
  if big then [UInt8.ofNat (u / 256), UInt8.ofNat (u % 256)]
  else [UInt8.ofNat (u % 256), UInt8.ofNat (u / 256)]

/-- `s.encode("utf-16-be")` or `s.encode("utf-16-le")` -/
def encode_utf16 (big : Bool) (s : List CodePoint) : Option (List UInt8) :=
  if Clean s then some ((s.flatMap utf16_units).flatMap (unit_bytes big)) else none

def read_units (big : Bool) : List UInt8 → Option (List Nat)
  | [] => some []
  | [_] => none
  | a :: b :: bs =>
    (read_units big bs).map fun us =>
      (if big then 256 * a.toNat + b.toNat else 256 * b.toNat + a.toNat) :: us

/-- A high surrogate is read with the low one that must follow it. -/
def join_units : List Nat → Option (List CodePoint)
  | [] => some []
  | [u] => if high_unit u || low_unit u then none else some [Fin.ofNat 0x110000 u]
  | u :: v :: us =>
    if high_unit u then
      if low_unit v then
        (join_units us).map
          (Fin.ofNat 0x110000 (0x10000 + 1024 * (u - 0xD800) + (v - 0xDC00)) :: ·)
      else none
    else if low_unit u then none
    else (join_units (v :: us)).map (Fin.ofNat 0x110000 u :: ·)

/-- `bs.decode("utf-16-be")` or `bs.decode("utf-16-le")` -/
def decode_utf16 (big : Bool) (bs : List UInt8) : Option (List CodePoint) :=
  (read_units big bs).bind join_units

theorem read_units_bytes {us : List Nat} (h : ∀ u ∈ us, u < 0x10000) (big : Bool) :
    read_units big (us.flatMap (unit_bytes big)) = some us := by
  induction us with
  | nil => rfl
  | cons u us ih =>
    have hu : u < 0x10000 := h u List.mem_cons_self
    have hrest := ih fun v hv => h v (List.mem_cons_of_mem u hv)
    have hhigh : (UInt8.ofNat (u / 256)).toNat = u / 256 := toNat_ofNat_lt (by omega)
    have hlow : (UInt8.ofNat (u % 256)).toNat = u % 256 := toNat_ofNat_lt (by omega)
    cases big with
    | false =>
      simp only [List.flatMap_cons, unit_bytes, Bool.false_eq_true, if_false, List.cons_append,
        List.nil_append, read_units, hhigh, hlow] at hrest ⊢
      rw [hrest]
      simp
      omega
    | true =>
      simp only [List.flatMap_cons, unit_bytes, if_true, List.cons_append, List.nil_append,
        read_units, hhigh, hlow] at hrest ⊢
      rw [hrest]
      simp
      omega

theorem utf16_units_lt {c : CodePoint} {u : Nat} (h : u ∈ utf16_units c) : u < 0x10000 := by
  have hlt := c.isLt
  unfold utf16_units at h
  split at h
  · simp only [List.mem_singleton] at h
    omega
  · simp only [List.mem_cons, List.not_mem_nil, or_false] at h
    omega

/-- A unit that is no surrogate is a code point of its own. -/
theorem join_units_plain {u : Nat} (hhigh : high_unit u = false)
    (hlow : low_unit u = false) (us : List Nat) :
    join_units (u :: us) = (join_units us).map (Fin.ofNat 0x110000 u :: ·) := by
  cases us <;> simp [join_units, hhigh, hlow]

theorem join_units_code_point {c : CodePoint} (h : surrogate c = false) (us : List Nat) :
    join_units (utf16_units c ++ us) = (join_units us).map (c :: ·) := by
  have hlt := c.isLt
  simp only [surrogate, Bool.and_eq_false_iff, decide_eq_false_iff_not] at h
  unfold utf16_units
  split
  next hsmall =>
    have hhigh : high_unit c.val = false := by simp [high_unit]; omega
    have hlow : low_unit c.val = false := by simp [low_unit]; omega
    rw [List.singleton_append, join_units_plain hhigh hlow, ofNat_val]
  next hlarge =>
    have hhigh : high_unit (0xD800 + (c.val - 0x10000) / 1024) = true := by
      simp [high_unit]; omega
    have hlow : low_unit (0xDC00 + (c.val - 0x10000) % 1024) = true := by
      simp [low_unit]; omega
    have hvalue : 0x10000 + 1024 * (0xD800 + (c.val - 0x10000) / 1024 - 0xD800) +
        (0xDC00 + (c.val - 0x10000) % 1024 - 0xDC00) = c.val := by omega
    simp only [List.cons_append, List.nil_append, join_units, hhigh, hlow, if_true, hvalue,
      ofNat_val]

theorem decode_utf16_encode {big : Bool} {s : List CodePoint} {bs : List UInt8}
    (h : encode_utf16 big s = some bs) : decode_utf16 big bs = some s := by
  unfold encode_utf16 at h
  split at h
  next hclean =>
    obtain rfl := Option.some.inj h
    have hunits : ∀ u ∈ s.flatMap utf16_units, u < 0x10000 := by
      intro u hu
      obtain ⟨c, -, hc⟩ := List.mem_flatMap.mp hu
      exact utf16_units_lt hc
    rw [decode_utf16, read_units_bytes hunits, Option.bind_some]
    induction s with
    | nil => rfl
    | cons c s ih =>
      obtain ⟨hc, hs⟩ := clean_cons.mp hclean
      have hrest := ih hs rfl fun u hu => hunits u (by
        rw [List.flatMap_cons]
        exact List.mem_append_right _ hu)
      rw [List.flatMap_cons, join_units_code_point hc, hrest]
      rfl
  next => cases h

/-- A surrogate pair is one code point, a lone surrogate none. -/
example : decode_utf16 false [0x3D, 0xD8, 0x00, 0xDE] = some [0x1F600] ∧
    decode_utf16 true [0xD8, 0x3D] = none := by decide

end Text
