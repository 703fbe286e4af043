import NitpickerDaemon.Text.Json

/-!
Bytes as text: UTF-8 with a replacement character for what is none.
-/

set_option autoImplicit false

namespace Text

def replacement : CodePoint := ⟨0xFFFD, by decide⟩

/-- What a first byte announces: how many bytes follow, the range of the first of these, and its
own bits of the code point. -/
structure Lead where
  tails : Nat
  low : Nat
  high : Nat
  bits : Nat

def lead (b : Nat) : Option Lead :=
  if b < 0xC2 then none
  else if b < 0xE0 then some ⟨1, 0x80, 0xBF, b % 32⟩
  else if b < 0xF0 then
    some ⟨2, if b = 0xE0 then 0xA0 else 0x80, if b = 0xED then 0x9F else 0xBF, b % 16⟩
  else if b < 0xF5 then
    some ⟨3, if b = 0xF0 then 0x90 else 0x80, if b = 0xF4 then 0x8F else 0xBF, b % 8⟩
  else none

/-- The bytes, at most so many, that go on with a code point. -/
def tail_bytes : Nat → Nat → Nat → List UInt8 → List UInt8
  | 0, _, _, _ => []
  | _ + 1, _, _, [] => []
  | n + 1, low, high, b :: bs =>
    if low ≤ b.toNat ∧ b.toNat ≤ high then b :: tail_bytes n 0x80 0xBF bs else []

def join_bits (bits : Nat) (tails : List UInt8) : Nat :=
  tails.foldl (fun n b => 64 * n + b.toNat % 64) bits

def decode_from : Nat → List UInt8 → List CodePoint
  | 0, _ => []
  | _ + 1, [] => []
  | fuel + 1, b :: bs =>
    if b.toNat < 0x80 then Fin.ofNat 0x110000 b.toNat :: decode_from fuel bs
    else
      match lead b.toNat with
      | none => replacement :: decode_from fuel bs
      | some l =>
        let tails := tail_bytes l.tails l.low l.high bs
        let c := if tails.length = l.tails then Fin.ofNat 0x110000 (join_bits l.bits tails)
          else replacement
        c :: decode_from fuel (bs.drop tails.length)

/-- `bs.decode("utf-8", errors="replace")`; every round takes a byte. -/
def decode_replace (bs : List UInt8) : List CodePoint := decode_from bs.length bs

theorem toNat_ofNat_lt {n : Nat} (h : n < 256) : (UInt8.ofNat n).toNat = n := by
  simp
  omega

theorem tail_bytes_cons {n low high : Nat} {b : UInt8} (h : low ≤ b.toNat ∧ b.toNat ≤ high)
    (bs : List UInt8) : tail_bytes (n + 1) low high (b :: bs) = b :: tail_bytes n 0x80 0xBF bs := by
  simp [tail_bytes, h]

@[simp] theorem tail_bytes_zero (low high : Nat) (bs : List UInt8) :
    tail_bytes 0 low high bs = [] := by
  simp [tail_bytes]

/-- A first byte, with all it announces, is one code point. -/
theorem decode_announced {b : UInt8} {l : Lead} {tails rest : List UInt8} {c : CodePoint}
    (hb : 0x80 ≤ b.toNat) (hl : lead b.toNat = some l) (hlen : tails.length = l.tails)
    (htails : tail_bytes l.tails l.low l.high (tails ++ rest) = tails)
    (hc : join_bits l.bits tails = c.val) (fuel : Nat) :
    decode_from (fuel + 1) (b :: (tails ++ rest)) = c :: decode_from fuel rest := by
  have hdrop : (tails ++ rest).drop l.tails = rest := by simp [← hlen]
  simp [decode_from, Nat.not_lt.mpr hb, hl, htails, hlen, hc, hdrop]

/-- A code point is read off its bytes. -/
theorem decode_code_point {c : CodePoint} (h : surrogate c = false) (fuel : Nat)
    (rest : List UInt8) :
    decode_from (fuel + 1) (utf8_bytes c ++ rest) = c :: decode_from fuel rest := by
  have hlt := c.isLt
  have htail (n : Nat) : (UInt8.ofNat (0x80 + n % 64)).toNat = 0x80 + n % 64 :=
    toNat_ofNat_lt (by omega)
  simp only [surrogate, Bool.and_eq_false_iff, decide_eq_false_iff_not] at h
  simp only [utf8_bytes]
  split
  next h1 =>
    have hb : (UInt8.ofNat c.val).toNat = c.val := toNat_ofNat_lt (by omega)
    simp [decode_from, hb, h1]
  split
  next h1 h2 =>
    have hb : (UInt8.ofNat (0xC0 + c.val / 64)).toNat = 0xC0 + c.val / 64 :=
      toNat_ofNat_lt (by omega)
    apply decode_announced (l := ⟨1, 0x80, 0xBF, c.val / 64⟩)
    · omega
    · rw [hb, lead, if_neg (by omega), if_pos (by omega)]
      simp
      omega
    · rfl
    · simp only
      rw [List.cons_append, tail_bytes_cons (by rw [htail]; omega), tail_bytes_zero]
    · simp only [join_bits, List.foldl, htail]
      omega
  split
  next h1 h2 h3 =>
    have hb : (UInt8.ofNat (0xE0 + c.val / 4096)).toNat = 0xE0 + c.val / 4096 :=
      toNat_ofNat_lt (by omega)
    apply decode_announced (l := ⟨2, if 0xE0 + c.val / 4096 = 0xE0 then 0xA0 else 0x80,
      if 0xE0 + c.val / 4096 = 0xED then 0x9F else 0xBF, c.val / 4096⟩)
    · omega
    · rw [hb, lead, if_neg (by omega), if_neg (by omega), if_pos (by omega)]
      simp
      omega
    · rfl
    · simp only
      rw [List.cons_append, tail_bytes_cons (by rw [htail]; split <;> split <;> omega),
        List.cons_append, tail_bytes_cons (by rw [htail]; omega), tail_bytes_zero]
    · simp only [join_bits, List.foldl, htail]
      omega
  next h1 h2 h3 =>
    have hb : (UInt8.ofNat (0xF0 + c.val / 262144)).toNat = 0xF0 + c.val / 262144 :=
      toNat_ofNat_lt (by omega)
    apply decode_announced (l := ⟨3, if 0xF0 + c.val / 262144 = 0xF0 then 0x90 else 0x80,
      if 0xF0 + c.val / 262144 = 0xF4 then 0x8F else 0xBF, c.val / 262144⟩)
    · omega
    · rw [hb, lead, if_neg (by omega), if_neg (by omega), if_neg (by omega), if_pos (by omega)]
      simp
      omega
    · rfl
    · simp only
      rw [List.cons_append, tail_bytes_cons (by rw [htail]; split <;> split <;> omega),
        List.cons_append, tail_bytes_cons (by rw [htail]; omega),
        List.cons_append, tail_bytes_cons (by rw [htail]; omega), tail_bytes_zero]
    · simp only [join_bits, List.foldl, htail]
      omega

theorem utf8_bytes_ne_nil (c : CodePoint) : utf8_bytes c ≠ [] := by
  simp only [utf8_bytes]
  split
  · simp
  split
  · simp
  split <;> simp

theorem decode_from_utf8 {s : List CodePoint} (h : Clean s) (fuel : Nat)
    (hfuel : (s.flatMap utf8_bytes).length ≤ fuel) :
    decode_from fuel (s.flatMap utf8_bytes) = s := by
  induction s generalizing fuel with
  | nil => cases fuel <;> simp [decode_from]
  | cons c s ih =>
    obtain ⟨hc, hs⟩ := clean_cons.mp h
    have hpos := List.length_pos_iff.mpr (utf8_bytes_ne_nil c)
    simp only [List.flatMap_cons, List.length_append] at hfuel ⊢
    cases fuel with
    | zero => omega
    | succ fuel => rw [decode_code_point hc, ih hs fuel (by omega)]

/-- What is encoded is decoded to the same text. -/
theorem decode_encode {s : List CodePoint} {bs : List UInt8} (h : encode s = some bs) :
    decode_replace bs = s := by
  unfold encode at h
  split at h
  next hclean =>
    obtain rfl := Option.some.inj h
    exact decode_from_utf8 hclean _ (Nat.le_refl _)
  next => cases h

/-- A byte that starts no code point is replaced, and what follows is read on. -/
example : decode_replace [0x61, 0xE2, 0x82, 0x41, 0xFF] =
    [0x61, replacement, 0x41, replacement] := by decide

end Text
