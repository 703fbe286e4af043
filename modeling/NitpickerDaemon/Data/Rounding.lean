import Mathlib.Algebra.Order.Floor.Ring
import Mathlib.Algebra.Order.Field.Basic
import Mathlib.Tactic.Linarith

/-!
Rounding to the nearest integer, and to the nearest multiple of a step: a half goes to the
even neighbour.
-/

set_option autoImplicit false

namespace Rounding

section

variable {K : Type} [Field K] [LinearOrder K] [IsStrictOrderedRing K] [FloorRing K]

def half_even (x : K) : ℤ :=
  if x - ⌊x⌋ < 1 / 2 then ⌊x⌋
  else if 1 / 2 < x - ⌊x⌋ then ⌊x⌋ + 1
  else if ⌊x⌋ % 2 = 0 then ⌊x⌋ else ⌊x⌋ + 1

/-- The nearest multiple of `1 / scale`. -/
def to_scale (scale x : K) : K := half_even (x * scale) / scale

omit [IsStrictOrderedRing K] in
theorem half_even_cases (x : K) :
    (half_even x = ⌊x⌋ ∧ x - ⌊x⌋ ≤ 1 / 2) ∨ (half_even x = ⌊x⌋ + 1 ∧ 1 / 2 ≤ x - ⌊x⌋) := by
  unfold half_even
  by_cases h₁ : x - ⌊x⌋ < 1 / 2
  · exact .inl ⟨if_pos h₁, h₁.le⟩
  rw [if_neg h₁]
  by_cases h₂ : 1 / 2 < x - ⌊x⌋
  · exact .inr ⟨if_pos h₂, h₂.le⟩
  rw [if_neg h₂]
  by_cases h₃ : ⌊x⌋ % 2 = 0
  · exact .inl ⟨if_pos h₃, le_of_not_gt h₂⟩
  · exact .inr ⟨if_neg h₃, le_of_not_gt h₁⟩

theorem half_even_near (x : K) : |(half_even x : K) - x| ≤ 1 / 2 := by
  have hlo := Int.floor_le x
  have hhi := Int.lt_floor_add_one x
  rcases half_even_cases x with ⟨h, hx⟩ | ⟨h, hx⟩
  · rw [h, abs_le]
    constructor <;> linarith
  · rw [h, Int.cast_add, Int.cast_one, abs_le]
    constructor <;> linarith

@[simp] theorem half_even_intCast (n : ℤ) : half_even (n : K) = n := by
  simp [half_even]

/-- Within one unit the two neighbours are compared through their distance to the half;
at the half both points are the same. -/
theorem half_even_mono {x y : K} (h : x ≤ y) : half_even x ≤ half_even y := by
  have hfloor := Int.floor_mono h
  rcases hfloor.lt_or_eq with hlt | heq
  · have hx : half_even x ≤ ⌊x⌋ + 1 := by
      rcases half_even_cases x with ⟨hx, -⟩ | ⟨hx, -⟩ <;> omega
    have hy : ⌊y⌋ ≤ half_even y := by
      rcases half_even_cases y with ⟨hy, -⟩ | ⟨hy, -⟩ <;> omega
    omega
  · rcases half_even_cases x with ⟨hx, hxd⟩ | ⟨hx, hxd⟩
    · rcases half_even_cases y with ⟨hy, -⟩ | ⟨hy, -⟩ <;> omega
    · rcases half_even_cases y with ⟨hy, hyd⟩ | ⟨hy, -⟩
      · have hcast : (⌊x⌋ : K) = ⌊y⌋ := by rw [heq]
        have hsame : x = y := by linarith
        rw [hsame]
      · omega

theorem to_scale_mono {scale x y : K} (hs : 0 < scale) (h : x ≤ y) :
    to_scale scale x ≤ to_scale scale y := by
  have hmul : x * scale ≤ y * scale := mul_le_mul_of_nonneg_right h hs.le
  have hround : (half_even (x * scale) : K) ≤ half_even (y * scale) :=
    Int.cast_le.mpr (half_even_mono hmul)
  exact div_le_div_of_nonneg_right hround hs.le

theorem to_scale_near {scale : K} (hs : 0 < scale) (x : K) :
    |to_scale scale x - x| ≤ 1 / 2 / scale := by
  have hx : x = x * scale / scale := by rw [mul_div_cancel_right₀ _ hs.ne']
  have hdiff : to_scale scale x - x = (half_even (x * scale) - x * scale) / scale := by
    rw [to_scale, sub_div, ← hx]
  rw [hdiff, abs_div, abs_of_pos hs]
  exact div_le_div_of_nonneg_right (half_even_near _) hs.le

/-- A multiple of the step is kept. -/
theorem to_scale_fixed {scale : K} (hs : 0 < scale) {x : K} {n : ℤ} (h : x * scale = n) :
    to_scale scale x = x := by
  rw [to_scale, h, half_even_intCast, ← h, mul_div_cancel_right₀ _ hs.ne']

end

end Rounding
