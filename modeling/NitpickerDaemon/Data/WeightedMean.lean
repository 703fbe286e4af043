import Mathlib.Algebra.BigOperators.Group.List.Basic
import Mathlib.Algebra.Order.BigOperators.Group.List
import Mathlib.Algebra.Order.Field.Basic
import Mathlib.Tactic.Linarith

/-!
The mean of a list under positive weights.
-/

set_option autoImplicit false

namespace WeightedMean

section

variable {α : Type} {K : Type} [Field K]

/-- `∑ v a * w a / ∑ w a`. -/
def mean (w v : α → K) (l : List α) : K := (l.map fun a => v a * w a).sum / (l.map w).sum

variable {w v : α → K} {l l' : List α}

theorem mean_perm (h : l.Perm l') : mean w v l = mean w v l' := by
  rw [mean, mean, (h.map _).sum_eq, (h.map _).sum_eq]

variable [LinearOrder K] [IsStrictOrderedRing K]

theorem weights_pos (hw : ∀ a ∈ l, 0 < w a) (hne : l ≠ []) : 0 < (l.map w).sum := by
  refine List.sum_pos _ (fun b hb => ?_) (by simpa using hne)
  obtain ⟨a, ha, rfl⟩ := List.mem_map.mp hb
  exact hw a ha

/-- A bound on every value is one on the weighted sum. -/
theorem weighted_le {c : K} (hw : ∀ a ∈ l, 0 < w a) (hv : ∀ a ∈ l, v a ≤ c) :
    (l.map fun a => v a * w a).sum ≤ c * (l.map w).sum := by
  induction l with
  | nil => simp
  | cons a l ih =>
    have hhead := mul_le_mul_of_nonneg_right (hv a (by simp)) (hw a (by simp)).le
    have htail := ih (fun b hb => hw b (by simp [hb])) fun b hb => hv b (by simp [hb])
    simp only [List.map_cons, List.sum_cons, mul_add]
    linarith

theorem le_weighted {c : K} (hw : ∀ a ∈ l, 0 < w a) (hv : ∀ a ∈ l, c ≤ v a) :
    c * (l.map w).sum ≤ (l.map fun a => v a * w a).sum := by
  induction l with
  | nil => simp
  | cons a l ih =>
    have hhead := mul_le_mul_of_nonneg_right (hv a (by simp)) (hw a (by simp)).le
    have htail := ih (fun b hb => hw b (by simp [hb])) fun b hb => hv b (by simp [hb])
    simp only [List.map_cons, List.sum_cons, mul_add]
    linarith

theorem mean_le {c : K} (hne : l ≠ []) (hw : ∀ a ∈ l, 0 < w a) (hv : ∀ a ∈ l, v a ≤ c) :
    mean w v l ≤ c :=
  (div_le_iff₀ (weights_pos hw hne)).mpr (weighted_le hw hv)

theorem le_mean {c : K} (hne : l ≠ []) (hw : ∀ a ∈ l, 0 < w a) (hv : ∀ a ∈ l, c ≤ v a) :
    c ≤ mean w v l :=
  (le_div_iff₀ (weights_pos hw hne)).mpr (le_weighted hw hv)

/-- One entry is replaced by one of the same weight and no smaller value. -/
theorem mean_raise {before after : List α} {a a' : α} (hw : ∀ b ∈ before ++ a :: after, 0 < w b)
    (hsame : w a' = w a) (hle : v a ≤ v a') :
    mean w v (before ++ a :: after) ≤ mean w v (before ++ a' :: after) := by
  have hpos := weights_pos hw (by simp)
  have hterm := mul_le_mul_of_nonneg_right hle (hw a (by simp)).le
  have hweights : ((before ++ a' :: after).map w).sum = ((before ++ a :: after).map w).sum := by
    simp [hsame]
  rw [mean, mean, hweights]
  refine div_le_div_of_nonneg_right ?_ hpos.le
  simp only [List.map_append, List.map_cons, List.sum_append, List.sum_cons, hsame]
  linarith

end

end WeightedMean
