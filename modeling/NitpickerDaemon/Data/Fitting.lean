import Mathlib

/-!
The longest beginning of a list whose sizes fit into a room.
-/

set_option autoImplicit false

namespace Fitting

variable {α : Type} (size : α → Nat)

def total (xs : List α) : Nat := (xs.map size).sum

@[simp] theorem total_cons (x : α) (xs : List α) : total size (x :: xs) = size x + total size xs := by
  simp [total]

@[simp] theorem total_nil : total size [] = 0 := rfl

/-- Elements are taken up to the first one that does not fit. -/
def fit (room : Nat) : List α → List α
  | [] => []
  | x :: xs => if room < size x then [] else x :: fit (room - size x) xs

variable {size}

theorem fit_prefix (room : Nat) (xs : List α) : fit size room xs <+: xs := by
  induction xs generalizing room with
  | nil => exact List.prefix_rfl
  | cons x xs ih =>
    rw [fit]
    split
    · exact List.nil_prefix
    · exact List.prefix_cons_inj x |>.mpr (ih _)

theorem total_fit (room : Nat) (xs : List α) : total size (fit size room xs) ≤ room := by
  induction xs generalizing room with
  | nil => simp [fit]
  | cons x xs ih =>
    rw [fit]
    split
    · simp
    · have hrest := ih (room - size x)
      rw [total_cons]
      omega

/-- Every beginning that fits is a part of it. -/
theorem prefix_fit {room : Nat} {xs ys : List α} (hbegin : ys <+: xs)
    (htotal : total size ys ≤ room) : ys <+: fit size room xs := by
  induction ys generalizing xs room with
  | nil => exact List.nil_prefix
  | cons y ys ih =>
    cases xs with
    | nil => simp at hbegin
    | cons x xs =>
      obtain ⟨rfl, hrest⟩ := List.cons_prefix_cons.mp hbegin
      rw [total_cons] at htotal
      rw [fit, if_neg (by omega)]
      exact List.prefix_cons_inj y |>.mpr (ih hrest (by omega))

end Fitting
