import Mathlib

/-!
Traversals of a list by a function that may fail.
-/

set_option autoImplicit false

namespace Traverse

variable {ε α β : Type} {f : α → Except ε β} {xs : List α} {ys : List β}

theorem bind_ok {x : Except ε α} {k : α → Except ε β} {b : β} :
    x >>= k = .ok b ↔ ∃ a, x = .ok a ∧ k a = .ok b := by
  cases x with
  | error e => simp [bind, Except.bind]
  | ok a => simp [bind, Except.bind]

/-- A traversal that succeeds is the function at each place. -/
theorem mapM_ok_iff : xs.mapM f = .ok ys ↔ List.Forall₂ (fun x y => f x = .ok y) xs ys := by
  induction xs generalizing ys with
  | nil => cases ys <;> simp [pure, Except.pure]
  | cons x xs ih =>
    rw [List.mapM_cons]
    cases hx : f x with
    | error e => cases ys <;> simp [bind, Except.bind, hx]
    | ok y =>
      cases hxs : xs.mapM f with
      | error e => cases ys <;> simp [bind, Except.bind, hx, ← ih, hxs]
      | ok zs => cases ys <;> simp [bind, Except.bind, pure, Except.pure, hx, ← ih, hxs]

theorem mem_of_mapM (h : xs.mapM f = .ok ys) {y : β} :
    y ∈ ys ↔ ∃ x ∈ xs, f x = .ok y := by
  rw [mapM_ok_iff] at h
  induction h with
  | nil => simp
  | @cons x y' xs ys hx _ ih =>
    simp only [List.mem_cons, exists_eq_or_imp, hx, Except.ok.injEq, ih]
    exact or_congr_left eq_comm

theorem ok_of_mapM (h : xs.mapM f = .ok ys) {x : α} (hx : x ∈ xs) : ∃ y, f x = .ok y := by
  rw [mapM_ok_iff] at h
  induction h with
  | nil => cases hx
  | @cons x' y _ _ hxy _ ih =>
    rcases List.mem_cons.mp hx with rfl | hx
    · exact ⟨y, hxy⟩
    · exact ih hx

theorem mapM_ok_exists : (∃ ys, xs.mapM f = .ok ys) ↔ ∀ x ∈ xs, ∃ y, f x = .ok y := by
  constructor
  · rintro ⟨ys, h⟩ x hx
    exact ok_of_mapM h hx
  · intro h
    induction xs with
    | nil => exact ⟨[], rfl⟩
    | cons x xs ih =>
      obtain ⟨y, hy⟩ := h x List.mem_cons_self
      obtain ⟨ys, hys⟩ := ih fun x hx => h x (List.mem_cons_of_mem _ hx)
      refine ⟨y :: ys, ?_⟩
      rw [List.mapM_cons, hy, hys]
      rfl

theorem mapM_length (h : xs.mapM f = .ok ys) : ys.length = xs.length :=
  (mapM_ok_iff.mp h).length_eq.symm

theorem mapM_ok_of {g : α → β} (h : ∀ x ∈ xs, f x = .ok (g x)) : xs.mapM f = .ok (xs.map g) := by
  rw [mapM_ok_iff, List.forall₂_map_right_iff, List.forall₂_same]
  exact h

end Traverse
