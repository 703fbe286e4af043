import Mathlib

/-!
Candidates tried one after another: a failure of some kind lets the next one be tried.
-/

set_option autoImplicit false

namespace Fallback

variable {M E V : Type} {again : E → Prop} {candidates : List M} {m : M} {v : V} {e : E}
  {attempts : List (M × Except E V)}

/-- The attempts are made in the order of the candidates, all but the last failed in a way that
lets the next one be tried, and a last one that failed so had none after it. -/
structure Sound (again : E → Prop) (candidates : List M) (attempts : List (M × Except E V)) :
    Prop where
  tried : attempts ≠ []
  in_order : attempts.map Prod.fst <+: candidates
  earlier : ∀ a ∈ attempts.dropLast, ∃ e, a.2 = .error e ∧ again e
  exhausted : ∀ m e, attempts.getLast? = some (m, .error e) → again e →
    attempts.map Prod.fst = candidates

theorem Sound.ok : Sound again (m :: candidates) [(m, .ok v)] where
  tried := List.cons_ne_nil _ _
  in_order := List.prefix_append [m] candidates
  earlier := fun _ h => by cases h
  exhausted := fun _ _ h => by cases h

/-- A failure after which nothing is tried. -/
theorem Sound.error (h : again e → candidates = []) :
    Sound again (m :: candidates) [((m, .error e) : M × Except E V)] where
  tried := List.cons_ne_nil _ _
  in_order := List.prefix_append [m] candidates
  earlier := fun _ h => by cases h
  exhausted := fun m' e' heq hagain => by
    cases heq
    rw [h hagain]
    rfl

/-- One more candidate in front, which failed in a way that lets the next one be tried. -/
theorem Sound.cons (h : Sound again candidates attempts) (he : again e) :
    Sound again (m :: candidates) ((m, .error e) :: attempts) where
  tried := List.cons_ne_nil _ _
  in_order := List.cons_prefix_cons.mpr ⟨rfl, h.in_order⟩
  earlier := by
    intro a ha
    rw [List.dropLast_cons_of_ne_nil h.tried] at ha
    rcases List.mem_cons.mp ha with rfl | ha
    · exact ⟨e, rfl, he⟩
    · exact h.earlier a ha
  exhausted := by
    intro m' e' hlast hagain
    rw [List.getLast?_cons_of_ne_nil h.tried] at hlast
    exact congrArg (m :: ·) (h.exhausted m' e' hlast hagain)

end Fallback
