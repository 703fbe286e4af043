import Mathlib

/-!
Runs of a system whose steps carry labels, and what holds since a label.
-/

set_option autoImplicit false

namespace Effect

variable {S L : Type} {step : S → L → S → Prop} {s₀ : S}

/-- A run from `s₀`, with the labels of its steps. -/
inductive LabelledRun (step : S → L → S → Prop) (s₀ : S) : List L → S → Prop where
  | start : LabelledRun step s₀ [] s₀
  | step {log : List L} {s s' : S} {l : L} : LabelledRun step s₀ log s → step s l s' →
      LabelledRun step s₀ (log ++ [l]) s'

theorem snoc_eq_middle {log before after : List L} {l m : L}
    (h : log ++ [l] = before ++ m :: after) :
    (before = log ∧ m = l ∧ after = []) ∨ ∃ rest, after = rest ++ [l] ∧ log = before ++ m :: rest := by
  rcases List.eq_nil_or_concat after with rfl | ⟨rest, l', rfl⟩
  · obtain ⟨rfl, hl⟩ := List.append_inj' h rfl
    exact .inl ⟨rfl, (List.cons.inj hl).1.symm, rfl⟩
  · rw [List.concat_eq_append, ← List.cons_append, ← List.append_assoc] at h
    obtain ⟨rfl, hl⟩ := List.append_inj' h rfl
    obtain rfl := (List.cons.inj hl).1
    exact .inr ⟨rest, by simp, rfl⟩

namespace LabelledRun

variable {log : List L} {s : S}

/-- What holds of the log and the state at the start, and is kept by each step. -/
theorem invariant {I : List L → S → Prop} (hstart : I [] s₀)
    (hstep : ∀ log s l s', LabelledRun step s₀ log s → I log s → step s l s' → I (log ++ [l]) s')
    (h : LabelledRun step s₀ log s) : I log s := by
  induction h with
  | start => exact hstart
  | step hrun hs ih => exact hstep _ _ _ _ hrun ih hs

/-- What a step with the label `m` brings about, and every later step that does not end it keeps,
holds since the last such step. -/
theorem since {m : L} {E : L → Prop} {P : List L → List L → S → Prop}
    (hraise : ∀ log s s', LabelledRun step s₀ log s → step s m s' → P log [] s')
    (hkeep : ∀ before after s l s', LabelledRun step s₀ (before ++ m :: after) s →
      P before after s → step s l s' → ¬E l → P before (after ++ [l]) s')
    (h : LabelledRun step s₀ log s) {before after : List L} (hlog : log = before ++ m :: after)
    (hends : ∀ l ∈ after, ¬E l) : P before after s := by
  induction h generalizing before after with
  | start => simp at hlog
  | @step log s s' l hrun hs ih =>
    rcases snoc_eq_middle hlog with ⟨rfl, rfl, rfl⟩ | ⟨rest, rfl, rfl⟩
    · exact hraise _ _ _ hrun hs
    · have hrest : ∀ l ∈ rest, ¬E l := fun l hl => hends l (by simp [hl])
      exact hkeep _ _ _ _ _ hrun (ih rfl hrest) hs (hends l (by simp))

end LabelledRun

end Effect
