import Mathlib

/-!
Edits of a text that is cut into chunks: ranges of chunks that other texts take the place of.
When two lists of edits differ in that some insertions of one stand a chunk earlier, how their
results compare.
-/

set_option autoImplicit false

namespace Text

variable {α : Type}

/-- The chunks from `start` up to `stop`, and what takes their place. -/
structure Edit (α : Type) where
  start : Nat
  stop : Nat
  text : List α

namespace Edit

/-- The edits stand in order from `pos` to `last`, and no two overlap. -/
def Fit (last : Nat) : Nat → List (Edit α) → Prop
  | _, [] => True
  | pos, e :: es => pos ≤ e.start ∧ e.start ≤ e.stop ∧ e.stop ≤ last ∧ Fit last e.stop es

instance (last : Nat) : (pos : Nat) → (es : List (Edit α)) → Decidable (Fit last pos es)
  | _, [] => .isTrue trivial
  | pos, e :: es =>
    haveI := instDecidableFit last e.stop es
    inferInstanceAs (Decidable (pos ≤ e.start ∧ e.start ≤ e.stop ∧ e.stop ≤ last ∧
      Fit last e.stop es))

/-- They fit, with a chunk between any two of them. -/
def Apart (last : Nat) : Nat → List (Edit α) → Prop
  | _, [] => True
  | pos, e :: es => pos ≤ e.start ∧ e.start ≤ e.stop ∧ e.stop ≤ last ∧ Apart last (e.stop + 1) es

/-- The text from chunk `pos` on, with the edits made. -/
def splice (chunks : List (List α)) : Nat → List (Edit α) → List α
  | pos, [] => (chunks.drop pos).flatten
  | pos, e :: es =>
    ((chunks.drop pos).take (e.start - pos)).flatten ++ (e.text ++ splice chunks e.stop es)

/-- The edit has the range of the other, or it inserts a chunk before the other does. -/
inductive Early : Edit α → Edit α → Prop
  | same {start stop : Nat} {t u : List α} : Early ⟨start, stop, t⟩ ⟨start, stop, u⟩
  | before {k : Nat} {t u : List α} : Early ⟨k, k, t⟩ ⟨k + 1, k + 1, u⟩

variable {chunks : List (List α)} {last pos q : Nat} {e e' : Edit α} {es es' : List (Edit α)}

theorem Fit.mono (h : Fit last pos es) (hq : q ≤ pos) : Fit last q es := by
  cases es with
  | nil => trivial
  | cons e es => exact ⟨Nat.le_trans hq h.1, h.2⟩

theorem Fit.starts (h : Fit last pos es) : ∀ e ∈ es, pos ≤ e.start := by
  induction es generalizing pos with
  | nil => simp
  | cons e es ih =>
    obtain ⟨hpos, hrange, -, hrest⟩ := h
    have htail := ih hrest
    intro f hf
    rcases List.mem_cons.mp hf with rfl | hf
    · exact hpos
    · have hstart := htail f hf
      omega

theorem Fit.sorted (h : Fit last pos es) : es.Pairwise fun e f => e.start ≤ f.start := by
  induction es generalizing pos with
  | nil => exact List.Pairwise.nil
  | cons e es ih =>
    obtain ⟨-, hrange, -, hrest⟩ := h
    have htail := hrest.starts
    refine List.pairwise_cons.mpr ⟨fun f hf => ?_, ih hrest⟩
    have hstart := htail f hf
    omega

theorem Apart.stops (h : Apart last pos es) : ∀ e ∈ es, e.start ≤ last := by
  induction es generalizing pos with
  | nil => simp
  | cons e es ih =>
    obtain ⟨-, hrange, hlast, hrest⟩ := h
    intro f hf
    rcases List.mem_cons.mp hf with rfl | hf
    · omega
    · exact ih hrest f hf

/-- Edits that are apart still fit when some of them insert early. -/
theorem Apart.fit (h : List.Forall₂ Early es es') (hapart : Apart last pos es') :
    Fit last (pos - 1) es := by
  induction h generalizing pos with
  | nil => trivial
  | cons he _ ih =>
    obtain ⟨hpos, hrange, hlast, hrest⟩ := hapart
    have hfit := ih hrest
    rw [Nat.add_sub_cancel] at hfit
    cases he with
    | same => exact ⟨Nat.le_trans (Nat.sub_le _ _) hpos, hrange, hlast, hfit⟩
    | before =>
      exact ⟨Nat.sub_le_of_le_add hpos, Nat.le_refl _, Nat.le_of_succ_le hlast,
        hfit.mono (Nat.le_succ _)⟩

end Edit

end Text
