import NitpickerDaemon.Data.Rounding
import NitpickerDaemon.Data.WeightedMean
import NitpickerDaemon.Selection

/-!
The default consensus engine: its status and its score depend on the decisions and not on
their order, and the score is their rounded weighted mean.
-/

set_option autoImplicit false

namespace Nitpicker

open Rounding WeightedMean

theorem round4_eq (q : Rat) : round4 q = to_scale 10000 q := rfl

theorem weighted_confidence_eq (decisions : List AgentDecision) :
    weighted_confidence decisions =
      mean AgentDecision.weight AgentDecision.confidence_score decisions := rfl

theorem AgentDecision.weight_pos (d : AgentDecision) : 0 < d.weight := by
  unfold AgentDecision.weight
  split <;> norm_num

namespace DefaultConsensusEngine

variable {format : PyVal → String} {decisions : List AgentDecision}

theorem decide_score (hne : decisions ≠ []) :
    (decide format decisions).confidence_score = round4 (weighted_confidence decisions) := by
  simp only [decide, if_neg hne]
  split
  · rfl
  · split <;> rfl

theorem decide_status :
    (decide format decisions).status = .reject ↔ ∃ d ∈ decisions, d.status = .reject := by
  by_cases hne : decisions = []
  · simp [decide, hne]
  simp only [decide, if_neg hne]
  split
  · rename_i hr
    obtain ⟨d, hd⟩ := List.exists_mem_of_ne_nil _ hr
    simp only [List.mem_filter, decide_eq_true_eq] at hd
    simp only [true_iff]
    exact ⟨d, hd⟩
  · rename_i hr
    have hnone : ¬∃ d ∈ decisions, d.status = .reject := by
      rintro ⟨d, hd, hs⟩
      exact hr (List.ne_nil_of_mem (List.mem_filter.mpr ⟨hd, by simp [hs]⟩))
    split <;> simp [hnone]

theorem decide_pass_or_reject : (decide format decisions).status = .pass ∨
    (decide format decisions).status = .reject := by
  unfold decide
  split
  · simp
  · simp only
    split
    · simp
    · split <;> simp

theorem decide_status_perm {permuted : List AgentDecision} (h : permuted.Perm decisions) :
    (decide format permuted).status = (decide format decisions).status := by
  have hiff : (decide format permuted).status = .reject ↔
      (decide format decisions).status = .reject := by
    rw [decide_status, decide_status]
    simp only [h.mem_iff]
  rcases @decide_pass_or_reject format permuted with hp | hp
  · rcases @decide_pass_or_reject format decisions with hd | hd
    · rw [hp, hd]
    · rw [hiff.mpr hd, hd]
  · rw [hp, hiff.mp hp]

/-- The weighted mean of probabilities is one, and rounding keeps both ends. -/
theorem score_unit (hne : decisions ≠ [])
    (hunit : ∀ d ∈ decisions, 0 ≤ d.confidence_score ∧ d.confidence_score ≤ 1) :
    0 ≤ (decide format decisions).confidence_score ∧
      (decide format decisions).confidence_score ≤ 1 := by
  have hw : ∀ d ∈ decisions, 0 < d.weight := fun d _ => d.weight_pos
  have hlo : 0 ≤ weighted_confidence decisions := by
    rw [weighted_confidence_eq]
    exact le_mean hne hw fun d hd => (hunit d hd).1
  have hhi : weighted_confidence decisions ≤ 1 := by
    rw [weighted_confidence_eq]
    exact mean_le hne hw fun d hd => (hunit d hd).2
  have hzero : round4 0 = 0 := to_scale_fixed (n := 0) (by norm_num) (by norm_num)
  have hone : round4 1 = 1 := to_scale_fixed (n := 10000) (by norm_num) (by norm_num)
  rw [decide_score hne]
  constructor
  · calc 0 = round4 0 := hzero.symm
      _ ≤ round4 (weighted_confidence decisions) := to_scale_mono (by norm_num) hlo
  · calc round4 (weighted_confidence decisions) ≤ round4 1 := to_scale_mono (by norm_num) hhi
      _ = 1 := hone

theorem score_near (hne : decisions ≠ []) :
    |(decide format decisions).confidence_score -
      mean AgentDecision.weight AgentDecision.confidence_score decisions| ≤ 5 / 100000 := by
  have hnear := to_scale_near (by norm_num : (0 : Rat) < 10000) (weighted_confidence decisions)
  rw [decide_score hne, round4_eq, ← weighted_confidence_eq]
  linarith

theorem score_raise {before after : List AgentDecision} {d : AgentDecision} {c : Rat}
    (hc : d.confidence_score ≤ c) :
    (decide format (before ++ d :: after)).confidence_score ≤
      (decide format (before ++ { d with confidence_score := c } :: after)).confidence_score := by
  rw [decide_score (by simp), decide_score (by simp)]
  refine to_scale_mono (by norm_num) ?_
  rw [weighted_confidence_eq, weighted_confidence_eq]
  exact mean_raise (fun b _ => b.weight_pos) rfl hc

/-- The consensus does not depend on the order, rejects on a rejection, and its score is
the weighted mean to four decimals. -/
theorem consensus_well_scaled (hne : decisions ≠ [])
    (hunit : ∀ d ∈ decisions, 0 ≤ d.confidence_score ∧ d.confidence_score ≤ 1) :
    (∀ permuted : List AgentDecision, permuted.Perm decisions →
      (decide format permuted).status = (decide format decisions).status ∧
      (decide format permuted).confidence_score =
        (decide format decisions).confidence_score) ∧
    ((decide format decisions).status = .reject ↔ ∃ d ∈ decisions, d.status = .reject) ∧
    (0 ≤ (decide format decisions).confidence_score ∧
      (decide format decisions).confidence_score ≤ 1) ∧
    |(decide format decisions).confidence_score -
      (decisions.map fun d => d.confidence_score * if d.status = .reject then 2 else 1).sum /
        (decisions.map fun d => if d.status = .reject then 2 else 1).sum| ≤ 5 / 100000 ∧
    (∀ before d after c, decisions = before ++ d :: after → d.confidence_score ≤ c → c ≤ 1 →
      (decide format decisions).confidence_score ≤
        (decide format
          (before ++ { d with confidence_score := c } :: after)).confidence_score) ∧
    (decisions.map AgentDecision.weight).sum ≠ 0 := by
  refine ⟨fun permuted h => ⟨decide_status_perm h, ?_⟩, decide_status, score_unit hne hunit,
    score_near hne, ?_, ?_⟩
  · have hpne : permuted ≠ [] := by
      rintro rfl
      exact hne h.nil_eq.symm
    rw [decide_score hpne, decide_score hne, weighted_confidence_eq, weighted_confidence_eq,
      mean_perm h]
  · rintro before d after c rfl hc -
    exact score_raise hc
  · exact (weights_pos (fun d _ => d.weight_pos) hne).ne'

end DefaultConsensusEngine

/-- A decision without findings. -/
def sampleDecision (agent_name : String) (status : AgentStatus) (confidence_score : Rat) :
    AgentDecision where
  agent_name := agent_name
  status := status
  confidence_score := confidence_score
  findings := []
  suggested_actions := []

def sampleDecisions : List AgentDecision :=
  [sampleDecision "security" .reject (9 / 10), sampleDecision "docs" .pass (1 / 2)]

theorem sampleDecisions_unit :
    ∀ d ∈ sampleDecisions, 0 ≤ d.confidence_score ∧ d.confidence_score ≤ 1 := by
  simp only [sampleDecisions, sampleDecision, List.mem_cons, List.not_mem_nil, or_false]
  rintro d (rfl | rfl) <;> norm_num

theorem consensus_of_two :
    (DefaultConsensusEngine.decide (fun _ => "") sampleDecisions).status = .reject ∧
      0 ≤ (DefaultConsensusEngine.decide (fun _ => "") sampleDecisions).confidence_score ∧
      (DefaultConsensusEngine.decide (fun _ => "") sampleDecisions).confidence_score ≤ 1 := by
  have h := @DefaultConsensusEngine.consensus_well_scaled (fun _ => "") _
    (List.cons_ne_nil _ _) sampleDecisions_unit
  obtain ⟨-, hstatus, hscore, -⟩ := h
  have hreject := hstatus.mpr ⟨_, List.mem_cons_self, rfl⟩
  exact ⟨hreject, hscore⟩

end Nitpicker
