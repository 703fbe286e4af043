import Mathlib

/-!
Rows grouped by a key: the counts of the groups, and the first rows by a key.
-/

set_option autoImplicit false

namespace Grouping

variable {α κ : Type} [DecidableEq κ] {key : α → κ} {rows rows' : List α}

/-- One entry for each key that occurs, with the number of its rows, the largest first. -/
structure GroupCounts (key : α → κ) (rows : List α) (groups : List (κ × Nat)) : Prop where
  keys : (groups.map Prod.fst).Nodup
  mem_iff : ∀ k n, (k, n) ∈ groups ↔ n = rows.countP (key · = k) ∧ 0 < n
  descending : groups.Pairwise fun a b => b.2 ≤ a.2

def group_counts (key : α → κ) (rows : List α) : List (κ × Nat) :=
  ((rows.map key).dedup.map fun k => (k, rows.countP (key · = k))).mergeSort
    fun a b => decide (b.2 ≤ a.2)

theorem group_counts_spec (key : α → κ) (rows : List α) :
    GroupCounts key rows (group_counts key rows) := by
  have hperm := List.mergeSort_perm
    ((rows.map key).dedup.map fun k => (k, rows.countP (key · = k))) fun a b => decide (b.2 ≤ a.2)
  have hkeys : ((rows.map key).dedup.map fun k => (k, rows.countP (key · = k))).map Prod.fst =
      (rows.map key).dedup := by simp [Function.comp_def]
  refine ⟨?_, fun k n => ?_, ?_⟩
  · rw [group_counts, (hperm.map Prod.fst).nodup_iff, hkeys]
    exact List.nodup_dedup _
  · rw [group_counts, hperm.mem_iff]
    simp only [List.mem_map, List.mem_dedup, Prod.mk.injEq]
    constructor
    · rintro ⟨k', ⟨row, hrow, rfl⟩, rfl, rfl⟩
      exact ⟨rfl, List.countP_pos_iff.mpr ⟨row, hrow, by simp⟩⟩
    · rintro ⟨rfl, hpos⟩
      obtain ⟨row, hrow, hkey⟩ := List.countP_pos_iff.mp hpos
      exact ⟨k, ⟨row, hrow, of_decide_eq_true hkey⟩, rfl, rfl⟩
  · have hsorted := @List.pairwise_mergeSort _ (fun a b : κ × Nat => decide (b.2 ≤ a.2))
      (fun a b c hab hbc => by simp only [decide_eq_true_eq] at hab hbc ⊢; omega)
      (fun a b => by simp only [Bool.or_eq_true, decide_eq_true_eq]; omega)
      ((rows.map key).dedup.map fun k => (k, rows.countP (key · = k)))
    exact hsorted.imp fun h => of_decide_eq_true h

theorem GroupCounts.eq_nil {groups : List (κ × Nat)} (h : GroupCounts key [] groups) :
    groups = [] := by
  refine List.eq_nil_iff_forall_not_mem.mpr fun ⟨k, n⟩ hmem => ?_
  obtain ⟨hn, hpos⟩ := (h.mem_iff k n).mp hmem
  simp only [List.countP_nil] at hn
  omega

/-- Every row is counted once. -/
theorem GroupCounts.sum {groups : List (κ × Nat)} (h : GroupCounts key rows groups) :
    (groups.map Prod.snd).sum = rows.length := by
  have hkeys : (groups.map Prod.fst).Perm (rows.map key).dedup := by
    refine (List.perm_ext_iff_of_nodup h.keys (List.nodup_dedup _)).mpr fun k => ?_
    simp only [List.mem_map, Prod.exists, exists_and_right, exists_eq_right, List.mem_dedup]
    constructor
    · rintro ⟨n, hmem⟩
      obtain ⟨rfl, hpos⟩ := (h.mem_iff k n).mp hmem
      obtain ⟨row, hrow, hkey⟩ := List.countP_pos_iff.mp hpos
      exact ⟨row, hrow, of_decide_eq_true hkey⟩
    · rintro ⟨row, hrow, rfl⟩
      exact ⟨_, (h.mem_iff _ _).mpr ⟨rfl, List.countP_pos_iff.mpr ⟨row, hrow, by simp⟩⟩⟩
  have hcounts : groups.map Prod.snd = (groups.map Prod.fst).map fun k => (rows.map key).count k := by
    rw [List.map_map]
    refine List.map_congr_left fun ⟨k, n⟩ hmem => ?_
    rw [((h.mem_iff k n).mp hmem).1, Function.comp_apply, List.count, List.countP_map]
    refine List.countP_congr fun row _ => ?_
    simp
  rw [hcounts, (hkeys.map _).sum_eq, List.sum_map_count_dedup_eq_length, List.length_map]

/-- The first `n` rows when the rows are in descending order of the key. -/
def FirstBy {σ : Type} [LE σ] (key : α → σ) (n : Nat) (rows first : List α) : Prop :=
  ∃ sorted : List α,
    sorted.Perm rows ∧ (sorted.Pairwise fun a b => key b ≤ key a) ∧ first = sorted.take n

section FirstBy

variable {σ : Type} [LE σ] {order : α → σ} {n : Nat} {first : List α}

theorem FirstBy.length (h : FirstBy order n rows first) : first.length = min n rows.length := by
  obtain ⟨sorted, hperm, -, rfl⟩ := h
  rw [List.length_take, hperm.length_eq]

theorem FirstBy.mem (h : FirstBy order n rows first) {row : α} (hrow : row ∈ first) : row ∈ rows := by
  obtain ⟨sorted, hperm, -, rfl⟩ := h
  exact hperm.mem_iff.mp (List.mem_of_mem_take hrow)

theorem firstBy_mergeSort {σ : Type} [LinearOrder σ] (order : α → σ) (n : Nat) (rows : List α) :
    FirstBy order n rows
      ((rows.mergeSort fun a b => decide (order b ≤ order a)).take n) := by
  refine ⟨_, List.mergeSort_perm rows _, ?_, rfl⟩
  have hsorted := @List.pairwise_mergeSort _ (fun a b : α => decide (order b ≤ order a))
    (fun a b c hab hbc => by
      simp only [decide_eq_true_eq] at hab hbc ⊢
      exact hbc.trans hab)
    (fun a b => by
      simp only [Bool.or_eq_true, decide_eq_true_eq]
      exact le_total _ _) rows
  exact hsorted.imp fun h => of_decide_eq_true h

end FirstBy

end Grouping
