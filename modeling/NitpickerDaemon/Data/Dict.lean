import Mathlib

/-!
Dictionaries that keep the order in which their keys were first stored.
-/

set_option autoImplicit false

namespace Dict

variable {κ β : Type} [DecidableEq κ]

/-- `d[k] = v`; a key that is there keeps its place. -/
def set : List (κ × β) → κ → β → List (κ × β)
  | [], k, v => [(k, v)]
  | (k', v') :: d, k, v => if k' = k then (k, v) :: d else (k', v') :: set d k v

/-- `d.setdefault(k, v)` -/
def setdefault (d : List (κ × β)) (k : κ) (v : β) : List (κ × β) :=
  if (d.lookup k).isSome then d else d ++ [(k, v)]

theorem lookup_cons (d : List (κ × β)) (k k' : κ) (v : β) :
    ((k, v) :: d).lookup k' = if k' = k then some v else d.lookup k' := by
  by_cases h : k' = k
  · simp [h]
  · have hne : (k' == k) = false := beq_false_of_ne h
    simp [List.lookup_cons, h, hne]

@[simp] theorem lookup_set (d : List (κ × β)) (k k' : κ) (v : β) :
    (set d k v).lookup k' = if k' = k then some v else d.lookup k' := by
  induction d with
  | nil => simp [set, lookup_cons]
  | cons e d ih =>
    obtain ⟨k₀, v₀⟩ := e
    by_cases h₀ : k₀ = k
    · subst h₀
      by_cases h : k' = k₀ <;> simp [set, lookup_cons, h]
    · by_cases h : k' = k₀
      · subst h
        simp [set, h₀]
      · simp [set, lookup_cons, h₀, h, ih]

theorem lookup_setdefault {d : List (κ × β)} {k k' : κ} {v v' : β} (h : d.lookup k' = some v') :
    (setdefault d k v).lookup k' = some v' := by
  unfold setdefault
  split
  · exact h
  · simp [List.lookup_append, h]

theorem lookup_filter (d : List (κ × β)) (p : κ → Bool) (k : κ) :
    (d.filter fun e => p e.1).lookup k = if p k then d.lookup k else none := by
  induction d with
  | nil => simp
  | cons e d ih =>
    obtain ⟨k₀, v₀⟩ := e
    by_cases h₀ : p k₀ = true
    · by_cases h : k = k₀
      · simp [h, h₀]
      · simp [lookup_cons, h, h₀, ih]
    · by_cases h : k = k₀
      · subst h
        simp [h₀, ih]
      · simp [lookup_cons, h, h₀, ih]

/-- No key is stored twice. -/
def Keyed (d : List (κ × β)) : Prop := (d.map Prod.fst).Nodup

omit [DecidableEq κ] in
theorem keyed_nil : Keyed ([] : List (κ × β)) := List.nodup_nil

omit [DecidableEq κ] in
theorem Keyed.filter {d : List (κ × β)} (h : Keyed d) (p : κ × β → Bool) : Keyed (d.filter p) :=
  h.sublist (List.filter_sublist.map Prod.fst)

theorem mem_of_lookup {d : List (κ × β)} {k : κ} {v : β} (h : d.lookup k = some v) :
    (k, v) ∈ d := by
  induction d with
  | nil => simp at h
  | cons e d ih =>
    obtain ⟨k₀, v₀⟩ := e
    rw [lookup_cons] at h
    by_cases hk : k = k₀
    · rw [if_pos hk, Option.some.injEq] at h
      simp [hk, h]
    · rw [if_neg hk] at h
      exact List.mem_cons_of_mem _ (ih h)

theorem Keyed.lookup {d : List (κ × β)} (h : Keyed d) {k : κ} {v : β} (hmem : (k, v) ∈ d) :
    d.lookup k = some v := by
  induction d with
  | nil => simp at hmem
  | cons e d ih =>
    obtain ⟨k₀, v₀⟩ := e
    have hnodup := List.nodup_cons.mp h
    rw [lookup_cons]
    rcases List.mem_cons.mp hmem with heq | htail
    · cases heq
      simp
    · have hne : k ≠ k₀ := by
        rintro rfl
        exact hnodup.1 (List.mem_map.mpr ⟨_, htail, rfl⟩)
      rw [if_neg hne]
      exact ih hnodup.2 htail

/-- The values under one key. -/
theorem Keyed.filter_key {d : List (κ × β)} (h : Keyed d) (k : κ) :
    (d.filter fun e => e.1 = k).map Prod.snd = (d.lookup k).toList := by
  induction d with
  | nil => rfl
  | cons e d ih =>
    obtain ⟨k₀, v₀⟩ := e
    have hnodup := List.nodup_cons.mp h
    rw [lookup_cons]
    by_cases hk : k = k₀
    · subst hk
      have hnone : d.filter (fun e => e.1 = k) = [] := by
        refine List.filter_eq_nil_iff.mpr fun e he hkey => hnodup.1 ?_
        exact List.mem_map.mpr ⟨e, he, by simpa using hkey⟩
      simp [hnone]
    · have hne : k₀ ≠ k := fun h => hk h.symm
      simp [hk, hne, ih hnodup.2]

theorem keys_set (d : List (κ × β)) (k : κ) (v : β) :
    (set d k v).map Prod.fst =
      if (d.lookup k).isSome then d.map Prod.fst else d.map Prod.fst ++ [k] := by
  induction d with
  | nil => simp [set]
  | cons e d ih =>
    obtain ⟨k₀, v₀⟩ := e
    by_cases hk : k₀ = k
    · simp [set, hk]
    · have hne : k ≠ k₀ := fun h => hk h.symm
      rw [lookup_cons, if_neg hne]
      simp only [set, if_neg hk, List.map_cons, ih]
      split <;> rfl

theorem length_set (d : List (κ × β)) (k : κ) (v : β) :
    (set d k v).length = if (d.lookup k).isSome then d.length else d.length + 1 := by
  have h := congrArg List.length (keys_set d k v)
  rw [List.length_map] at h
  rw [h]
  split <;> simp

theorem Keyed.set {d : List (κ × β)} (h : Keyed d) (k : κ) (v : β) : Keyed (set d k v) := by
  unfold Keyed
  rw [keys_set]
  split
  · exact h
  · rename_i hnone
    rw [Bool.not_eq_true, Option.isSome_eq_false_iff, Option.isNone_iff_eq_none,
      List.lookup_eq_none_iff] at hnone
    refine List.Nodup.append h (List.nodup_singleton k) ?_
    rw [List.disjoint_singleton]
    intro hmem
    obtain ⟨e, he, hk⟩ := List.mem_map.mp hmem
    simpa [hk] using hnone e he

theorem Keyed.mem_set {d : List (κ × β)} (h : Keyed d) {k : κ} {v : β} {e : κ × β} :
    e ∈ Dict.set d k v ↔ e = (k, v) ∨ (e ∈ d ∧ e.1 ≠ k) := by
  obtain ⟨k', v'⟩ := e
  constructor
  · intro he
    have hl := (h.set k v).lookup he
    rw [lookup_set] at hl
    by_cases hk : k' = k
    · rw [if_pos hk, Option.some.injEq] at hl
      exact .inl (by rw [hk, hl])
    · rw [if_neg hk] at hl
      exact .inr ⟨mem_of_lookup hl, hk⟩
  · intro he
    refine mem_of_lookup ?_
    rw [lookup_set]
    rcases he with he | ⟨he, hk⟩
    · cases he
      rw [if_pos rfl]
    · rw [if_neg hk]
      exact h.lookup he

/-- A new key comes last. -/
theorem set_fresh {d : List (κ × β)} {k : κ} (h : k ∉ d.map Prod.fst) (v : β) :
    set d k v = d ++ [(k, v)] := by
  induction d with
  | nil => simp [set]
  | cons e d ih =>
    simp only [List.map_cons, List.mem_cons, not_or] at h
    have hne : e.1 ≠ k := fun heq => h.1 heq.symm
    simp [set, hne, ih h.2]

/-- `dict(pairs)` -/
def of_pairs (pairs : List (κ × β)) : List (κ × β) := pairs.foldl (fun d e => set d e.1 e.2) []

theorem foldl_set {pairs d : List (κ × β)} (h : Keyed (d ++ pairs)) :
    pairs.foldl (fun d e => set d e.1 e.2) d = d ++ pairs := by
  induction pairs generalizing d with
  | nil => simp
  | cons e pairs ih =>
    have hfresh : e.1 ∉ d.map Prod.fst := by
      unfold Keyed at h
      rw [List.map_append, List.nodup_append] at h
      intro hmem
      exact h.2.2 _ hmem e.1 (by simp) rfl
    rw [List.foldl_cons, set_fresh hfresh, ih (by simpa using h)]
    simp

/-- Pairs without a key twice are the items of their dictionary. -/
theorem of_pairs_keyed {pairs : List (κ × β)} (h : Keyed pairs) : of_pairs pairs = pairs := by
  simpa [of_pairs] using foldl_set (d := []) h

theorem of_pairs_ne_nil {pairs : List (κ × β)} (h : pairs ≠ []) : of_pairs pairs ≠ [] := by
  obtain ⟨pairs, e, rfl⟩ : ∃ init e, pairs = init ++ [e] :=
    ⟨_, _, (List.dropLast_append_getLast h).symm⟩
  have hlast : (of_pairs (pairs ++ [e])).lookup e.1 = some e.2 := by
    simp [of_pairs, List.foldl_append]
  intro hnil
  simp [hnil] at hlast

end Dict
