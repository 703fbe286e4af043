import NitpickerDaemon.Data.Traverse

/-!
A search that goes through a list, keeps what it picks and stops as soon as it has enough. A
judgement of an entry may fail, and the search fails with it; entries after the stop are not
looked at.
-/

set_option autoImplicit false

namespace Scan

variable {ε α β : Type}

/-- At least one pick is made before the limit is compared. -/
def scan (judge : α → Except ε (Option β)) (limit : Int) : List β → List α → Except ε (List β)
  | picks, [] => .ok picks
  | picks, x :: xs => do
    match ← judge x with
    | none => scan judge limit picks xs
    | some y =>
      let picks := picks ++ [y]
      if limit ≤ picks.length then .ok picks else scan judge limit picks xs

/-- What is picked of an entry that can be judged. -/
def pick (judge : α → Except ε (Option β)) (x : α) : Option β :=
  match judge x with
  | .ok y => y
  | .error _ => none

/-- Each entry before the `n`-th pick can be judged. -/
def Clear (judge : α → Except ε (Option β)) (n : Nat) (xs : List α) : Prop :=
  ∀ before x after, xs = before ++ x :: after → (before.filterMap (pick judge)).length < n →
    ∃ y, judge x = .ok y

variable {judge : α → Except ε (Option β)} {limit : Int} {n : Nat} {x : α} {xs : List α}

theorem clear_nil : Clear judge n [] := by
  intro before x after h
  simp at h

theorem clear_zero : Clear judge 0 xs := by
  intro before x after _ h
  omega

theorem clear_cons {y : Option β} (h : judge x = .ok y) :
    Clear judge (n + 1) (x :: xs) ↔ Clear judge (if y.isSome then n else n + 1) xs := by
  have hpick : pick judge x = y := by simp [pick, h]
  constructor
  · intro hclear before z after hxs hlt
    apply hclear (x :: before) z after (by simp [hxs])
    cases y with
    | none => simpa [hpick] using hlt
    | some y => simpa [hpick] using hlt
  · intro hclear before z after hxs hlt
    cases before with
    | nil =>
      simp only [List.nil_append, List.cons.injEq] at hxs
      exact ⟨y, by rw [← hxs.1, h]⟩
    | cons b before =>
      simp only [List.cons_append, List.cons.injEq] at hxs
      rw [← hxs.1] at hlt
      apply hclear before z after hxs.2
      cases y with
      | none => simpa [hpick] using hlt
      | some y => simpa [hpick] using hlt

theorem not_clear_cons {e : ε} (h : judge x = .error e) : ¬Clear judge (n + 1) (x :: xs) := by
  intro hclear
  obtain ⟨y, hy⟩ := hclear [] x xs rfl (by simp)
  rw [h] at hy
  cases hy

/-- The search succeeds just when each entry up to the stop can be judged, and then it gives the
first picks. -/
theorem scan_from_iff {picks ys : List β} (h : picks.length < max limit.toNat 1) :
    scan judge limit picks xs = .ok ys ↔
      ys = picks ++ (xs.filterMap (pick judge)).take (max limit.toNat 1 - picks.length) ∧
        Clear judge (max limit.toNat 1 - picks.length) xs := by
  induction xs generalizing picks with
  | nil => simp [scan, clear_nil, eq_comm]
  | cons x xs ih =>
    obtain ⟨n, hn⟩ : ∃ n, max limit.toNat 1 - picks.length = n + 1 :=
      ⟨max limit.toNat 1 - picks.length - 1, by omega⟩
    rw [hn]
    cases hx : judge x with
    | error e => simp [scan, hx, not_clear_cons hx, bind, Except.bind]
    | ok y =>
      have hpick : pick judge x = y := by simp [pick, hx]
      rw [clear_cons hx]
      cases y with
      | none => simp [scan, hx, hpick, ih h, hn, bind, Except.bind]
      | some y =>
        rw [List.filterMap_cons_some hpick, List.take_succ_cons]
        simp only [scan, hx, bind, Except.bind, Option.isSome_some, if_true]
        split
        · rename_i hfull
          rw [List.length_append, List.length_singleton] at hfull
          have hzero : n = 0 := by omega
          simp [hzero, clear_zero, eq_comm]
        · rename_i hroom
          rw [List.length_append, List.length_singleton] at hroom
          have hlt : (picks ++ [y]).length < max limit.toNat 1 := by
            rw [List.length_append, List.length_singleton]
            omega
          have hrest : max limit.toNat 1 - (picks ++ [y]).length = n := by
            rw [List.length_append, List.length_singleton]
            omega
          rw [ih hlt, hrest, List.append_assoc, List.singleton_append]

theorem scan_iff {ys : List β} : scan judge limit [] xs = .ok ys ↔
    ys = (xs.filterMap (pick judge)).take (max limit.toNat 1) ∧
      Clear judge (max limit.toNat 1) xs := by
  have hroom : ([] : List β).length < max limit.toNat 1 := by simp
  rw [scan_from_iff hroom, List.nil_append, List.length_nil, Nat.sub_zero]

theorem scan_ok_iff : (∃ ys, scan judge limit [] xs = .ok ys) ↔
    Clear judge (max limit.toNat 1) xs := by
  simp [scan_iff]

/-- Entries that can all be judged are searched to the end. -/
theorem scan_total (h : ∀ x ∈ xs, ∃ y, judge x = .ok y) : scan judge limit [] xs =
    .ok ((xs.filterMap (pick judge)).take (max limit.toNat 1)) := by
  rw [scan_iff]
  refine ⟨rfl, fun before x after hxs _ => h x ?_⟩
  simp [hxs]

/-- What passes both tests is first met where what passes the one is, as long as that passes. -/
theorem take_filter_of_take {p q : β → Bool} {ys : List β}
    (h : ∀ y ∈ (ys.filter p).take n, q y = true) :
    (ys.filter fun y => p y && q y).take n = (ys.filter p).take n := by
  have hsplit : (ys.filter fun y => p y && q y) = (ys.filter p).filter q := by
    rw [List.filter_filter]
    exact List.filter_congr fun y _ => Bool.and_comm _ _
  rw [hsplit]
  generalize ys.filter p = zs at h ⊢
  have htake : (zs.take n).filter q = zs.take n := List.filter_eq_self.mpr h
  rw [← List.take_append_drop n zs, List.filter_append, htake, List.take_append, List.take_append,
    List.take_take, Nat.min_self]
  by_cases hlen : n ≤ zs.length
  · simp [hlen]
  · have hdrop : zs.drop n = [] := List.drop_eq_nil_of_le (by omega)
    simp [hdrop]

end Scan
