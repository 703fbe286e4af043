import Mathlib

/-!
The headers that are open in a sequence of items with levels: a stack of the levels of the open
headers, and what being open means. An item without a level is passed over.
-/

set_option autoImplicit false

namespace Nesting

variable {α β : Type} [LinearOrder β] (level : α → Option β) (opens : α → Bool)

/-- The open levels that an item of level `n` lies inside of. -/
def close (stack : List β) (n : β) : List β := stack.rdropWhile (n ≤ ·)

def step (stack : List β) (x : α) : List β :=
  match level x with
  | none => stack
  | some n => if opens x then close stack n ++ [n] else close stack n

def stack (xs : List α) : List β := xs.foldl (step level opens) []

/-- A header of level `n` stands in `xs`, and all that follows it is deeper. -/
def Open (xs : List α) (n : β) : Prop :=
  ∃ outer h inner, xs = outer ++ h :: inner ∧ level h = some n ∧ opens h = true ∧
    ∀ x ∈ inner, ∀ m, level x = some m → n < m

variable {level opens}

theorem sorted_close {s : List β} (h : s.Pairwise (· < ·)) (n : β) :
    (close s n).Pairwise (· < ·) := h.sublist (List.rdropWhile_prefix _ s).sublist

/-- On a sorted stack the levels that are closed are those that are no lower. -/
theorem mem_close {s : List β} (h : s.Pairwise (· < ·)) {n m : β} :
    m ∈ close s n ↔ m ∈ s ∧ m < n := by
  induction s using List.reverseRecOn with
  | nil => simp [close]
  | append_singleton s top ih =>
    obtain ⟨hs, -, htop⟩ := List.pairwise_append.mp h
    have hlow : ∀ k ∈ s, k < top := fun k hk => htop k hk top List.mem_cons_self
    by_cases hle : n ≤ top
    · have hclose : close (s ++ [top]) n = close s n := by
        rw [close, List.rdropWhile_concat_pos _ _ _ (by simpa using hle), close]
      rw [hclose, ih hs]
      constructor
      · intro hm
        exact ⟨List.mem_append_left _ hm.1, hm.2⟩
      · intro hm
        have hne : m ≠ top := fun heq => absurd hle (not_le.mpr (heq ▸ hm.2))
        simpa [hne] using hm
    · have hclose : close (s ++ [top]) n = s ++ [top] := by
        rw [close, List.rdropWhile_concat_neg _ _ _ (by simpa using hle)]
      rw [hclose]
      constructor
      · intro hm
        refine ⟨hm, ?_⟩
        rcases List.mem_append.mp hm with hm | hm
        · exact (hlow m hm).trans (not_le.mp hle)
        · rw [List.mem_singleton.mp hm]
          exact not_le.mp hle
      · intro hm
        exact hm.1

theorem sorted_step {s : List β} (h : s.Pairwise (· < ·)) (x : α) :
    (step level opens s x).Pairwise (· < ·) := by
  unfold step
  split
  · exact h
  · rename_i n hn
    split
    · rw [List.pairwise_append]
      refine ⟨sorted_close h n, List.pairwise_singleton _ _, ?_⟩
      intro m hm k hk
      rw [List.mem_singleton.mp hk]
      exact ((mem_close h).mp hm).2
    · exact sorted_close h n

theorem stack_append (xs : List α) (x : α) :
    stack level opens (xs ++ [x]) = step level opens (stack level opens xs) x := by
  simp [stack]

theorem sorted_stack (xs : List α) : (stack level opens xs).Pairwise (· < ·) := by
  induction xs using List.reverseRecOn with
  | nil => simp [stack]
  | append_singleton xs x ih =>
    rw [stack_append]
    exact sorted_step ih x

/-- What is open after one more item: the item itself, if it is a header, and what was open
before it and is lower. -/
theorem open_append {xs : List α} {x : α} {n : β} : Open level opens (xs ++ [x]) n ↔
    (level x = some n ∧ opens x = true) ∨
      (Open level opens xs n ∧ ∀ m, level x = some m → n < m) := by
  constructor
  · intro ⟨outer, h, inner, heq, hlevel, hopens, hinner⟩
    induction inner using List.reverseRecOn with
    | nil =>
      obtain ⟨-, hx⟩ := List.append_inj' heq rfl
      cases hx
      exact .inl ⟨hlevel, hopens⟩
    | append_singleton inner last _ =>
      rw [← List.cons_append, ← List.append_assoc] at heq
      obtain ⟨hxs, hx⟩ := List.append_inj' heq rfl
      cases hx
      have hbefore : ∀ y ∈ inner, ∀ m, level y = some m → n < m := fun y hy =>
        hinner y (List.mem_append_left _ hy)
      exact .inr ⟨⟨outer, h, inner, hxs, hlevel, hopens, hbefore⟩, hinner x (by simp)⟩
  · intro hopen
    rcases hopen with ⟨hlevel, hopens⟩ | ⟨⟨outer, h, inner, heq, hlevel, hopens, hinner⟩, hx⟩
    · exact ⟨xs, x, [], rfl, hlevel, hopens, by simp⟩
    · refine ⟨outer, h, inner ++ [x], by simp [heq], hlevel, hopens, ?_⟩
      intro y hy
      rcases List.mem_append.mp hy with hy | hy
      · exact hinner y hy
      · rw [List.mem_singleton.mp hy]
        exact hx

/-- The stack holds exactly the levels of the open headers. -/
theorem mem_stack_iff {xs : List α} {n : β} : n ∈ stack level opens xs ↔ Open level opens xs n := by
  induction xs using List.reverseRecOn generalizing n with
  | nil => simp [stack, Open]
  | append_singleton xs x ih =>
    have hsorted := @sorted_stack α β _ level opens xs
    rw [stack_append, open_append, ← ih, step]
    cases hx : level x with
    | none => simp
    | some m =>
      cases hopens : opens x with
      | false => simp [mem_close hsorted]
      | true =>
        simp only [mem_close hsorted, List.mem_append, List.mem_singleton, Option.some.injEq,
          and_true, if_true]
        constructor
        · intro h
          rcases h with h | h
          · exact .inr ⟨h.1, fun k hk => hk ▸ h.2⟩
          · exact .inl h.symm
        · intro h
          rcases h with h | h
          · exact .inr h.symm
          · exact .inl ⟨h.1, h.2 m rfl⟩

/-- An item lies inside of a header when one is open before it that is lower. -/
theorem close_ne_nil_iff {xs : List α} {n : β} : close (stack level opens xs) n ≠ [] ↔
    ∃ m, Open level opens xs m ∧ m < n := by
  constructor
  · intro h
    obtain ⟨m, hm⟩ := List.exists_mem_of_ne_nil _ h
    obtain ⟨hmem, hlt⟩ := (mem_close (sorted_stack xs)).mp hm
    exact ⟨m, mem_stack_iff.mp hmem, hlt⟩
  · intro ⟨m, hopen, hlt⟩
    exact List.ne_nil_of_mem ((mem_close (sorted_stack xs)).mpr ⟨mem_stack_iff.mpr hopen, hlt⟩)

end Nesting
