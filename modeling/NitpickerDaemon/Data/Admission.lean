import Mathlib

/-!
Entries that come one after the other are admitted or refused by a rule that sees what was
admitted before. Two rules, one of them the stricter, are compared over a whole run.
-/

set_option autoImplicit false

namespace Admission

variable {α : Type}

/-- What a rule admits of the entries. -/
def admitted (rule : List α → α → Bool) (entries : List α) : List α :=
  entries.foldl (fun past x => if rule past x then past ++ [x] else past) []

variable {rule strict : List α → α → Bool} {entries : List α}

@[simp] theorem admitted_nil : admitted rule [] = [] := rfl

theorem admitted_snoc (x : α) : admitted rule (entries ++ [x]) =
    if rule (admitted rule entries) x then admitted rule entries ++ [x]
    else admitted rule entries := by
  rw [admitted, List.foldl_append, List.foldl_cons, List.foldl_nil]
  rfl

theorem admitted_sublist : (admitted rule entries).Sublist entries := by
  induction entries using List.reverseRecOn with
  | nil => simp
  | append_singleton entries x ih =>
    rw [admitted_snoc]
    split
    · exact ih.append (List.Sublist.refl [x])
    · exact ih.trans (List.sublist_append_left entries [x])

/-- Each entry that the one rule admits after the past `past before` is admitted by the strict
one. -/
def Follows (strict rule : List α → α → Bool) (past : List α → List α) (entries : List α) : Prop :=
  ∀ before x after, entries = before ++ x :: after →
    rule (past before) x = true → strict (past before) x = true

theorem Follows.init {past : List α → List α} {x : α}
    (h : Follows strict rule past (entries ++ [x])) : Follows strict rule past entries := by
  intro before y after heq
  exact h before y (after ++ [x]) (by simp [heq])

end Admission
