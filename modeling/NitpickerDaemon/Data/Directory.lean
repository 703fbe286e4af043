import Mathlib

/-!
A directory of files: names that point to files, and files that are written through their
positions. Renaming moves a name, never the content.
-/

set_option autoImplicit false

/-- The file of each name, the content of each file, and a file that no name has had yet. -/
structure Directory (ν β : Type) where
  entry : ν → Option Nat
  content : Nat → List β
  next : Nat

namespace Directory

variable {ν β : Type}

def read (d : Directory ν β) (name : ν) : Option (List β) := (d.entry name).map d.content

/-- The file that opening `name` for writing gives. -/
def opened (d : Directory ν β) (name : ν) : Nat := (d.entry name).getD d.next

/-- Bytes written at a position; a gap before them is filled with `zero`. -/
def splice (zero : β) (old : List β) (position : Nat) (chunk : List β) : List β :=
  old.take position ++ List.replicate (position - old.length) zero ++ chunk ++
    old.drop (position + chunk.length)

def write_at (d : Directory ν β) (zero : β) (file position : Nat) (chunk : List β) :
    Directory ν β :=
  { d with content := Function.update d.content file (splice zero (d.content file) position chunk) }

/-- Names have their own files, among those made so far. -/
structure Linked (d : Directory ν β) : Prop where
  made : ∀ name file, d.entry name = some file → file < d.next
  own : ∀ name name' file, d.entry name = some file → d.entry name' = some file → name = name'

/-- Writing at the end of a file adds to it. -/
theorem splice_length (zero : β) (old chunk : List β) :
    splice zero old old.length chunk = old ++ chunk := by
  simp [splice]

@[simp] theorem read_write_at_other {d : Directory ν β} {zero : β} {file position : Nat}
    {chunk : List β} {name : ν} (h : d.entry name ≠ some file) :
    (d.write_at zero file position chunk).read name = d.read name := by
  unfold read write_at
  cases hentry : d.entry name with
  | none => rfl
  | some other =>
    have hne : other ≠ file := by
      rintro rfl
      exact h hentry
    simp [hne]

theorem Linked.opened_other {d : Directory ν β} (h : d.Linked) {name name' : ν} (hne : name' ≠ name) :
    d.entry name' ≠ some (d.opened name) := by
  intro hentry
  unfold opened at hentry
  cases hname : d.entry name with
  | none =>
    rw [hname] at hentry
    have hlt := h.made _ _ hentry
    simp at hlt
  | some file =>
    rw [hname] at hentry
    exact hne (h.own _ _ _ hentry hname)

theorem Linked.write_at {d : Directory ν β} (h : d.Linked) (zero : β) (file position : Nat)
    (chunk : List β) : (d.write_at zero file position chunk).Linked := ⟨h.made, h.own⟩

variable [DecidableEq ν]

/-- Open `name` for writing: an existing file is emptied, a new one is made. -/
def truncate (d : Directory ν β) (name : ν) : Directory ν β where
  entry := Function.update d.entry name (some (d.opened name))
  content := Function.update d.content (d.opened name) []
  next := if (d.entry name).isSome then d.next else d.next + 1

/-- `rename(2)`; there is nothing to rename if `source` does not exist. -/
def rename (d : Directory ν β) (source target : ν) : Option (Directory ν β) :=
  (d.entry source).map fun file =>
    { d with entry := Function.update (Function.update d.entry source none) target (some file) }

theorem Linked.truncate {d : Directory ν β} (h : d.Linked) (name : ν) :
    (d.truncate name).Linked := by
  have hother : ∀ name', name' ≠ name → (d.truncate name).entry name' = d.entry name' :=
    fun name' hne => by simp [Directory.truncate, hne]
  have hself : (d.truncate name).entry name = some (d.opened name) := by
    simp [Directory.truncate]
  constructor
  · intro name' file hentry
    by_cases hname : name' = name
    · subst hname
      rw [hself] at hentry
      cases hentry
      unfold Directory.truncate opened
      cases hold : d.entry name' with
      | none => simp
      | some file => simpa using h.made _ _ hold
    · rw [hother name' hname] at hentry
      have hlt := h.made _ _ hentry
      simp only [Directory.truncate]
      split <;> omega
  · intro name₁ name₂ file h₁ h₂
    by_cases hn₁ : name₁ = name <;> by_cases hn₂ : name₂ = name
    · rw [hn₁, hn₂]
    · subst hn₁
      rw [hself] at h₁
      rw [hother _ hn₂, ← h₁] at h₂
      exact absurd h₂ (h.opened_other hn₂)
    · subst hn₂
      rw [hself] at h₂
      rw [hother _ hn₁, ← h₂] at h₁
      exact absurd h₁ (h.opened_other hn₁)
    · rw [hother _ hn₁] at h₁
      rw [hother _ hn₂] at h₂
      exact h.own _ _ _ h₁ h₂

theorem Linked.read_truncate {d : Directory ν β} (h : d.Linked) {name name' : ν}
    (hne : name' ≠ name) : (d.truncate name).read name' = d.read name' := by
  have hopened := h.opened_other hne
  unfold read Directory.truncate
  simp only [Function.update_of_ne hne]
  cases hentry : d.entry name' with
  | none => rfl
  | some file =>
    have hfile : file ≠ d.opened name := by
      rintro rfl
      exact hopened hentry
    simp [hfile]

theorem Linked.rename {d d' : Directory ν β} (h : d.Linked) {source target : ν}
    (hr : d.rename source target = some d') : d'.Linked := by
  obtain ⟨file, hsource, rfl⟩ := Option.map_eq_some_iff.mp hr
  have hold : ∀ name file', Function.update (Function.update d.entry source none) target (some file)
      name = some file' → (name = target ∧ file' = file) ∨
        (name ≠ target ∧ name ≠ source ∧ d.entry name = some file') := by
    intro name file' hentry
    by_cases ht : name = target
    · subst ht
      simp only [Function.update_self, Option.some.injEq] at hentry
      exact .inl ⟨rfl, hentry.symm⟩
    · rw [Function.update_of_ne ht] at hentry
      by_cases hs : name = source
      · subst hs
        simp at hentry
      · rw [Function.update_of_ne hs] at hentry
        exact .inr ⟨ht, hs, hentry⟩
  constructor
  · intro name file' hentry
    rcases hold _ _ hentry with ⟨-, rfl⟩ | ⟨-, -, hentry⟩
    · exact h.made _ _ hsource
    · exact h.made _ _ hentry
  · intro name₁ name₂ file' h₁ h₂
    rcases hold _ _ h₁ with ⟨rfl, rfl⟩ | ⟨-, hs₁, g₁⟩ <;>
      rcases hold _ _ h₂ with ⟨rfl, hf⟩ | ⟨-, hs₂, g₂⟩
    · rfl
    · exact absurd (h.own _ _ _ g₂ hsource) hs₂
    · subst hf
      exact absurd (h.own _ _ _ g₁ hsource) hs₁
    · exact h.own _ _ _ g₁ g₂

theorem read_rename {d d' : Directory ν β} {source target : ν} {file : Nat}
    (hentry : d.entry source = some file) (hr : d.rename source target = some d') :
    d'.read target = some (d.content file) := by
  simp only [rename, hentry, Option.map_some, Option.some.injEq] at hr
  subst hr
  simp [read]

end Directory
