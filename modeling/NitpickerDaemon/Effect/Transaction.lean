import Mathlib

/-!
Statements executed inside a transaction. A statement that raises leaves the effects of
the statements before it in place; it is the transaction around them that undoes these.
-/

set_option autoImplicit false

namespace Effect

def Txn (X S α : Type) : Type := S → Except X α × S

variable {X S α β : Type}

namespace Txn

instance : Monad (Txn X S) where
  pure a := fun s => (.ok a, s)
  bind m f := fun s => match m s with
    | (.ok a, s') => f a s'
    | (.error e, s') => (.error e, s')

def raise (e : X) : Txn X S α := fun s => (.error e, s)

def ofExcept (r : Except X α) : Txn X S α := fun s => (r, s)

def read : Txn X S S := fun s => (.ok s, s)

def write (s : S) : Txn X S Unit := fun _ => (.ok (), s)

@[simp] theorem run_pure (a : α) (s : S) : (pure a : Txn X S α) s = (.ok a, s) := rfl

@[simp] theorem run_raise (e : X) (s : S) : (raise e : Txn X S α) s = (.error e, s) := rfl

@[simp] theorem run_read (s : S) : (read : Txn X S S) s = (.ok s, s) := rfl

@[simp] theorem run_write (s s' : S) : (write s' : Txn X S Unit) s = (.ok (), s') := rfl

theorem run_ofExcept (r : Except X α) (s : S) : (ofExcept r : Txn X S α) s = (r, s) := rfl

theorem run_bind (m : Txn X S α) (f : α → Txn X S β) (s : S) :
    (m >>= f) s = match m s with
      | (.ok a, s') => f a s'
      | (.error e, s') => (.error e, s') := rfl

theorem run_bind_ok {m : Txn X S α} {f : α → Txn X S β} {s s' : S} {a : α}
    (h : m s = (.ok a, s')) : (m >>= f) s = f a s' := by rw [run_bind, h]

theorem run_bind_error {m : Txn X S α} {f : α → Txn X S β} {s s' : S} {e : X}
    (h : m s = (.error e, s')) : (m >>= f) s = (.error e, s') := by rw [run_bind, h]

/-- Commit when `m` returns, roll everything back when it raises. -/
def atomic (m : Txn X S α) : Txn X S α := fun s => match m s with
  | (.ok a, s') => (.ok a, s')
  | (.error e, _) => (.error e, s)

theorem atomic_ok (m : Txn X S α) (s s' : S) (a : α) (h : m s = (.ok a, s')) :
    atomic m s = (.ok a, s') := by simp [atomic, h]

theorem atomic_error (m : Txn X S α) (s : S) (e : X) (h : (m s).1 = .error e) :
    atomic m s = (.error e, s) := by
  unfold atomic
  split
  · rename_i hm
    rw [hm] at h
    cases h
  · rename_i hm
    rw [hm] at h
    cases h
    rfl

section Follows

variable {S' : Type} {π : S → S'}

/-- `m'` does to the image of a state what `m` does to the state. -/
def Follows (π : S → S') (m' : Txn X S' α) (m : Txn X S α) : Prop :=
  ∀ s, m' (π s) = ((m s).1, π (m s).2)

theorem Follows.pure (a : α) : Follows π (pure a : Txn X S' α) (pure a : Txn X S α) :=
  fun _ => rfl

theorem Follows.raise (e : X) : Follows π (raise e : Txn X S' α) (raise e : Txn X S α) :=
  fun _ => rfl

theorem Follows.ofExcept (r : Except X α) :
    Follows π (ofExcept r : Txn X S' α) (ofExcept r : Txn X S α) := fun _ => rfl

theorem Follows.write (s : S) : Follows π (write (π s) : Txn X S' Unit) (write s : Txn X S Unit) :=
  fun _ => rfl

theorem Follows.bind {m' : Txn X S' α} {m : Txn X S α} {k' : α → Txn X S' β} {k : α → Txn X S β}
    (hm : Follows π m' m) (hk : ∀ a, Follows π (k' a) (k a)) :
    Follows π (m' >>= k') (m >>= k) := by
  intro s
  rw [run_bind, run_bind, hm s]
  obtain ⟨r, s'⟩ := m s
  cases r with
  | error e => rfl
  | ok a => exact hk a s'

/-- What is read is known to be an image. -/
theorem Follows.read {k' : S' → Txn X S' β} {k : S → Txn X S β}
    (hk : ∀ s, Follows π (k' (π s)) (k s)) : Follows π (Txn.read >>= k') (Txn.read >>= k) :=
  fun s => hk s s

theorem Follows.atomic {m' : Txn X S' α} {m : Txn X S α} (hm : Follows π m' m) :
    Follows π (atomic m') (atomic m) := by
  intro s
  unfold Txn.atomic
  rw [hm s]
  obtain ⟨r, s'⟩ := m s
  cases r <;> rfl

end Follows

end Txn

end Effect
