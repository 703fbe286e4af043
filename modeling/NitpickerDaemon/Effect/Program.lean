import Mathlib

/-!
Interaction programs. A program asks its surroundings questions, one at a time, and
continues with the answers; what is asked and who answers is left open.
-/

set_option autoImplicit false

namespace Effect

/-- A program over the questions `Op`; the answers to `o` have type `Ans o`. -/
inductive Prog (Op : Type) (Ans : Op → Type) (α : Type) where
  | ret : α → Prog Op Ans α
  | call : (o : Op) → (Ans o → Prog Op Ans α) → Prog Op Ans α

/-- One answered question, with the state before and after the answer. -/
structure Event (S Op : Type) (Ans : Op → Type) where
  pre : S
  op : Op
  ans : Ans op
  post : S

/-- `δ s o a s'` says that in state `s` question `o` can be answered `a`, leaving `s'`. -/
abbrev Surroundings (S Op : Type) (Ans : Op → Type) := S → (o : Op) → Ans o → S → Prop

variable {S Op : Type} {Ans : Op → Type} {α β γ : Type}

/-- `o` was answered `a` at some moment of the trace. -/
def Asked (t : List (Event S Op Ans)) (o : Op) (a : Ans o) : Prop := ∃ s s', ⟨s, o, a, s'⟩ ∈ t

theorem Asked.append_left {t : List (Event S Op Ans)} {o : Op} {a : Ans o} (h : Asked t o a)
    (u : List (Event S Op Ans)) : Asked (t ++ u) o a := by
  obtain ⟨s, s', hev⟩ := h
  exact ⟨s, s', List.mem_append_left u hev⟩

theorem Asked.append_right {t : List (Event S Op Ans)} {o : Op} {a : Ans o} (h : Asked t o a)
    (u : List (Event S Op Ans)) : Asked (u ++ t) o a := by
  obtain ⟨s, s', hev⟩ := h
  exact ⟨s, s', List.mem_append_right u hev⟩

def Prog.bind : Prog Op Ans α → (α → Prog Op Ans β) → Prog Op Ans β
  | .ret a, f => f a
  | .call o k, f => .call o (fun a => (k a).bind f)

theorem Prog.bind_assoc (p : Prog Op Ans α) (f : α → Prog Op Ans β) (g : β → Prog Op Ans γ) :
    (p.bind f).bind g = p.bind fun a => (f a).bind g := by
  induction p with
  | ret a => rfl
  | call o k ih => simp only [Prog.bind, ih]

/-- `Steps δ s p t s' p'`: from state `s` the program `p` can reach state `s'` with
`p'` still to run, and `t` are the questions answered on the way. A whole run is one
whose rest is `ret`; a shorter one is what a process leaves behind when it stops. -/
inductive Steps (δ : Surroundings S Op Ans) :
    S → Prog Op Ans α → List (Event S Op Ans) → S → Prog Op Ans α → Prop where
  | refl (s : S) (p : Prog Op Ans α) : Steps δ s p [] s p
  | call {s s' s'' : S} {o : Op} {k : Ans o → Prog Op Ans α} {a : Ans o}
      {t : List (Event S Op Ans)} {p : Prog Op Ans α} :
      δ s o a s' → Steps δ s' (k a) t s'' p →
      Steps δ s (.call o k) (⟨s, o, a, s'⟩ :: t) s'' p

theorem Steps.trans {δ : Surroundings S Op Ans} {s s' s'' : S} {p p' p'' : Prog Op Ans α}
    {t t' : List (Event S Op Ans)} (h : Steps δ s p t s' p') (h' : Steps δ s' p' t' s'' p'') :
    Steps δ s p (t ++ t') s'' p'' := by
  induction h with
  | refl s p => exact h'
  | call hs _ ih => exact .call hs (ih h')

/-- `Path p t p'`: the answers in `t` lead from `p` to `p'`. Unlike in a run, the state may
change between two events. -/
inductive Path : Prog Op Ans α → List (Event S Op Ans) → Prog Op Ans α → Prop where
  | refl (p : Prog Op Ans α) : Path p [] p
  | call {s s' : S} {o : Op} {k : Ans o → Prog Op Ans α} {a : Ans o}
      {t : List (Event S Op Ans)} {p : Prog Op Ans α} :
      Path (k a) t p → Path (.call o k) (⟨s, o, a, s'⟩ :: t) p

theorem Steps.path {δ : Surroundings S Op Ans} {s s' : S} {p p' : Prog Op Ans α}
    {t : List (Event S Op Ans)} (h : Steps δ s p t s' p') : Path p t p' := by
  induction h with
  | refl s p => exact .refl p
  | call _ _ ih => exact .call ih

theorem Path.snoc {p : Prog Op Ans α} {t : List (Event S Op Ans)} {o : Op}
    {k : Ans o → Prog Op Ans α} (h : Path p t (.call o k)) (s : S) (a : Ans o) (s' : S) :
    Path p (t ++ [⟨s, o, a, s'⟩]) (k a) := by
  generalize hq : Prog.call o k = q at h
  induction h with
  | refl p =>
    subst hq
    exact .call (.refl (k a))
  | call _ ih => exact .call (ih hq)

theorem Path.bind {p p' : Prog Op Ans α} {t : List (Event S Op Ans)} (h : Path p t p')
    (f : α → Prog Op Ans β) : Path (p.bind f) t (p'.bind f) := by
  induction h with
  | refl p => exact .refl _
  | call _ ih => exact .call ih

theorem Path.ret_inv {t : List (Event S Op Ans)} {a b : α}
    (h : Path (.ret a : Prog Op Ans α) t (.ret b)) : t = [] ∧ a = b := by
  cases h with
  | refl => exact ⟨rfl, rfl⟩

/-- A path through `p.bind f` that ends goes through the value of `p`. -/
theorem Path.bind_inv {p : Prog Op Ans α} {f : α → Prog Op Ans β} {t : List (Event S Op Ans)}
    {b : β} (h : Path (p.bind f) t (.ret b)) :
    ∃ a t₁ t₂, t = t₁ ++ t₂ ∧ Path p t₁ (.ret a) ∧ Path (f a) t₂ (.ret b) := by
  induction p generalizing t with
  | ret a => exact ⟨a, [], t, rfl, .refl _, h⟩
  | call o k ih =>
    cases h with
    | call hk =>
      obtain ⟨a, t₁, t₂, rfl, h₁, h₂⟩ := ih _ hk
      exact ⟨a, _, t₂, List.cons_append.symm, .call h₁, h₂⟩

/-- Weakest precondition of `p` for `Q`, which sees the value, the last state and the
whole trace; `t` is the trace before `p` starts. -/
def Prog.wp (δ : Surroundings S Op Ans) :
    Prog Op Ans α → (α → S → List (Event S Op Ans) → Prop) → S → List (Event S Op Ans) → Prop
  | .ret a, Q, s, t => Q a s t
  | .call o k, Q, s, t => ∀ a s', δ s o a s' → (k a).wp δ Q s' (t ++ [⟨s, o, a, s'⟩])

theorem Prog.wp_sound {δ : Surroundings S Op Ans} {p : Prog Op Ans α}
    {Q : α → S → List (Event S Op Ans) → Prop} {s s' : S} {t t' : List (Event S Op Ans)} {a : α}
    (hw : p.wp δ Q s t) (hr : Steps δ s p t' s' (.ret a)) : Q a s' (t ++ t') := by
  induction p generalizing s t t' with
  | ret b =>
    cases hr with
    | refl => simpa [Prog.wp] using hw
  | call o k ih =>
    cases hr with
    | @call _ s₁ _ _ _ b t₁ _ hs hk =>
      have h := ih b (hw b s₁ hs) hk
      simpa using h

theorem Prog.wp_mono {δ : Surroundings S Op Ans} {p : Prog Op Ans α}
    {Q Q' : α → S → List (Event S Op Ans) → Prop} {s : S} {t : List (Event S Op Ans)}
    (h : ∀ a s t, Q a s t → Q' a s t) (hw : p.wp δ Q s t) : p.wp δ Q' s t := by
  induction p generalizing s t with
  | ret a => exact h a s t hw
  | call o k ih => exact fun a s' hs => ih a (hw a s' hs)

theorem Prog.wp_and {δ : Surroundings S Op Ans} {p : Prog Op Ans α}
    {Q Q' : α → S → List (Event S Op Ans) → Prop} {s : S} {t : List (Event S Op Ans)}
    (h : p.wp δ Q s t) (h' : p.wp δ Q' s t) :
    p.wp δ (fun a s t => Q a s t ∧ Q' a s t) s t := by
  induction p generalizing s t with
  | ret a => exact ⟨h, h'⟩
  | call o k ih => exact fun a s' hs => ih a (h a s' hs) (h' a s' hs)

theorem Prog.wp_bind {δ : Surroundings S Op Ans} {p : Prog Op Ans α}
    {f : α → Prog Op Ans β} {Q : β → S → List (Event S Op Ans) → Prop} {s : S}
    {t : List (Event S Op Ans)} :
    (p.bind f).wp δ Q s t ↔ p.wp δ (fun a s t => (f a).wp δ Q s t) s t := by
  induction p generalizing s t with
  | ret a => rfl
  | call o k ih => exact forall_congr' fun a => forall_congr' fun s' => imp_congr_right fun _ => ih a

/-- The trace before `p` is only carried along. -/
theorem Prog.wp_trace {δ : Surroundings S Op Ans} {p : Prog Op Ans α}
    {Q : α → S → List (Event S Op Ans) → Prop} {s : S} {t t' : List (Event S Op Ans)} :
    p.wp δ Q s (t ++ t') ↔ p.wp δ (fun a s t' => Q a s (t ++ t')) s t' := by
  induction p generalizing s t' with
  | ret a => rfl
  | call o k ih =>
    refine forall_congr' fun a => forall_congr' fun s' => imp_congr_right fun _ => ?_
    rw [List.append_assoc]
    exact ih a

/-- As long as the answers are in `A`, every question of `p` is in `C` and its value in `R`. -/
def Prog.Within (A : (o : Op) → Ans o → Prop) (C : Op → Prop) (R : α → Prop) :
    Prog Op Ans α → Prop
  | .ret a => R a
  | .call o k => C o ∧ ∀ a, A o a → (k a).Within A C R

section Within

variable {A B : (o : Op) → Ans o → Prop} {C D : Op → Prop} {R R' : α → Prop}

theorem Prog.Within.mono {p : Prog Op Ans α} (hp : p.Within A C R) (hA : ∀ o a, B o a → A o a)
    (hC : ∀ o, C o → D o) (hR : ∀ a, R a → R' a) : p.Within B D R' := by
  induction p with
  | ret a => exact hR a hp
  | call o k ih => exact ⟨hC o hp.1, fun a ha => ih a (hp.2 a (hA o a ha))⟩

theorem Prog.Within.bind {T : β → Prop} {p : Prog Op Ans α} {f : α → Prog Op Ans β}
    (hp : p.Within A C R) (hf : ∀ a, R a → (f a).Within A C T) : (p.bind f).Within A C T := by
  induction p with
  | ret a => exact hf a hp
  | call o k ih => exact ⟨hp.1, fun a ha => ih a (hp.2 a ha)⟩

/-- What every question of `p` keeps, `p` keeps. -/
theorem Prog.wp_of_within {δ : Surroundings S Op Ans} {p : Prog Op Ans α}
    {I : S → List (Event S Op Ans) → Prop} (hp : p.Within A C R)
    (hA : ∀ s o a s', δ s o a s' → A o a)
    (hI : ∀ s t o a s', C o → δ s o a s' → I s t → I s' (t ++ [⟨s, o, a, s'⟩]))
    {s : S} {t : List (Event S Op Ans)} (h : I s t) :
    p.wp δ (fun a s t => R a ∧ I s t) s t := by
  induction p generalizing s t with
  | ret a => exact ⟨hp, h⟩
  | call o k ih =>
    intro a s' hs
    exact ih a (hp.2 a (hA s o a s' hs)) (hI s t o a s' hp.1 hs h)

/-- The same for a run that may stop anywhere. -/
theorem Steps.keeps {δ : Surroundings S Op Ans} {p p' : Prog Op Ans α}
    {I : S → List (Event S Op Ans) → Prop} (hp : p.Within A C R)
    (hA : ∀ s o a s', δ s o a s' → A o a)
    (hI : ∀ s t o a s', C o → δ s o a s' → I s t → I s' (t ++ [⟨s, o, a, s'⟩]))
    {s s' : S} {t t' : List (Event S Op Ans)} (hr : Steps δ s p t' s' p') (h : I s t) :
    I s' (t ++ t') := by
  induction hr generalizing t with
  | refl s p => simpa using h
  | @call s s₁ s₂ o k a t₁ q hs _ ih =>
    have h₁ := ih (hp.2 a (hA s o a s₁ hs)) (hI s t o a s₁ hp.1 hs h)
    simpa using h₁

/-- The same rule for a path: its questions, and what is left to run. -/
theorem Path.within {p p' : Prog Op Ans α} {t : List (Event S Op Ans)} (hp : p.Within A C R)
    (hr : Path p t p') (hA : ∀ ev ∈ t, A ev.op ev.ans) :
    (∀ ev ∈ t, C ev.op) ∧ p'.Within A C R := by
  induction hr with
  | refl p => exact ⟨by simp, hp⟩
  | @call s s' o k a t p _ ih =>
    have ha := hA ⟨s, o, a, s'⟩ List.mem_cons_self
    obtain ⟨ht, hend⟩ := ih (hp.2 a ha) fun ev hev => hA ev (List.mem_cons_of_mem _ hev)
    refine ⟨fun ev hev => ?_, hend⟩
    rcases List.mem_cons.mp hev with rfl | hev
    · exact hp.1
    · exact ht ev hev

/-- The value of a whole run. -/
theorem Steps.value {δ : Surroundings S Op Ans} {p p' : Prog Op Ans α} (hp : p.Within A C R)
    (hA : ∀ s o a s', δ s o a s' → A o a) {s s' : S} {t : List (Event S Op Ans)}
    (hr : Steps δ s p t s' p') {a : α} (ha : p' = .ret a) : R a := by
  induction hr with
  | refl s p =>
    subst ha
    exact hp
  | @call s s₁ s₂ o k b t₁ q hs _ ih => exact ih (hp.2 b (hA s o b s₁ hs)) ha

/-- A state invariant of the questions in `C` holds before and after every event of a run. -/
theorem Steps.invariant {δ : Surroundings S Op Ans} {p p' : Prog Op Ans α} {I : S → Prop}
    (hp : p.Within A C R) (hA : ∀ s o a s', δ s o a s' → A o a)
    (hI : ∀ s o a s', C o → δ s o a s' → I s → I s') {s s' : S} {t : List (Event S Op Ans)}
    (hr : Steps δ s p t s' p') (h : I s) :
    I s' ∧ ∀ ev ∈ t, C ev.op ∧ I ev.pre ∧ I ev.post := by
  have hk := hr.keeps (I := fun s t => I s ∧ ∀ ev ∈ t, C ev.op ∧ I ev.pre ∧ I ev.post) hp hA
    (t := []) ?_ ⟨h, by simp⟩
  · simpa using hk
  · rintro s t o a s' hC hs ⟨hs₀, ht⟩
    have hs₁ := hI s o a s' hC hs hs₀
    refine ⟨hs₁, fun ev hev => ?_⟩
    simp only [List.mem_append, List.mem_singleton] at hev
    rcases hev with hev | rfl
    · exact ht ev hev
    · exact ⟨hC, hs₀, hs₁⟩

end Within

/-- The surroundings that answer only so that the event satisfies `P`. -/
def restrict (δ : Surroundings S Op Ans) (P : Event S Op Ans → Prop) : Surroundings S Op Ans :=
  fun s o a s' => δ s o a s' ∧ P ⟨s, o, a, s'⟩

/-- A run whose events all satisfy `P` is a run of the restricted surroundings. -/
theorem Steps.restrict {δ : Surroundings S Op Ans} {P : Event S Op Ans → Prop} {s s' : S}
    {p p' : Prog Op Ans α} {t : List (Event S Op Ans)} (hr : Steps δ s p t s' p')
    (h : ∀ ev ∈ t, P ev) : Steps (restrict δ P) s p t s' p' := by
  induction hr with
  | refl s p => exact .refl s p
  | @call s s₁ s₂ o k a t₁ q hs _ ih =>
    have h₁ := h ⟨s, o, a, s₁⟩ (by simp)
    exact .call ⟨hs, h₁⟩ (ih fun ev hev => h ev (by simp [hev]))

theorem Steps.mono {δ δ' : Surroundings S Op Ans} (h : ∀ s o a s', δ s o a s' → δ' s o a s')
    {s s' : S} {p p' : Prog Op Ans α} {t : List (Event S Op Ans)} (hr : Steps δ s p t s' p') :
    Steps δ' s p t s' p' := by
  induction hr with
  | refl s p => exact .refl s p
  | call hs _ ih => exact .call (h _ _ _ _ hs) ih

/-- Each event of a run is a step of the surroundings. -/
theorem Steps.event {δ : Surroundings S Op Ans} {s s' : S} {p p' : Prog Op Ans α}
    {t : List (Event S Op Ans)} (hr : Steps δ s p t s' p') :
    ∀ ev ∈ t, δ ev.pre ev.op ev.ans ev.post := by
  induction hr with
  | refl s p => simp
  | call hs _ ih =>
    intro ev hev
    rcases List.mem_cons.mp hev with rfl | hev
    · exact hs
    · exact ih ev hev

/-- Where every question has an answer, a run that stopped can be completed. -/
theorem Steps.completes {δ : Surroundings S Op Ans} (hδ : ∀ s o, ∃ a s', δ s o a s') (s : S)
    (p : Prog Op Ans α) : ∃ t s' a, Steps δ s p t s' (.ret a) := by
  induction p generalizing s with
  | ret a => exact ⟨[], s, a, .refl s _⟩
  | call o k ih =>
    obtain ⟨a, s₁, hs⟩ := hδ s o
    obtain ⟨t, s', b, hr⟩ := ih a s₁
    exact ⟨_, s', b, .call hs hr⟩

/-- Run `p` for at most `n` questions with a fixed way of answering. -/
def Prog.run_for (answer : S → (o : Op) → Ans o × S) :
    Nat → Prog Op Ans α → S → List (Event S Op Ans) × S × Prog Op Ans α
  | n + 1, .call o k, s =>
    let (a, s') := answer s o
    let (t, s'', p) := (k a).run_for answer n s'
    (⟨s, o, a, s'⟩ :: t, s'', p)
  | _, p, s => ([], s, p)

theorem Prog.run_for_add (answer : S → (o : Op) → Ans o × S) (n m : Nat) (p : Prog Op Ans α)
    (s : S) : (p.run_for answer (n + m) s).2 =
      ((p.run_for answer n s).2.2.run_for answer m (p.run_for answer n s).2.1).2 := by
  induction n generalizing p s with
  | zero =>
    rw [Nat.zero_add]
    cases p <;> rfl
  | succ n ih =>
    rw [Nat.succ_add]
    cases p with
    | ret a => cases m <;> rfl
    | call o k => exact ih (k (answer s o).1) (answer s o).2

theorem Prog.run_for_append (answer : S → (o : Op) → Ans o × S) (n m : Nat) (p : Prog Op Ans α)
    (s : S) : (p.run_for answer (n + m) s).1 = (p.run_for answer n s).1 ++
      ((p.run_for answer n s).2.2.run_for answer m (p.run_for answer n s).2.1).1 := by
  induction n generalizing p s with
  | zero =>
    rw [Nat.zero_add]
    cases p <;> rfl
  | succ n ih =>
    rw [Nat.succ_add]
    cases p with
    | ret a => cases m <;> rfl
    | call o k => exact congrArg _ (ih (k (answer s o).1) (answer s o).2)

theorem Prog.run_for_steps {δ : Surroundings S Op Ans} {answer : S → (o : Op) → Ans o × S}
    (h : ∀ s o, δ s o (answer s o).1 (answer s o).2) (n : Nat) (p : Prog Op Ans α) (s : S) :
    Steps δ s p (p.run_for answer n s).1 (p.run_for answer n s).2.1 (p.run_for answer n s).2.2 := by
  induction n generalizing p s with
  | zero => cases p <;> exact .refl s _
  | succ n ih =>
    cases p with
    | ret a => exact .refl s _
    | call o k => exact .call (h s o) (ih (k (answer s o).1) (answer s o).2)

end Effect
