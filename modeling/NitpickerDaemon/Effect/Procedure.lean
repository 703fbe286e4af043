import NitpickerDaemon.Effect.Program

/-!
Procedures of a language with exceptions: local variables `L`, which keep their values
when an exception of type `X` is raised, over the programs of `Effect.Prog`.
-/

set_option autoImplicit false

namespace Effect

def Proc (X L Op : Type) (Ans : Op → Type) (α : Type) : Type :=
  L → Prog Op Ans (Except X α × L)

variable {X L S Op : Type} {Ans : Op → Type} {α β : Type}

namespace Proc

def raise (e : X) : Proc X L Op Ans α := fun l => .ret (.error e, l)

/-- Ask `o` and read its answer as a value or an exception. -/
def invoke (o : Op) (f : Ans o → Except X α) : Proc X L Op Ans α :=
  fun l => .call o fun a => .ret (f a, l)

def ofExcept (r : Except X α) : Proc X L Op Ans α := fun l => .ret (r, l)

def locals : Proc X L Op Ans L := fun l => .ret (.ok l, l)

def assign (f : L → L) : Proc X L Op Ans Unit := fun l => .ret (.ok (), f l)

/-- `try m except e: h e`; the assignments `m` made before it raised stay. -/
def attempt (m : Proc X L Op Ans α) (h : X → Proc X L Op Ans α) : Proc X L Op Ans α := fun l =>
  (m l).bind fun
    | (.ok a, l') => .ret (.ok a, l')
    | (.error e, l') => h e l'

/-- `try: m finally: c`; an exception of `c` takes the place of what `m` did. -/
def ensure (m : Proc X L Op Ans α) (c : Proc X L Op Ans Unit) : Proc X L Op Ans α := fun l =>
  (m l).bind fun (r, l') => (c l').bind fun
    | (.ok _, l'') => .ret (r, l'')
    | (.error e, l'') => .ret (.error e, l'')

instance : Monad (Proc X L Op Ans) where
  pure a := fun l => .ret (.ok a, l)
  bind m f := fun l => (m l).bind fun
    | (.ok a, l') => f a l'
    | (.error e, l') => .ret (.error e, l')

theorem bind_assoc {γ : Type} (m : Proc X L Op Ans α) (f : α → Proc X L Op Ans β)
    (g : β → Proc X L Op Ans γ) : m >>= f >>= g = m >>= fun a => f a >>= g := by
  funext l
  refine (Prog.bind_assoc _ _ _).trans (congrArg (Prog.bind (m l)) (funext fun r => ?_))
  obtain ⟨e | a, l'⟩ := r <;> rfl

/-- Weakest precondition with one postcondition for a value and one for an exception. -/
def wp (δ : Surroundings S Op Ans) (m : Proc X L Op Ans α)
    (Q : α → L → S → List (Event S Op Ans) → Prop)
    (E : X → L → S → List (Event S Op Ans) → Prop)
    (l : L) (s : S) (t : List (Event S Op Ans)) : Prop :=
  (m l).wp δ (fun r s t => match r with
    | (.ok a, l') => Q a l' s t
    | (.error e, l') => E e l' s t) s t

/-- A guarded procedure that starts with a question. -/
theorem attempt_invoke_bind (o : Op) (f : Ans o → Except X α) (k : α → Proc X L Op Ans β)
    (h : X → Proc X L Op Ans β) (l : L) :
    attempt (invoke o f >>= k) h l = .call o fun a => match f a with
      | .ok v => attempt (k v) h l
      | .error e => h e l := by
  have hk : ∀ a, (match f a with | .ok v => attempt (k v) h l | .error e => h e l) =
      ((Prog.ret (f a, l) : Prog Op Ans _).bind fun
        | (.ok v, l') => k v l'
        | (.error e, l') => .ret (.error e, l')).bind fun
          | (.ok b, l') => .ret (.ok b, l')
          | (.error e, l') => h e l' := by
    intro a
    cases f a with
    | ok v => rfl
    | error e => rfl
  simp only [hk]
  rfl

section Rules

variable {δ : Surroundings S Op Ans} {Q Q' : α → L → S → List (Event S Op Ans) → Prop}
  {E E' : X → L → S → List (Event S Op Ans) → Prop} {l : L} {s : S}
  {t : List (Event S Op Ans)}

@[simp] theorem wp_pure (a : α) : wp δ (pure a) Q E l s t ↔ Q a l s t := Iff.rfl

@[simp] theorem wp_raise (e : X) : wp δ (raise e) Q E l s t ↔ E e l s t := Iff.rfl

theorem wp_invoke (o : Op) (f : Ans o → Except X α) :
    wp δ (invoke o f) Q E l s t ↔ ∀ a s', δ s o a s' → match f a with
      | .ok v => Q v l s' (t ++ [⟨s, o, a, s'⟩])
      | .error e => E e l s' (t ++ [⟨s, o, a, s'⟩]) := by
  refine forall_congr' fun a => forall_congr' fun s' => imp_congr_right fun _ => ?_
  simp only [Prog.wp]
  cases f a <;> rfl

@[simp] theorem wp_ofExcept_ok (a : α) : wp δ (ofExcept (.ok a)) Q E l s t ↔ Q a l s t := Iff.rfl

@[simp] theorem wp_ofExcept_error (e : X) :
    wp δ (ofExcept (.error e)) Q E l s t ↔ E e l s t := Iff.rfl

@[simp] theorem wp_locals {Q : L → L → S → List (Event S Op Ans) → Prop} :
    wp δ locals Q E l s t ↔ Q l l s t := Iff.rfl

@[simp] theorem wp_assign (f : L → L) {Q : Unit → L → S → List (Event S Op Ans) → Prop} :
    wp δ (assign f) Q E l s t ↔ Q () (f l) s t := Iff.rfl

@[simp] theorem wp_bind (m : Proc X L Op Ans β) (f : β → Proc X L Op Ans α) :
    wp δ (m >>= f) Q E l s t ↔ wp δ m (fun b => wp δ (f b) Q E) E l s t := by
  refine Prog.wp_bind.trans (iff_of_eq ?_)
  unfold wp
  congr 1
  funext r s t
  obtain ⟨r | r, l⟩ := r <;> rfl

@[simp] theorem wp_attempt (m : Proc X L Op Ans α) (h : X → Proc X L Op Ans α) :
    wp δ (attempt m h) Q E l s t ↔ wp δ m Q (fun e => wp δ (h e) Q E) l s t := by
  refine Prog.wp_bind.trans (iff_of_eq ?_)
  unfold wp
  congr 1
  funext r s t
  obtain ⟨r | r, l⟩ := r <;> rfl

@[simp] theorem wp_ensure (m : Proc X L Op Ans α) (c : Proc X L Op Ans Unit) :
    wp δ (ensure m c) Q E l s t ↔ wp δ m (fun a => wp δ c (fun _ => Q a) E)
      (fun e => wp δ c (fun _ => E e) E) l s t := by
  refine Prog.wp_bind.trans (iff_of_eq ?_)
  unfold wp
  congr 1
  funext r s t
  obtain ⟨e | a, l⟩ := r
  · refine propext (Prog.wp_bind.trans (iff_of_eq ?_))
    congr 1
    funext r s t
    obtain ⟨e' | b, l⟩ := r <;> rfl
  · refine propext (Prog.wp_bind.trans (iff_of_eq ?_))
    congr 1
    funext r s t
    obtain ⟨e' | b, l⟩ := r <;> rfl

theorem wp_mono {m : Proc X L Op Ans α} (hQ : ∀ a l s t, Q a l s t → Q' a l s t)
    (hE : ∀ e l s t, E e l s t → E' e l s t) (h : wp δ m Q E l s t) : wp δ m Q' E' l s t := by
  refine Prog.wp_mono (fun r s t => ?_) h
  obtain ⟨e | a, l'⟩ := r
  · exact hE e l' s t
  · exact hQ a l' s t

theorem wp_and {m : Proc X L Op Ans α} (h : wp δ m Q E l s t) (h' : wp δ m Q' E' l s t) :
    wp δ m (fun a l s t => Q a l s t ∧ Q' a l s t) (fun e l s t => E e l s t ∧ E' e l s t)
      l s t := by
  refine Prog.wp_mono (fun r s t => ?_) (Prog.wp_and h h')
  obtain ⟨e | a, l'⟩ := r <;> exact id

theorem wp_trace {m : Proc X L Op Ans α} {t' : List (Event S Op Ans)} :
    wp δ m Q E l s (t ++ t') ↔
      wp δ m (fun a l s t' => Q a l s (t ++ t')) (fun e l s t' => E e l s (t ++ t')) l s t' := by
  refine Prog.wp_trace.trans (iff_of_eq ?_)
  unfold wp
  congr 1

/-- A specification from the empty trace, used after the trace `t`. -/
theorem wp_after {Q₀ : α → L → S → List (Event S Op Ans) → Prop}
    {E₀ : X → L → S → List (Event S Op Ans) → Prop} {m : Proc X L Op Ans α}
    (h : wp δ m Q₀ E₀ l s []) (hQ : ∀ a l' s' t', Q₀ a l' s' t' → Q a l' s' (t ++ t'))
    (hE : ∀ e l' s' t', E₀ e l' s' t' → E e l' s' (t ++ t')) : wp δ m Q E l s t := by
  rw [← List.append_nil t, wp_trace]
  exact wp_mono hQ hE h

/-- A whole run of a procedure ends as its weakest precondition says. -/
theorem wp_sound {m : Proc X L Op Ans α} {r : Except X α} {l' : L} {s' : S}
    {t' : List (Event S Op Ans)} (hw : wp δ m Q E l s [])
    (hr : Steps δ s (m l) t' s' (.ret (r, l'))) :
    match r with
    | .ok a => Q a l' s' t'
    | .error e => E e l' s' t' := by
  have h := Prog.wp_sound hw hr
  cases r <;> simpa using h

end Rules

/-- As long as the answers are in `A`, `m` asks only questions in `C`, keeps the part `f` of
the locals and raises only exceptions in `R`. -/
def Within {κ : Type} (A : (o : Op) → Ans o → Prop) (C : Op → Prop) (f : L → κ) (R : X → Prop)
    (m : Proc X L Op Ans α) : Prop :=
  ∀ l, (m l).Within A C fun r => f r.2 = f l ∧ ∀ e, r.1 = .error e → R e

section Within

variable {κ : Type} {A B : (o : Op) → Ans o → Prop} {C D : Op → Prop} {f : L → κ}
  {R R' : X → Prop}

theorem Within.mono {m : Proc X L Op Ans α} (h : Within A C f R m) (hA : ∀ o a, B o a → A o a)
    (hC : ∀ o, C o → D o) (hR : ∀ e, R e → R' e) : Within B D f R' m :=
  fun l => (h l).mono hA hC fun _ hr => ⟨hr.1, fun e he => hR e (hr.2 e he)⟩

theorem Within.keeps {ι : Type} {m : Proc X L Op Ans α} (h : Within A C f R m) (g : κ → ι) :
    Within A C (fun l => g (f l)) R m :=
  fun l => (h l).mono (fun _ _ ha => ha) (fun _ hC => hC) fun _ hr => ⟨congrArg g hr.1, hr.2⟩

theorem Within.pure (a : α) : Within A C f R (pure a : Proc X L Op Ans α) :=
  fun _ => ⟨rfl, fun e he => by cases he⟩

theorem Within.invoke {o : Op} {g : Ans o → Except X α} (h : C o)
    (hg : ∀ a e, A o a → g a = .error e → R e) :
    Within A C f R (invoke o g : Proc X L Op Ans α) :=
  fun _ => ⟨h, fun a ha => ⟨rfl, fun e => hg a e ha⟩⟩

theorem Within.raise {e : X} (h : R e) : Within A C f R (raise e : Proc X L Op Ans α) :=
  fun _ => ⟨rfl, fun _ he => by cases he; exact h⟩

theorem Within.ofExcept {r : Except X α} (h : ∀ e, r = .error e → R e) :
    Within A C f R (ofExcept r : Proc X L Op Ans α) :=
  fun _ => ⟨rfl, h⟩

theorem Within.locals : Within A C f R (locals : Proc X L Op Ans L) :=
  fun _ => ⟨rfl, fun e he => by cases he⟩

theorem Within.assign {g : L → L} (h : ∀ l, f (g l) = f l) :
    Within A C f R (assign g : Proc X L Op Ans Unit) :=
  fun l => ⟨h l, fun e he => by cases he⟩

theorem Within.bind {m : Proc X L Op Ans α} {k : α → Proc X L Op Ans β}
    (hm : Within A C f R m) (hk : ∀ a, Within A C f R (k a)) : Within A C f R (m >>= k) := by
  intro l
  refine (hm l).bind fun r hr => ?_
  obtain ⟨e | a, l'⟩ := r
  · exact ⟨hr.1, fun e' he => hr.2 e' (by cases he; rfl)⟩
  · have h := hk a l'
    rw [hr.1] at h
    exact h

theorem Within.attempt {m : Proc X L Op Ans α} {h : X → Proc X L Op Ans α}
    (hm : Within A C f R m) (hh : ∀ e, R e → Within A C f R' (h e)) :
    Within A C f R' (attempt m h) := by
  intro l
  refine (hm l).bind fun r hr => ?_
  obtain ⟨e | a, l'⟩ := r
  · have hw := hh e (hr.2 e rfl) l'
    rw [hr.1] at hw
    exact hw
  · exact ⟨hr.1, fun e' he => by cases he⟩

theorem Within.ensure {m : Proc X L Op Ans α} {c : Proc X L Op Ans Unit}
    (hm : Within A C f R m) (hc : Within A C f R c) : Within A C f R (ensure m c) := by
  intro l
  refine (hm l).bind fun r hr => ?_
  obtain ⟨a, l'⟩ := r
  refine (hc l').bind fun r' hr' => ?_
  have hkeep : f r'.2 = f l := hr'.1.trans hr.1
  obtain ⟨e | b, l''⟩ := r'
  · exact ⟨hkeep, fun e' he => hr'.2 e' (by cases he; rfl)⟩
  · exact ⟨hkeep, hr.2⟩

theorem Within.map {m : Proc X L Op Ans α} {g : α → β} (hm : Within A C f R m) :
    Within A C f R (g <$> m) := by
  have heq : g <$> m = m >>= fun a => Pure.pure (g a) := rfl
  rw [heq]
  exact .bind hm fun a => .pure (g a)

theorem Within.ite {P : Prop} [Decidable P] {m n : Proc X L Op Ans α}
    (hm : P → Within A C f R m) (hn : ¬P → Within A C f R n) :
    Within A C f R (if P then m else n) := by
  split
  · exact hm ‹_›
  · exact hn ‹_›

/-- What each question in `C` keeps, `m` keeps, and the part `f` of the locals too. -/
theorem Within.wp {δ : Surroundings S Op Ans} {m : Proc X L Op Ans α}
    {I : S → List (Event S Op Ans) → Prop} (hm : Within A C f R m)
    (hA : ∀ s o a s', δ s o a s' → A o a)
    (hI : ∀ s t o a s', C o → δ s o a s' → I s t → I s' (t ++ [⟨s, o, a, s'⟩]))
    {l : L} {s : S} {t : List (Event S Op Ans)} (h : I s t) :
    wp δ m (fun _ l' s t => f l' = f l ∧ I s t) (fun e l' s t => f l' = f l ∧ I s t ∧ R e)
      l s t := by
  refine Prog.wp_mono (fun r s t hr => ?_) (Prog.wp_of_within (hm l) hA hI h)
  obtain ⟨e | a, l'⟩ := r
  · exact ⟨hr.1.1, hr.2, hr.1.2 e rfl⟩
  · exact ⟨hr.1.1, hr.2⟩

/-- The frame rule for `m >>= k`: past `m`, with everything it keeps. -/
theorem Within.wp_bind {δ : Surroundings S Op Ans} {m : Proc X L Op Ans α}
    {k : α → Proc X L Op Ans β} {I : S → List (Event S Op Ans) → Prop}
    {Q : β → L → S → List (Event S Op Ans) → Prop} {E : X → L → S → List (Event S Op Ans) → Prop}
    {l : L} {s : S} {t : List (Event S Op Ans)} (hm : Within A C f R m)
    (hA : ∀ s o a s', δ s o a s' → A o a)
    (hI : ∀ s t o a s', C o → δ s o a s' → I s t → I s' (t ++ [⟨s, o, a, s'⟩])) (h : I s t)
    (hk : ∀ a l' s' t', f l' = f l → I s' t' → Proc.wp δ (k a) Q E l' s' t')
    (hE : ∀ e l' s' t', f l' = f l → I s' t' → R e → E e l' s' t') :
    Proc.wp δ (m >>= k) Q E l s t := by
  rw [Proc.wp_bind]
  exact wp_mono (fun a l' s' t' hq => hk a l' s' t' hq.1 hq.2)
    (fun e l' s' t' he => hE e l' s' t' he.1 he.2.1 he.2.2) (hm.wp hA hI h)

end Within

/-- As long as the answers are in `A`, `m` asks only questions in `C`, returns only values in
`V` and raises only exceptions in `R`. -/
def Asks (A : (o : Op) → Ans o → Prop) (C : Op → Prop) (V : α → Prop) (R : X → Prop)
    (m : Proc X L Op Ans α) : Prop :=
  ∀ l, (m l).Within A C fun r => match r.1 with
    | .ok a => V a
    | .error e => R e

section Asks

variable {A : (o : Op) → Ans o → Prop} {C : Op → Prop} {V V' : α → Prop} {R R' : X → Prop}

theorem Within.asks {κ : Type} {f : L → κ} {m : Proc X L Op Ans α} (h : Within A C f R m) :
    Asks A C (fun _ => True) R m := by
  intro l
  refine (h l).mono (fun _ _ ha => ha) (fun _ ho => ho) fun r hr => ?_
  obtain ⟨e | a, l'⟩ := r
  · exact hr.2 e rfl
  · trivial

theorem Asks.mono {m : Proc X L Op Ans α} (h : Asks A C V R m) (hV : ∀ a, V a → V' a)
    (hR : ∀ e, R e → R' e) : Asks A C V' R' m := by
  intro l
  refine (h l).mono (fun _ _ ha => ha) (fun _ ho => ho) fun r hr => ?_
  obtain ⟨e | a, l'⟩ := r
  · exact hR e hr
  · exact hV a hr

/-- Fewer answers and more questions. -/
theorem Asks.weaken {B : (o : Op) → Ans o → Prop} {D : Op → Prop} {m : Proc X L Op Ans α}
    (h : Asks A C V R m) (hA : ∀ o a, B o a → A o a) (hC : ∀ o, C o → D o) : Asks B D V R m :=
  fun l => (h l).mono hA hC fun _ hr => hr

theorem Asks.pure {a : α} (h : V a) : Asks A C V R (pure a : Proc X L Op Ans α) :=
  fun _ => h

theorem Asks.invoke {o : Op} {g : Ans o → Except X α} (h : C o)
    (hV : ∀ a v, A o a → g a = .ok v → V v) (hR : ∀ a e, A o a → g a = .error e → R e) :
    Asks A C V R (invoke o g : Proc X L Op Ans α) := by
  refine fun _ => ⟨h, fun a ha => ?_⟩
  simp only [Prog.Within]
  cases hg : g a with
  | ok v => exact hV a v ha hg
  | error e => exact hR a e ha hg

theorem Asks.ofExcept {r : Except X α} (hV : ∀ v, r = .ok v → V v)
    (hR : ∀ e, r = .error e → R e) : Asks A C V R (ofExcept r : Proc X L Op Ans α) := by
  intro l
  cases r with
  | ok v => exact hV v rfl
  | error e => exact hR e rfl

theorem Asks.bind {W : β → Prop} {m : Proc X L Op Ans β} {k : β → Proc X L Op Ans α}
    (hm : Asks A C W R m) (hk : ∀ b, W b → Asks A C V R (k b)) : Asks A C V R (m >>= k) := by
  intro l
  refine (hm l).bind fun r hr => ?_
  obtain ⟨e | b, l'⟩ := r
  · exact hr
  · exact hk b hr l'

theorem Asks.attempt {m : Proc X L Op Ans α} {h : X → Proc X L Op Ans α} (hm : Asks A C V R m)
    (hh : ∀ e, R e → Asks A C V R' (h e)) : Asks A C V R' (attempt m h) := by
  intro l
  refine (hm l).bind fun r hr => ?_
  obtain ⟨e | a, l'⟩ := r
  · exact hh e hr l'
  · exact hr

theorem Asks.ite {P : Prop} [Decidable P] {m n : Proc X L Op Ans α}
    (hm : P → Asks A C V R m) (hn : ¬P → Asks A C V R n) : Asks A C V R (if P then m else n) := by
  split
  · exact hm ‹_›
  · exact hn ‹_›

end Asks

/-- Whenever `m` returns a value, from any locals and along any path, that value and the
trace it left satisfy `Q`. -/
def Returns (m : Proc X L Op Ans α) (Q : α → List (Event S Op Ans) → Prop) : Prop :=
  ∀ l l' a t, Path (m l) t (.ret (.ok a, l')) → Q a t

section Returns

variable {Q Q' : α → List (Event S Op Ans) → Prop}

/-- A path through `attempt m h` that ends: `m` returned, or it raised and `h` took over. -/
theorem attempt_inv {m : Proc X L Op Ans α} {h : X → Proc X L Op Ans α} {l l' : L}
    {t : List (Event S Op Ans)} {r : Except X α} (hp : Path (attempt m h l) t (.ret (r, l'))) :
    (∃ a, r = .ok a ∧ Path (m l) t (.ret (.ok a, l'))) ∨
      ∃ e l₁ t₁ t₂, t = t₁ ++ t₂ ∧ Path (m l) t₁ (.ret (.error e, l₁)) ∧
        Path (h e l₁) t₂ (.ret (r, l')) := by
  obtain ⟨⟨r₁, l₁⟩, t₁, t₂, rfl, h₁, h₂⟩ := hp.bind_inv
  cases r₁ with
  | error e => exact .inr ⟨e, l₁, t₁, t₂, rfl, h₁, h₂⟩
  | ok a =>
    obtain ⟨rfl, heq⟩ := h₂.ret_inv
    cases heq
    refine .inl ⟨a, rfl, ?_⟩
    rw [List.append_nil]
    exact h₁

theorem bind_inv {m : Proc X L Op Ans β} {k : β → Proc X L Op Ans α} {l l' : L}
    {t : List (Event S Op Ans)} {a : α} (hp : Path ((m >>= k) l) t (.ret (.ok a, l'))) :
    ∃ b l₁ t₁ t₂, t = t₁ ++ t₂ ∧ Path (m l) t₁ (.ret (.ok b, l₁)) ∧
      Path (k b l₁) t₂ (.ret (.ok a, l')) := by
  obtain ⟨⟨r₁, l₁⟩, t₁, t₂, rfl, h₁, h₂⟩ := Path.bind_inv hp
  cases r₁ with
  | error e =>
    obtain ⟨-, heq⟩ := h₂.ret_inv
    cases heq
  | ok b => exact ⟨b, l₁, t₁, t₂, rfl, h₁, h₂⟩

/-- A path through `m >>= k` that ends: `m` raised, or `k` went on with its value. -/
theorem bind_cases {m : Proc X L Op Ans β} {k : β → Proc X L Op Ans α} {l l' : L}
    {t : List (Event S Op Ans)} {r : Except X α} (hp : Path ((m >>= k) l) t (.ret (r, l'))) :
    (∃ e, r = .error e ∧ Path (m l) t (.ret (.error e, l'))) ∨
      ∃ b l₁ t₁ t₂, t = t₁ ++ t₂ ∧ Path (m l) t₁ (.ret (.ok b, l₁)) ∧
        Path (k b l₁) t₂ (.ret (r, l')) := by
  obtain ⟨⟨r₁, l₁⟩, t₁, t₂, rfl, h₁, h₂⟩ := Path.bind_inv hp
  cases r₁ with
  | error e =>
    obtain ⟨rfl, heq⟩ := h₂.ret_inv
    cases heq
    rw [List.append_nil]
    exact .inl ⟨e, rfl, h₁⟩
  | ok b => exact .inr ⟨b, l₁, t₁, t₂, rfl, h₁, h₂⟩

theorem invoke_inv {o : Op} {f : Ans o → Except X α} {l l' : L} {t : List (Event S Op Ans)}
    {r : Except X α} (hp : Path ((invoke o f : Proc X L Op Ans α) l) t (.ret (r, l'))) :
    ∃ s a s', t = [⟨s, o, a, s'⟩] ∧ r = f a ∧ l' = l := by
  cases hp with
  | @call s s' _ _ a t _ hk =>
    obtain ⟨rfl, heq⟩ := hk.ret_inv
    cases heq
    exact ⟨s, a, s', rfl, rfl, rfl⟩

theorem Returns.mono {m : Proc X L Op Ans α} (h : Returns m Q)
    (hQ : ∀ a t, Q a t → Q' a t) : Returns m Q' :=
  fun l l' a t hp => hQ a t (h l l' a t hp)

theorem Returns.any (m : Proc X L Op Ans α) :
    Returns m fun _ (_ : List (Event S Op Ans)) => True := fun _ _ _ _ _ => trivial

theorem Returns.pure {a : α} (h : Q a []) : Returns (pure a : Proc X L Op Ans α) Q := by
  intro l l' b t hp
  obtain ⟨rfl, heq⟩ := hp.ret_inv
  cases heq
  exact h

theorem Returns.raise (e : X) : Returns (raise e : Proc X L Op Ans α) Q := by
  intro l l' b t hp
  obtain ⟨-, heq⟩ := hp.ret_inv
  cases heq

theorem Returns.ofExcept {r : Except X α} (h : ∀ a, r = .ok a → Q a []) :
    Returns (ofExcept r : Proc X L Op Ans α) Q := by
  intro l l' b t hp
  obtain ⟨rfl, heq⟩ := hp.ret_inv
  cases heq
  exact h b rfl

theorem Returns.assign {f : L → L} {Q : Unit → List (Event S Op Ans) → Prop} (h : Q () []) :
    Returns (assign f : Proc X L Op Ans Unit) Q := by
  intro l l' b t hp
  obtain ⟨rfl, -⟩ := hp.ret_inv
  exact h

theorem Returns.invoke {o : Op} {f : Ans o → Except X α}
    (h : ∀ a v s s', f a = .ok v → Q v [⟨s, o, a, s'⟩]) :
    Returns (invoke o f : Proc X L Op Ans α) Q := by
  intro l l' b t hp
  cases hp with
  | @call s s' _ _ a t _ hk =>
    obtain ⟨rfl, heq⟩ := hk.ret_inv
    exact h a b s s' (Prod.mk.inj heq).1

theorem Returns.bind {P : β → List (Event S Op Ans) → Prop} {m : Proc X L Op Ans β}
    {k : β → Proc X L Op Ans α} (hm : Returns m P)
    (hk : ∀ b t, P b t → Returns (k b) fun a t' => Q a (t ++ t')) : Returns (m >>= k) Q := by
  intro l l' a t hp
  obtain ⟨b, l₁, t₁, t₂, rfl, h₁, h₂⟩ := bind_inv hp
  exact hk b t₁ (hm l l₁ b t₁ h₁) l₁ l' a t₂ h₂

theorem Returns.map {f : β → α} {m : Proc X L Op Ans β}
    (hm : Returns m fun b t => Q (f b) t) : Returns (f <$> m) Q := by
  have heq : f <$> m = m >>= fun b => Pure.pure (f b) := rfl
  rw [heq]
  refine .bind hm fun b t hb => .pure ?_
  rwa [List.append_nil]

/-- A value that `m` can only return after `o` was answered so. -/
theorem Returns.asked {o : Op} {f : Ans o → Except X α} :
    Returns (Proc.invoke o f : Proc X L Op Ans α)
      fun v (t : List (Event S Op Ans)) => ∃ a, f a = .ok v ∧ Asked t o a :=
  .invoke fun a _ s s' hv => ⟨a, hv, s, s', List.mem_singleton.mpr rfl⟩

theorem Returns.attempt {m : Proc X L Op Ans α} {h : X → Proc X L Op Ans α} (hm : Returns m Q)
    (hh : ∀ e t, Returns (h e) fun a t' => Q a (t ++ t')) : Returns (attempt m h) Q := by
  intro l l' a t hp
  rcases attempt_inv hp with ⟨b, heq, h₁⟩ | ⟨e, l₁, t₁, t₂, rfl, -, h₂⟩
  · cases heq
    exact hm l l' a t h₁
  · exact hh e t₁ l₁ l' a t₂ h₂

theorem Returns.ensure {m : Proc X L Op Ans α} {c : Proc X L Op Ans Unit} (hm : Returns m Q)
    (hc : ∀ a t, Q a t → Returns c fun _ t' => Q a (t ++ t')) : Returns (ensure m c) Q := by
  intro l l' a t hp
  obtain ⟨⟨r₁, l₁⟩, t₁, t₂, rfl, h₁, h₂⟩ := hp.bind_inv
  obtain ⟨⟨r₂, l₂⟩, t₃, t₄, rfl, h₃, h₄⟩ := h₂.bind_inv
  cases r₂ with
  | error e =>
    obtain ⟨-, heq⟩ := h₄.ret_inv
    cases heq
  | ok b =>
    obtain ⟨rfl, heq⟩ := h₄.ret_inv
    cases heq
    rw [List.append_nil]
    exact hc a t₁ (hm l l₁ a t₁ h₁) l₁ _ b t₃ h₃

theorem Returns.and {m : Proc X L Op Ans α} (h : Returns m Q) (h' : Returns m Q') :
    Returns m fun a (t : List (Event S Op Ans)) => Q a t ∧ Q' a t :=
  fun l l' a t hp => ⟨h l l' a t hp, h' l l' a t hp⟩

theorem Returns.ite {P : Prop} [Decidable P] {m n : Proc X L Op Ans α}
    (hm : P → Returns m Q) (hn : ¬P → Returns n Q) :
    Returns (if P then m else n) Q := by
  split
  · exact hm ‹_›
  · exact hn ‹_›

/-- A part of the trace `t` is a whole run of `m`, which returned `a`. -/
def Ran (m : Proc X L Op Ans α) (a : α) (t : List (Event S Op Ans)) : Prop :=
  ∃ l l' t₁ t' t₂, t = t₁ ++ t' ++ t₂ ∧ Path (m l) t' (.ret (.ok a, l'))

theorem Ran.append_left {m : Proc X L Op Ans α} {a : α} {t : List (Event S Op Ans)}
    (h : Ran m a t) (u : List (Event S Op Ans)) : Ran m a (t ++ u) := by
  obtain ⟨l, l', t₁, t', t₂, rfl, hp⟩ := h
  exact ⟨l, l', t₁, t', t₂ ++ u, by simp, hp⟩

theorem Ran.append_right {m : Proc X L Op Ans α} {a : α} {t : List (Event S Op Ans)}
    (h : Ran m a t) (u : List (Event S Op Ans)) : Ran m a (u ++ t) := by
  obtain ⟨l, l', t₁, t', t₂, rfl, hp⟩ := h
  exact ⟨l, l', u ++ t₁, t', t₂, by simp, hp⟩

theorem Returns.ran (m : Proc X L Op Ans α) :
    Returns m fun a (t : List (Event S Op Ans)) => Ran m a t :=
  fun l l' _ t hp => ⟨l, l', [], t, [], by simp, hp⟩

/-- A property of its questions. -/
theorem Within.returns {κ : Type} {C : Op → Prop} {f : L → κ} {R : X → Prop}
    {m : Proc X L Op Ans α} (hm : Within (fun _ _ => True) C f R m) :
    Returns m fun _ (t : List (Event S Op Ans)) => ∀ ev ∈ t, C ev.op :=
  fun l _ _ _ hp => (hp.within (hm l) fun _ _ => trivial).1

end Returns

end Proc

end Effect
