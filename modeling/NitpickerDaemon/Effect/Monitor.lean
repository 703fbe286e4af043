import NitpickerDaemon.Effect.Procedure

/-!
Monitors of a program. A monitor follows the answers a program gets with a state of its own
and says which question the program may ask next; unlike the state of the surroundings, that
state is not touched by anyone else.
-/

set_option autoImplicit false

namespace Effect

variable {X L M S Op : Type} {Ans : Op → Type} {α β : Type}

/-- From the monitor state `x` on, `p` asks only questions that `C` allows at that moment, and
its value and the last monitor state are in `R`; `upd x o a` is the state after the answer `a`. -/
def Prog.Monitored (upd : M → (o : Op) → Ans o → M) (C : M → Op → Prop) (R : α → M → Prop) :
    M → Prog Op Ans α → Prop
  | x, .ret a => R a x
  | x, .call o k => C x o ∧ ∀ a, (k a).Monitored upd C R (upd x o a)

section Monitored

variable {upd : M → (o : Op) → Ans o → M} {C : M → Op → Prop} {R : α → M → Prop} {x : M}

theorem Prog.Monitored.bind {T : β → M → Prop} {p : Prog Op Ans α} {f : α → Prog Op Ans β}
    (hp : p.Monitored upd C R x) (hf : ∀ a y, R a y → (f a).Monitored upd C T y) :
    (p.bind f).Monitored upd C T x := by
  induction p generalizing x with
  | ret a => exact hf a x hp
  | call o k ih => exact ⟨hp.1, fun a => ih a (hp.2 a)⟩

theorem Prog.Monitored.mono {R' : α → M → Prop} {p : Prog Op Ans α}
    (hp : p.Monitored upd C R x) (hR : ∀ a y, R a y → R' a y) : p.Monitored upd C R' x := by
  induction p generalizing x with
  | ret a => exact hR a x hp
  | call o k ih => exact ⟨hp.1, fun a => ih a (hp.2 a)⟩

/-- A program whose questions leave the monitor where it is. -/
theorem Prog.Within.monitored {D : Op → Prop} {T : α → Prop} {p : Prog Op Ans α}
    (hp : p.Within (fun _ _ => True) D T) (hC : ∀ o, D o → C x o)
    (hupd : ∀ o a, D o → upd x o a = x) : p.Monitored upd C (fun a y => T a ∧ y = x) x := by
  induction p with
  | ret a => exact ⟨hp, rfl⟩
  | call o k ih =>
    refine ⟨hC o hp.1, fun a => ?_⟩
    rw [hupd o a hp.1]
    exact ih a (hp.2 a trivial)

/-- The monitor state after the events `t`. -/
def watch (upd : M → (o : Op) → Ans o → M) (x : M) (t : List (Event S Op Ans)) : M :=
  t.foldl (fun y ev => upd y ev.op ev.ans) x

/-- The monitor that collects the marks which `f` gives the answers. -/
def collecting {μ : Type} (f : (o : Op) → Ans o → Option μ) (x : List μ) (o : Op) (a : Ans o) :
    List μ := x ++ (f o a).toList

theorem watch_collecting {μ : Type} (f : (o : Op) → Ans o → Option μ) (x : List μ)
    (t : List (Event S Op Ans)) :
    watch (collecting f) x t = x ++ t.filterMap fun ev => f ev.op ev.ans := by
  induction t generalizing x with
  | nil => simp [watch]
  | cons ev t ih =>
    have hw : watch (collecting f) x (ev :: t) = watch (collecting f) (collecting f x ev.op ev.ans) t := rfl
    rw [hw, ih, collecting, List.filterMap_cons]
    cases f ev.op ev.ans <;> simp

theorem collecting_none {μ : Type} {f : (o : Op) → Ans o → Option μ} {x : List μ} {o : Op} {a : Ans o}
    (h : f o a = none) : collecting f x o a = x := by
  simp [collecting, h]

/-- The monitor that remembers whether `f` flagged an answer. -/
def flagging (f : (o : Op) → Ans o → Bool) (x : Bool) (o : Op) (a : Ans o) : Bool := x || f o a

theorem watch_flagging (f : (o : Op) → Ans o → Bool) (x : Bool) (t : List (Event S Op Ans)) :
    watch (flagging f) x t = (x || t.any fun ev => f ev.op ev.ans) := by
  induction t generalizing x with
  | nil => simp [watch]
  | cons ev t ih =>
    have hw : watch (flagging f) x (ev :: t) = watch (flagging f) (flagging f x ev.op ev.ans) t := rfl
    rw [hw, ih, flagging, List.any_cons, Bool.or_assoc]

theorem flagging_false {f : (o : Op) → Ans o → Bool} {x : Bool} {o : Op} {a : Ans o}
    (h : f o a = false) : flagging f x o a = x := by
  rw [flagging, h, Bool.or_false]

theorem Path.monitored {p p' : Prog Op Ans α} {t : List (Event S Op Ans)} (hr : Path p t p')
    (hp : p.Monitored upd C R x) : p'.Monitored upd C R (watch upd x t) := by
  induction hr generalizing x with
  | refl p => exact hp
  | call _ ih => exact ih (hp.2 _)

/-- Every question on a path is allowed in the monitor state of its moment. -/
theorem Path.monitored_at {p p' : Prog Op Ans α} {t before after : List (Event S Op Ans)}
    {ev : Event S Op Ans} (hr : Path p t p') (hp : p.Monitored upd C R x)
    (ht : t = before ++ ev :: after) : C (watch upd x before) ev.op := by
  induction hr generalizing x before with
  | refl p => simp at ht
  | call _ ih =>
    cases before with
    | nil =>
      obtain ⟨rfl, -⟩ := List.cons.inj ht
      exact hp.1
    | cons e before =>
      obtain ⟨rfl, hrest⟩ := List.cons.inj ht
      have hlater := ih (hp.2 _) hrest
      exact hlater

end Monitored

namespace Proc

/-- `m` from the monitor state `x`, with one postcondition for a value and one for an
exception. -/
def Monitors (upd : M → (o : Op) → Ans o → M) (C : M → Op → Prop) (x : M)
    (V : α → M → Prop) (E : X → M → Prop) (m : Proc X L Op Ans α) : Prop :=
  ∀ l, (m l).Monitored upd C (fun r y => match r.1 with
    | .ok a => V a y
    | .error e => E e y) x

section Monitors

variable {upd : M → (o : Op) → Ans o → M} {C : M → Op → Prop} {x : M} {V : α → M → Prop}
  {E E' : X → M → Prop}

theorem Monitors.mono {V' : α → M → Prop} {m : Proc X L Op Ans α}
    (h : Monitors upd C x V E m) (hV : ∀ a y, V a y → V' a y) (hE : ∀ e y, E e y → E' e y) :
    Monitors upd C x V' E' m := by
  intro l
  refine (h l).mono fun r y hr => ?_
  obtain ⟨e | a, l'⟩ := r
  · exact hE e y hr
  · exact hV a y hr

theorem Monitors.pure {a : α} (h : V a x) : Monitors upd C x V E (pure a : Proc X L Op Ans α) :=
  fun _ => h

theorem Monitors.raise {e : X} (h : E e x) :
    Monitors upd C x V E (raise e : Proc X L Op Ans α) :=
  fun _ => h

theorem Monitors.assign {f : L → L} {V : Unit → M → Prop} (h : V () x) :
    Monitors upd C x V E (assign f : Proc X L Op Ans Unit) :=
  fun _ => h

theorem Monitors.invoke {o : Op} {g : Ans o → Except X α} (h : C x o)
    (hV : ∀ a v, g a = .ok v → V v (upd x o a)) (hE : ∀ a e, g a = .error e → E e (upd x o a)) :
    Monitors upd C x V E (invoke o g : Proc X L Op Ans α) := by
  refine fun _ => ⟨h, fun a => ?_⟩
  simp only [Prog.Monitored]
  cases hg : g a with
  | ok v => exact hV a v hg
  | error e => exact hE a e hg

theorem Monitors.ofExcept {r : Except X α} (hV : ∀ v, r = .ok v → V v x)
    (hE : ∀ e, r = .error e → E e x) :
    Monitors upd C x V E (ofExcept r : Proc X L Op Ans α) := by
  intro l
  cases r with
  | ok v => exact hV v rfl
  | error e => exact hE e rfl

theorem Monitors.bind {W : β → M → Prop} {m : Proc X L Op Ans β} {k : β → Proc X L Op Ans α}
    (hm : Monitors upd C x W E m) (hk : ∀ b y, W b y → Monitors upd C y V E (k b)) :
    Monitors upd C x V E (m >>= k) := by
  intro l
  refine (hm l).bind fun r y hr => ?_
  obtain ⟨e | b, l'⟩ := r
  · exact hr
  · exact hk b y hr l'

theorem Monitors.attempt {m : Proc X L Op Ans α} {h : X → Proc X L Op Ans α}
    (hm : Monitors upd C x V E m) (hh : ∀ e y, E e y → Monitors upd C y V E' (h e)) :
    Monitors upd C x V E' (attempt m h) := by
  intro l
  refine (hm l).bind fun r y hr => ?_
  obtain ⟨e | a, l'⟩ := r
  · exact hh e y hr l'
  · exact hr

theorem Monitors.ensure {W : α → M → Prop} {F : X → M → Prop} {m : Proc X L Op Ans α}
    {c : Proc X L Op Ans Unit} (hm : Monitors upd C x W F m)
    (hok : ∀ a y, W a y → Monitors upd C y (fun _ => V a) E c)
    (herror : ∀ e y, F e y → Monitors upd C y (fun _ => E e) E c) :
    Monitors upd C x V E (ensure m c) := by
  intro l
  refine (hm l).bind fun r y hr => ?_
  obtain ⟨e | a, l'⟩ := r
  · refine (herror e y hr l').bind fun r z hz => ?_
    obtain ⟨e' | _, l''⟩ := r
    · exact hz
    · exact hz
  · refine (hok a y hr l').bind fun r z hz => ?_
    obtain ⟨e' | _, l''⟩ := r
    · exact hz
    · exact hz

theorem Monitors.ite {P : Prop} [Decidable P] {m n : Proc X L Op Ans α}
    (hm : P → Monitors upd C x V E m) (hn : ¬P → Monitors upd C x V E n) :
    Monitors upd C x V E (if P then m else n) := by
  split
  · exact hm ‹_›
  · exact hn ‹_›

/-- A procedure whose questions leave the monitor where it is. -/
theorem Within.monitors {κ : Type} {f : L → κ} {D : Op → Prop} {R : X → Prop}
    {m : Proc X L Op Ans α} (hm : Within (fun _ _ => True) D f R m) (hC : ∀ o, D o → C x o)
    (hupd : ∀ o a, D o → upd x o a = x) (hV : ∀ a, V a x) (hE : ∀ e, R e → E e x) :
    Monitors upd C x V E m := by
  intro l
  refine ((hm l).monitored hC hupd).mono fun r y hr => ?_
  obtain ⟨hr, rfl⟩ := hr
  obtain ⟨e | a, l'⟩ := r
  · exact hE e (hr.2 e rfl)
  · exact hV a

/-- A procedure that leaves the monitor in `z`, before the rest. -/
theorem Monitors.then {z : M} {m : Proc X L Op Ans β} {k : β → Proc X L Op Ans α}
    (hm : Monitors upd C x (fun _ y => y = z) E m) (hk : ∀ b, Monitors upd C z V E (k b)) :
    Monitors upd C x V E (m >>= k) := by
  refine hm.bind fun b y hy => ?_
  subst hy
  exact hk b

/-- The same before the rest of a procedure. -/
theorem Within.monitors_bind {κ : Type} {f : L → κ} {D : Op → Prop} {R : X → Prop}
    {m : Proc X L Op Ans β} {k : β → Proc X L Op Ans α}
    (hm : Within (fun _ _ => True) D f R m) (hC : ∀ o, D o → C x o)
    (hupd : ∀ o a, D o → upd x o a = x) (hE : ∀ e, R e → E e x)
    (hk : ∀ b, Monitors upd C x V E (k b)) : Monitors upd C x V E (m >>= k) := by
  have hm' : Monitors upd C x (fun _ y => y = x) E m := hm.monitors hC hupd (fun _ => rfl) hE
  exact hm'.then hk

end Monitors

end Proc

end Effect
