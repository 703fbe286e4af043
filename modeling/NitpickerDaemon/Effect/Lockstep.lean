import NitpickerDaemon.Effect.Procedure

/-!
Two runs of one program side by side. While they have asked the same questions their answers
are compared one by one; a program that does not hear the difference does the same in both.
-/

set_option autoImplicit false

namespace Effect

variable {X L S Op : Type} {Ans : Op → Type} {α β : Type}

/-- The same question, with answers related by `E`. -/
inductive Matched (E : (o : Op) → Ans o → Ans o → Prop) : Event S Op Ans → Event S Op Ans → Prop
    where
  | mk {o : Op} {a a' : Ans o} (s r s' r' : S) : E o a a' → Matched E ⟨s, o, a, r⟩ ⟨s', o, a', r'⟩

/-- As long as both runs ask the same questions, their answers are related by `E`. -/
inductive Paired (E : (o : Op) → Ans o → Ans o → Prop) :
    List (Event S Op Ans) → List (Event S Op Ans) → Prop where
  | left (t' : List (Event S Op Ans)) : Paired E [] t'
  | right (t : List (Event S Op Ans)) : Paired E t []
  | both {ev ev' : Event S Op Ans} {t t' : List (Event S Op Ans)} : Matched E ev ev' →
      Paired E t t' → Paired E (ev :: t) (ev' :: t')
  | apart {ev ev' : Event S Op Ans} (t t' : List (Event S Op Ans)) : ev.op ≠ ev'.op →
      Paired E (ev :: t) (ev' :: t')

/-- `p` does not hear the difference between answers related by `D`; between answers related
by `B` it parts, and from there on it ends in `R` with the one and in `R'` with the other. -/
def Prog.Forks (D B : (o : Op) → Ans o → Ans o → Prop) (R R' : α → Prop) :
    Prog Op Ans α → Prop
  | .ret _ => True
  | .call o k => (∀ a a', D o a a' → k a = k a') ∧
      (∀ a a', B o a a' → (k a).Within (fun _ _ => True) (fun _ => True) R ∧
        (k a').Within (fun _ _ => True) (fun _ => True) R') ∧
      ∀ a, (k a).Forks D B R R'

section Forks

variable {D B E : (o : Op) → Ans o → Ans o → Prop} {R R' : α → Prop} {T T' : β → Prop}

theorem Prog.Forks.bind {p : Prog Op Ans α} {f : α → Prog Op Ans β} (hp : p.Forks D B R R')
    (hR : ∀ a, R a → (f a).Within (fun _ _ => True) (fun _ => True) T)
    (hR' : ∀ a, R' a → (f a).Within (fun _ _ => True) (fun _ => True) T')
    (hf : ∀ a, (f a).Forks D B T T') : (p.bind f).Forks D B T T' := by
  induction p with
  | ret a => exact hf a
  | call o k ih =>
    obtain ⟨hD, hB, hk⟩ := hp
    refine ⟨fun a a' h => ?_, fun a a' h => ?_, fun a => ih a (hk a)⟩
    · exact congrArg (fun q => q.bind f) (hD a a' h)
    · exact ⟨(hB a a' h).1.bind hR, (hB a a' h).2.bind hR'⟩

theorem Prog.Forks.mono {p : Prog Op Ans α} {T U : α → Prop} (hp : p.Forks D B R R')
    (hR : ∀ a, R a → T a) (hR' : ∀ a, R' a → U a) : p.Forks D B T U := by
  induction p with
  | ret a => trivial
  | call o k ih =>
    obtain ⟨hD, hB, hk⟩ := hp
    refine ⟨hD, fun a a' h => ?_, fun a => ih a (hk a)⟩
    exact ⟨(hB a a' h).1.mono (fun _ _ h => h) (fun _ h => h) hR,
      (hB a a' h).2.mono (fun _ _ h => h) (fun _ h => h) hR'⟩

/-- Two whole runs of one program: they got answers it does not tell apart and have the same
value, or they parted at one question. -/
theorem Path.lockstep {p : Prog Op Ans α} {t t' : List (Event S Op Ans)} {a a' : α}
    (hp : p.Forks D B R R') (hE : ∀ o a a', E o a a' → D o a a' ∨ B o a a')
    (h : Path p t (.ret a)) (h' : Path p t' (.ret a')) (hpair : Paired E t t') :
    (a = a' ∧ List.Forall₂ (Matched D) t t') ∨
      R a ∧ R' a' ∧ ∃ u u' ev ev' v v', t = u ++ ev :: v ∧ t' = u' ++ ev' :: v' ∧
        u.length = u'.length ∧ Matched B ev ev' := by
  induction p generalizing t t' with
  | ret b =>
    obtain ⟨rfl, rfl⟩ := h.ret_inv
    obtain ⟨rfl, rfl⟩ := h'.ret_inv
    exact .inl ⟨rfl, .nil⟩
  | call o k ih =>
    cases h with
    | @call s r _ _ b t _ hk =>
      cases h' with
      | @call s' r' _ _ b' t' _ hk' =>
        obtain ⟨hD, hB, hall⟩ := hp
        cases hpair with
        | apart _ _ hne => exact absurd rfl hne
        | both hm hrest =>
          cases hm with
          | mk _ _ _ _ hb =>
            rcases hE o b b' hb with hd | hbr
            · have hsame := hD b b' hd
              rw [← hsame] at hk'
              rcases ih b (hall b) hk hk' hrest with ⟨ha, hpairs⟩ | ⟨ha, ha', u, u', ev, ev', v, v',
                rfl, rfl, hlen, hm⟩
              · exact .inl ⟨ha, .cons (.mk s r s' r' hd) hpairs⟩
              · refine .inr ⟨ha, ha', _ :: u, _ :: u', ev, ev', v, v', rfl, rfl, ?_, hm⟩
                simp [hlen]
            · obtain ⟨hw, hw'⟩ := hB b b' hbr
              have ha := (hk.within hw fun _ _ => trivial).2
              have ha' := (hk'.within hw' fun _ _ => trivial).2
              exact .inr ⟨ha, ha', [], [], _, _, t, t', rfl, rfl, rfl, .mk s r s' r' hbr⟩

end Forks

/-- Two ways of answering that never differ by more than `E`, and leave the same states. -/
theorem Prog.run_for_paired {E : (o : Op) → Ans o → Ans o → Prop}
    {answer answer' : S → (o : Op) → Ans o × S}
    (h : ∀ s o, E o (answer s o).1 (answer' s o).1 ∧ (answer s o).2 = (answer' s o).2) (n : Nat)
    (p p' : Prog Op Ans α) (s : S) :
    Paired E (p.run_for answer n s).1 (p'.run_for answer' n s).1 := by
  classical
  induction n generalizing p p' s with
  | zero => cases p <;> exact .left _
  | succ n ih =>
    cases p with
    | ret a => exact .left _
    | call o k =>
      cases p' with
      | ret a => exact .right _
      | call o' k' =>
        by_cases ho : o = o'
        · subst ho
          have hrest := ih (k (answer s o).1) (k' (answer' s o).1) (answer s o).2
          refine .both (.mk _ _ _ _ (h s o).1) ?_
          have hs : (answer' s o).2 = (answer s o).2 := (h s o).2.symm
          simp only [hs]
          exact hrest
        · exact .apart _ _ ho

namespace Proc

/-- `R` and `R'` are about how the procedure ends. -/
def Forks (D B : (o : Op) → Ans o → Ans o → Prop) (R R' : Except X α → Prop)
    (m : Proc X L Op Ans α) : Prop :=
  ∀ l, (m l).Forks D B (fun r => R r.1) (fun r => R' r.1)

/-- A procedure that no answers send apart. -/
abbrev Deaf (D B : (o : Op) → Ans o → Ans o → Prop) (m : Proc X L Op Ans α) : Prop :=
  Forks D B (fun _ => False) (fun _ => False) m

section Forks

variable {D B : (o : Op) → Ans o → Ans o → Prop} {R R' : Except X α → Prop}

theorem Forks.pure (a : α) : Forks D B R R' (pure a : Proc X L Op Ans α) := fun _ => trivial

theorem Forks.raise (e : X) : Forks D B R R' (raise e : Proc X L Op Ans α) := fun _ => trivial

theorem Forks.ofExcept (r : Except X α) : Forks D B R R' (ofExcept r : Proc X L Op Ans α) :=
  fun _ => trivial

theorem Forks.locals {R R' : Except X L → Prop} : Forks D B R R' (locals : Proc X L Op Ans L) :=
  fun _ => trivial

theorem Forks.assign {f : L → L} {R R' : Except X Unit → Prop} :
    Forks D B R R' (assign f : Proc X L Op Ans Unit) :=
  fun _ => trivial

/-- A question whose answer counts, and is the same in both runs. -/
theorem Forks.invoke {o : Op} {g : Ans o → Except X α} (hD : ∀ a a', D o a a' → a = a')
    (hB : ∀ a a', ¬B o a a') : Forks D B R R' (invoke o g : Proc X L Op Ans α) :=
  fun _ => ⟨fun a a' h => by rw [hD a a' h], fun a a' h => absurd h (hB a a'), fun _ => trivial⟩

theorem attempt_silenced (o : Op) (g : Ans o → Except X Unit) (l : L) :
    (attempt (invoke o g) fun _ => Pure.pure () : Proc X L Op Ans Unit) l =
      .call o fun _ => .ret (.ok (), l) := by
  have hk : ∀ r : Except X Unit, (attempt (ofExcept r) fun _ => Pure.pure () :
      Proc X L Op Ans Unit) l = .ret (.ok (), l) := by
    intro r
    cases r <;> rfl
  exact congrArg (Prog.call o) (funext fun a => hk (g a))

/-- A guarded question of which only the asking counts. -/
theorem Deaf.silenced {o : Op} {g : Ans o → Except X Unit} (hB : ∀ a a', ¬B o a a') :
    Deaf D B (attempt (invoke o g) fun _ => Pure.pure () : Proc X L Op Ans Unit) := by
  intro l
  rw [attempt_silenced]
  exact ⟨fun _ _ _ => rfl, fun a a' h => absurd h (hB a a'), fun _ => trivial⟩

theorem Forks.bind {T T' : Except X β → Prop} {m : Proc X L Op Ans α}
    {k : α → Proc X L Op Ans β} (hm : Deaf D B m) (hk : ∀ a, Forks D B T T' (k a)) :
    Forks D B T T' (m >>= k) := by
  refine fun l => (hm l).bind (fun _ h => h.elim) (fun _ h => h.elim) fun r => ?_
  obtain ⟨e | a, l'⟩ := r
  · trivial
  · exact hk a l'

theorem Deaf.attempt {m : Proc X L Op Ans α} {h : X → Proc X L Op Ans α} (hm : Deaf D B m)
    (hh : ∀ e, Deaf D B (h e)) : Deaf D B (attempt m h) := by
  refine fun l => (hm l).bind (fun _ h => h.elim) (fun _ h => h.elim) fun r => ?_
  obtain ⟨e | a, l'⟩ := r
  · exact hh e l'
  · trivial

theorem Forks.ite {P : Prop} [Decidable P] {m n : Proc X L Op Ans α}
    (hm : P → Forks D B R R' m) (hn : ¬P → Forks D B R R' n) :
    Forks D B R R' (if P then m else n) := by
  split
  · exact hm ‹_›
  · exact hn ‹_›

/-- Where `m` parts into a value and an exception, so do a guarded `m` and its handler. -/
theorem Forks.attempt {V V' : α → Prop} {m : Proc X L Op Ans α} {h : X → Proc X L Op Ans α}
    (hm : Forks D B (fun r => ∃ a, r = .ok a ∧ V a) (fun r => ∃ e, r = .error e) m)
    (hd : ∀ e, Deaf D B (h e)) (hV : ∀ e, Asks (fun _ _ => True) (fun _ => True) V' (fun _ => False) (h e)) :
    Forks D B (fun r => ∃ a, r = .ok a ∧ V a) (fun r => ∃ a, r = .ok a ∧ V' a)
      (attempt m h) := by
  refine fun l => (hm l).bind (fun r hr => ?_) (fun r hr => ?_) fun r => ?_
  · obtain ⟨r, l'⟩ := r
    obtain ⟨a, rfl, ha⟩ := hr
    exact ⟨a, rfl, ha⟩
  · obtain ⟨r, l'⟩ := r
    obtain ⟨e, rfl⟩ := hr
    refine (hV e l').mono (fun _ _ h => h) (fun _ h => h) fun r hr => ?_
    obtain ⟨e' | a, l''⟩ := r
    · exact hr.elim
    · exact ⟨a, rfl, hr⟩
  · obtain ⟨e | a, l'⟩ := r
    · exact (hd e l').mono (fun _ h => h.elim) fun _ h => h.elim
    · trivial

end Forks

end Proc

end Effect
