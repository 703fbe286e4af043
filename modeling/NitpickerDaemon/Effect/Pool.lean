import NitpickerDaemon.Effect.Program

/-!
Programs that share one state. A pool starts jobs at any time and answers the questions of
its jobs in any order; a job that stops is one that is never answered again.
-/

set_option autoImplicit false

namespace Effect

/-- The shared state, the jobs with what is left of their programs, and the events so far,
each with the number of its job. -/
structure Pool (J S Op : Type) (Ans : Op → Type) (α : Type) where
  state : S
  jobs : List (J × Prog Op Ans α)
  log : List (Nat × Event S Op Ans)

variable {J S Op : Type} {Ans : Op → Type} {α : Type}

namespace Pool

/-- The events of job `i`. -/
def trace (w : Pool J S Op Ans α) (i : Nat) : List (Event S Op Ans) :=
  w.log.filterMap fun e => if e.1 = i then some e.2 else none

/-- Every job runs its `code` against its own surroundings `δ`. -/
inductive Step (δ : J → Surroundings S Op Ans) (code : J → Prog Op Ans α) :
    Pool J S Op Ans α → Pool J S Op Ans α → Prop where
  | start {w : Pool J S Op Ans α} (j : J) :
      Step δ code w { w with jobs := w.jobs ++ [(j, code j)] }
  | answer {w : Pool J S Op Ans α} {i : Nat} {j : J} {o : Op} {k : Ans o → Prog Op Ans α}
      {a : Ans o} {s' : S} : w.jobs[i]? = some (j, .call o k) → δ j w.state o a s' →
      Step δ code w ⟨s', w.jobs.set i (j, k a), w.log ++ [(i, ⟨w.state, o, a, s'⟩)]⟩

inductive Reachable (δ : J → Surroundings S Op Ans) (code : J → Prog Op Ans α) (s₀ : S) :
    Pool J S Op Ans α → Prop where
  | init : Reachable δ code s₀ ⟨s₀, [], []⟩
  | step {w w' : Pool J S Op Ans α} : Reachable δ code s₀ w → Step δ code w w' →
      Reachable δ code s₀ w'

theorem trace_snoc (s : S) (jobs : List (J × Prog Op Ans α)) (log : List (Nat × Event S Op Ans))
    (i n : Nat) (ev : Event S Op Ans) :
    (⟨s, jobs, log ++ [(n, ev)]⟩ : Pool J S Op Ans α).trace i =
      (⟨s, jobs, log⟩ : Pool J S Op Ans α).trace i ++ if n = i then [ev] else [] := by
  simp only [trace, List.filterMap_append]
  by_cases h : n = i <;> simp [h]

theorem mem_trace {w : Pool J S Op Ans α} {i : Nat} {ev : Event S Op Ans} :
    ev ∈ w.trace i ↔ (i, ev) ∈ w.log := by
  simp only [trace, List.mem_filterMap]
  constructor
  · intro h
    obtain ⟨⟨n, e⟩, hmem, heq⟩ := h
    by_cases hn : n = i
    · simp only [if_pos hn, Option.some.injEq] at heq
      rw [← hn, ← heq]
      exact hmem
    · simp [hn] at heq
  · intro h
    exact ⟨(i, ev), h, by simp⟩

section Reach

variable {δ : J → Surroundings S Op Ans} {code : J → Prog Op Ans α} {s₀ : S}
  {w : Pool J S Op Ans α}

/-- Only started jobs have events. -/
theorem Reachable.started (h : Reachable δ code s₀ w) :
    ∀ e ∈ w.log, ∃ j p, w.jobs[e.1]? = some (j, p) ∧ δ j e.2.pre e.2.op e.2.ans e.2.post := by
  induction h with
  | init => simp
  | @step w w' h hs ih =>
    cases hs with
    | start j =>
      intro e he
      obtain ⟨j', p, hj, hδ⟩ := ih e he
      exact ⟨j', p, by rw [List.getElem?_append_left (List.getElem?_eq_some_iff.mp hj).1, hj], hδ⟩
    | @answer i j o k a s' hi hδ =>
      intro e he
      have hlt := (List.getElem?_eq_some_iff.mp hi).1
      simp only [List.mem_append, List.mem_singleton] at he
      rcases he with he | rfl
      · obtain ⟨j', p, hj, hδ'⟩ := ih e he
        by_cases hei : i = e.1
        · rw [← hei, hi] at hj
          cases hj
          exact ⟨j, k a, by simp [← hei, hlt], hδ'⟩
        · exact ⟨j', p, by simp [List.getElem?_set_ne hei, hj], hδ'⟩
      · exact ⟨j, k a, by simp [hlt], hδ⟩

theorem Reachable.trace_fresh (h : Reachable δ code s₀ w) {i : Nat} (hi : w.jobs.length ≤ i) :
    w.trace i = [] := by
  refine List.eq_nil_iff_forall_not_mem.mpr fun ev hev => ?_
  obtain ⟨j, p, hj, -⟩ := h.started _ (mem_trace.mp hev)
  have hlt := (List.getElem?_eq_some_iff.mp hj).1
  omega

/-- What is left of a job is where its events lead. -/
theorem Reachable.path (h : Reachable δ code s₀ w) {i : Nat} {j : J} {p : Prog Op Ans α}
    (hi : w.jobs[i]? = some (j, p)) : Path (code j) (w.trace i) p := by
  induction h generalizing i j p with
  | init => simp at hi
  | @step w w' h hs ih =>
    cases hs with
    | start j' =>
      rcases Nat.lt_or_ge i w.jobs.length with hlt | hge
      · rw [List.getElem?_append_left hlt] at hi
        exact ih hi
      · have htrace := h.trace_fresh hge
        rw [List.getElem?_append_right hge] at hi
        have hmem := List.mem_singleton.mp (List.mem_of_getElem? hi)
        cases hmem
        unfold trace at htrace ⊢
        rw [htrace]
        exact .refl _
    | @answer n j' o k a s' hn hδ =>
      rw [trace_snoc]
      by_cases hni : n = i
      · subst hni
        have hlt := (List.getElem?_eq_some_iff.mp hn).1
        simp only [List.getElem?_set_self hlt, Option.some.injEq, Prod.mk.injEq] at hi
        obtain ⟨rfl, rfl⟩ := hi
        rw [if_pos rfl]
        exact (ih hn).snoc _ _ _
      · simp only [List.getElem?_set_ne hni] at hi
        rw [if_neg hni, List.append_nil]
        exact ih hi

theorem Reachable.event (h : Reachable δ code s₀ w) {i : Nat} {j : J} {p : Prog Op Ans α}
    (hi : w.jobs[i]? = some (j, p)) :
    ∀ ev ∈ w.trace i, δ j ev.pre ev.op ev.ans ev.post := by
  intro ev hev
  obtain ⟨j', p', hj, hδ⟩ := h.started _ (mem_trace.mp hev)
  rw [hi] at hj
  cases hj
  exact hδ

/-- The pool at the moment of one of its events. -/
theorem Reachable.moment (h : Reachable δ code s₀ w) {l₁ l₂ : List (Nat × Event S Op Ans)}
    {i : Nat} {ev : Event S Op Ans} (hlog : w.log = l₁ ++ (i, ev) :: l₂) :
    ∃ w₁ : Pool J S Op Ans α, Reachable δ code s₀ w₁ ∧ w₁.log = l₁ ∧ w₁.state = ev.pre ∧
      ∀ (n : Nat) (j : J) (p : Prog Op Ans α), w₁.jobs[n]? = some (j, p) →
        ∃ p' : Prog Op Ans α, w.jobs[n]? = some (j, p') := by
  induction h generalizing l₂ with
  | init => simp at hlog
  | @step w w' h hs ih =>
    cases hs with
    | start j =>
      obtain ⟨w₁, h₁, hl, hst, hjobs⟩ := ih hlog
      refine ⟨w₁, h₁, hl, hst, fun n j' p hn => ?_⟩
      obtain ⟨p', hp'⟩ := hjobs n j' p hn
      exact ⟨p', by rw [List.getElem?_append_left (List.getElem?_eq_some_iff.mp hp').1, hp']⟩
    | @answer m j o k a s' hm hδ =>
      have hlift : ∀ (n : Nat) (j' : J) (p : Prog Op Ans α), w.jobs[n]? = some (j', p) →
          ∃ p' : Prog Op Ans α, (w.jobs.set m (j, k a))[n]? = some (j', p') := by
        intro n j' p hn
        have hlt := (List.getElem?_eq_some_iff.mp hm).1
        by_cases hmn : m = n
        · subst hmn
          rw [hm] at hn
          cases hn
          exact ⟨k a, by simp [hlt]⟩
        · exact ⟨p, by rw [List.getElem?_set_ne hmn, hn]⟩
      rcases List.eq_nil_or_concat l₂ with rfl | ⟨l₃, e, rfl⟩
      · obtain ⟨hl, he⟩ := List.append_inj' hlog rfl
        cases he
        exact ⟨w, h, hl, rfl, hlift⟩
      · have hlog' : w.log ++ [(m, ⟨w.state, o, a, s'⟩)] = (l₁ ++ (i, ev) :: l₃) ++ [e] := by
          simpa using hlog
        obtain ⟨hl, -⟩ := List.append_inj' hlog' rfl
        obtain ⟨w₁, h₁, hl₁, hst, hjobs⟩ := ih hl
        refine ⟨w₁, h₁, hl₁, hst, fun n j' p hn => ?_⟩
        obtain ⟨p', hp'⟩ := hjobs n j' p hn
        exact hlift n j' p' hp'

/-- A job may run on its own for a while. -/
theorem Reachable.steps (h : Reachable δ code s₀ w) {i : Nat} {j : J} {p p' : Prog Op Ans α}
    {s s' : S} {t : List (Event S Op Ans)} (hs : w.state = s) (hi : w.jobs[i]? = some (j, p))
    (hr : Steps (δ j) s p t s' p') :
    Reachable δ code s₀ ⟨s', w.jobs.set i (j, p'), w.log ++ t.map fun ev => (i, ev)⟩ := by
  induction hr generalizing w with
  | refl s p =>
    have hset : w.jobs.set i (j, p) = w.jobs := by
      refine List.ext_getElem? fun n => ?_
      by_cases hin : i = n
      · subst hin
        rw [List.getElem?_set_self (List.getElem?_eq_some_iff.mp hi).1, hi]
      · rw [List.getElem?_set_ne hin]
    subst hs
    simp only [List.map_nil, List.append_nil, hset]
    exact h
  | @call s s₁ s₂ o k a t q hδ _ ih =>
    subst hs
    have hlt := (List.getElem?_eq_some_iff.mp hi).1
    have h₁ := ih (h.step (.answer hi hδ)) rfl (List.getElem?_set_self hlt)
    simpa using h₁

/-- One job after the other. -/
theorem Reachable.run (h : Reachable δ code s₀ w) {j : J} {p : Prog Op Ans α} {s' : S}
    {t : List (Event S Op Ans)} (hr : Steps (δ j) w.state (code j) t s' p) :
    Reachable δ code s₀
      ⟨s', w.jobs ++ [(j, p)], w.log ++ t.map fun ev => (w.jobs.length, ev)⟩ := by
  have h₁ := (h.step (.start j)).steps (i := w.jobs.length) rfl (by simp) hr
  simpa using h₁

end Reach

section Schedule

variable (answer : J → S → (o : Op) → Ans o × S)

/-- Answer the next question of job `i`, if it has one. -/
def answer_next (w : Pool J S Op Ans α) (i : Nat) : Pool J S Op Ans α :=
  match w.jobs[i]? with
  | some (j, .call o k) =>
    let (a, s') := answer j w.state o
    ⟨s', w.jobs.set i (j, k a), w.log ++ [(i, ⟨w.state, o, a, s'⟩)]⟩
  | _ => w

/-- Start the jobs `js`, then answer them in the given order. -/
def schedule (code : J → Prog Op Ans α) (s₀ : S) (js : List J) (order : List Nat) :
    Pool J S Op Ans α :=
  order.foldl (answer_next answer) ⟨s₀, js.map fun j => (j, code j), []⟩

variable {answer} {δ : J → Surroundings S Op Ans} {code : J → Prog Op Ans α} {s₀ : S}

theorem Reachable.start_all (js : List J) :
    Reachable δ code s₀ ⟨s₀, js.map fun j => (j, code j), []⟩ := by
  induction js using List.reverseRecOn with
  | nil => exact .init
  | append_singleton js j ih =>
    have h := ih.step (.start j)
    simpa using h

theorem answer_next_jobs (w : Pool J S Op Ans α) (i : Nat) :
    (answer_next answer w i).jobs.map Prod.fst = w.jobs.map Prod.fst := by
  unfold answer_next
  split
  · rename_i j o k hj
    simp only [List.map_set]
    refine List.ext_getElem? fun n => ?_
    by_cases hn : i = n
    · subst hn
      have hlt := (List.getElem?_eq_some_iff.mp hj).1
      rw [List.getElem?_set_self (by simpa using hlt), List.getElem?_map, hj]
      rfl
    · rw [List.getElem?_set_ne hn]
  · rfl

theorem schedule_reachable {js : List J}
    (h : ∀ j ∈ js, ∀ s o, δ j s o (answer j s o).1 (answer j s o).2) (order : List Nat) :
    Reachable δ code s₀ (schedule answer code s₀ js order) := by
  suffices hw : ∀ w : Pool J S Op Ans α, Reachable δ code s₀ w → w.jobs.map Prod.fst = js →
      Reachable δ code s₀ (order.foldl (answer_next answer) w) from
    hw _ (.start_all js) (by simp [Function.comp_def])
  induction order with
  | nil => exact fun w hw _ => hw
  | cons i order ih =>
    intro w hw hjobs
    refine ih _ ?_ ((answer_next_jobs w i).trans hjobs)
    unfold answer_next
    split
    · rename_i j o k hj
      have hmem : j ∈ js := by
        rw [← hjobs]
        exact List.mem_map.mpr ⟨_, List.mem_of_getElem? hj, rfl⟩
      exact hw.step (.answer hj (h j hmem _ o))
    · exact hw

end Schedule

end Pool

end Effect
