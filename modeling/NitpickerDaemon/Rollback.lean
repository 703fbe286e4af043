import NitpickerDaemon.AutoFix
import NitpickerDaemon.Effect.Monitor

/-!
The runs of the auto-fix service against the repository: how each of them ends, and when a run
that reports no change has left none.
-/

set_option autoImplicit false

namespace Nitpicker

open Effect

abbrev Commands := List (Event Repo Command CommandAns)

/-- A `git apply` that took effect. -/
def applies : Event Repo Command CommandAns → Prop
  | ⟨_, .apply _, .ok p, _⟩ => p.returncode = 0
  | ⟨s, .apply _, .error _, s'⟩ => s' ≠ s
  | _ => False

/-- A `git apply` that raised although it took effect. -/
def escapes : Event Repo Command CommandAns → Prop
  | ⟨s, .apply _, .error _, s'⟩ => s' ≠ s
  | _ => False

def checkouts : Event Repo Command CommandAns → Prop
  | ⟨_, .checkout _, _, _⟩ => True
  | _ => False

/-- A verification that failed or could not be run. -/
def verify_fails : Event Repo Command CommandAns → Prop
  | ⟨_, .verify _, .ok p, _⟩ => p.returncode ≠ 0
  | ⟨_, .verify _, .error _, _⟩ => True
  | _ => False

theorem escapes_applies {ev : Event Repo Command CommandAns} (h : escapes ev) : applies ev := by
  obtain ⟨s, c, a, s'⟩ := ev
  cases c with
  | apply patch_text =>
    cases a with
    | ok p => exact h.elim
    | error e => exact h
  | _ => exact h.elim

/-- Nothing in `t` touched a file of the repository. -/
def Quiet (t : Commands) : Prop := ∀ ev ∈ t, ¬applies ev ∧ ¬checkouts ev ∧ ¬verify_fails ev

/-- The patch was applied, without an accident and without a rollback so far. -/
structure Patched (t : Commands) (verified : Bool) : Prop where
  applied : ∃ ev ∈ t, applies ev
  calm : ∀ ev ∈ t, ¬escapes ev ∧ ¬checkouts ev
  verified : verified = true ↔ ∀ ev ∈ t, ¬verify_fails ev

/-- `git apply` raised after it had changed the tree from `s` to `s'`. -/
structure Escaped (s s' : Repo) (t : Commands) : Prop where
  changed : s' ≠ s
  index : s'.index = s.index
  escaped : ∃ ev ∈ t, escapes ev
  calm : ∀ ev ∈ t, ¬checkouts ev ∧ ¬verify_fails ev
  one : ∀ ev ∈ t, escapes ev → ev.pre = s ∧ ev.post = s'

theorem Quiet.snoc {t : Commands} {ev : Event Repo Command CommandAns} (h : Quiet t)
    (hev : ¬applies ev ∧ ¬checkouts ev ∧ ¬verify_fails ev) : Quiet (t ++ [ev]) := by
  intro e he
  simp only [List.mem_append, List.mem_singleton] at he
  rcases he with he | rfl
  · exact h e he
  · exact hev

theorem Patched.snoc {t : Commands} {ev : Event Repo Command CommandAns} (h : Patched t true)
    (hev : ¬escapes ev ∧ ¬checkouts ev) {verified : Bool}
    (hv : verified = true ↔ ¬verify_fails ev) : Patched (t ++ [ev]) verified := by
  obtain ⟨⟨e₀, he₀, happ⟩, hcalm, hver⟩ := h
  refine ⟨⟨e₀, List.mem_append_left _ he₀, happ⟩, fun e he => ?_, ?_⟩
  · simp only [List.mem_append, List.mem_singleton] at he
    rcases he with he | rfl
    · exact hcalm e he
    · exact hev
  · have hall := hver.mp rfl
    rw [hv]
    constructor
    · intro hn e he
      simp only [List.mem_append, List.mem_singleton] at he
      rcases he with he | rfl
      · exact hall e he
      · exact hn
    · exact fun hn => hn ev (by simp)

theorem Quiet.patched {t : Commands} {ev : Event Repo Command CommandAns} (h : Quiet t)
    (hev : applies ev) (hcalm : ¬escapes ev ∧ ¬checkouts ev ∧ ¬verify_fails ev) :
    Patched (t ++ [ev]) true := by
  refine ⟨⟨ev, by simp, hev⟩, fun e he => ?_, iff_of_true rfl fun e he => ?_⟩
  · simp only [List.mem_append, List.mem_singleton] at he
    rcases he with he | rfl
    · exact ⟨fun hesc => (h e he).1 (escapes_applies hesc), (h e he).2.1⟩
    · exact ⟨hcalm.1, hcalm.2.1⟩
  · simp only [List.mem_append, List.mem_singleton] at he
    rcases he with he | rfl
    · exact (h e he).2.2
    · exact hcalm.2.2

theorem Quiet.escaped {t : Commands} {s s' : Repo} {patch_text : String} {e : PyExc}
    (h : Quiet t) (hs : s' ≠ s) (hi : s'.index = s.index) :
    Escaped s s' (t ++ [⟨s, .apply patch_text, .error e, s'⟩]) := by
  refine ⟨hs, hi, ⟨_, List.mem_append_right _ List.mem_cons_self, hs⟩, fun ev hev => ?_,
    fun ev hev hesc => ?_⟩
  · simp only [List.mem_append, List.mem_singleton] at hev
    rcases hev with hev | rfl
    · exact (h ev hev).2
    · exact ⟨id, id⟩
  · simp only [List.mem_append, List.mem_singleton] at hev
    rcases hev with hev | rfl
    · exact absurd (escapes_applies hesc) (h ev hev).1
    · exact ⟨rfl, rfl⟩

theorem Escaped.snoc {t : Commands} {s s' : Repo} {ev : Event Repo Command CommandAns}
    (h : Escaped s s' t) (hev : ¬applies ev ∧ ¬checkouts ev ∧ ¬verify_fails ev) : Escaped s s' (t ++ [ev]) := by
  obtain ⟨hs, hi, ⟨e₀, he₀, hesc₀⟩, hcalm, hone⟩ := h
  refine ⟨hs, hi, ⟨e₀, List.mem_append_left _ he₀, hesc₀⟩, fun e he => ?_, fun e he hesc => ?_⟩
  · simp only [List.mem_append, List.mem_singleton] at he
    rcases he with he | rfl
    · exact hcalm e he
    · exact hev.2
  · simp only [List.mem_append, List.mem_singleton] at he
    rcases he with he | rfl
    · exact hone e he hesc
    · exact absurd (escapes_applies hesc) hev.1

/-- How `_git_apply` leaves the repository: unchanged, or changed by accident. -/
abbrev NotApplied (s s' : Repo) (t : Commands) : Prop := (s' = s ∧ Quiet t) ∨ Escaped s s' t

section Apply

variable {patched : String → Tree → Option Tree} {s : Repo} {t : Commands} {patch_text : String}

/-- What `_git_apply` reports. -/
abbrev Reports (s : Repo) (ok : Bool) (s' : Repo) (t : Commands) : Prop :=
  (ok = true → Patched t true) ∧ (ok = false → NotApplied s s' t)

theorem reports_failure {s' : Repo} {t' : Commands} (h : NotApplied s s' t') :
    Reports s false s' t' :=
  ⟨fun hf => (by cases hf), fun _ => h⟩

theorem check_and_apply_wp (ht : Quiet t) :
    Proc.wp (Repo.step patched) (AutoFixService.check_and_apply patch_text)
      (fun r _ s' t' => Reports s r.1 s' t') (fun _ _ s' t' => NotApplied s s' t') () s t := by
  unfold AutoFixService.check_and_apply
  rw [Proc.wp_bind, Proc.wp_invoke]
  intro a s₁ hs₁
  obtain rfl : s₁ = s := hs₁
  have h₁ : Quiet (t ++ [⟨s₁, .write patch_text, a, s₁⟩]) := ht.snoc ⟨id, id, id⟩
  cases a with
  | error e => exact .inl ⟨rfl, h₁⟩
  | ok _ =>
    simp only [id]
    rw [Proc.wp_bind, Proc.wp_invoke]
    intro a s₂ hs₂
    obtain rfl : s₂ = s₁ := hs₂
    have h₂ : Quiet (t ++ [_] ++ [⟨s₂, .apply_check patch_text, a, s₂⟩]) := h₁.snoc ⟨id, id, id⟩
    cases a with
    | error e => exact .inl ⟨rfl, h₂⟩
    | ok check =>
      simp only [id]
      split
      · exact reports_failure (.inl ⟨rfl, h₂⟩)
      · rw [Proc.wp_bind, Proc.wp_invoke]
        intro a s₃ hs₃
        cases a with
        | error e =>
          -- the command raised: it changed nothing, or it was stopped too late
          rcases hs₃ with rfl | ⟨tree, -, rfl⟩
          · exact .inl ⟨rfl, h₂.snoc ⟨fun h => h rfl, id, id⟩⟩
          · by_cases hsame : ({ s₂ with worktree := tree } : Repo) = s₂
            · refine .inl ⟨hsame, h₂.snoc ⟨fun h => h hsame, id, id⟩⟩
            · exact .inr (h₂.escaped hsame rfl)
        | ok apply =>
          simp only [id]
          by_cases hrc : apply.returncode = 0
          · rw [if_neg (by simpa using hrc)]
            exact ⟨fun _ => h₂.patched hrc ⟨id, id, id⟩, fun hf => by cases hf⟩
          · rw [if_pos hrc]
            have hsame : s₃ = s₂ := by
              have hs := hs₃
              simp only [Repo.step, if_neg hrc] at hs
              exact hs
            subst hsame
            exact reports_failure (.inl ⟨rfl, h₂.snoc ⟨hrc, id, id⟩⟩)

theorem git_apply_wp (ht : Quiet t) :
    Proc.wp (Repo.step patched) (AutoFixService.git_apply patch_text)
      (fun r _ s' t' => Reports s r.1 s' t') (fun _ _ _ _ => True) () s t := by
  unfold AutoFixService.git_apply
  rw [Proc.wp_bind, Proc.wp_attempt, Proc.wp_bind, Proc.wp_invoke]
  intro a s₁ hs₁
  obtain rfl : s₁ = s := hs₁
  have h₁ : Quiet (t ++ [⟨s₁, .mkstemp, a, s₁⟩]) := ht.snoc ⟨id, id, id⟩
  cases a with
  | error e =>
    simp only [id]
    unfold AutoFixService.apply_failed
    rw [Proc.wp_bind]
    split
    · exact reports_failure (.inl ⟨rfl, h₁⟩)
    · trivial
  | ok _ =>
    simp only [id, Proc.wp_pure]
    rw [Proc.wp_ensure, Proc.wp_attempt]
    have hunlink : ∀ (ok : Bool) (reason : String) (s₂ : Repo) (t₂ : Commands),
        Reports s₁ ok s₂ t₂ → Proc.wp (Repo.step patched)
          (Proc.invoke .unlink id : Fixing Unit) (fun _ _ s' t' => Reports s₁ ok s' t')
          (fun _ _ _ _ => True) () s₂ t₂ := by
      intro ok reason s₂ t₂ hr
      rw [Proc.wp_invoke]
      intro a s₃ hs₃
      obtain rfl : s₃ = s₂ := hs₃
      cases a with
      | error e => trivial
      | ok _ =>
        refine ⟨fun hok => (hr.1 hok).snoc ⟨id, id⟩ (iff_of_true rfl id), fun hok => ?_⟩
        rcases hr.2 hok with ⟨rfl, hq⟩ | hesc
        · exact .inl ⟨rfl, hq.snoc ⟨id, id, id⟩⟩
        · exact .inr (hesc.snoc ⟨id, id, id⟩)
    refine Proc.wp_mono (fun r _ s₂ t₂ hr => hunlink r.1 r.2 s₂ t₂ hr) (fun e _ s₂ t₂ hn => ?_)
      (check_and_apply_wp h₁)
    unfold AutoFixService.apply_failed
    split
    · exact hunlink false e.message s₂ t₂ (reports_failure hn)
    · rw [Proc.wp_raise, Proc.wp_invoke]
      intro a s₃ hs₃
      cases a <;> trivial

end Apply

/-- How a run of `apply_patch` from `s` ends. -/
inductive FixRun (svc : AutoFixService) (target_file : String) (s : Repo) :
    AutoFixResult → Repo → Commands → Prop where
  | refused (fix : AutoFixResult) (s' : Repo) (t : Commands) : fix.applied = false →
      fix.rolled_back = false → fix.verify_passed = none → s' = s → Quiet t →
      FixRun svc target_file s fix s' t
  | escaped (fix : AutoFixResult) (s' : Repo) (t : Commands) : fix.applied = false →
      fix.rolled_back = false → fix.verify_passed = none → Escaped s s' t →
      FixRun svc target_file s fix s' t
  | accepted (fix : AutoFixResult) (s' : Repo) (t : Commands) : fix.applied = true →
      fix.rolled_back = false → fix.verify_passed ≠ some false → Patched t true →
      FixRun svc target_file s fix s' t
  | kept (fix : AutoFixResult) (s' : Repo) (t : Commands) : fix.applied = true →
      fix.rolled_back = false → fix.verify_passed = some false → Patched t false →
      (svc.auto_rollback && target_file != "") = false → FixRun svc target_file s fix s' t
  | restored (fix : AutoFixResult) (s₁ s' : Repo) (t : Commands)
      (a : Except PyExc Completed) : fix.applied = false →
      fix.rolled_back = true → fix.verify_passed = some false → Patched t false →
      (svc.auto_rollback && target_file != "") = true → (s' = s₁ ∨ ∃ content, s₁.index target_file = some content ∧
        s' = { s₁ with worktree := Function.update s₁.worktree target_file (some content) }) →
      FixRun svc target_file s fix s' (t ++ [⟨s₁, .checkout target_file, a, s'⟩])

section Run

variable {patched : String → Tree → Option Tree} {svc : AutoFixService} {target_file : String}
  {s : Repo}

theorem run_verify_wp {s₁ : Repo} {t : Commands} (ht : Patched t true) :
    Proc.wp (Repo.step patched) svc.run_verify (fun ok _ _ t' => Patched t' ok)
      (fun _ _ _ _ => True) () s₁ t := by
  unfold AutoFixService.run_verify
  split
  · exact ht
  · rw [Proc.wp_attempt, Proc.wp_bind, Proc.wp_invoke]
    intro a s₂ hs₂
    cases a with
    | error e =>
      simp only [id]
      split
      · exact ht.snoc ⟨id, id⟩ (iff_of_false Bool.false_ne_true fun h => h trivial)
      · trivial
    | ok p =>
      refine ht.snoc ⟨id, id⟩ ?_
      simp [verify_fails]

theorem rollback_wp {s₁ : Repo} {t : Commands} {fix : AutoFixResult} (ht : Patched t false)
    (hroll : (svc.auto_rollback && target_file != "") = true)
    (hfix : fix.applied = false ∧ fix.rolled_back = true ∧ fix.verify_passed = some false) :
    Proc.wp (Repo.step patched) (AutoFixService.rollback target_file)
      (fun _ _ s' t' => FixRun svc target_file s fix s' t') (fun _ _ _ _ => True) () s₁ t := by
  unfold AutoFixService.rollback
  rw [Proc.wp_attempt, Proc.wp_bind, Proc.wp_invoke]
  intro a s₂ hs₂
  have hrun : ∀ h, FixRun svc target_file s fix s₂ (t ++ [⟨s₁, .checkout target_file, a, s₂⟩]) :=
    .restored fix s₁ s₂ t a hfix.1 hfix.2.1 hfix.2.2 ht hroll
  cases a with
  | error e =>
    simp only [id]
    split
    · exact hrun hs₂
    · trivial
  | ok p =>
    refine hrun ?_
    by_cases hrc : p.returncode = 0
    · simp only [Repo.step, if_pos hrc] at hs₂
      exact .inr hs₂
    · simp only [Repo.step, if_neg hrc] at hs₂
      exact .inl hs₂

theorem apply_text_wp (patch_text : String) :
    Proc.wp (Repo.step patched) (svc.apply_text patch_text target_file)
      (fun fix _ s' t' => FixRun svc target_file s fix s' t') (fun _ _ _ _ => True) () s [] := by
  unfold AutoFixService.apply_text
  split
  · exact .refused _ _ _ rfl rfl rfl rfl fun ev hev => by cases hev
  · rw [Proc.wp_bind]
    refine Proc.wp_mono (fun r _ s₁ t₁ hr => ?_) (fun _ _ _ _ h => h)
      (git_apply_wp fun ev hev => by cases hev)
    obtain ⟨ok, reason⟩ := r
    cases ok with
    | false =>
      rcases hr.2 rfl with ⟨hs, hq⟩ | hesc
      · exact .refused _ _ _ rfl rfl rfl hs hq
      · exact .escaped _ _ _ rfl rfl rfl hesc
    | true =>
      have hp := hr.1 rfl
      simp only [Bool.not_true, Bool.false_eq_true, if_false]
      split
      · exact .accepted _ _ _ rfl rfl (by simp) hp
      · rw [Proc.wp_bind]
        refine Proc.wp_mono (fun verify_ok _ s₂ t₂ h₂ => ?_) (fun _ _ _ _ h => h)
          (run_verify_wp hp)
        split
        · rename_i hok
          rw [hok] at h₂
          exact .accepted _ _ _ rfl rfl (by simp) h₂
        · rename_i hfailed
          rw [Bool.eq_false_iff.mpr hfailed] at h₂
          split
          · rename_i hroll
            rw [Proc.wp_bind]
            exact rollback_wp h₂ hroll ⟨rfl, rfl, rfl⟩
          · rename_i hno
            exact .kept _ _ _ rfl rfl rfl h₂ (by simpa using hno)

/-- Every run of `apply_patch` that returns. -/
theorem fix_run {patch_text : PyVal} {t : Commands} {s' : Repo} {fix : AutoFixResult} {l : Unit}
    (hr : Steps (Repo.step patched) s (svc.apply_patch patch_text target_file ()) t s'
      (.ret (.ok fix, l))) : FixRun svc target_file s fix s' t := by
  have hwp : Proc.wp (Repo.step patched) (svc.apply_patch patch_text target_file)
      (fun fix _ s' t' => FixRun svc target_file s fix s' t') (fun _ _ _ _ => True) () s [] := by
    unfold AutoFixService.apply_patch
    split
    · exact apply_text_wp _
    · split
      · trivial
      · exact .refused _ _ _ rfl rfl rfl rfl fun ev hev => by cases hev
  exact Proc.wp_sound hwp hr

end Run

/-- An exception that the service lets through. The temporary file is removed outside its `try`. -/
def breaks : (c : Command) → CommandAns c → Bool
  | .mkstemp, .error e => !command_catches e
  | .write _, .error e => !command_catches e
  | .apply_check _, .error e => !command_catches e
  | .apply _, .error e => !command_catches e
  | .unlink, .error _ => true
  | .verify _, .error e => !command_catches e
  | .checkout _, .error e => !command_catches e
  | _, _ => false

section Breaking

/-- A part of the service from its start on; `F` relates what it raises to what it has got. -/
abbrev Sound {α : Type} (F : PyExc → Bool → Prop) (m : Fixing α) : Prop :=
  Proc.Monitors (flagging breaks) (fun _ _ => True) false (fun _ y => y = false) F m

theorem sound_bind {α β : Type} {F : PyExc → Bool → Prop} {m : Fixing β} {k : β → Fixing α}
    (hm : Sound F m) (hk : ∀ b, Sound F (k b)) : Sound F (m >>= k) :=
  .bind hm fun b y hy => by
    subst hy
    exact hk b

/-- A command inside a `try`. -/
theorem sound_invoke {α : Type} {c : Command} {g : CommandAns c → Except PyExc α}
    (hok : ∀ a v, g a = .ok v → breaks c a = false)
    (herror : ∀ a e, g a = .error e → breaks c a = !command_catches e) :
    Sound (fun e y => y = !command_catches e) (Proc.invoke c g) := by
  refine .invoke trivial (fun a v h => ?_) fun a e h => ?_
  · rw [flagging, hok a v h, Bool.or_false]
  · rw [flagging, herror a e h, Bool.false_or]

/-- An `except` clause for the exceptions of a command. -/
theorem sound_attempt {α : Type} {m : Fixing α} {h : PyExc → Fixing α}
    (hm : Sound (fun e y => y = !command_catches e) m)
    (hh : ∀ e, (command_catches e = true → ∃ v, h e = pure v) ∧
      (command_catches e = false → h e = Proc.raise e)) :
    Sound (fun _ y => y = true) (Proc.attempt m h) := by
  refine .attempt hm fun e y hy => ?_
  cases hc : command_catches e with
  | true =>
    obtain ⟨v, hv⟩ := (hh e).1 hc
    rw [hv]
    exact .pure (by rw [hy, hc]; rfl)
  | false =>
    rw [(hh e).2 hc]
    intro l
    show y = true
    rw [hy, hc]
    rfl

theorem apply_failed_cases (e : PyExc) :
    (command_catches e = true → ∃ v, AutoFixService.apply_failed e = pure v) ∧
      (command_catches e = false → AutoFixService.apply_failed e = Proc.raise e) := by
  unfold AutoFixService.apply_failed
  exact ⟨fun h => ⟨_, if_pos h⟩, fun h => if_neg (by simp [h])⟩

theorem check_and_apply_sound {patch_text : String} :
    Sound (fun e y => y = !command_catches e) (AutoFixService.check_and_apply patch_text) := by
  unfold AutoFixService.check_and_apply
  refine sound_bind (sound_invoke (fun a v h => ?_) fun a e h => ?_) fun _ =>
    sound_bind (sound_invoke (fun a v h => ?_) fun a e h => ?_) fun check =>
    .ite (fun _ => .pure rfl) fun _ => sound_bind (sound_invoke (fun a v h => ?_) fun a e h => ?_)
      fun apply => .ite (fun _ => .pure rfl) fun _ => .pure rfl
  all_goals
    simp only [id] at h
    subst h
    rfl

theorem git_apply_sound {patch_text : String} :
    Sound (fun _ y => y = true) (AutoFixService.git_apply patch_text) := by
  unfold AutoFixService.git_apply
  refine sound_bind (sound_attempt ?_ fun e => ?_) fun failed => ?_
  · refine sound_bind (sound_invoke (fun a v h => ?_) fun a e h => ?_) fun _ => .pure rfl
    all_goals
      simp only [id] at h
      subst h
      rfl
  · obtain ⟨hcatch, hraise⟩ := apply_failed_cases e
    refine ⟨fun h => ?_, fun h => ?_⟩
    · obtain ⟨v, hv⟩ := hcatch h
      rw [hv]
      exact ⟨some v, rfl⟩
    · rw [hraise h]
      rfl
  · cases failed with
    | some result => exact .pure rfl
    | none =>
      refine .ensure (sound_attempt check_and_apply_sound apply_failed_cases)
        (fun r y hy => ?_) fun e y hy => ?_
      · subst hy
        refine .invoke trivial (fun a v h => ?_) fun a e h => ?_
        all_goals
          simp only [id] at h
          subst h
          rfl
      · subst hy
        exact .invoke trivial (fun _ _ _ => rfl) fun _ _ _ => rfl

theorem run_verify_sound {svc : AutoFixService} : Sound (fun _ y => y = true) svc.run_verify := by
  unfold AutoFixService.run_verify
  refine .ite (fun _ => .pure rfl) fun _ => sound_attempt (sound_bind
    (sound_invoke (fun a v h => ?_) fun a e h => ?_) fun _ => .pure rfl) fun e =>
      ⟨fun h => ⟨_, if_pos h⟩, fun h => if_neg (by simp [h])⟩
  all_goals
    simp only [id] at h
    subst h
    rfl

theorem rollback_sound {target_file : String} :
    Sound (fun _ y => y = true) (AutoFixService.rollback target_file) := by
  unfold AutoFixService.rollback
  refine sound_attempt (sound_bind
    (sound_invoke (fun a v h => ?_) fun a e h => ?_) fun _ => .pure rfl) fun e =>
      ⟨fun h => ⟨_, if_pos h⟩, fun h => if_neg (by simp [h])⟩
  all_goals
    simp only [id] at h
    subst h
    rfl

theorem apply_text_sound {svc : AutoFixService} {patch_text target_file : String} :
    Sound (fun _ y => y = true) (svc.apply_text patch_text target_file) := by
  unfold AutoFixService.apply_text
  refine .ite (fun _ => .pure rfl) fun _ => sound_bind git_apply_sound fun r => ?_
  refine .ite (fun _ => .pure rfl) fun _ => .ite (fun _ => .pure rfl) fun _ =>
    sound_bind run_verify_sound fun ok => .ite (fun _ => .pure rfl) fun _ =>
    .ite (fun _ => sound_bind rollback_sound fun _ => .pure rfl) fun _ => .pure rfl

/-- `apply_patch` raises exactly when a command raises what it does not catch, or when the patch
is a truthy value that is no text. -/
theorem apply_patch_raises_iff {svc : AutoFixService} {patch_text : PyVal} {target_file : String}
    {t : Commands} {r : Except PyExc AutoFixResult} {l : Unit}
    (hp : Path (svc.apply_patch patch_text target_file ()) t (.ret (r, l))) :
    (∃ e, r = .error e) ↔ (∃ ev ∈ t, breaks ev.op ev.ans = true) ∨
      (∀ s, patch_text ≠ .str s) ∧ patch_text.truthy = true := by
  unfold AutoFixService.apply_patch at hp
  split at hp
  · rename_i text
    have hend := hp.monitored (apply_text_sound ())
    rw [watch_flagging, Bool.false_or] at hend
    rw [← List.any_eq_true]
    cases r with
    | ok fix => simp [show t.any (fun ev => breaks ev.op ev.ans) = false from hend]
    | error e => simp [show t.any (fun ev => breaks ev.op ev.ans) = true from hend]
  · rename_i hno
    split at hp
    · rename_i htrue
      obtain ⟨rfl, heq⟩ := hp.ret_inv
      cases heq
      exact iff_of_true ⟨_, rfl⟩ (.inr ⟨fun s hs => hno s hs, htrue⟩)
    · rename_i hfalse
      obtain ⟨rfl, heq⟩ := hp.ret_inv
      cases heq
      simp [hfalse]

end Breaking

/-- The checkout of `f` from `pre` to `post` brings back the tree of `s`: it succeeds where only
`f` was changed and the index still has its content, or it fails where nothing was changed. -/
def Restores (s pre post : Repo) (f : String) : Prop :=
  (post.worktree f = pre.index f ∧ (∀ g, g ≠ f → pre.worktree g = s.worktree g) ∧
    pre.index f = s.worktree f) ∨ (post.worktree = pre.worktree ∧ pre.worktree = s.worktree)

/-- No command of the run left the tree changed behind the service's back. -/
structure Undone (s : Repo) (t : Commands) : Prop where
  apply : ∀ ev ∈ t, ¬escapes ev
  rollback : ∀ pre f a post, ⟨pre, .checkout f, a, post⟩ ∈ t → Restores s pre post f

theorem restores_iff {s pre post : Repo} {f : String} (h : post = pre ∨ ∃ content,
      pre.index f = some content ∧
        post = { pre with worktree := Function.update pre.worktree f (some content) }) :
    Restores s pre post f ↔ post.worktree = s.worktree := by
  rcases h with rfl | ⟨content, hindex, rfl⟩
  · constructor
    · intro h
      rcases h with ⟨hf, hothers, hback⟩ | ⟨-, hsame⟩
      · funext g
        by_cases hg : g = f
        · rw [hg, hf, hback]
        · exact hothers g hg
      · exact hsame
    · exact fun h => .inr ⟨rfl, h⟩
  · constructor
    · intro h
      rcases h with ⟨hf, hothers, hback⟩ | ⟨hsame, hs⟩
      · funext g
        by_cases hg : g = f
        · rw [hg, hf, hback]
        · simp only [Function.update_of_ne hg]
          exact hothers g hg
      · exact hsame.trans hs
    · intro h
      refine .inl ⟨by simp [hindex], fun g hg => ?_, ?_⟩
      · rw [← h]
        simp [Function.update_of_ne hg]
      · rw [← h]
        simp [hindex]

theorem Quiet.undone {s : Repo} {t : Commands} (h : Quiet t) : Undone s t :=
  ⟨fun ev hev hesc => (h ev hev).1 (escapes_applies hesc),
    fun _ _ _ _ hev => absurd trivial (h _ hev).2.1⟩

theorem Patched.undone {s : Repo} {t : Commands} {verified : Bool} (h : Patched t verified) : Undone s t :=
  ⟨fun ev hev => (h.calm ev hev).1, fun _ _ _ _ hev => absurd trivial (h.calm _ hev).2⟩

/-- A run that reports `applied=False` leaves the working tree as it was exactly when no
accident of `git apply` escaped and the rollback, if there was one, restores the tree. -/
theorem unapplied_unchanged_iff {patched : String → Tree → Option Tree} {svc : AutoFixService}
    {target_file : String} {s s' : Repo} {patch_text : PyVal} {t : Commands}
    {fix : AutoFixResult} {l : Unit}
    (hr : Steps (Repo.step patched) s (svc.apply_patch patch_text target_file ()) t s'
      (.ret (.ok fix, l))) :
    (fix.applied = false → s'.worktree = s.worktree) ↔ Undone s t := by
  cases fix_run hr with
  | refused _ _ _ _ _ hs hq =>
    subst hs
    exact iff_of_true (fun _ => rfl) hq.undone
  | escaped _ _ happ _ _ hesc =>
    refine iff_of_false (fun h => hesc.changed ?_) fun h => ?_
    · obtain ⟨worktree, index⟩ := s'
      obtain ⟨worktree₀, index₀⟩ := s
      have hw := h happ
      have hi := hesc.index
      simp only at hw hi
      rw [hw, hi]
    · obtain ⟨ev, hev, he⟩ := hesc.escaped
      exact h.apply ev hev he
  | accepted _ _ happ _ _ hp =>
    exact iff_of_true (fun h => by rw [happ] at h; cases h) hp.undone
  | kept _ _ happ _ _ hp _ =>
    exact iff_of_true (fun h => by rw [happ] at h; cases h) hp.undone
  | restored s₁ _ t a happ _ _ hp _ hco =>
    rw [← restores_iff (s := s) hco]
    constructor
    · intro h
      refine ⟨fun ev hev => ?_, fun pre f b post hev => ?_⟩
      · simp only [List.mem_append, List.mem_singleton] at hev
        rcases hev with hev | rfl
        · exact (hp.calm ev hev).1
        · exact id
      · simp only [List.mem_append, List.mem_singleton] at hev
        rcases hev with hev | heq
        · exact absurd trivial (hp.calm _ hev).2
        · cases heq
          exact h happ
    · exact fun h _ => h.rollback s₁ target_file a s' (by simp)

/-- Commands that do their work; the verification ends with `verify_code` and writes nothing. -/
def run_git (patched : String → Tree → Option Tree) (verify_code : Int) (s : Repo) :
    (c : Command) → CommandAns c × Repo
  | .mkstemp => (.ok (), s)
  | .write _ => (.ok (), s)
  | .apply_check patch_text =>
    (.ok ⟨if (patched patch_text s.worktree).isSome then 0 else 1, "", ""⟩, s)
  | .apply patch_text =>
    match patched patch_text s.worktree with
    | some tree => (.ok ⟨0, "", ""⟩, { s with worktree := tree })
    | none => (.ok ⟨1, "", ""⟩, s)
  | .unlink => (.ok (), s)
  | .verify _ => (.ok ⟨verify_code, "", ""⟩, s)
  | .checkout f =>
    match s.index f with
    | some content =>
      (.ok ⟨0, "", ""⟩, { s with worktree := Function.update s.worktree f (some content) })
    | none => (.ok ⟨1, "", ""⟩, s)

theorem run_git_step (patched : String → Tree → Option Tree) (verify_code : Int) (s : Repo)
    (c : Command) : Repo.step patched s c (run_git patched verify_code s c).1
      (run_git patched verify_code s c).2 := by
  cases c with
  | apply patch_text =>
    cases hp : patched patch_text s.worktree <;> simp [run_git, Repo.step, hp]
  | checkout f =>
    cases hi : s.index f <;> simp [run_git, Repo.step, hi]
  | verify verify_cmd => trivial
  | _ => rfl

/-- The service run with `run_git`. -/
def AutoFixService.play (svc : AutoFixService) (patched : String → Tree → Option Tree)
    (verify_code : Int) (patch_text target_file : String) (s : Repo) :
    Commands × Repo × Prog Command CommandAns (Except PyExc AutoFixResult × Unit) :=
  (svc.apply_patch (.str patch_text) target_file ()).run_for (run_git patched verify_code) 10 s

/-- Files `a.py` and `b.py` with one content each. -/
def two_files (a b : String) : Tree := fun f =>
  if f = "a.py" then some a else if f = "b.py" then some b else none

theorem unapplied_unchanged_sample : Undone ⟨two_files "old" "b", two_files "old" "b"⟩
    (({ verify_cmd := ["pytest"] } : AutoFixService).play (fun _ _ => some (two_files "new" "b")) 1
      "diff" "a.py" ⟨two_files "old" "b", two_files "old" "b"⟩).1 := by
  have hr := Prog.run_for_steps (run_git_step (fun _ _ => some (two_files "new" "b")) 1) 10
    (({ verify_cmd := ["pytest"] } : AutoFixService).apply_patch (.str "diff") "a.py" ())
    ⟨two_files "old" "b", two_files "old" "b"⟩
  refine (unapplied_unchanged_iff hr).mp fun _ => ?_
  funext f
  show Function.update (two_files "new" "b") "a.py" (some "old") f = two_files "old" "b" f
  by_cases hf : f = "a.py"
  · simp [hf, two_files]
  · simp [hf, two_files]

/-- The rollback of a patch to two files restores one of them. -/
theorem rollback_forgets_file : ∃ t s' fix l,
    Steps (Repo.step fun _ _ => some (two_files "new" "new"))
      ⟨two_files "old" "old", two_files "old" "old"⟩
      (({ verify_cmd := ["pytest"] } : AutoFixService).apply_patch (.str "diff") "a.py" ()) t s'
      (.ret (.ok fix, l)) ∧
    fix.rolled_back = true ∧ s'.worktree "b.py" = some "new" ∧
    ¬(fix.applied = false → s'.worktree = two_files "old" "old") := by
  have hr := Prog.run_for_steps (run_git_step (fun _ _ => some (two_files "new" "new")) 1) 10
    (({ verify_cmd := ["pytest"] } : AutoFixService).apply_patch (.str "diff") "a.py" ())
    ⟨two_files "old" "old", two_files "old" "old"⟩
  refine ⟨_, _, _, _, hr, rfl, rfl, fun h => ?_⟩
  have hb : some "new" = some "old" := congrFun (h rfl) "b.py"
  simp at hb

end Nitpicker
