import NitpickerDaemon.SilentPass

/-!
The audit trail of the mini reviewer: the log is written once, after the loop over the targets,
so that a target that raises takes with it the records of all targets before it.
-/

set_option autoImplicit false

namespace Nitpicker

open Effect

/-- A question that neither applies a patch nor writes the log. -/
def MiniOp.quiet : MiniOp → Prop
  | .git_apply _ => False
  | .append_log _ => False
  | _ => True

/-- A question that does not write the log. -/
def MiniOp.unlogged : MiniOp → Prop
  | .append_log _ => False
  | _ => True

theorem MiniOp.quiet_unlogged {o : MiniOp} (h : o.quiet) : o.unlogged := by
  cases o <;> first | exact h | trivial

namespace MiniReviewer

/-- A payload `generate_review` returned, and the patch that git applied for it. -/
structure Entry where
  payload : PyDict
  patch : Option String := none

/-- The payload after the auto-fix. -/
def Entry.final (py : Python) (entry : Entry) : PyDict :=
  match entry.patch with
  | none => entry.payload
  | some _ => (PyDict.set entry.payload "result_code" (.str "PATCH_APPLIED")).set "summary"
      (.str ("[Auto-Fixed] " ++ py.str (PyDict.getD entry.payload "summary" (.str ""))))

/-- What became of a target the loop came to. -/
inductive Outcome where
  | no_diff
  | reviewed (entry : Entry)
  | review_raised (e : PyExc)
  | apply_raised (payload : PyDict) (e : PyExc)

def Outcome.entry : Outcome → Option Entry
  | .no_diff => none
  | .reviewed entry => some entry
  | .review_raised _ => none
  | .apply_raised payload _ => some { payload := payload }

def Outcome.raised : Outcome → Bool
  | .no_diff => false
  | .reviewed _ => false
  | .review_raised _ => true
  | .apply_raised _ _ => true

/-- What the log must tell: the payloads in target order, each with its patch. -/
def journal (outcomes : List Outcome) : List Entry := outcomes.filterMap Outcome.entry

@[simp] theorem journal_no_diff (outcomes : List Outcome) :
    journal (.no_diff :: outcomes) = journal outcomes := rfl

@[simp] theorem journal_reviewed (entry : Entry) (outcomes : List Outcome) :
    journal (.reviewed entry :: outcomes) = entry :: journal outcomes := rfl

/-- The record of a payload: the time first, then its keys. -/
def stamped (now : String) (payload : PyDict) : PyDict :=
  payload.foldl (fun d kv => PyDict.set d kv.1 kv.2) [("timestamp", .str now)]

/-- The patches that git applied in a run. -/
def applied {S : Type} (t : MiniTrace S) : List String := t.filterMap fun
  | ⟨_, .git_apply patch_text, .ok true, _⟩ => some patch_text
  | _ => none

/-- The records that a run appended to the log. -/
def logged {S : Type} (t : MiniTrace S) : List PyDict := t.flatMap fun
  | ⟨_, .append_log lines, .ok _, _⟩ => lines.map JsonText.loads
  | _ => []

section Traces

variable {S : Type} {t t' : MiniTrace S}

theorem applied_append (t t' : MiniTrace S) : applied (t ++ t') = applied t ++ applied t' := by
  simp [applied]

theorem logged_append (t t' : MiniTrace S) : logged (t ++ t') = logged t ++ logged t' := by
  simp [logged]

/-- A trace of quiet questions leaves no mark. -/
def Quiet (t : MiniTrace S) : Prop := applied t = [] ∧ logged t = []

theorem quiet_of_ops (h : ∀ ev ∈ t, MiniOp.quiet ev.op) : Quiet t := by
  induction t with
  | nil => exact ⟨rfl, rfl⟩
  | cons ev t ih =>
    have hev := h ev (by simp)
    have ht := ih fun ev' h' => h ev' (by simp [h'])
    obtain ⟨s, o, a, s'⟩ := ev
    cases o <;> first | exact hev.elim | exact ht

theorem Quiet.append (h : Quiet t) (h' : Quiet t') : Quiet (t ++ t') := by
  constructor
  · rw [applied_append, h.1, h'.1, List.append_nil]
  · rw [logged_append, h.2, h'.2, List.append_nil]

theorem quiet_path {α : Type} {m : MiniReview α}
    (hm : Proc.Within (fun _ _ => True) MiniOp.quiet id (fun _ => True) m) {r : Except PyExc α × Unit}
    (hp : Path (m ()) t (.ret r)) : Quiet t :=
  quiet_of_ops (hp.within (hm ()) fun _ _ => trivial).1

end Traces

section Quiet

variable {py : Python} {has_genai staged : Bool} {settings : MiniReviewerSettings}

abbrev QuietProc {α : Type} (m : MiniReview α) : Prop :=
  Proc.Within (fun _ _ => True) MiniOp.quiet id (fun _ => True) m

theorem quiet_ask {α : Type} {o : MiniOp} {f : MiniAns o → Except PyExc α} (h : o.quiet) :
    QuietProc (Proc.invoke o f) := .invoke h fun _ _ _ _ => trivial

theorem quiet_except {α : Type} (r : Except PyExc α) : QuietProc (Proc.ofExcept r) :=
  .ofExcept fun _ _ => trivial

theorem quiet_git (args : List String) : QuietProc (git args) :=
  .bind (quiet_ask trivial) fun _ => .pure _

theorem quiet_normalize (paths : List String) : QuietProc (normalize_targets paths) := by
  induction paths with
  | nil => exact .pure _
  | cons path paths ih => exact .bind (quiet_ask trivial) fun _ => .bind ih fun _ => .pure _

theorem quiet_targets (paths : List String) : QuietProc (targets_from_args paths staged) :=
  .ite (fun _ => .bind (quiet_git _) fun _ => .pure _) fun _ => quiet_normalize paths

theorem quiet_generate_mini (p : OllamaProvider) (system_prompt user_prompt : String)
    (response_format : PyDict) :
    QuietProc (generate_mini py p system_prompt user_prompt response_format) := by
  refine .bind (quiet_ask trivial) fun _ => .ite (fun _ => ?_) fun _ => .raise trivial
  refine .bind (.ite (fun _ => .raise trivial) fun _ => ?_) fun _ => quiet_except _
  exact .bind (quiet_ask trivial) fun _ => quiet_except _

theorem quiet_ollama (path diff_text : String) :
    QuietProc (generate_review_ollama py path diff_text settings) :=
  .bind (quiet_ask trivial) fun _ => .bind (quiet_generate_mini _ _ _ _) fun _ =>
    .bind (quiet_except _) fun _ => .pure _

theorem quiet_try_models (candidates : List String) (contents : String) (models : List String) :
    QuietProc (try_models candidates contents models) := by
  induction models with
  | nil => exact .raise trivial
  | cons model models ih =>
    refine .attempt (R := fun _ => True) (.bind (quiet_ask trivial) fun _ =>
      .bind (quiet_ask trivial) fun _ => .pure _) fun e _ => ?_
    exact .ite (fun _ => ih) fun _ => .raise trivial

theorem quiet_gemini (path diff_text : String) :
    QuietProc (generate_review_gemini py has_genai path diff_text settings) :=
  .ite (fun _ => .bind (quiet_ask trivial) fun _ => .bind (quiet_try_models _ _ _) fun _ =>
    .bind (quiet_except _) fun _ => quiet_except _) fun _ => .raise trivial

theorem quiet_review (path : String) :
    QuietProc (generate_review py has_genai path staged settings) := by
  refine .ite (fun _ => .pure _) fun _ => .bind (quiet_git _) fun _ => ?_
  exact .ite (fun _ => .pure _) fun _ => .ite (fun _ => .map (quiet_ollama _ _))
    fun _ => .map (quiet_gemini _ _)

theorem unlogged_apply (patch : PyVal) : Proc.Within (fun _ _ => True) MiniOp.unlogged id
    (fun _ => True) (apply_patch_safely patch) := by
  cases patch with
  | str patch_text =>
    refine .ite (fun _ => .pure _) fun _ => .bind (.invoke trivial fun _ _ _ _ => trivial)
      fun _ => .ite (fun _ => .invoke trivial fun _ _ _ _ => trivial) fun _ => .pure _
  | _ =>
    simp only [apply_patch_safely]
    exact .ite (fun _ => .raise trivial) fun _ => .pure _

theorem unlogged_review_each (paths : List String) : Proc.Within (fun _ _ => True)
    MiniOp.unlogged id (fun _ => True) (review_each py has_genai staged settings paths) := by
  induction paths with
  | nil => exact .pure _
  | cons path paths ih =>
    refine .bind ((quiet_review path).mono (fun _ _ h => h) (fun _ => MiniOp.quiet_unlogged)
      fun _ h => h) fun verdict => ?_
    cases verdict with
    | none => exact ih
    | some payload =>
      refine .bind (.ite (fun _ => .bind (unlogged_apply _) fun _ => ?_) fun _ => .pure _)
        fun _ => .bind ih fun _ => .pure _
      exact .ite (fun _ => .pure _) fun _ => .pure _

end Quiet

section Loop

variable {S : Type} {py : Python} {has_genai staged : Bool} {settings : MiniReviewerSettings}

/-- The targets the loop came to, what became of them, and the trace. -/
inductive Walked (py : Python) (has_genai staged : Bool) (settings : MiniReviewerSettings) :
    List String → List Outcome → MiniTrace S → Prop where
  | done : Walked py has_genai staged settings [] [] []
  | no_diff {path : String} {paths : List String} {outcomes : List Outcome}
      {t t' : MiniTrace S} :
      Path (generate_review py has_genai path staged settings ()) t (.ret (.ok none, ())) →
      Walked py has_genai staged settings paths outcomes t' →
      Walked py has_genai staged settings (path :: paths) (.no_diff :: outcomes) (t ++ t')
  | reviewed {path : String} {paths : List String} {entry : Entry} {outcomes : List Outcome}
      {t t' t'' : MiniTrace S} :
      Path (generate_review py has_genai path staged settings ()) t
        (.ret (.ok (some entry.payload), ())) →
      Path (auto_apply py settings entry.payload ()) t' (.ret (.ok (entry.final py), ())) →
      applied t' = entry.patch.toList →
      Walked py has_genai staged settings paths outcomes t'' →
      Walked py has_genai staged settings (path :: paths) (.reviewed entry :: outcomes)
        (t ++ (t' ++ t''))
  | review_raised {path : String} {paths : List String} {e : PyExc} {t : MiniTrace S} :
      Path (generate_review py has_genai path staged settings ()) t (.ret (.error e, ())) →
      Walked py has_genai staged settings (path :: paths) [.review_raised e] t
  | apply_raised {path : String} {paths : List String} {payload : PyDict} {e : PyExc}
      {t t' : MiniTrace S} :
      Path (generate_review py has_genai path staged settings ()) t
        (.ret (.ok (some payload), ())) →
      Path (auto_apply py settings payload ()) t' (.ret (.error e, ())) →
      applied t' = [] →
      Walked py has_genai staged settings (path :: paths) [.apply_raised payload e] (t ++ t')

theorem apply_patch_cases {patch : PyVal} {t : MiniTrace S} {r : Except PyExc Bool}
    (hp : Path (apply_patch_safely patch ()) t (.ret (r, ()))) : logged t = [] ∧
      ((∃ patch_text, r = .ok true ∧ applied t = [patch_text]) ∨
        (r ≠ .ok true ∧ applied t = [])) := by
  have hnone : ∀ {r' : Except PyExc Bool}, r' ≠ .ok true →
      Path (.ret (r', ())) t (.ret (r, ())) → logged t = [] ∧
      ((∃ patch_text, r = .ok true ∧ applied t = [patch_text]) ∨
        (r ≠ .ok true ∧ applied t = [])) := by
    intro r' hne hp
    obtain ⟨rfl, heq⟩ := hp.ret_inv
    cases heq
    exact ⟨rfl, .inr ⟨hne, rfl⟩⟩
  cases patch with
  | str patch_text =>
    simp only [apply_patch_safely] at hp
    by_cases hempty : strip patch_text = ""
    · rw [if_pos hempty] at hp
      exact hnone (by simp) hp
    rw [if_neg hempty] at hp
    rcases Proc.bind_cases hp with ⟨e, rfl, hcheck⟩ | ⟨check, l, t₁, t₂, rfl, hcheck, hrest⟩
    · obtain ⟨s, a, s', rfl, -, -⟩ := Proc.invoke_inv hcheck
      exact ⟨rfl, .inr ⟨by simp, rfl⟩⟩
    obtain ⟨s, a, s', rfl, -, -⟩ := Proc.invoke_inv hcheck
    cases check with
    | false =>
      obtain ⟨rfl, heq⟩ := Path.ret_inv hrest
      cases heq
      exact ⟨rfl, .inr ⟨by simp, rfl⟩⟩
    | true =>
      obtain ⟨s₁, a₁, s₁', rfl, hr, -⟩ := Proc.invoke_inv hrest
      subst hr
      refine ⟨rfl, ?_⟩
      rcases r with e | _ | _
      · exact .inr ⟨by simp, rfl⟩
      · exact .inr ⟨by simp, rfl⟩
      · exact .inl ⟨patch_text, rfl, rfl⟩
  | _ =>
    simp only [apply_patch_safely] at hp
    split at hp <;> exact hnone (by simp) hp

theorem auto_apply_cases {payload : PyDict} {t : MiniTrace S} {r : Except PyExc PyDict}
    (hp : Path (auto_apply py settings payload ()) t (.ret (r, ()))) : logged t = [] ∧
      ((∃ patch, r = .ok ((⟨payload, patch⟩ : Entry).final py) ∧ applied t = patch.toList) ∨
        ∃ e, r = .error e ∧ applied t = []) := by
  unfold auto_apply at hp
  split at hp
  · rcases Proc.bind_cases hp with ⟨e, rfl, happly⟩ | ⟨b, l, t₁, t₂, rfl, happly, hrest⟩
    · obtain ⟨hlogged, h⟩ := apply_patch_cases happly
      rcases h with ⟨_, heq, -⟩ | ⟨-, hnil⟩
      · cases heq
      · exact ⟨hlogged, .inr ⟨e, rfl, hnil⟩⟩
    · obtain ⟨hlogged, h⟩ := apply_patch_cases happly
      rcases h with ⟨patch_text, heq, happlied⟩ | ⟨hne, hnil⟩
      · cases heq
        obtain ⟨rfl, heq⟩ := Path.ret_inv hrest
        cases heq
        rw [List.append_nil]
        exact ⟨hlogged, .inl ⟨some patch_text, rfl, happlied⟩⟩
      · cases b with
        | true => exact absurd rfl hne
        | false =>
          obtain ⟨rfl, heq⟩ := Path.ret_inv hrest
          cases heq
          rw [List.append_nil]
          exact ⟨hlogged, .inl ⟨none, rfl, hnil⟩⟩
  · obtain ⟨rfl, heq⟩ := Path.ret_inv hp
    cases heq
    exact ⟨rfl, .inl ⟨none, rfl, rfl⟩⟩

/-- Every run of the loop walks over its targets; it returns the payloads of the journal, or
raises what the last target raised. -/
theorem review_each_walked {paths : List String} {t : MiniTrace S}
    {r : Except PyExc (List PyDict)}
    (hp : Path (review_each py has_genai staged settings paths ()) t (.ret (r, ()))) :
    ∃ outcomes, Walked py has_genai staged settings paths outcomes t ∧
      ((r = .ok ((journal outcomes).map (Entry.final py)) ∧
        ∀ o ∈ outcomes, o.raised = false) ∨
        ∃ e, r = .error e ∧ ∃ o ∈ outcomes, o.raised = true) := by
  induction paths generalizing t r with
  | nil =>
    obtain ⟨rfl, heq⟩ := Path.ret_inv hp
    cases heq
    exact ⟨[], .done, .inl ⟨rfl, by simp⟩⟩
  | cons path paths ih =>
    rcases Proc.bind_cases hp with ⟨e, rfl, hreview⟩ | ⟨verdict, l, t₁, t₂, rfl, hreview, hrest⟩
    · exact ⟨_, .review_raised hreview, .inr ⟨e, rfl, _, List.mem_cons_self, rfl⟩⟩
    cases verdict with
    | none =>
      obtain ⟨outcomes, hw, h⟩ := ih hrest
      refine ⟨_, .no_diff hreview hw, ?_⟩
      simpa [Outcome.raised] using h
    | some payload =>
      rcases Proc.bind_cases hrest with ⟨e, rfl, happly⟩ | ⟨final, l', t₃, t₄, rfl, happly, hloop⟩
      · obtain ⟨-, ⟨_, heq, -⟩ | ⟨_, -, hnil⟩⟩ := auto_apply_cases happly
        · cases heq
        · exact ⟨_, .apply_raised hreview happly hnil, .inr ⟨e, rfl, _, List.mem_cons_self, rfl⟩⟩
      obtain ⟨-, ⟨patch, heq, happlied⟩ | ⟨_, heq, -⟩⟩ := auto_apply_cases happly
      · cases heq
        rcases Proc.bind_cases hloop with ⟨e, rfl, hlater⟩ | ⟨payloads, l'', t₅, t₆, rfl, hlater, hend⟩
        · obtain ⟨outcomes, hw, h⟩ := ih hlater
          refine ⟨.reviewed ⟨payload, patch⟩ :: outcomes, .reviewed hreview happly happlied hw, ?_⟩
          rcases h with ⟨heq, -⟩ | ⟨_, -, o, ho, hraised⟩
          · cases heq
          · exact .inr ⟨e, rfl, o, List.mem_cons_of_mem _ ho, hraised⟩
        · obtain ⟨rfl, heq⟩ := Path.ret_inv hend
          cases heq
          obtain ⟨outcomes, hw, h⟩ := ih hlater
          rw [List.append_nil]
          refine ⟨.reviewed ⟨payload, patch⟩ :: outcomes, .reviewed hreview happly happlied hw, ?_⟩
          rcases h with ⟨heq, hall⟩ | ⟨_, heq, -⟩
          · cases heq
            exact .inl ⟨rfl, by simpa [Outcome.raised] using hall⟩
          · cases heq
      · cases heq

/-- The loop writes nothing to the log, and git applies the patches of the journal. -/
theorem Walked.marks {paths : List String} {outcomes : List Outcome} {t : MiniTrace S}
    (h : Walked py has_genai staged settings paths outcomes t) : logged t = [] ∧
      applied t = (journal outcomes).filterMap (·.patch) := by
  induction h with
  | done => exact ⟨rfl, rfl⟩
  | no_diff hreview _ ih =>
    have hquiet := quiet_path (quiet_review _) hreview
    rw [logged_append, applied_append, hquiet.1, hquiet.2, ih.1, ih.2]
    exact ⟨rfl, rfl⟩
  | @reviewed path paths entry outcomes t t' t'' hreview happly happlied _ ih =>
    have hquiet := quiet_path (quiet_review _) hreview
    have hlogged := (auto_apply_cases happly).1
    rw [logged_append, logged_append, applied_append, applied_append, hquiet.1, hquiet.2, hlogged,
      happlied, ih.1, ih.2]
    refine ⟨rfl, ?_⟩
    cases hpatch : entry.patch <;> simp [journal, Outcome.entry, hpatch]
  | review_raised hreview =>
    have hquiet := quiet_path (quiet_review _) hreview
    exact ⟨hquiet.2, hquiet.1⟩
  | apply_raised hreview happly hnil =>
    have hquiet := quiet_path (quiet_review _) hreview
    rw [logged_append, applied_append, hquiet.1, hquiet.2, (auto_apply_cases happly).1, hnil]
    exact ⟨rfl, rfl⟩

end Loop

section Log

variable {S : Type} {py : Python} {has_genai staged : Bool} {settings : MiniReviewerSettings}

theorem unserializable_dict {d : PyDict} :
    (PyVal.dict d).unserializable = none ↔ ∀ kv ∈ d, kv.2.unserializable = none := by
  have hdict : (PyVal.dict d).unserializable = PyVal.unserializableDict d := by
    rw [PyVal.unserializable]
  rw [hdict]
  clear hdict
  induction d with
  | nil => simp [PyVal.unserializableDict]
  | cons kv d ih =>
    obtain ⟨k, v⟩ := kv
    rw [PyVal.unserializableDict, List.forall_mem_cons, Option.or_eq_none_iff]
    exact and_congr_right fun _ => ih

/-- The two dicts have the same keys, and JSON texts for the same values. -/
def Alike (d d' : PyDict) : Prop := List.Forall₂
  (fun kv kv' => kv.1 = kv'.1 ∧ (kv.2.unserializable = none ↔ kv'.2.unserializable = none)) d d'

theorem Alike.set {d d' : PyDict} (h : Alike d d') (k : String) (v : PyVal) :
    Alike (PyDict.set d k v) (PyDict.set d' k v) := by
  induction h with
  | nil => exact .cons ⟨rfl, Iff.rfl⟩ .nil
  | @cons kv kv' d d' hkv h ih =>
    obtain ⟨k₁, v₁⟩ := kv
    obtain ⟨k₂, v₂⟩ := kv'
    obtain ⟨rfl, hv⟩ := hkv
    simp only [PyDict.set]
    split
    · exact .cons ⟨rfl, Iff.rfl⟩ h
    · exact .cons ⟨rfl, hv⟩ ih

theorem stamped_alike (now now' : String) (payload : PyDict) :
    Alike (stamped now payload) (stamped now' payload) := by
  have hfold : ∀ (kvs d d' : PyDict), Alike d d' →
      Alike (kvs.foldl (fun d kv => PyDict.set d kv.1 kv.2) d)
        (kvs.foldl (fun d kv => PyDict.set d kv.1 kv.2) d') := by
    intro kvs
    induction kvs with
    | nil => exact fun _ _ h => h
    | cons kv kvs ih => exact fun d d' h => ih _ _ (h.set kv.1 kv.2)
  exact hfold payload _ _ (.cons ⟨rfl, by simp [PyVal.unserializable]⟩ .nil)

theorem Alike.serializable {d d' : PyDict} (h : Alike d d') :
    (PyVal.dict d).unserializable = none ↔ (PyVal.dict d').unserializable = none := by
  rw [unserializable_dict, unserializable_dict]
  induction h with
  | nil => simp
  | cons hkv _ ih => rw [List.forall_mem_cons, List.forall_mem_cons, hkv.2, ih]

/-- `json.dumps` accepts the record of the payload, whatever the time. -/
def Recordable (payload : PyDict) : Prop :=
  (PyVal.dict (stamped "" payload)).unserializable = none

theorem recordable_iff (now : String) (payload : PyDict) :
    (∃ line, PyDict.dumps (stamped now payload) = .ok line) ↔ Recordable payload := by
  rw [Recordable, ← (stamped_alike now "" payload).serializable]
  constructor
  · rintro ⟨line, hline⟩
    rw [← PyDict.dumps_ok hline]
    exact line.serializable
  · intro h
    exact ⟨_, PyDict.dumps_of_serializable h⟩

/-- The records say what the payloads are, one for each and in order. -/
def Records (records : List PyDict) (payloads : List PyDict) : Prop :=
  List.Forall₂ (fun record payload => ∃ now, record = stamped now payload) records payloads

theorem quiet_log_lines (payloads : List PyDict) : QuietProc (log_lines payloads) := by
  induction payloads with
  | nil => exact .pure _
  | cons payload payloads ih =>
    exact .bind (quiet_ask trivial) fun _ => .bind (quiet_except _) fun _ => .bind ih fun _ => .pure _

theorem log_lines_cases {payloads : List PyDict} {t : MiniTrace S}
    {r : Except PyExc (List JsonText)} (hp : Path (log_lines payloads ()) t (.ret (r, ()))) :
    (∃ lines, r = .ok lines ∧ Records (lines.map JsonText.loads) payloads ∧
      ∀ payload ∈ payloads, Recordable payload) ∨
    ∃ e, r = .error e ∧ ¬∀ payload ∈ payloads, Recordable payload := by
  induction payloads generalizing t r with
  | nil =>
    obtain ⟨rfl, heq⟩ := Path.ret_inv hp
    cases heq
    exact .inl ⟨[], rfl, .nil, by simp⟩
  | cons payload payloads ih =>
    rcases Proc.bind_cases hp with ⟨e, rfl, hnow⟩ | ⟨now, l, t₁, t₂, rfl, hnow, hrest⟩
    · obtain ⟨_, _, _, -, heq, -⟩ := Proc.invoke_inv hnow
      cases heq
    rcases Proc.bind_cases hrest with ⟨e, rfl, hdump⟩ | ⟨line, l', t₃, t₄, rfl, hdump, hlater⟩
    · obtain ⟨-, heq⟩ := Path.ret_inv hdump
      have hraised := (Prod.mk.inj heq).1
      refine .inr ⟨e, rfl, fun hall => ?_⟩
      obtain ⟨line, hline⟩ := (recordable_iff now payload).mpr (hall payload (by simp))
      have hboth := hline.symm.trans hraised
      cases hboth
    obtain ⟨rfl, heq⟩ := Path.ret_inv hdump
    have hline : PyDict.dumps (stamped now payload) = .ok line := (Prod.mk.inj heq).1
    have hrecordable := (recordable_iff now payload).mp ⟨line, hline⟩
    rcases Proc.bind_cases hlater with ⟨e, rfl, hlines⟩ | ⟨lines, l'', t₅, t₆, rfl, hlines, hend⟩
    · rcases ih hlines with ⟨_, heq, -⟩ | ⟨_, -, hnot⟩
      · cases heq
      · exact .inr ⟨e, rfl, fun hall => hnot fun p hp => hall p (by simp [hp])⟩
    · obtain ⟨rfl, heq⟩ := Path.ret_inv hend
      cases heq
      rcases ih hlines with ⟨_, heq, hrecords, hall⟩ | ⟨_, heq, -⟩
      · cases heq
        refine .inl ⟨_, rfl, .cons ⟨now, PyDict.dumps_ok hline⟩ hrecords, ?_⟩
        simpa using ⟨hrecordable, hall⟩
      · cases heq

/-- The log file takes what is appended to it. -/
def Writable (t : MiniTrace S) : Prop := ∀ lines e, ¬Asked t (.append_log lines) (.error e)

theorem append_review_logs_cases {payloads : List PyDict} {t : MiniTrace S}
    {r : Except PyExc Unit} (hne : payloads ≠ [])
    (hp : Path (append_review_logs payloads ()) t (.ret (r, ()))) : applied t = [] ∧
    ((Records (logged t) payloads ∧ (∀ payload ∈ payloads, Recordable payload) ∧ Writable t) ∨
      (logged t = [] ∧ ¬((∀ payload ∈ payloads, Recordable payload) ∧ Writable t))) := by
  unfold append_review_logs at hp
  rw [if_neg (by simpa using hne)] at hp
  rcases Proc.bind_cases hp with ⟨e, rfl, hlines⟩ | ⟨lines, l, t₁, t₂, rfl, hlines, happend⟩
  · have hquiet := quiet_path (quiet_log_lines payloads) hlines
    refine ⟨hquiet.1, .inr ⟨hquiet.2, fun h => ?_⟩⟩
    rcases log_lines_cases hlines with ⟨_, heq, -⟩ | ⟨_, -, hnot⟩
    · cases heq
    · exact hnot h.1
  have hquiet := quiet_path (quiet_log_lines payloads) hlines
  have hops := (hlines.within (quiet_log_lines payloads ()) fun _ _ => trivial).1
  rcases log_lines_cases hlines with ⟨_, heq, hrecords, hall⟩ | ⟨_, heq, -⟩
  · cases heq
    obtain ⟨s, a, s', rfl, -, -⟩ := Proc.invoke_inv happend
    refine ⟨by rw [applied_append, hquiet.1]; rfl, ?_⟩
    rcases a with e | _
    · refine .inr ⟨?_, fun h => h.2 lines e ⟨s, s', by simp⟩⟩
      rw [logged_append, hquiet.2]
      rfl
    · refine .inl ⟨?_, hall, ?_⟩
      · rw [logged_append, hquiet.2]
        simpa [logged] using hrecords
      · rintro lines' e ⟨s₁, s₁', hev⟩
        rcases List.mem_append.mp hev with hev | hev
        · exact hops _ hev
        · cases List.mem_singleton.mp hev
  · cases heq

end Log

section Audit

variable {S : Type} {py : Python} {has_genai staged : Bool} {settings : MiniReviewerSettings}

/-- What became of the targets of a run: none was reached, or the loop walked over them after
they were read and before the files are written. -/
def Happened (py : Python) (has_genai staged : Bool) (settings : MiniReviewerSettings)
    (paths : List String) (outcomes : List Outcome) (t : MiniTrace S) : Prop :=
  (outcomes = [] ∧ (settings.skip = true ∨
    ∃ e, Path (targets_from_args paths staged ()) t (.ret (.error e, ())))) ∨
  ∃ targets t₀ t₁ t₂, t = t₀ ++ (t₁ ++ t₂) ∧
    Path (targets_from_args paths staged ()) t₀ (.ret (.ok targets, ())) ∧
    Walked py has_genai staged settings targets outcomes t₁

theorem quiet_write_latest (payloads : List PyDict) :
    QuietProc (write_latest_review_files py payloads) := by
  unfold write_latest_review_files
  cases payloads.getLast? with
  | none => exact .pure _
  | some latest =>
    exact .bind (quiet_except _) fun _ => .bind (quiet_ask trivial) fun _ =>
      .bind (quiet_ask trivial) fun _ => .bind (quiet_except _) fun _ => quiet_ask trivial

/-- Each entry of the journal has its record in the log, in order, and nothing else does. -/
def Audited (py : Python) (outcomes : List Outcome) (t : MiniTrace S) : Prop :=
  Records (logged t) ((journal outcomes).map (Entry.final py))

theorem audited_nil {outcomes : List Outcome} {t : MiniTrace S} (h : logged t = []) :
    Audited py outcomes t ↔ journal outcomes = [] := by
  unfold Audited Records
  rw [h]
  simp

theorem writable_append {t t' : MiniTrace S} : Writable (t ++ t') ↔ Writable t ∧ Writable t' := by
  constructor
  · intro hw
    exact ⟨fun lines e h => hw lines e (h.append_left t'),
      fun lines e h => hw lines e (h.append_right t)⟩
  · rintro ⟨hw, hw'⟩ lines e ⟨s, s', hev⟩
    rcases List.mem_append.mp hev with hev | hev
    · exact hw lines e ⟨s, s', hev⟩
    · exact hw' lines e ⟨s, s', hev⟩

theorem writable_of_unlogged {t : MiniTrace S} (h : ∀ ev ∈ t, MiniOp.unlogged ev.op) :
    Writable t := by
  rintro lines e ⟨s, s', hev⟩
  exact h _ hev

theorem writable_of_quiet {α : Type} {m : MiniReview α} (hm : QuietProc m) {t : MiniTrace S}
    {r : Except PyExc α × Unit} (hp : Path (m ()) t (.ret r)) : Writable t :=
  writable_of_unlogged fun ev hev =>
    MiniOp.quiet_unlogged ((hp.within (hm ()) fun _ _ => trivial).1 ev hev)

/-- The end of a run: the log tells the payloads just when they can be written. -/
theorem finish_cases {payloads : List PyDict} {t : MiniTrace S} {r : Except PyExc (List PyDict)}
    (hp : Path ((do
      append_review_logs payloads
      write_latest_review_files py payloads
      pure payloads : MiniReview (List PyDict)) ()) t (.ret (r, ()))) : applied t = [] ∧
    (Records (logged t) payloads ↔ payloads = [] ∨
      (∀ payload ∈ payloads, Recordable payload) ∧ Writable t) := by
  have hlatest : QuietProc (do
      write_latest_review_files py payloads
      pure payloads : MiniReview (List PyDict)) :=
    .bind (quiet_write_latest payloads) fun _ => .pure _
  by_cases hnil : payloads = []
  · subst hnil
    have hquiet := quiet_path hlatest hp
    refine ⟨hquiet.1, iff_of_true ?_ (.inl rfl)⟩
    rw [hquiet.2]
    exact .nil
  have hcases : ∀ {t u : MiniTrace S} {r : Except PyExc Unit},
      Path (append_review_logs payloads ()) t (.ret (r, ())) → Quiet u → Writable u →
      applied (t ++ u) = [] ∧ (Records (logged (t ++ u)) payloads ↔ payloads = [] ∨
        (∀ payload ∈ payloads, Recordable payload) ∧ Writable (t ++ u)) := by
    intro t u r happend hu hw
    obtain ⟨happlied, h⟩ := append_review_logs_cases hnil happend
    rw [applied_append, logged_append, writable_append, happlied, hu.1, hu.2]
    refine ⟨rfl, ?_⟩
    rw [List.append_nil]
    rcases h with ⟨hrecords, hall, hwritable⟩ | ⟨hlogged, hnot⟩
    · exact iff_of_true hrecords (.inr ⟨hall, hwritable, hw⟩)
    · rw [hlogged]
      refine iff_of_false (fun h => ?_) ?_
      · cases h
        exact hnil rfl
      · rintro (h | ⟨hall, hwritable, -⟩)
        · exact hnil h
        · exact hnot ⟨hall, hwritable⟩
  rcases Proc.bind_cases hp with ⟨e, rfl, happend⟩ | ⟨_, l, t₁, t₂, rfl, happend, hrest⟩
  · have h := hcases happend (u := []) ⟨rfl, rfl⟩ (by rintro _ _ ⟨_, _, hev⟩; cases hev)
    rwa [List.append_nil] at h
  · exact hcases happend (quiet_path hlatest hrest) (writable_of_quiet hlatest hrest)

/-- Nothing was appended to the log: the audit fails unless the journal is empty. -/
theorem audited_unlogged {outcomes : List Outcome} {t : MiniTrace S} {P : Prop}
    (h : logged t = []) (hP : journal outcomes ≠ [] → ¬P) :
    Audited py outcomes t ↔ journal outcomes = [] ∨ P := by
  rw [audited_nil h]
  constructor
  · exact .inl
  · rintro (hnil | hp)
    · exact hnil
    · by_contra hne
      exact hP hne hp

/-- In every run of the mini reviewer git applied the patches of its journal, and the log tells
the journal just when it is empty or no target raised and the records could be written. -/
theorem audit_complete_iff {paths : List String} {t : MiniTrace S}
    {r : Except PyExc (List PyDict)}
    (hp : Path (review_targets py has_genai paths staged settings ()) t (.ret (r, ()))) :
    ∃ outcomes, Happened py has_genai staged settings paths outcomes t ∧
      applied t = (journal outcomes).filterMap (·.patch) ∧
      (Audited py outcomes t ↔ journal outcomes = [] ∨
        (∀ o ∈ outcomes, o.raised = false) ∧
        (∀ entry ∈ journal outcomes, Recordable (entry.final py)) ∧ Writable t) := by
  have hnone : ∀ {t : MiniTrace S}, Quiet t → Happened py has_genai staged settings paths [] t →
      ∃ outcomes, Happened py has_genai staged settings paths outcomes t ∧
      applied t = (journal outcomes).filterMap (·.patch) ∧
      (Audited py outcomes t ↔ journal outcomes = [] ∨
        (∀ o ∈ outcomes, o.raised = false) ∧
        (∀ entry ∈ journal outcomes, Recordable (entry.final py)) ∧ Writable t) :=
    fun hq h => ⟨[], h, hq.1, audited_unlogged hq.2 fun hne => absurd rfl hne⟩
  unfold review_targets at hp
  by_cases hskip : settings.skip = true
  · rw [if_pos hskip] at hp
    obtain ⟨rfl, -⟩ := Path.ret_inv hp
    exact hnone ⟨rfl, rfl⟩ (.inl ⟨rfl, .inl hskip⟩)
  rw [if_neg hskip] at hp
  rcases Proc.bind_cases hp with ⟨e, rfl, htargets⟩ | ⟨targets, l, t₀, t₁, rfl, htargets, hrest⟩
  · exact hnone (quiet_path (quiet_targets paths) htargets) (.inl ⟨rfl, .inr ⟨e, htargets⟩⟩)
  have hquiet := quiet_path (quiet_targets paths) htargets
  by_cases hempty : targets.isEmpty = true
  · rw [if_pos hempty] at hrest
    obtain ⟨rfl, -⟩ := Path.ret_inv hrest
    obtain rfl := List.isEmpty_iff.mp hempty
    rw [List.append_nil]
    exact hnone hquiet (.inr ⟨[], t₀, [], [], by simp, htargets, .done⟩)
  rw [if_neg hempty] at hrest
  rcases Proc.bind_cases hrest with ⟨e, rfl, hloop⟩ | ⟨payloads, l', t₂, t₃, rfl, hloop, hend⟩
  · obtain ⟨outcomes, hw, ⟨heq, -⟩ | ⟨_, -, o, ho, hraised⟩⟩ := review_each_walked hloop
    · cases heq
    obtain ⟨hlogged, happlied⟩ := hw.marks
    refine ⟨outcomes, .inr ⟨targets, t₀, t₁, [], by simp, htargets, hw⟩, ?_, ?_⟩
    · rw [applied_append, hquiet.1, happlied]
      rfl
    · refine audited_unlogged (by rw [logged_append, hquiet.2, hlogged]; rfl) fun _ h => ?_
      rw [h.1 o ho] at hraised
      cases hraised
  obtain ⟨outcomes, hw, ⟨heq, hall⟩ | ⟨_, heq, -⟩⟩ := review_each_walked hloop
  · obtain rfl := Except.ok.inj heq
    obtain ⟨hlogged, happlied⟩ := hw.marks
    obtain ⟨hfinish, hrecords⟩ := finish_cases hend
    have hsilent := writable_of_unlogged
      (hloop.within (unlogged_review_each targets ()) fun _ _ => trivial).1
    have hread := writable_of_quiet (quiet_targets paths) htargets
    refine ⟨outcomes, .inr ⟨targets, t₀, t₂, t₃, rfl, htargets, hw⟩, ?_, ?_⟩
    · rw [applied_append, applied_append, hquiet.1, happlied, hfinish, List.append_nil]
      rfl
    · rw [Audited, logged_append, logged_append, hquiet.2, hlogged, writable_append,
        writable_append]
      refine hrecords.trans ?_
      simp [hread, hsilent, eq_true hall]
  · cases heq

end Audit

/-- Patches are applied, and Gemini proposes one. -/
def fixing_settings : MiniReviewerSettings where
  gemini_model := "gemini-2.5-flash"
  provider := "gemini"
  auto_apply_patches := true

/-- Every patch applies; the diff of `b.py` cannot be read. -/
def fixing_answers : (o : MiniOp) → MiniAns o
  | .git args => if args = diff_args "b.py" false
      then .error ⟨"CalledProcessError", [], "git diff"⟩ else .ok "+x"
  | .generate_content _ _ _ => .ok ⟨.dict [("result_code", .str "PATCH_PROPOSED"),
      ("suggested_patch", .str "--- a.py")], .none⟩
  | o => sample_answers o

/-- The only target is reviewed and fixed. -/
theorem audit_of_one : ∃ (t : MiniTrace Unit) (payloads : List PyDict), Path
      (review_targets sample_python true ["a.py"] false fixing_settings ()) t
      (.ret (.ok payloads, ())) ∧
    ∃ outcomes, Happened sample_python true false fixing_settings ["a.py"] outcomes t ∧
      (journal outcomes).filterMap (·.patch) = ["--- a.py"] := by
  have hp := (mini_play_steps (review_targets sample_python true ["a.py"] false fixing_settings)
    fixing_answers 30).path
  refine ⟨_, _, hp, ?_⟩
  obtain ⟨outcomes, hhappened, happlied, -⟩ := audit_complete_iff hp
  exact ⟨outcomes, hhappened, happlied.symm⟩

/-- The patch for `a.py` is applied, then `b.py` raises: the log stays empty. -/
theorem applied_patch_unlogged : ∃ (t : MiniTrace Unit) (e : PyExc) (outcomes : List Outcome),
    Path (review_targets sample_python true ["a.py", "b.py"] false fixing_settings ()) t
      (.ret (.error e, ())) ∧
    Happened sample_python true false fixing_settings ["a.py", "b.py"] outcomes t ∧
    applied t = ["--- a.py"] ∧ logged t = [] ∧ ¬Audited sample_python outcomes t := by
  have hp := (mini_play_steps (review_targets sample_python true ["a.py", "b.py"] false
    fixing_settings) fixing_answers 30).path
  have htargets := (mini_play_steps (targets_from_args ["a.py", "b.py"] false)
    fixing_answers 30).path
  have hloop := (mini_play_steps (review_each sample_python true false fixing_settings
    ["a.py", "b.py"]) fixing_answers 30).path
  obtain ⟨outcomes, hw, -⟩ := review_each_walked hloop
  have happlied := hw.marks.2
  refine ⟨_, _, outcomes, hp, .inr ⟨_, _, _, [], rfl, htargets, hw⟩, rfl, rfl, fun haudit => ?_⟩
  have hnil := (audited_nil rfl).mp haudit
  rw [hnil] at happlied
  cases happlied

end MiniReviewer

end Nitpicker
