import NitpickerDaemon.Data.Directory

/-!
How `publish_quick_fix` writes `latest_review.json`, when the reviews of a daemon do so at the
same time.
-/

set_option autoImplicit false

namespace Nitpicker

/-- `latest_review.json` and the temporary file next to it. -/
inductive FeedbackName where
  | json_path | temp_path
  deriving DecidableEq, Repr

/-- Where a call is: before it opens the temporary file, writing to the file it opened, or at its
end. -/
inductive WriteStage where
  | called
  | writing (file : Nat) (written : List UInt8)
  | replaced
  | raised

/-- A call, with the document it writes. -/
structure QuickFixCall where
  document : List UInt8
  stage : WriteStage

def QuickFixCall.open_file (call : QuickFixCall) : Option Nat :=
  match call.stage with
  | .writing file _ => some file
  | _ => none

inductive WriteAction where
  | call | truncate | write | replace | raise

structure FeedbackFiles where
  files : Directory FeedbackName UInt8
  calls : List QuickFixCall

namespace FeedbackFiles

/-- One step of one call, or a new call. -/
inductive Step : WriteAction → FeedbackFiles → FeedbackFiles → Prop where
  | call {d : Directory FeedbackName UInt8} {calls : List QuickFixCall} (document : List UInt8) :
      Step .call ⟨d, calls⟩ ⟨d, calls ++ [⟨document, .called⟩]⟩
  | truncate {d : Directory FeedbackName UInt8} {before after : List QuickFixCall}
      {document : List UInt8} :
      Step .truncate ⟨d, before ++ ⟨document, .called⟩ :: after⟩
        ⟨d.truncate .temp_path, before ++ ⟨document, .writing (d.opened .temp_path) []⟩ :: after⟩
  | write {d : Directory FeedbackName UInt8} {before after : List QuickFixCall}
      {document written chunk rest : List UInt8} {file : Nat} :
      document = written ++ chunk ++ rest →
      Step .write ⟨d, before ++ ⟨document, .writing file written⟩ :: after⟩
        ⟨d.write_at 0 file written.length chunk,
          before ++ ⟨document, .writing file (written ++ chunk)⟩ :: after⟩
  | replace {d d' : Directory FeedbackName UInt8} {before after : List QuickFixCall}
      {document : List UInt8} {file : Nat} : d.rename .temp_path .json_path = some d' →
      Step .replace ⟨d, before ++ ⟨document, .writing file document⟩ :: after⟩
        ⟨d', before ++ ⟨document, .replaced⟩ :: after⟩
  | missing {d : Directory FeedbackName UInt8} {before after : List QuickFixCall}
      {document : List UInt8} {file : Nat} : d.rename .temp_path .json_path = none →
      Step .raise ⟨d, before ++ ⟨document, .writing file document⟩ :: after⟩
        ⟨d, before ++ ⟨document, .raised⟩ :: after⟩
  | fail {d : Directory FeedbackName UInt8} {before after : List QuickFixCall}
      {document written : List UInt8} {file : Nat} :
      Step .raise ⟨d, before ++ ⟨document, .writing file written⟩ :: after⟩
        ⟨d, before ++ ⟨document, .raised⟩ :: after⟩

/-- Any number of calls, in any order of their steps, from whatever an earlier daemon left. -/
inductive Reachable : FeedbackFiles → Prop where
  | start {d : Directory FeedbackName UInt8} : d.Linked → Reachable ⟨d, []⟩
  | step {action : WriteAction} {w w' : FeedbackFiles} : Reachable w → Step action w w' →
      Reachable w'

/-- Once a call has replaced the file, it holds the document of one that did. -/
def Complete (w : FeedbackFiles) : Prop :=
  ∀ call ∈ w.calls, call.stage = .replaced →
    ∃ call' ∈ w.calls, call'.stage = .replaced ∧ w.files.read .json_path = some call'.document

/-- Runs in which a call opens the temporary file only while no other one is writing to it. -/
inductive Orderly : FeedbackFiles → Prop where
  | start {d : Directory FeedbackName UInt8} : d.Linked → Orderly ⟨d, []⟩
  | step {action : WriteAction} {w w' : FeedbackFiles} : Orderly w → Step action w w' →
      (action = .truncate → ∀ call ∈ w.calls, call.open_file = none) → Orderly w'

/-- What holds while at most one call writes. -/
structure Invariant (w : FeedbackFiles) : Prop where
  linked : w.files.Linked
  single : (w.calls.filterMap QuickFixCall.open_file).length ≤ 1
  written : ∀ call ∈ w.calls, ∀ file written, call.stage = .writing file written →
    w.files.entry .temp_path = some file ∧ w.files.content file = written
  complete : w.Complete

namespace Invariant

variable {d d' : Directory FeedbackName UInt8} {calls before after : List QuickFixCall}
  {document written chunk rest : List UInt8} {file : Nat}

theorem start (h : d.Linked) : Invariant ⟨d, []⟩ where
  linked := h
  single := Nat.zero_le _
  written := by simp
  complete := by simp [Complete]

/-- While one call writes, no other does. -/
theorem alone {call : QuickFixCall} (h : Invariant ⟨d, before ++ call :: after⟩)
    (hopen : call.open_file = some file) : ∀ other ∈ before ++ after, other.open_file = none := by
  have hsingle := h.single
  simp only [List.filterMap_append, List.filterMap_cons, hopen, List.length_append,
    List.length_cons] at hsingle
  have hbefore : before.filterMap QuickFixCall.open_file = [] := by
    rw [← List.length_eq_zero_iff]
    omega
  have hafter : after.filterMap QuickFixCall.open_file = [] := by
    rw [← List.length_eq_zero_iff]
    omega
  rw [List.filterMap_eq_nil_iff] at hbefore hafter
  intro other hother
  rcases List.mem_append.mp hother with hother | hother
  · exact hbefore other hother
  · exact hafter other hother

theorem single_of_alone {call : QuickFixCall}
    (h : ∀ other ∈ before ++ after, other.open_file = none) :
    ((before ++ call :: after).filterMap QuickFixCall.open_file).length ≤ 1 := by
  have hbefore : before.filterMap QuickFixCall.open_file = [] :=
    List.filterMap_eq_nil_iff.mpr fun other hother => h other (List.mem_append_left _ hother)
  have hafter : after.filterMap QuickFixCall.open_file = [] :=
    List.filterMap_eq_nil_iff.mpr fun other hother => h other (List.mem_append_right _ hother)
  rw [List.filterMap_append, List.filterMap_cons, hbefore, hafter]
  cases call.open_file <;> simp

/-- The only call that may be writing goes on, and the review file stays as it is. -/
theorem go_on {call call' : QuickFixCall} (h : Invariant ⟨d, before ++ call :: after⟩)
    (halone : ∀ other ∈ before ++ after, other.open_file = none) (hlinked : d'.Linked)
    (hread : d'.read .json_path = d.read .json_path) (hstage : call.stage ≠ .replaced)
    (hstage' : call'.stage ≠ .replaced)
    (hwritten : ∀ file written, call'.stage = .writing file written →
      d'.entry .temp_path = some file ∧ d'.content file = written) :
    Invariant ⟨d', before ++ call' :: after⟩ where
  linked := hlinked
  single := single_of_alone halone
  written other hother file written hw := by
    rcases List.mem_append.mp hother with hother | hother
    · have hnone := halone other (List.mem_append_left _ hother)
      simp [QuickFixCall.open_file, hw] at hnone
    · rcases List.mem_cons.mp hother with rfl | hother
      · exact hwritten file written hw
      · have hnone := halone other (List.mem_append_right _ hother)
        simp [QuickFixCall.open_file, hw] at hnone
  complete other hother hreplaced := by
    have hkeep : ∀ x, x.stage = .replaced → x ∈ before ++ call' :: after →
        x ∈ before ++ call :: after := by
      intro x hx hmem
      simp only [List.mem_append, List.mem_cons] at hmem ⊢
      rcases hmem with hmem | rfl | hmem
      · exact .inl hmem
      · exact absurd hx hstage'
      · exact .inr (.inr hmem)
    obtain ⟨last, hlast, hdone, hdoc⟩ := h.complete other (hkeep other hreplaced hother) hreplaced
    refine ⟨last, ?_, hdone, hread.trans hdoc⟩
    simp only [List.mem_append, List.mem_cons] at hlast ⊢
    rcases hlast with hlast | rfl | hlast
    · exact .inl hlast
    · exact absurd hdone hstage
    · exact .inr (.inr hlast)

theorem call (h : Invariant ⟨d, calls⟩) (document : List UInt8) :
    Invariant ⟨d, calls ++ [⟨document, .called⟩]⟩ where
  linked := h.linked
  single := by
    have hnone : [(⟨document, .called⟩ : QuickFixCall)].filterMap QuickFixCall.open_file = [] := rfl
    rw [List.filterMap_append, hnone, List.append_nil]
    exact h.single
  written call hcall file written hw := by
    rcases List.mem_append.mp hcall with hcall | hcall
    · exact h.written call hcall file written hw
    · obtain rfl := List.mem_singleton.mp hcall
      cases hw
  complete call hcall hreplaced := by
    rcases List.mem_append.mp hcall with hcall | hcall
    · obtain ⟨last, hlast, hdone, hdoc⟩ := h.complete call hcall hreplaced
      exact ⟨last, List.mem_append_left _ hlast, hdone, hdoc⟩
    · obtain rfl := List.mem_singleton.mp hcall
      cases hreplaced

theorem replace (h : Invariant ⟨d, before ++ ⟨document, .writing file document⟩ :: after⟩)
    (hr : d.rename .temp_path .json_path = some d') :
    Invariant ⟨d', before ++ ⟨document, .replaced⟩ :: after⟩ := by
  have halone : ∀ other ∈ before ++ after, other.open_file = none := h.alone rfl
  obtain ⟨hentry, hcontent⟩ := h.written ⟨document, .writing file document⟩ (by simp) file document rfl
  refine ⟨h.linked.rename hr, single_of_alone halone, fun other hother file' written hw => ?_,
    fun _ _ _ => ⟨⟨document, .replaced⟩, by simp, rfl, ?_⟩⟩
  · have hnone : other.open_file = none := by
      rcases List.mem_append.mp hother with hother | hother
      · exact halone other (List.mem_append_left _ hother)
      · rcases List.mem_cons.mp hother with rfl | hother
        · rfl
        · exact halone other (List.mem_append_right _ hother)
    simp [QuickFixCall.open_file, hw] at hnone
  · rw [Directory.read_rename hentry hr, hcontent]

theorem step {action : WriteAction} {w w' : FeedbackFiles} (h : Invariant w)
    (hs : Step action w w')
    (halone : action = .truncate → ∀ call ∈ w.calls, call.open_file = none) : Invariant w' := by
  have hnames : FeedbackName.json_path ≠ .temp_path := by decide
  cases hs with
  | call document => exact h.call document
  | @truncate d before after document =>
    have hnone : ∀ other ∈ before ++ after, other.open_file = none := fun other hother =>
      halone rfl other (by
        simp only [List.mem_append, List.mem_cons] at hother ⊢
        tauto)
    refine h.go_on hnone (h.linked.truncate _) (h.linked.read_truncate hnames) (by simp) (by simp)
      fun file written hw => ?_
    cases hw
    simp [Directory.truncate]
  | @write d before after document written chunk rest file hdocument =>
    obtain ⟨hentry, hcontent⟩ := h.written ⟨document, .writing file written⟩ (by simp) file written rfl
    have hjson : d.entry .json_path ≠ some file := fun hjson =>
      hnames (h.linked.own _ _ _ hjson hentry)
    refine h.go_on (h.alone rfl) (h.linked.write_at _ _ _ _)
      (Directory.read_write_at_other hjson) (by simp) (by simp) fun file' written' hw => ?_
    cases hw
    refine ⟨hentry, ?_⟩
    simp only [Directory.write_at, Function.update_self]
    rw [hcontent, Directory.splice_length]
  | replace hr => exact h.replace hr
  | @missing d before after document file hr =>
    exact h.go_on (h.alone rfl) h.linked rfl (by simp) (by simp)
      fun _ _ hw => by cases hw
  | @fail d before after document written file =>
    exact h.go_on (h.alone rfl) h.linked rfl (by simp) (by simp)
      fun _ _ hw => by cases hw

end Invariant

section Samples

end Samples

end FeedbackFiles

end Nitpicker
