import NitpickerDaemon.Failures

/-!
Calls answered `DUPLICATE_REQUEST_IGNORED`: the moment of the duplicate check, and whose
row it found.
-/

set_option autoImplicit false

namespace Nitpicker

open Effect

/-- Call `i` is `c` and has returned `DUPLICATE_REQUEST_IGNORED`. -/
def History.AnsweredDuplicate (w : History) (i : Nat) (c : Call) : Prop :=
  ∃ result l, w.jobs[i]? = some (c, .ret (.ok result, l)) ∧
    result.result_code = .str "DUPLICATE_REQUEST_IGNORED"

/-- `w₁` is the history at the moment call `i` asked `create_request`. -/
structure History.CheckedAt (w : History) (i : Nat) (w₁ : History) : Prop where
  reached : w₁.Reached
  calls : ∀ (n : Nat) (c : Call) (p : Running), w₁.jobs[n]? = some (c, p) →
    ∃ p' : Running, w.jobs[n]? = some (c, p')
  check : ∃ ev l₂, w.log = w₁.log ++ (i, ev) :: l₂ ∧ w₁.state = ev.pre ∧
    ∃ request, ev.op = .create_request request

/-- A row belongs to the call that created it. -/
theorem History.Inv.row_of {w : History} (h : w.Inv) {row : RequestRow}
    (hrow : row ∈ w.state.review_requests) :
    ∃ j d, w.Created j d ∧ d.request = row.request ∧ recorded (w.trace j) = some row.state := by
  obtain ⟨j, d, hd, hreq⟩ := h.stored row.request (List.mem_map.mpr ⟨row, hrow, rfl⟩)
  refine ⟨j, d, hd, hreq, ?_⟩
  have hstate := (h.created j d hd).2
  rw [hreq] at hstate
  exact hstate.symm.trans (h.consistent.state_of hrow)

theorem trace_append {w w₁ : History} {i n : Nat} {ev : Event Db Op Ans}
    {l₂ : List (Nat × Event Db Op Ans)} (hlog : w.log = w₁.log ++ (i, ev) :: l₂) :
    w.trace n = w₁.trace n ++ (if i = n then [ev] else []) ++
      l₂.filterMap fun e => if e.1 = n then some e.2 else none := by
  simp only [Pool.trace, hlog, List.filterMap_append, List.filterMap_cons]
  by_cases h : i = n <;> simp [h]

/-- The check is the first thing a call does. -/
theorem History.CheckedAt.fresh {w w₁ : History} {i : Nat} {c : Call} {p : Running}
    (hw : w.Reached)
    (hi : w.jobs[i]? = some (c, p)) (h : w.CheckedAt i w₁) : w₁.trace i = [] := by
  obtain ⟨ev, l₂, hlog, -, request, hop⟩ := h.check
  have htrace := trace_append (n := i) hlog
  rw [if_pos rfl, List.append_assoc] at htrace
  rcases run_path_head (hw.path hi) with ⟨hnil, -⟩ | ⟨s, a, s', t', ht, -, hjob⟩
  · rw [hnil] at htrace
    simp at htrace
  · cases hfirst : w₁.trace i with
    | nil => rfl
    | cons e t =>
      rw [hfirst, ht, List.cons_append] at htrace
      have htail := (List.cons.inj htrace).2
      have hmem : ev ∈ t' := by simp [htail]
      have hof := hjob ev hmem
      rw [hop] at hof
      exact hof.elim

theorem returned_ok {orc : Orchestrator} {request : ReviewRequest} {t : Trace}
    {r : Except PyExc ReviewResult} {l : Locals}
    (hp : Path (orc.run_once request {}) t (.ret (r, l))) : ∃ result, r = .ok result := by
  have hw : Proc.Within (fun _ _ => True) (Op.of_run request) (fun _ => ()) (fun _ => False)
    (orc.run_once request) := Orchestrator.run_once_within
  have hend := (hp.within (hw {}) fun _ _ => trivial).2
  cases r with
  | ok result => exact ⟨result, rfl⟩
  | error e => exact (hend.2 e rfl).elim

/-- Why a call is answered `DUPLICATE_REQUEST_IGNORED`: its check found the key, found the id
or stumbled over a null, or the L3 gate put that code into the verdict of its own review. -/
theorem answered_duplicate_cases {w : History} (hw : w.Reached) {i : Nat} {c : Call}
    (h : w.AnsweredDuplicate i c) :
    (∃ w₁ : History, w.CheckedAt i w₁ ∧ (w₁.state.KeyStored c.request.idempotency_key ∨
      w₁.state.IdStored c.request.request_id ∨ c.request.HasNull)) ∨
    (w.Created i c ∧ ∃ decisions,
      GateAnswered c.request decisions "DUPLICATE_REQUEST_IGNORED" (w.trace i)) := by
  obtain ⟨result, l, hi, hcode⟩ := h
  have hevents := hw.event hi
  rcases (run_account (hw.path hi) hevents).ignored hcode with ⟨state, s, s', hmem⟩ | ⟨hc, hgate⟩
  · obtain ⟨l₁, l₂, hlog⟩ := List.append_of_mem (Pool.mem_trace.mp hmem)
    obtain ⟨w₁, hw₁, rfl, hst, hjobs⟩ := hw.moment hlog
    have hcr : Nitpicker.Created s c.request (.ok (some ⟨false, true, state⟩)) s' :=
      Env.step_created (hevents _ hmem)
    refine .inl ⟨w₁, ⟨hw₁, hjobs, _, l₂, hlog, hst, c.request, rfl⟩, ?_⟩
    rw [hst]
    cases hcr with
    | duplicate _ _ hreason => exact hreason
  · exact .inr ⟨⟨⟨_, hi⟩, hc⟩, hgate⟩

/-- A check that was refused although nothing but the key could refuse it found the key. -/
theorem key_stored {db : Db} {request : ReviewRequest}
    (h : db.KeyStored request.idempotency_key ∨ db.IdStored request.request_id ∨ request.HasNull)
    (hcond : db.KeyStored request.idempotency_key ∨
      (¬db.IdStored request.request_id ∧ ¬request.HasNull)) :
    db.KeyStored request.idempotency_key := by
  rcases hcond with hk | ⟨hid, hn⟩
  · exact hk
  · rcases h with hk | hid' | hn'
    · exact hk
    · exact absurd hid' hid
    · exact absurd hn' hn

/-- The rows a check finds are those of other calls. -/
theorem History.CheckedAt.other {w w₁ : History} {i j : Nat} {c d : Call} (hat : w.CheckedAt i w₁)
    (hw : w.Reached) (h : w.AnsweredDuplicate i c) (hd : w₁.Created j d) : j ≠ i := by
  intro hij
  obtain ⟨_, _, hi, -⟩ := h
  have hcr := hd.created
  rw [hij, hat.fresh hw hi] at hcr
  cases hcr

/-- What an adapter builds from the file `a.py` and the diff `+x`. -/
def builtRequest (trigger trigger_intent git_revision : String) : ReviewRequest where
  request_id := "req_4f28cd5e9b74"
  idempotency_key := "idemp_4f28cd5e9b7421e3"
  project_id := "auto_research_review"
  project_profile := "general"
  trigger := some trigger
  trigger_intent := some trigger_intent
  target_file := "a.py"
  git_revision := some git_revision
  base_file_hash := "4f28cd5e9b7421e34cdaf32605d5c43d3fa492fb3f1cd503c52aad4d0bc1c9a1"
  diff_text := "+x"

/-- Two calls, one after the other, whose collaborators follow scripts. -/
def two_calls (c₁ c₂ : Call) (script₁ script₂ : (o : Op) → Ans o) : History :=
  let (t₁, db₁, p₁) := c₁.orc.play script₁ c₁.request {} 60
  let (t₂, db₂, p₂) := c₂.orc.play script₂ c₂.request db₁ 60
  ⟨db₂, [(c₁, p₁), (c₂, p₂)], t₁.map (fun ev => (0, ev)) ++ t₂.map fun ev => (1, ev)⟩

theorem two_calls_reached {c₁ c₂ : Call} {script₁ script₂ : (o : Op) → Ans o}
    (h₁ : ∀ o, c₁.env.may o (script₁ o)) (h₂ : ∀ o, c₂.env.may o (script₂ o)) :
    (two_calls c₁ c₂ script₁ script₂).Reached := by
  have hstart : History.Reached ⟨{}, [], []⟩ := .init
  have hfirst := Pool.Reachable.run (j := c₁) hstart (play_steps h₁ c₁.orc c₁.request {} 60)
  exact Pool.Reachable.run (j := c₂) hfirst (play_steps h₂ c₂.orc c₂.request _ 60)

theorem two_calls_mem {c₁ c₂ d : Call} {script₁ script₂ : (o : Op) → Ans o} {j : Nat} {p : Running}
    (h : (two_calls c₁ c₂ script₁ script₂).jobs[j]? = some (d, p)) : d = c₁ ∨ d = c₂ := by
  have hmem : d ∈ (two_calls c₁ c₂ script₁ script₂).jobs.map Prod.fst :=
    List.mem_map.mpr ⟨(d, p), List.mem_of_getElem? h, rfl⟩
  have hjobs : (two_calls c₁ c₂ script₁ script₂).jobs.map Prod.fst = [c₁, c₂] := rfl
  rw [hjobs] at hmem
  simpa using hmem

/-- The events before a check are events of the whole log. -/
theorem History.CheckedAt.earlier {w w₁ : History} {i j : Nat} (h : w.CheckedAt i w₁)
    {ev : Event Db Op Ans} (hev : ev ∈ w₁.trace j) : (j, ev) ∈ w.log := by
  obtain ⟨e, l₂, hlog, -⟩ := h.check
  have hmem := Pool.mem_trace.mp hev
  simp [hlog, hmem]

/-- What holds before every check of call `i` in the log holds at its check. -/
theorem History.CheckedAt.pre {w w₁ : History} {i : Nat} (h : w.CheckedAt i w₁) {f : Db → Bool}
    (hall : w.log.all (fun e => e.1 != i || match e.2.op with
      | .create_request _ => f e.2.pre
      | _ => true) = true) : f w₁.state = true := by
  obtain ⟨ev, l₂, hlog, hst, request, hop⟩ := h.check
  have hmem : (i, ev) ∈ w.log := by simp [hlog]
  have he := List.all_eq_true.mp hall _ hmem
  rw [hst]
  simpa [hop] using he

theorem prefix_of_not_mem {α : Type} {l l' l₁ l₂ : List α} {e : α} (h : l ++ l' = l₁ ++ e :: l₂)
    (he : e ∉ l) : ∃ l₃, l₁ = l ++ l₃ := by
  rcases List.append_eq_append_iff.mp h with ⟨l₃, hl, -⟩ | ⟨l₃, hl, hrest⟩
  · exact ⟨l₃, hl⟩
  · cases l₃ with
    | nil => exact ⟨[], by simp [hl]⟩
    | cons e' l₃ =>
      obtain ⟨rfl, -⟩ := List.cons.inj hrest
      exact absurd (by simp [hl]) he

/-- At the check of the second call the first one has run. -/
theorem two_calls_earlier {c₁ c₂ : Call} {script₁ script₂ : (o : Op) → Ans o} {w₁ : History}
    (h : (two_calls c₁ c₂ script₁ script₂).CheckedAt 1 w₁) {ev : Event Db Op Ans}
    (hev : ev ∈ (c₁.orc.play script₁ c₁.request {} 60).1) : ev ∈ w₁.trace 0 := by
  obtain ⟨e, l₂, hlog, -⟩ := h.check
  have hnot : (1, e) ∉ (c₁.orc.play script₁ c₁.request {} 60).1.map fun ev => (0, ev) := by
    intro hmem
    obtain ⟨_, -, heq⟩ := List.mem_map.mp hmem
    cases heq
  obtain ⟨l₃, hl⟩ := prefix_of_not_mem hlog hnot
  rw [Pool.mem_trace, hl]
  exact List.mem_append_left l₃ (List.mem_map.mpr ⟨ev, hev, rfl⟩)

end Nitpicker
