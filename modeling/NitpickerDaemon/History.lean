import NitpickerDaemon.Effect.Pool
import NitpickerDaemon.RunState

/-!
Many calls of `run_once` over one job store. The calls may overlap in any way, one store
call at a time; a process that stops leaves its call unanswered.
-/

set_option autoImplicit false

namespace Nitpicker

open Effect

/-- One call of `run_once`, with the orchestrator and the collaborators it runs with. -/
structure Call where
  orc : Orchestrator
  env : Env
  request : ReviewRequest

abbrev History := Pool Call Db Op Ans (Except PyExc ReviewResult × Locals)

/-- A history over a store that was empty at first. -/
abbrev History.Reached (w : History) : Prop :=
  Pool.Reachable (fun c : Call => c.env.step) (fun c => c.orc.run_once c.request {}) {} w

/-- Call number `i` has not returned yet. -/
def History.InProgress (w : History) (i : Nat) : Prop :=
  ∃ c o k, w.jobs[i]? = some (c, .call o k)

theorem recorded_append (t t' : Trace) :
    recorded (t ++ t') = (recorded t').or (recorded t) := by
  simp [recorded, List.filterMap_append, List.getLast?_append]

theorem written_silent {ev : Event Db Op Ans} (h : ev.op.silent) : written ev = none := by
  obtain ⟨s, o, a, s'⟩ := ev
  cases o <;> first | rfl | exact h.elim

theorem recorded_silent {t : Trace} (h : ∀ ev ∈ t, ev.op.silent) : recorded t = none := by
  have hnil : t.filterMap written = [] :=
    List.filterMap_eq_nil_iff.mpr fun ev hev => written_silent (h ev hev)
  rw [recorded, hnil]
  rfl

namespace Orchestrator

theorem record_failure_unpersisted {request : ReviewRequest} {state : ReviewState}
    {reason code : String} {l : Locals} (h : l.request_persisted = false) :
    record_failure request state reason code l = .ret (.ok (), l) := by
  show (if l.request_persisted && !l.current_state.terminal && l.current_state != state then _
    else pure () : Review Unit) l = _
  rw [h]
  rfl

theorem mark_failure_unpersisted {request : ReviewRequest} {state : ReviewState}
    {reason code : String} {l : Locals} (h : l.request_persisted = false) :
    mark_failure request state reason code l = .ret (.ok (), l) := by
  show (if l.request_persisted = true then _ else pure () : Review Unit) l = _
  rw [h]
  rfl

/-- A failure before the request was persisted only reaches the output channels. -/
theorem handle_failure_unpersisted {orc : Orchestrator} {request : ReviewRequest} {error : PyExc}
    {l : Locals} (h : l.request_persisted = false) :
    (orc.handle_failure request error l).Within (fun _ _ => True) Op.channel fun _ => True := by
  unfold handle_failure
  generalize classify_failure error = c
  obtain ⟨state, status, code⟩ := c
  refine Prog.Within.bind (R := fun r => r = (.ok (), l)) ?_ ?_
  · rw [record_failure_unpersisted h]
    rfl
  intro r hr
  subst hr
  refine Prog.Within.bind (R := fun r => r = (.ok (), l)) ?_ ?_
  · rw [mark_failure_unpersisted h]
    rfl
  intro r hr
  subst hr
  have hw : ∀ result : ReviewResult, Proc.Within (fun _ _ => True) Op.channel id (fun _ => True)
      (orc.publish_diagnostics result request.target_file >>= fun _ =>
        orc.log_result result >>= fun _ => pure result) := fun result =>
    .bind publish_diagnostics_channel fun _ => .bind log_result_channel fun _ => .pure _
  exact (hw _ l).mono (fun _ _ ha => ha) (fun _ ho => ho) fun _ _ => trivial

end Orchestrator

/-- Where the request was not created, the rest of the run only reaches the output channels. -/
theorem rest_uncreated {orc : Orchestrator} {request : ReviewRequest} {db db' : Db}
    {a : Except PyExc (Option JobCreationOutcome)} (h : Created db request a db')
    (hc : creates ⟨db, .create_request request, a, db'⟩ = false) :
    (orc.rest request a {}).Within (fun _ _ => True) Op.channel fun _ => True := by
  cases h with
  | raised e => exact Orchestrator.handle_failure_unpersisted rfl
  | created _ _ _ _ _ _ => cases hc
  | duplicate _ _ _ =>
    have hw : Proc.Within (fun _ _ => True) Op.channel id (fun _ => False)
        (Proc.attempt (orc.handle_duplicate_request request
          ((db.find_key request.idempotency_key).map (·.state.value)))
          (orc.handle_failure request)) :=
      Orchestrator.handle_duplicate_request_channel.attempt fun _ (he : False) => he.elim
    exact (hw {}).mono (fun _ _ ha => ha) (fun _ ho => ho) fun _ _ => trivial

section Path

variable {env : Env} {orc : Orchestrator} {request : ReviewRequest} {t : Trace}
  {p : Running}

/-- A call that did not create its request writes no state; after the check it only reaches
the output channels. -/
theorem uncreated_silent (hp : Path (orc.run_once request {}) t p)
    (hs : ∀ ev ∈ t, env.step ev.pre ev.op ev.ans ev.post) (hc : was_created t = false)
    (ht : t ≠ []) : (∀ ev ∈ t, written ev = none) ∧ (∀ ev ∈ t.tail, ev.op.channel) ∧
      p.Within (fun _ _ => True) Op.channel fun _ => True := by
  rcases run_path_head hp with ⟨rfl, -⟩ | ⟨s, a, s', t', rfl, hrest, hjob⟩
  · exact absurd rfl ht
  · have hcr : Created s request a s' := Env.step_created (hs _ List.mem_cons_self)
    rw [was_created_head hjob] at hc
    obtain ⟨hchannel, hend⟩ := hrest.within (rest_uncreated hcr hc) fun _ _ => trivial
    refine ⟨fun ev hev => ?_, hchannel, hend⟩
    rcases List.mem_cons.mp hev with rfl | hev
    · cases hcr with
      | raised e => rfl
      | created _ _ _ _ _ _ => cases hc
      | duplicate _ _ _ => rfl
    · exact written_silent (Op.background_silent (Op.channel_background (hchannel ev hev)))

/-- What a call can ask next: first the creation of its request, then only questions of its
job, and silent ones when the request was not created. -/
theorem next_question {o : Op} {k : Ans o → Running}
    (hp : Path (orc.run_once request {}) t (.call o k))
    (hs : ∀ ev ∈ t, env.step ev.pre ev.op ev.ans ev.post) :
    (t = [] ∧ o = .create_request request) ∨
      (o.of_job request.request_id ∧ (was_created t = false → o.silent)) := by
  rcases run_path_head hp with ⟨ht, hend⟩ | ⟨s, a, s', t', ht, hrest, -⟩
  · rw [Orchestrator.run_once_call] at hend
    cases hend
    exact .inl ⟨ht, rfl⟩
  · have hw : Proc.Within (fun _ _ => True) (Op.of_job request.request_id) (fun _ => ())
      (fun _ => False) (orc.rest request a) := Orchestrator.rest_within
    refine .inr ⟨(hrest.within (hw {}) fun _ _ => trivial).2.1, fun hc => ?_⟩
    exact Op.background_silent (Op.channel_background (uncreated_silent hp hs hc (by simp [ht])).2.2.1)

end Path

/-- Call number `i` is `c`, and it has stored its request. -/
structure History.Created (w : History) (i : Nat) (c : Call) : Prop where
  call : ∃ p, w.jobs[i]? = some (c, p)
  created : was_created (w.trace i) = true

/-- The rows of the store are those of the calls that created them, each in the state its
call recorded last. -/
structure History.Inv (w : History) : Prop where
  consistent : w.state.Consistent
  stored : ∀ r ∈ w.state.requests, ∃ i c, w.Created i c ∧ c.request = r
  created : ∀ i c, w.Created i c → c.request ∈ w.state.requests ∧
    w.state.state_of c.request.request_id = recorded (w.trace i)
  apart : ∀ i j c d, w.Created i c → w.Created j d →
    c.request.request_id = d.request.request_id → i = j

section Step

variable {w : History} {i : Nat} {c : Call} {o : Op} {a : Ans o} {s' : Db}
  {k : Ans o → Running}

/-- The history after call `i` was answered `a`. -/
abbrev History.answered (w : History) (i : Nat) (c : Call) (o : Op) (a : Ans o) (s' : Db)
    (k : Ans o → Running) : History :=
  ⟨s', w.jobs.set i (c, k a), w.log ++ [(i, ⟨w.state, o, a, s'⟩)]⟩

theorem answered_trace_self :
    (w.answered i c o a s' k).trace i = w.trace i ++ [⟨w.state, o, a, s'⟩] := by
  rw [Pool.trace_snoc, if_pos rfl]
  rfl

theorem answered_trace_ne {n : Nat} (hn : n ≠ i) :
    (w.answered i c o a s' k).trace n = w.trace n := by
  rw [Pool.trace_snoc, if_neg (Ne.symm hn), List.append_nil]
  rfl

theorem answered_created_self (hi : w.jobs[i]? = some (c, .call o k)) {d : Call} :
    (w.answered i c o a s' k).Created i d ↔
      d = c ∧ (was_created (w.trace i) || creates ⟨w.state, o, a, s'⟩) = true := by
  have hlt := (List.getElem?_eq_some_iff.mp hi).1
  constructor
  · intro h
    obtain ⟨⟨p, hp⟩, hc⟩ := h
    rw [answered_trace_self, was_created_snoc] at hc
    simp only [List.getElem?_set_self hlt, Option.some.injEq, Prod.mk.injEq] at hp
    exact ⟨hp.1.symm, hc⟩
  · intro h
    obtain ⟨rfl, hc⟩ := h
    refine ⟨⟨k a, List.getElem?_set_self hlt⟩, ?_⟩
    rw [answered_trace_self, was_created_snoc]
    exact hc

theorem answered_created_ne {n : Nat} (hn : n ≠ i) {d : Call} :
    (w.answered i c o a s' k).Created n d ↔ w.Created n d := by
  have hjobs : (w.jobs.set i (c, k a))[n]? = w.jobs[n]? := List.getElem?_set_ne (Ne.symm hn)
  constructor
  · intro h
    obtain ⟨⟨p, hp⟩, hc⟩ := h
    rw [answered_trace_ne hn] at hc
    exact ⟨⟨p, hjobs.symm.trans hp⟩, hc⟩
  · intro h
    obtain ⟨⟨p, hp⟩, hc⟩ := h
    refine ⟨⟨p, hjobs.trans hp⟩, ?_⟩
    rw [answered_trace_ne hn]
    exact hc

/-- A history whose calls have created the same requests, in the same rows. -/
theorem answered_created_iff (hi : w.jobs[i]? = some (c, .call o k))
    (hn : creates ⟨w.state, o, a, s'⟩ = false) {n : Nat} {d : Call} :
    (w.answered i c o a s' k).Created n d ↔ w.Created n d := by
  by_cases hni : n = i
  · subst hni
    rw [answered_created_self hi, hn, Bool.or_false]
    constructor
    · intro h
      obtain ⟨rfl, hc⟩ := h
      exact ⟨⟨_, hi⟩, hc⟩
    · intro h
      obtain ⟨⟨p, hp⟩, hc⟩ := h
      rw [hi] at hp
      cases hp
      exact ⟨rfl, hc⟩
  · exact answered_created_ne hni

/-- An answer that writes no state. -/
theorem History.Inv.still (h : w.Inv) (hi : w.jobs[i]? = some (c, .call o k))
    (hc : s'.Consistent) (hs : ∀ id, s'.state_of id = w.state.state_of id)
    (hq : s'.requests = w.state.requests) (hw : written ⟨w.state, o, a, s'⟩ = none)
    (hn : creates ⟨w.state, o, a, s'⟩ = false) : (w.answered i c o a s' k).Inv := by
  have hiff := fun (n : Nat) (d : Call) => answered_created_iff (n := n) (d := d) hi hn
  have hrec : ∀ n, recorded ((w.answered i c o a s' k).trace n) = recorded (w.trace n) := by
    intro n
    by_cases hni : n = i
    · subst hni
      rw [answered_trace_self, recorded_snoc, hw, Option.none_or]
    · rw [answered_trace_ne hni]
  refine ⟨hc, fun r hr => ?_, fun n d hd => ?_, fun n m d e hd he hid => ?_⟩
  · obtain ⟨n, d, hd, hreq⟩ := h.stored r (hq ▸ hr)
    exact ⟨n, d, (hiff n d).mpr hd, hreq⟩
  · obtain ⟨hmem, hstate⟩ := h.created n d ((hiff n d).mp hd)
    rw [hrec n]
    exact ⟨hq.symm ▸ hmem, (hs _).trans hstate⟩
  · exact h.apart n m d e ((hiff n d).mp hd) ((hiff m e).mp he) hid

/-- A call that created its request writes its row. -/
theorem History.Inv.moved (h : w.Inv) (hi : w.jobs[i]? = some (c, .call o k))
    (hcr : was_created (w.trace i) = true) (hc : s'.Consistent) {state : ReviewState}
    (hm : w.state.Moved s' c.request.request_id state) (hq : s'.requests = w.state.requests)
    (hw : written ⟨w.state, o, a, s'⟩ = some state)
    (hn : creates ⟨w.state, o, a, s'⟩ = false) : (w.answered i c o a s' k).Inv := by
  have hiff := fun (n : Nat) (d : Call) => answered_created_iff (n := n) (d := d) hi hn
  have hself : w.Created i c := ⟨⟨_, hi⟩, hcr⟩
  refine ⟨hc, fun r hr => ?_, fun n d hd => ?_, fun n m d e hd he hid => ?_⟩
  · obtain ⟨n, d, hd, hreq⟩ := h.stored r (hq ▸ hr)
    exact ⟨n, d, (hiff n d).mpr hd, hreq⟩
  · have hold := (hiff n d).mp hd
    obtain ⟨hmem, hstate⟩ := h.created n d hold
    refine ⟨hq.symm ▸ hmem, (hm _).trans ?_⟩
    by_cases hni : n = i
    · subst hni
      obtain ⟨p, hp⟩ := hold.call
      rw [hi] at hp
      cases hp
      rw [if_pos rfl, answered_trace_self, recorded_snoc, hw, Option.some_or]
    · have hid : d.request.request_id ≠ c.request.request_id := fun hid =>
        hni (h.apart n i d c hold hself hid)
      rw [if_neg hid, answered_trace_ne hni]
      exact hstate
  · exact h.apart n m d e ((hiff n d).mp hd) ((hiff m e).mp he) hid

/-- A call creates its request. -/
theorem History.Inv.inserted (h : w.Inv) (hi : w.jobs[i]? = some (c, .call o k))
    (hfresh : w.trace i = []) (hc : s'.Consistent)
    (hid : ¬w.state.IdStored c.request.request_id)
    (hm : w.state.Moved s' c.request.request_id .QUEUED)
    (hq : s'.requests = w.state.requests ++ [c.request])
    (hw : written ⟨w.state, o, a, s'⟩ = some .QUEUED)
    (hn : creates ⟨w.state, o, a, s'⟩ = true) : (w.answered i c o a s' k).Inv := by
  have hother : ∀ n d, w.Created n d → n ≠ i ∧ d.request.request_id ≠ c.request.request_id := by
    intro n d hd
    refine ⟨fun hni => ?_, fun heq => hid ?_⟩
    · have hcr := hd.created
      rw [hni, hfresh] at hcr
      cases hcr
    · rw [← heq]
      exact mem_requests_stored (h.created n d hd).1
  have hself : (w.answered i c o a s' k).Created i c :=
    (answered_created_self hi).mpr ⟨rfl, by rw [hn, Bool.or_true]⟩
  have hcases : ∀ n d, (w.answered i c o a s' k).Created n d →
      (n = i ∧ d = c) ∨ w.Created n d := by
    intro n d hd
    by_cases hni : n = i
    · subst hni
      exact .inl ⟨rfl, ((answered_created_self hi).mp hd).1⟩
    · exact .inr ((answered_created_ne hni).mp hd)
  refine ⟨hc, fun r hr => ?_, fun n d hd => ?_, fun n m d e hd he heq => ?_⟩
  · rw [hq, List.mem_append, List.mem_singleton] at hr
    rcases hr with hr | rfl
    · obtain ⟨n, d, hd, hreq⟩ := h.stored r hr
      exact ⟨n, d, (answered_created_ne (hother n d hd).1).mpr hd, hreq⟩
    · exact ⟨i, c, hself, rfl⟩
  · rcases hcases n d hd with ⟨rfl, rfl⟩ | hold
    · refine ⟨by simp [hq], (hm _).trans ?_⟩
      rw [if_pos rfl, answered_trace_self, recorded_snoc, hw, Option.some_or]
    · obtain ⟨hni, hne⟩ := hother n d hold
      obtain ⟨hmem, hstate⟩ := h.created n d hold
      refine ⟨by simp [hq, hmem], (hm _).trans ?_⟩
      rw [if_neg hne, answered_trace_ne hni]
      exact hstate
  · rcases hcases n d hd with ⟨rfl, rfl⟩ | hold
    · rcases hcases m e he with ⟨rfl, rfl⟩ | hold'
      · rfl
      · exact absurd heq.symm (hother m e hold').2
    · rcases hcases m e he with ⟨rfl, rfl⟩ | hold'
      · exact absurd heq (hother n d hold).2
      · exact h.apart n m d e hold hold' heq

/-- What one answered question does to a history, whichever call asked it. -/
theorem History.Inv.answer (h : w.Inv) (hi : w.jobs[i]? = some (c, .call o k))
    (hpath : Path (c.orc.run_once c.request {}) (w.trace i) (.call o k))
    (hevents : ∀ ev ∈ w.trace i, c.env.step ev.pre ev.op ev.ans ev.post)
    (hs : c.env.step w.state o a s') : (w.answered i c o a s' k).Inv := by
  rcases next_question hpath hevents with ⟨hfresh, rfl⟩ | ⟨hjob, hsilent⟩
  · have hc : s'.Consistent := h.consistent.step (Env.step_db (o := .create_request c.request) trivial hs)
    have hcr : Nitpicker.Created w.state c.request a s' := Env.step_created hs
    cases hcr with
    | raised e => exact h.still hi hc (fun _ => rfl) rfl rfl rfl
    | created _ _ hid _ hq hm => exact h.inserted hi hfresh hc hid hm hq rfl rfl
    | duplicate _ hst _ => exact h.still hi hc hst.state_of hst.requests rfl rfl
  · have hc : s'.Consistent :=
      h.consistent.step (Env.step_db (Op.of_run_lawful (Op.of_job_of_run hjob)) hs)
    by_cases hcreated : was_created (w.trace i) = true
    · cases o with
      | create_request request => exact hjob.elim
      | transition_state request_id from_state to_state reason result_code =>
        obtain ⟨rfl, -⟩ := hjob
        rcases Env.step_transition h.consistent hs with ⟨e, rfl, rfl⟩ | ⟨rfl, -, -, hm, hq⟩
        · exact h.still hi hc (fun _ => rfl) rfl rfl rfl
        · exact h.moved hi hcreated hc hm hq rfl rfl
      | mark_terminal request_id state reason result_code =>
        obtain ⟨rfl, -⟩ := hjob
        rcases Env.step_mark hs with ⟨e, rfl, rfl⟩ | ⟨rfl, hm, hq, -⟩
        · exact h.still hi hc (fun _ => rfl) rfl rfl rfl
        · exact h.moved hi hcreated hc hm hq rfl rfl
      | append_event request_id event_type payload =>
        have hst : w.state.Still s' := Env.step_silent (o := .append_event _ _ _) hjob hs
        exact h.still hi hc hst.state_of hst.requests rfl rfl
      | _ =>
        have hst : w.state.Still s' := by
          refine Env.step_silent ?_ hs
          trivial
        exact h.still hi hc hst.state_of hst.requests rfl rfl
    · have ho := hsilent (Bool.eq_false_iff.mpr hcreated)
      have hst : w.state.Still s' := Env.step_silent ho hs
      refine h.still hi hc hst.state_of hst.requests (written_silent ho) ?_
      have hno : creates ⟨w.state, o, a, s'⟩ = false := creates_of_job hjob
      exact hno

end Step

theorem History.Reached.inv {w : History} (h : w.Reached) : w.Inv := by
  induction h with
  | init =>
    refine ⟨Db.consistent_empty, fun r hr => ?_, fun n d hd => ?_, fun n m d e hd he hid => ?_⟩
    · cases hr
    · obtain ⟨p, hp⟩ := hd.call
      simp at hp
    · obtain ⟨p, hp⟩ := hd.call
      simp at hp
  | @step w w' h hs ih =>
    cases hs with
    | start c =>
      have hcr : ∀ n d, History.Created { w with jobs := w.jobs ++ [(c, c.orc.run_once c.request {})] }
          n d → History.Created w n d := by
        intro n d hd
        rcases Nat.lt_or_ge n w.jobs.length with hlt | hge
        · obtain ⟨⟨p, hp⟩, hc⟩ := hd
          rw [List.getElem?_append_left hlt] at hp
          exact ⟨⟨p, hp⟩, hc⟩
        · have hfresh := h.trace_fresh hge
          have hc := hd.created
          unfold Pool.trace at hfresh hc
          rw [hfresh] at hc
          cases hc
      refine ⟨ih.consistent, fun r hr => ?_, fun n d hd => ih.created n d (hcr n d hd),
        fun n m d e hd he hid => ih.apart n m d e (hcr n d hd) (hcr m e he) hid⟩
      obtain ⟨n, d, ⟨⟨p, hp⟩, hc⟩, hreq⟩ := ih.stored r hr
      refine ⟨n, d, ⟨⟨p, ?_⟩, hc⟩, hreq⟩
      rw [List.getElem?_append_left (List.getElem?_eq_some_iff.mp hp).1, hp]
    | @answer i c o k a s' hi hδ => exact ih.answer hi (h.path hi) (h.event hi) hδ

end Nitpicker
