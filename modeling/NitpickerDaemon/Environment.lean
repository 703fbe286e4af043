import NitpickerDaemon.Controller
import NitpickerDaemon.Idempotency

/-!
What surrounds the orchestrator: the job store as it is, and collaborators that answer as
they like. A run leaves a trace of the questions it asked and the answers it got.
-/

set_option autoImplicit false

namespace Nitpicker

open Effect

/-- The collaborators of one run. `may o a` says that `o` can be answered `a`; with
`store_faults` SQLite itself may fail, which raises and leaves the database as it was. -/
structure Env where
  may : (o : Op) → Ans o → Prop
  store_faults : Prop := False

def Env.fault {α : Type} (env : Env) (db : Db) (a : Except PyExc α) (db' : Db) : Prop :=
  env.store_faults ∧ db' = db ∧ ∃ e, a = .error e

def Env.step (env : Env) : Surroundings Db Op Ans := fun db o a db' =>
  match o, a with
  | .create_request request, a =>
    (∃ now r, create_request now request db = (r, db') ∧ a = r.map some) ∨ env.fault db a db'
  | .transition_state request_id from_state to_state reason result_code, a =>
    (∃ now, transition_state now request_id from_state to_state reason result_code db = (a, db')) ∨
      env.fault db a db'
  | .mark_terminal request_id state reason result_code, a =>
    (∃ now, mark_terminal now request_id state reason result_code db = (a, db')) ∨
      env.fault db a db'
  | .append_event request_id event_type payload, a =>
    (∃ now, append_event now request_id event_type payload db = (a, db')) ∨ env.fault db a db'
  | o, a => env.may o a ∧ db' = db

abbrev Trace := List (Event Db Op Ans)

/-- `o` was answered `a` at some moment of the run. -/
def Answered (t : Trace) (o : Op) (a : Ans o) : Prop := ∃ s s', ⟨s, o, a, s'⟩ ∈ t

theorem Answered.append_left {t t' : Trace} {o : Op} {a : Ans o} (h : Answered t o a) :
    Answered (t ++ t') o a := by
  obtain ⟨s, s', hm⟩ := h
  exact ⟨s, s', by simp [hm]⟩

theorem Answered.append_right {t t' : Trace} {o : Op} {a : Ans o} (h : Answered t' o a) :
    Answered (t ++ t') o a := by
  obtain ⟨s, s', hm⟩ := h
  exact ⟨s, s', by simp [hm]⟩

/-- The state an event wrote to the row of its request. -/
def written : Event Db Op Ans → Option ReviewState
  | ⟨_, .create_request _, .ok (some ⟨true, _, _⟩), _⟩ => some .QUEUED
  | ⟨_, .transition_state _ _ to_state _ _, .ok _, _⟩ => some to_state
  | ⟨_, .mark_terminal _ state _ _, .ok _, _⟩ => some state
  | _ => none

/-- The event that stored the request of its run. -/
def creates : Event Db Op Ans → Bool
  | ⟨_, .create_request _, .ok (some ⟨true, _, _⟩), _⟩ => true
  | _ => false

/-- `create_request` reported the request of the run as created. -/
def was_created (t : Trace) : Bool := t.any creates

/-- The last state a run wrote. -/
def recorded (t : Trace) : Option ReviewState := (t.filterMap written).getLast?

theorem recorded_nil : recorded [] = none := rfl

theorem recorded_snoc (t : Trace) (ev : Event Db Op Ans) :
    recorded (t ++ [ev]) = (written ev).or (recorded t) := by
  cases h : written ev <;> simp [recorded, h]

/-- The state in the row of a request. -/
def Db.state_of (db : Db) (request_id : String) : Option ReviewState :=
  (db.find_request request_id).map (·.state)

/-- The requests in the store, in the order of their creation. -/
def Db.requests (db : Db) : List ReviewRequest := db.review_requests.map (·.request)

/-- The payload of the last terminal event of a request. -/
def Db.terminal_event (db : Db) (request_id : String) : Option PyDict :=
  (((db.events_of request_id).filter (·.event_type == "review.terminal")).getLast?).map
    (·.payload_json.loads)

/-- Only events that end no review were added. -/
structure Db.Still (db db' : Db) : Prop where
  rows : db'.review_requests = db.review_requests
  terminal : ∀ request_id, db'.terminal_event request_id = db.terminal_event request_id

/-- The state of one request was written. -/
def Db.Moved (db db' : Db) (request_id : String) (state : ReviewState) : Prop :=
  ∀ id, db'.state_of id = if id = request_id then some state else db.state_of id

theorem Db.Still.refl (db : Db) : db.Still db := ⟨rfl, fun _ => rfl⟩

theorem Db.Still.trans {db₁ db₂ db₃ : Db} (h : db₁.Still db₂) (h' : db₂.Still db₃) :
    db₁.Still db₃ :=
  ⟨h'.rows.trans h.rows, fun id => (h'.terminal id).trans (h.terminal id)⟩

theorem Db.Still.state_of {db db' : Db} (h : db.Still db') (request_id : String) :
    db'.state_of request_id = db.state_of request_id := by
  simp [Db.state_of, Db.find_request, h.rows]

theorem Db.Still.requests {db db' : Db} (h : db.Still db') : db'.requests = db.requests := by
  simp [Db.requests, h.rows]

theorem Db.requests_set_state (db : Db) (now : String) (state : ReviewState)
    (where_ : RequestRow → Bool) : (db.set_state now state where_).requests = db.requests := by
  simp only [Db.requests, Db.set_state, List.map_map]
  refine List.map_congr_left fun r _ => ?_
  simp only [Function.comp]
  split <;> rfl

theorem Db.requests_log (db : Db) (now request_id event_type : String) (payload : JsonText) :
    (db.log now request_id event_type payload).requests = db.requests := rfl

theorem Db.state_of_log (db : Db) (now request_id event_type : String) (payload : JsonText)
    (id : String) : (db.log now request_id event_type payload).state_of id = db.state_of id := rfl

theorem Db.terminal_event_log {db : Db} {now request_id event_type : String} {payload : JsonText}
    (h : event_type ≠ "review.terminal") (id : String) :
    (db.log now request_id event_type payload).terminal_event id = db.terminal_event id := by
  rw [Db.terminal_event, Db.events_of_log]
  split
  · simp [Db.terminal_event, List.filter_append, h]
  · rfl

theorem Db.still_log {db : Db} {now request_id event_type : String} {payload : JsonText}
    (h : event_type ≠ "review.terminal") :
    db.Still (db.log now request_id event_type payload) :=
  ⟨rfl, Db.terminal_event_log h⟩

theorem Db.find_request_set_state (db : Db) (now : String) (state : ReviewState)
    (where_ : RequestRow → Bool) (id : String) :
    (db.set_state now state where_).find_request id = (db.find_request id).map fun r =>
      if where_ r then { r with state := state, updated_at := now } else r := by
  have hp : ((fun r : RequestRow => r.request_id == id) ∘ fun r =>
      if where_ r then { r with state := state, updated_at := now } else r) =
        fun r => r.request_id == id := by
    funext r
    simp only [Function.comp]
    split <;> rfl
  simp only [Db.find_request, Db.set_state, List.find?_map, hp]

theorem Db.find_request_some {db : Db} {id : String} {row : RequestRow}
    (h : db.find_request id = some row) : row ∈ db.review_requests ∧ row.request_id = id :=
  ⟨List.mem_of_find?_eq_some h, by simpa using List.find?_some h⟩

theorem Db.find_request_isSome {db : Db} {row : RequestRow} (h : row ∈ db.review_requests) :
    ∃ r, db.find_request row.request_id = some r := by
  cases hf : db.find_request row.request_id with
  | none =>
    have hn := List.find?_eq_none.mp hf row h
    simp at hn
  | some r => exact ⟨r, rfl⟩

theorem Db.state_of_none {db : Db} {id : String} :
    db.state_of id = none ↔ ∀ row ∈ db.review_requests, row.request_id ≠ id := by
  simp [Db.state_of, Db.find_request]

theorem Db.moved_marked {db : Db} {now : String} {state : ReviewState} {row : RequestRow}
    {payload : JsonText} (h : row ∈ db.review_requests) :
    db.Moved ((db.set_state now state (·.request_id == row.request_id)).log now row.request_id
      "review.terminal" payload) row.request_id state := by
  intro id
  rw [Db.state_of_log, Db.state_of, Db.find_request_set_state]
  by_cases hid : id = row.request_id
  · obtain ⟨r, hr⟩ := Db.find_request_isSome h
    have hrid := (Db.find_request_some hr).2
    simp [hid, hr, hrid]
  · rw [if_neg hid, Db.state_of]
    cases hf : db.find_request id with
    | none => rfl
    | some r =>
      have hrid := (Db.find_request_some hf).2
      simp [hrid, hid]

theorem Db.terminal_event_marked (db : Db) (now : String) (where_ : RequestRow → Bool)
    (state : ReviewState) (request_id : String) (payload : JsonText) :
    ((db.set_state now state where_).log now request_id "review.terminal" payload).terminal_event
      request_id = some payload.loads := by
  rw [Db.terminal_event, Db.events_of_log]
  simp [List.filter_append]

theorem Db.Consistent.moved_changed {db : Db} (hc : db.Consistent) {now : String}
    {state : ReviewState} {row : RequestRow} {payload : JsonText}
    (h : row ∈ db.review_requests) :
    db.Moved ((db.set_state now state fun r =>
        r.request_id == row.request_id && r.state == row.state).log now row.request_id
      "review.state_changed" payload) row.request_id state := by
  intro id
  rw [Db.state_of_log, Db.state_of, Db.find_request_set_state]
  by_cases hid : id = row.request_id
  · simp [hid, hc.find_request h]
  · rw [if_neg hid, Db.state_of]
    cases hf : db.find_request id with
    | none => rfl
    | some r =>
      have hrid := (Db.find_request_some hf).2
      simp [hrid, hid]

theorem Db.moved_inserted {db : Db} {now : String} {row : RequestRow} {payload : JsonText}
    (h : db.conflicts row = false) (hs : row.state = .QUEUED) :
    db.Moved ((db.insert row).log now row.request_id "review.request" payload) row.request_id
      .QUEUED := by
  intro id
  rw [Db.conflicts_false] at h
  have hf : (db.insert row).find_request id =
      (db.find_request id).or ([row].find? (·.request_id == id)) := List.find?_append ..
  rw [Db.state_of_log, Db.state_of, hf]
  by_cases hid : id = row.request_id
  · have hn : db.find_request id = none := by
      simp only [Db.find_request, List.find?_eq_none, beq_iff_eq]
      intro r hr
      rw [hid]
      exact (h r hr).1
    rw [hn]
    simp [hid, hs]
  · have hn : [row].find? (·.request_id == id) = none := by simp [Ne.symm hid]
    rw [hn, if_neg hid, Option.or_none, Db.state_of]

/-- What `create_request` can do during a run. -/
inductive Created (db : Db) (request : ReviewRequest) :
    Except PyExc (Option JobCreationOutcome) → Db → Prop where
  | raised (e : PyExc) : Created db request (.error e) db
  | created (db' : Db) : ¬db.KeyStored request.idempotency_key →
      ¬db.IdStored request.request_id → ¬request.HasNull →
      db'.requests = db.requests ++ [request] →
      db.Moved db' request.request_id .QUEUED →
      Created db request (.ok (some ⟨true, false, some ReviewState.QUEUED.value⟩)) db'
  | duplicate (db' : Db) : db.Still db' →
      (db.KeyStored request.idempotency_key ∨ db.IdStored request.request_id ∨ request.HasNull) →
      Created db request
        (.ok (some ⟨false, true, (db.find_key request.idempotency_key).map (·.state.value)⟩)) db'

section Steps

variable {env : Env} {db db' : Db}

theorem Env.step_created {request : ReviewRequest} {a : Except PyExc (Option JobCreationOutcome)}
    (h : env.step db (.create_request request) a db') : Created db request a db' := by
  rcases h with ⟨now, r, hr, rfl⟩ | ⟨-, rfl, e, rfl⟩
  · cases create_request_cases hr with
    | raised e _ => exact .raised e
    | created metadata_json row payload hd hrow hc hp =>
      obtain ⟨hk, hi⟩ := Db.not_conflicts hrow hc
      have hreq := row_request hrow (PyDict.dumps_ok hd)
      have hn : ¬request.HasNull := fun hn => by
        rw [(row_none_iff now request metadata_json).mpr hn] at hrow
        cases hrow
      obtain ⟨hid, -, hs, -⟩ := row_fields hrow
      have hm := @Db.moved_inserted db now row payload hc hs
      rw [hid] at hm
      refine .created _ hk hi hn ?_ hm
      simp [Db.requests, hreq]
    | duplicate metadata_json existing payload hd href hkey =>
      have hstill : db.Still (db.log now existing.request_id "review.duplicate_ignored" payload) :=
        Db.still_log (by decide)
      have hd := @Created.duplicate db request _ hstill
        (.inl ⟨existing, Db.find_key_some hkey⟩)
      rw [hkey] at hd
      exact hd
    | swallowed metadata_json hd href hkey =>
      have hreason := Db.refused_reason href (Db.find_key_none hkey)
      have hd := @Created.duplicate db request db (.refl db) (.inr hreason)
      rw [hkey] at hd
      exact hd
  · exact .raised e

theorem Env.step_transition {request_id : String} {from_state to_state : ReviewState}
    {reason result_code : PyVal} {a : Except PyExc Unit} (hc : db.Consistent)
    (h : env.step db (.transition_state request_id from_state to_state reason result_code) a db') :
    (∃ e, a = .error e ∧ db' = db) ∨
    (a = .ok () ∧ can_transition from_state to_state = true ∧
      db.state_of request_id = some from_state ∧ db.Moved db' request_id to_state ∧
      db'.requests = db.requests) := by
  rcases h with ⟨now, hr⟩ | ⟨-, rfl, e, rfl⟩
  · cases transition_state_cases hr with
    | invalid e _ => exact .inl ⟨e, rfl, rfl⟩
    | mismatch e _ => exact .inl ⟨e, rfl, rfl⟩
    | unserializable e _ => exact .inl ⟨e, rfl, rfl⟩
    | changed row payload hcan hrow hid hs hp =>
      subst hid hs
      have hst : db.state_of row.request_id = some row.state := by
        simp [Db.state_of, hc.find_request hrow]
      exact .inr ⟨rfl, hcan, hst, hc.moved_changed hrow, db.requests_set_state _ _ _⟩
  · exact .inl ⟨e, rfl, rfl⟩

theorem Env.step_mark {request_id : String} {state : ReviewState} {reason result_code : PyVal}
    {a : Except PyExc Unit}
    (h : env.step db (.mark_terminal request_id state reason result_code) a db') :
    (∃ e, a = .error e ∧ db' = db) ∨
    (a = .ok () ∧ db.Moved db' request_id state ∧ db'.requests = db.requests ∧
      db'.terminal_event request_id = some [("state", .str state.value), ("reason", reason),
        ("result_code", result_code)]) := by
  rcases h with ⟨now, hr⟩ | ⟨-, rfl, e, rfl⟩
  · cases mark_terminal_cases hr with
    | missing e _ => exact .inl ⟨e, rfl, rfl⟩
    | unserializable e _ => exact .inl ⟨e, rfl, rfl⟩
    | marked row payload hrow hid hp =>
      subst hid
      refine .inr ⟨rfl, Db.moved_marked hrow, db.requests_set_state _ _ _, ?_⟩
      rw [Db.terminal_event_marked, hp]
  · exact .inl ⟨e, rfl, rfl⟩

/-- The questions that leave the rows alone and end no review. -/
def Op.silent : Op → Prop
  | .create_request _ => False
  | .transition_state _ _ _ _ _ => False
  | .mark_terminal _ _ _ _ => False
  | .append_event _ event_type _ => event_type = "review.stage"
  | _ => True

theorem Env.step_silent {o : Op} {a : Ans o} (ho : o.silent) (h : env.step db o a db') :
    db.Still db' := by
  cases o with
  | create_request request => exact ho.elim
  | transition_state request_id from_state to_state reason result_code => exact ho.elim
  | mark_terminal request_id state reason result_code => exact ho.elim
  | append_event request_id event_type payload =>
    obtain rfl : event_type = "review.stage" := ho
    rcases h with ⟨now, hr⟩ | ⟨-, rfl, -⟩
    · cases append_event_cases hr with
      | unserializable e _ => exact .refl _
      | appended payload_json _ => exact Db.still_log (by decide)
    · exact .refl _
  | _ =>
    obtain ⟨-, rfl⟩ := h
    exact .refl _

/-- The only events a run appends itself are stage events. -/
def Op.lawful : Op → Prop
  | .append_event _ event_type _ => event_type = "review.stage"
  | _ => True

theorem Env.step_db {o : Op} {a : Ans o} (ho : o.lawful) (h : env.step db o a db') :
    DbStep db db' := by
  cases o with
  | create_request request =>
    rcases h with ⟨now, r, hr, -⟩ | ⟨-, rfl, -⟩
    · exact create_request_step hr
    · exact .same
  | transition_state request_id from_state to_state reason result_code =>
    rcases h with ⟨now, hr⟩ | ⟨-, rfl, -⟩
    · exact transition_state_step hr
    · exact .same
  | mark_terminal request_id state reason result_code =>
    rcases h with ⟨now, hr⟩ | ⟨-, rfl, -⟩
    · exact mark_terminal_step hr
    · exact .same
  | append_event request_id event_type payload =>
    obtain rfl : event_type = "review.stage" := ho
    rcases h with ⟨now, hr⟩ | ⟨-, rfl, -⟩
    · exact append_event_step hr (by decide)
    · exact .same
  | _ =>
    obtain ⟨-, rfl⟩ := h
    exact .same

end Steps

/-- The job store as it is, and every other question answered by `script`. -/
def scripted (script : (o : Op) → Ans o) (db : Db) (o : Op) : Ans o × Db :=
  match o with
  | .create_request request =>
    let (r, db') := create_request "t" request db
    (r.map some, db')
  | .transition_state request_id from_state to_state reason result_code =>
    transition_state "t" request_id from_state to_state reason result_code db
  | .mark_terminal request_id state reason result_code =>
    mark_terminal "t" request_id state reason result_code db
  | .append_event request_id event_type payload =>
    append_event "t" request_id event_type payload db
  | o => (script o, db)

theorem scripted_step {env : Env} {script : (o : Op) → Ans o} (h : ∀ o, env.may o (script o))
    (db : Db) (o : Op) : env.step db o (scripted script db o).1 (scripted script db o).2 := by
  cases o with
  | create_request request => exact .inl ⟨"t", _, rfl, rfl⟩
  | transition_state request_id from_state to_state reason result_code => exact .inl ⟨"t", rfl⟩
  | mark_terminal request_id state reason result_code => exact .inl ⟨"t", rfl⟩
  | append_event request_id event_type payload => exact .inl ⟨"t", rfl⟩
  | _ => exact ⟨h _, rfl⟩

/-- Collaborators that let everything pass, with the default policy and consensus. -/
def agreeable : (o : Op) → Ans o
  | .create_request _ => .ok none
  | .transition_state _ _ _ _ _ => .ok ()
  | .mark_terminal _ _ _ _ => .ok ()
  | .append_event _ _ _ => .ok ()
  | .allow_new_job _ => .ok true
  | .evaluate_request request =>
    .ok (({} : DefaultPolicyEngine).evaluate_request (fun _ => none) request)
  | .build_context request => .ok ⟨request.request_id, "", 0, [], []⟩
  | .should_offload request size => .ok (DefaultPolicyEngine.should_offload request size)
  | .submit request => .ok ⟨request.request_id, false, "", "", none⟩
  | .get_or_create _ _ => .ok ""
  | .cache_hits => 0
  | .agent_run agent _ _ => .ok ⟨agent.class_name, .pass, 1, [], [], none⟩
  | .decide decisions => .ok (DefaultConsensusEngine.decide (fun _ => "") decisions)
  | .llm_review _ _ _ => .ok []
  | .create_patch _ _ => .ok none
  | .verify_patch _ patch => .ok ⟨true, 0, "", "", patch.patch_hash⟩
  | .apply_patch _ _ => .ok {}
  | .publish_diagnostics _ _ => .ok ()
  | .publish_quick_fix _ _ _ _ => .ok ()
  | .log_result _ => .ok ()
  | .notify _ _ => .ok ()
  | .analytics_write _ => .ok ()
  | .monotonic => 0

/-- Collaborators that may answer anything over a job store that does not fail. -/
def anyone : Env where
  may := fun _ _ => True

end Nitpicker
