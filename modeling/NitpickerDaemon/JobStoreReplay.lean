import NitpickerDaemon.JobStoreSteps

/-!
The event log of the job store against its rows: replaying the lifecycle events of a
request gives the state in its row.
-/

set_option autoImplicit false

namespace Nitpicker

open Effect

def EventRow.field (event : EventRow) (key : String) : Option ReviewState :=
  match event.payload_json.loads.lookup key with
  | some (.str s) => ReviewState.ofValue s
  | _ => none

def replay_event (state : Option ReviewState) (event : EventRow) : Option ReviewState :=
  if event.event_type = "review.request" then event.field "state"
  else if event.event_type = "review.state_changed" then event.field "to"
  else if event.event_type = "review.terminal" then event.field "state"
  else state

def replay (events : List EventRow) : Option ReviewState := events.foldl replay_event none

def lifecycle : List String := ["review.request", "review.state_changed", "review.terminal"]

def Db.events_of (db : Db) (request_id : String) : List EventRow :=
  db.review_events.filter (·.request_id == request_id)

theorem replay_append (events : List EventRow) (e : EventRow) :
    replay (events ++ [e]) = replay_event (replay events) e := by simp [replay]

theorem replay_event_other {e : EventRow} (h : e.event_type ∉ lifecycle)
    (state : Option ReviewState) : replay_event state e = state := by
  simp only [lifecycle, List.mem_cons, List.not_mem_nil, or_false, not_or] at h
  simp [replay_event, h]

/-- What one call does to the two tables, without saying which call it was. -/
inductive DbStep (db : Db) : Db → Prop where
  | same : DbStep db db
  | inserted (now : String) (row : RequestRow) (payload : JsonText) :
      db.conflicts row = false → row.state = .QUEUED →
      payload.loads = [("state", .str ReviewState.QUEUED.value)] →
      DbStep db ((db.insert row).log now row.request_id "review.request" payload)
  | changed (now : String) (row : RequestRow) (to_state : ReviewState)
      (reason result_code : PyVal) (payload : JsonText) :
      row ∈ db.review_requests → can_transition row.state to_state = true →
      payload.loads = [("from", .str row.state.value), ("to", .str to_state.value),
        ("reason", reason), ("result_code", result_code)] →
      DbStep db ((db.set_state now to_state
        fun r => r.request_id == row.request_id && r.state == row.state).log
        now row.request_id "review.state_changed" payload)
  | marked (now : String) (row : RequestRow) (final_state : ReviewState)
      (reason result_code : PyVal) (payload : JsonText) :
      row ∈ db.review_requests →
      payload.loads = [("state", .str final_state.value), ("reason", reason),
        ("result_code", result_code)] →
      DbStep db ((db.set_state now final_state (·.request_id == row.request_id)).log
        now row.request_id "review.terminal" payload)
  | noted (now request_id event_type : String) (payload : JsonText) :
      event_type ∉ lifecycle → DbStep db (db.log now request_id event_type payload)

theorem row_fields {now : String} {request : ReviewRequest} {metadata_json : JsonText}
    {row : RequestRow} (h : request.row now metadata_json = some row) :
    row.request_id = request.request_id ∧ row.idempotency_key = request.idempotency_key ∧
      row.state = .QUEUED ∧ row.created_at = now ∧ row.updated_at = now ∧
      row.metadata_json = metadata_json ∧ some row.trigger_intent = request.trigger_intent := by
  unfold ReviewRequest.row at h
  split at h
  · rename_i trigger_intent _ _ hi _
    cases h
    exact ⟨rfl, rfl, rfl, rfl, rfl, rfl, hi.symm⟩
  · cases h

theorem create_request_step {now : String} {request : ReviewRequest} {db db' : Db}
    {r : Except PyExc JobCreationOutcome} (h : create_request now request db = (r, db')) :
    DbStep db db' := by
  cases create_request_cases h with
  | raised e _ => exact .same
  | created metadata_json row payload _ hrow hc hp =>
    obtain ⟨hid, -, hstate, -⟩ := row_fields hrow
    rw [← hid]
    exact .inserted now row payload hc hstate hp
  | duplicate metadata_json existing payload _ _ _ =>
    exact .noted now _ _ payload (by simp [lifecycle])
  | swallowed metadata_json _ _ _ => exact .same

theorem transition_state_step {now request_id : String} {from_state to_state : ReviewState}
    {reason result_code : PyVal} {db db' : Db} {r : Except PyExc Unit}
    (h : transition_state now request_id from_state to_state reason result_code db = (r, db')) :
    DbStep db db' := by
  cases transition_state_cases h with
  | invalid e _ => exact .same
  | mismatch e _ => exact .same
  | unserializable e _ => exact .same
  | changed row payload hc hrow hid hs hp =>
    subst hid hs
    exact .changed now row to_state reason result_code payload hrow hc hp

theorem mark_terminal_step {now request_id : String} {final_state : ReviewState}
    {reason result_code : PyVal} {db db' : Db} {r : Except PyExc Unit}
    (h : mark_terminal now request_id final_state reason result_code db = (r, db')) :
    DbStep db db' := by
  cases mark_terminal_cases h with
  | missing e _ => exact .same
  | unserializable e _ => exact .same
  | marked row payload hrow hid hp =>
    subst hid
    exact .marked now row final_state reason result_code payload hrow hp

theorem append_event_step {now request_id event_type : String} {payload : PyDict} {db db' : Db}
    {r : Except PyExc Unit} (h : append_event now request_id event_type payload db = (r, db'))
    (ht : event_type ∉ lifecycle) : DbStep db db' := by
  cases append_event_cases h with
  | unserializable e _ => exact .same
  | appended payload_json _ => exact .noted now request_id event_type payload_json ht

structure Db.Consistent (db : Db) : Prop where
  request_ids : (db.review_requests.map (·.request_id)).Nodup
  idempotency_keys : (db.review_requests.map (·.idempotency_key)).Nodup
  event_order : db.review_events.Pairwise (·.id < ·.id)
  sequence : ∀ e ∈ db.review_events, e.id ≤ db.sequence
  replays : ∀ row ∈ db.review_requests, replay (db.events_of row.request_id) = some row.state
  edges : ∀ request_id pre e post, db.events_of request_id = pre ++ e :: post →
    e.event_type = "review.state_changed" →
    ∃ s t, replay pre = some s ∧ e.field "from" = some s ∧ e.field "to" = some t ∧
      t ∈ ALLOWED_TRANSITIONS s

theorem Db.consistent_empty : ({} : Db).Consistent where
  request_ids := by simp
  idempotency_keys := by simp
  event_order := by simp
  sequence := by simp
  replays := by simp
  edges := by simp [Db.events_of]

section Log

variable {db : Db} {now request_id event_type : String} {payload : JsonText}

@[simp] theorem Db.log_requests :
    (db.log now request_id event_type payload).review_requests = db.review_requests := rfl

@[simp] theorem Db.insert_events (row : RequestRow) :
    (db.insert row).review_events = db.review_events := rfl

@[simp] theorem Db.insert_requests (row : RequestRow) :
    (db.insert row).review_requests = db.review_requests ++ [row] := rfl

@[simp] theorem Db.set_state_events (state : ReviewState) (where_ : RequestRow → Bool) :
    (db.set_state now state where_).review_events = db.review_events := rfl

theorem Db.events_of_log (id : String) :
    (db.log now request_id event_type payload).events_of id =
      if request_id = id then
        db.events_of id ++ [⟨db.sequence + 1, request_id, event_type, payload, now⟩]
      else db.events_of id := by
  simp only [Db.events_of, Db.log, List.filter_append]
  by_cases h : request_id = id <;> simp [h]

theorem Db.events_of_insert (row : RequestRow) (id : String) :
    (db.insert row).events_of id = db.events_of id := rfl

theorem Db.events_of_set_state (state : ReviewState) (where_ : RequestRow → Bool) (id : String) :
    (db.set_state now state where_).events_of id = db.events_of id := rfl

end Log

theorem append_singleton_split {α : Type} {xs pre post : List α} {x e : α}
    (h : xs ++ [x] = pre ++ e :: post) :
    (xs = pre ∧ x = e ∧ post = []) ∨ ∃ post', post = post' ++ [x] ∧ xs = pre ++ e :: post' := by
  rcases List.eq_nil_or_concat post with rfl | ⟨post', y, rfl⟩
  · have hh : xs ++ [x] = pre ++ [e] := h
    obtain ⟨h₁, h₂⟩ := List.append_inj' hh rfl
    exact .inl ⟨h₁, by simpa using h₂, rfl⟩
  · have hh : xs ++ [x] = (pre ++ e :: post') ++ [y] := by simpa using h
    obtain ⟨h₁, h₂⟩ := List.append_inj' hh rfl
    simp only [List.cons.injEq, and_true] at h₂
    exact .inr ⟨post', by simp [h₂], h₁⟩

/-- Logging one event keeps the order of the log, and its edges when the event is one. -/
theorem Db.Consistent.log_edges {db : Db} (hc : db.Consistent) {now request_id event_type : String}
    {payload : JsonText} (he : event_type = "review.state_changed" →
      ∃ s t, replay (db.events_of request_id) = some s ∧
        EventRow.field ⟨db.sequence + 1, request_id, event_type, payload, now⟩ "from" = some s ∧
        EventRow.field ⟨db.sequence + 1, request_id, event_type, payload, now⟩ "to" = some t ∧
        t ∈ ALLOWED_TRANSITIONS s) :
    ∀ id pre e post, (db.log now request_id event_type payload).events_of id = pre ++ e :: post →
      e.event_type = "review.state_changed" →
      ∃ s t, replay pre = some s ∧ e.field "from" = some s ∧ e.field "to" = some t ∧
        t ∈ ALLOWED_TRANSITIONS s := by
  intro id pre e post hsplit ht
  rw [Db.events_of_log] at hsplit
  by_cases hid : request_id = id
  · rw [if_pos hid] at hsplit
    subst hid
    rcases append_singleton_split hsplit with ⟨rfl, rfl, rfl⟩ | ⟨post', rfl, hpre⟩
    · exact he ht
    · exact hc.edges _ pre e post' hpre ht
  · rw [if_neg hid] at hsplit
    exact hc.edges id pre e post hsplit ht

theorem Db.Consistent.log_order {db : Db} (hc : db.Consistent)
    (now request_id event_type : String) (payload : JsonText) :
    (db.log now request_id event_type payload).review_events.Pairwise (·.id < ·.id) ∧
      ∀ e ∈ (db.log now request_id event_type payload).review_events,
        e.id ≤ (db.log now request_id event_type payload).sequence := by
  refine ⟨?_, ?_⟩
  · simp only [Db.log, List.pairwise_append, List.pairwise_singleton, List.mem_singleton,
      forall_eq, true_and]
    refine ⟨hc.event_order, fun e he => ?_⟩
    have := hc.sequence e he
    omega
  · intro e he
    simp only [Db.log, List.mem_append, List.mem_singleton] at he
    rcases he with he | rfl
    · have := hc.sequence e he
      simp only [Db.log]
      omega
    · exact Nat.le_refl _

theorem Db.conflicts_false {db : Db} {row : RequestRow} :
    db.conflicts row = false ↔ ∀ r ∈ db.review_requests,
      r.request_id ≠ row.request_id ∧ r.idempotency_key ≠ row.idempotency_key := by
  simp [Db.conflicts]

theorem Db.mem_set_state {db : Db} {now : String} {state : ReviewState}
    {where_ : RequestRow → Bool} {row : RequestRow} :
    row ∈ (db.set_state now state where_).review_requests ↔ ∃ r ∈ db.review_requests,
      row = if where_ r then { r with state := state, updated_at := now } else r := by
  simp only [Db.set_state, List.mem_map]
  exact exists_congr fun r => and_congr_right fun _ => eq_comm

theorem Db.set_state_ids (db : Db) (now : String) (state : ReviewState)
    (where_ : RequestRow → Bool) :
    (db.set_state now state where_).review_requests.map (·.request_id) =
      db.review_requests.map (·.request_id) := by
  simp only [Db.set_state, List.map_map]
  refine List.map_congr_left fun r _ => ?_
  simp only [Function.comp]
  split <;> rfl

theorem Db.set_state_keys (db : Db) (now : String) (state : ReviewState)
    (where_ : RequestRow → Bool) :
    (db.set_state now state where_).review_requests.map (·.idempotency_key) =
      db.review_requests.map (·.idempotency_key) := by
  simp only [Db.set_state, List.map_map]
  refine List.map_congr_left fun r _ => ?_
  simp only [Function.comp]
  split <;> rfl

theorem Db.Consistent.row_unique {db : Db} (hc : db.Consistent) {r r' : RequestRow}
    (h : r ∈ db.review_requests) (h' : r' ∈ db.review_requests)
    (hid : r.request_id = r'.request_id) : r = r' :=
  List.inj_on_of_nodup_map hc.request_ids h h' hid

theorem Db.Consistent.inserted {db : Db} (hc : db.Consistent) {now : String} {row : RequestRow}
    {payload : JsonText} (hfresh : db.conflicts row = false) (hstate : row.state = .QUEUED)
    (hp : payload.loads = [("state", .str ReviewState.QUEUED.value)]) :
    ((db.insert row).log now row.request_id "review.request" payload).Consistent := by
  rw [Db.conflicts_false] at hfresh
  have hlog := hc.log_order now row.request_id "review.request" payload
  refine ⟨?_, ?_, hlog.1, hlog.2, ?_, hc.log_edges (by simp)⟩
  · simp only [Db.log_requests, Db.insert_requests, List.map_append, List.map_cons, List.map_nil]
    refine List.nodup_append.mpr ⟨hc.request_ids, by simp, ?_⟩
    rintro _ ha _ hb rfl
    obtain ⟨r, hr, hid⟩ := List.mem_map.mp ha
    exact (hfresh r hr).1 (hid.trans (by simpa using hb))
  · simp only [Db.log_requests, Db.insert_requests, List.map_append, List.map_cons, List.map_nil]
    refine List.nodup_append.mpr ⟨hc.idempotency_keys, by simp, ?_⟩
    rintro _ ha _ hb rfl
    obtain ⟨r, hr, hkey⟩ := List.mem_map.mp ha
    exact (hfresh r hr).2 (hkey.trans (by simpa using hb))
  · intro r hr
    rw [Db.events_of_log, Db.events_of_insert]
    simp only [Db.log_requests, Db.insert_requests, List.mem_append, List.mem_singleton] at hr
    rcases hr with hr | rfl
    · rw [if_neg (Ne.symm (hfresh r hr).1)]
      exact hc.replays r hr
    · rw [if_pos rfl, replay_append, hstate]
      simp [replay_event, EventRow.field, hp]

/-- A state update of the row with one id, together with the event that reports it. -/
theorem Db.Consistent.updated {db : Db} (hc : db.Consistent) {now event_type : String}
    {row : RequestRow} {state : ReviewState} {payload : JsonText} {where_ : RequestRow → Bool}
    (hrow : row ∈ db.review_requests)
    (hwhere : ∀ r ∈ db.review_requests, where_ r = true ↔ r = row)
    (hreplay : ∀ old, replay_event old
      ⟨db.sequence + 1, row.request_id, event_type, payload, now⟩ = some state)
    (hedge : event_type = "review.state_changed" → state ∈ ALLOWED_TRANSITIONS row.state ∧
      EventRow.field ⟨db.sequence + 1, row.request_id, event_type, payload, now⟩ "from" =
        some row.state ∧
      EventRow.field ⟨db.sequence + 1, row.request_id, event_type, payload, now⟩ "to" =
        some state) :
    ((db.set_state now state where_).log now row.request_id event_type payload).Consistent := by
  have hlog := hc.log_order now row.request_id event_type payload
  refine ⟨?_, ?_, hlog.1, hlog.2, ?_, ?_⟩
  · rw [Db.log_requests, Db.set_state_ids]
    exact hc.request_ids
  · rw [Db.log_requests, Db.set_state_keys]
    exact hc.idempotency_keys
  · intro r' hr'
    obtain ⟨r, hr, rfl⟩ := Db.mem_set_state.mp hr'
    rw [Db.events_of_log, Db.events_of_set_state]
    by_cases hw : where_ r = true
    · obtain rfl := (hwhere r hr).mp hw
      rw [if_pos hw, if_pos rfl, replay_append]
      exact hreplay _
    · have hne : row.request_id ≠ r.request_id := fun hid =>
        hw ((hwhere r hr).mpr (hc.row_unique hr hrow hid.symm))
      rw [if_neg hw, if_neg hne]
      exact hc.replays r hr
  · refine hc.log_edges fun ht => ?_
    obtain ⟨hallowed, hfrom, hto⟩ := hedge ht
    exact ⟨row.state, state, hc.replays row hrow, hfrom, hto, hallowed⟩

theorem Db.Consistent.step {db db' : Db} (hc : db.Consistent) (h : DbStep db db') :
    db'.Consistent := by
  cases h with
  | same => exact hc
  | inserted now row payload hfresh hstate hp => exact hc.inserted hfresh hstate hp
  | changed now row to_state reason result_code payload hrow hcan hp =>
    refine hc.updated hrow (fun r hr => ?_) (fun old => ?_) fun _ => ⟨can_transition_iff.mp hcan, ?_, ?_⟩
    · simp only [Bool.and_eq_true, beq_iff_eq]
      exact ⟨fun hh => hc.row_unique hr hrow hh.1, fun hh => by simp [hh]⟩
    · simp [replay_event, EventRow.field, hp, List.lookup]
    · simp [EventRow.field, hp]
    · simp [EventRow.field, hp, List.lookup]
  | marked now row final_state reason result_code payload hrow hp =>
    refine hc.updated hrow (fun r hr => ?_) (fun old => ?_) (by simp)
    · simp only [beq_iff_eq]
      exact ⟨fun hh => hc.row_unique hr hrow hh, fun hh => by rw [hh]⟩
    · simp [replay_event, EventRow.field, hp]
  | noted now request_id event_type payload ht =>
    have hlog := hc.log_order now request_id event_type payload
    refine ⟨hc.request_ids, hc.idempotency_keys, hlog.1, hlog.2, fun r hr => ?_, ?_⟩
    · rw [Db.events_of_log]
      split
      · rw [replay_append, replay_event_other ht]
        exact hc.replays r hr
      · exact hc.replays r hr
    · refine hc.log_edges fun hh => absurd ?_ ht
      simp [lifecycle, hh]

end Nitpicker
