import NitpickerDaemon.JobStore

/-!
What each call of the job store can do, said once. Everything later is proved from the
`cases` lemmas of this module.
-/

set_option autoImplicit false

namespace Nitpicker

open Effect

/-- The row `create_request` wants to insert is refused. -/
def Db.refuses (db : Db) (now : String) (request : ReviewRequest) (metadata_json : JsonText) :
    Prop :=
  ∀ row, request.row now metadata_json = some row → db.conflicts row = true

inductive CreateRequest (now : String) (request : ReviewRequest) (db : Db) :
    Except PyExc JobCreationOutcome → Db → Prop where
  | raised (e : PyExc) : request.metadata.dumps = .error e →
      CreateRequest now request db (.error e) db
  | created (metadata_json : JsonText) (row : RequestRow) (payload : JsonText) :
      request.metadata.dumps = .ok metadata_json →
      request.row now metadata_json = some row → db.conflicts row = false →
      payload.loads = [("state", .str ReviewState.QUEUED.value)] →
      CreateRequest now request db (.ok ⟨true, false, some ReviewState.QUEUED.value⟩)
        ((db.insert row).log now request.request_id "review.request" payload)
  | duplicate (metadata_json : JsonText) (existing : RequestRow) (payload : JsonText) :
      request.metadata.dumps = .ok metadata_json → db.refuses now request metadata_json →
      db.find_key request.idempotency_key = some existing →
      CreateRequest now request db (.ok ⟨false, true, some existing.state.value⟩)
        (db.log now existing.request_id "review.duplicate_ignored" payload)
  | swallowed (metadata_json : JsonText) :
      request.metadata.dumps = .ok metadata_json → db.refuses now request metadata_json →
      db.find_key request.idempotency_key = none →
      CreateRequest now request db (.ok ⟨false, true, none⟩) db

theorem insert_event_ok {now request_id event_type : String} {payload : PyDict} {db : Db}
    (h : (PyVal.dict payload).unserializable = none) :
    insert_event now request_id event_type payload db =
      (.ok (), db.log now request_id event_type ⟨payload, h⟩) := by
  have hd := PyDict.dumps_of_serializable h
  rw [insert_event, hd]
  rfl

theorem insert_event_error {now request_id event_type : String} {payload : PyDict} {db : Db}
    {e : PyExc} (h : payload.dumps = .error e) :
    insert_event now request_id event_type payload db = (.error e, db) := by
  rw [insert_event, h]
  rfl

theorem insert_or_ignore_some {db : Db} {row : RequestRow} (h : db.conflicts row = false) :
    insert_or_ignore (some row) db = (.ok 1, db.insert row) := by
  simp [insert_or_ignore, Txn.run_bind, h]

theorem insert_or_ignore_refused {db : Db} {row : Option RequestRow}
    (h : ∀ r, row = some r → db.conflicts r = true) :
    insert_or_ignore row db = (.ok 0, db) := by
  cases row with
  | none => rfl
  | some r =>
    have hc := h r rfl
    simp [insert_or_ignore, Txn.run_bind, hc]

theorem create_request_cases {now : String} {request : ReviewRequest} {db db' : Db}
    {r : Except PyExc JobCreationOutcome} (h : create_request now request db = (r, db')) :
    CreateRequest now request db r db' := by
  unfold create_request at h
  cases hm : request.metadata.dumps with
  | error e =>
    rw [Txn.atomic_error _ db e (by simp [Txn.run_bind, Txn.run_ofExcept, hm])] at h
    cases h
    exact .raised e hm
  | ok metadata_json =>
    by_cases hr : db.refuses now request metadata_json
    · cases hk : db.find_key request.idempotency_key with
      | none =>
        rw [Txn.atomic_ok _ db db ⟨false, true, none⟩] at h
        · cases h
          exact .swallowed metadata_json hm hr hk
        · simp [Txn.run_bind, Txn.run_ofExcept, hm, insert_or_ignore_refused hr, hk]
      | some existing =>
        have hs : (PyVal.dict [("duplicate_request_id", .str request.request_id),
          ("idempotency_key", .str request.idempotency_key),
          ("existing_state", .str existing.state.value)]).unserializable = none := rfl
        rw [Txn.atomic_ok _ db
          (db.log now existing.request_id "review.duplicate_ignored" ⟨_, hs⟩)
          ⟨false, true, some existing.state.value⟩] at h
        · cases h
          exact .duplicate metadata_json existing _ hm hr hk
        · simp [Txn.run_bind, Txn.run_ofExcept, hm, insert_or_ignore_refused hr, hk,
            insert_event_ok hs]
    · simp only [Db.refuses, not_forall, Bool.not_eq_true] at hr
      obtain ⟨row, hrow, hc⟩ := hr
      have hs : (PyVal.dict [("state", .str ReviewState.QUEUED.value)]).unserializable = none :=
        rfl
      rw [Txn.atomic_ok _ db ((db.insert row).log now request.request_id "review.request" ⟨_, hs⟩)
        ⟨true, false, some ReviewState.QUEUED.value⟩] at h
      · cases h
        exact .created metadata_json row _ hm hrow hc rfl
      · simp [Txn.run_bind, Txn.run_ofExcept, hm, hrow, insert_or_ignore_some hc,
          insert_event_ok hs]

/-- `UPDATE` touches a row exactly when it counts one. -/
theorem update_state_run (now : String) (state : ReviewState) (where_ : RequestRow → Bool)
    (db : Db) : update_state now state where_ db =
      (.ok (db.review_requests.countP where_), db.set_state now state where_) := rfl

inductive TransitionState (now request_id : String) (from_state to_state : ReviewState)
    (reason result_code : PyVal) (db : Db) : Except PyExc Unit → Db → Prop where
  | invalid (e : PyExc) : can_transition from_state to_state = false →
      TransitionState now request_id from_state to_state reason result_code db (.error e) db
  | mismatch (e : PyExc) :
      (∀ row ∈ db.review_requests, row.request_id = request_id → row.state ≠ from_state) →
      TransitionState now request_id from_state to_state reason result_code db (.error e) db
  | unserializable (e : PyExc) : PyDict.dumps [("from", .str from_state.value),
        ("to", .str to_state.value), ("reason", reason), ("result_code", result_code)] = .error e →
      TransitionState now request_id from_state to_state reason result_code db (.error e) db
  | changed (row : RequestRow) (payload : JsonText) : can_transition from_state to_state = true →
      row ∈ db.review_requests → row.request_id = request_id → row.state = from_state →
      payload.loads = [("from", .str from_state.value), ("to", .str to_state.value),
        ("reason", reason), ("result_code", result_code)] →
      TransitionState now request_id from_state to_state reason result_code db (.ok ())
        ((db.set_state now to_state
          fun r => r.request_id == request_id && r.state == from_state).log
          now request_id "review.state_changed" payload)

theorem transition_state_cases {now request_id : String} {from_state to_state : ReviewState}
    {reason result_code : PyVal} {db db' : Db} {r : Except PyExc Unit}
    (h : transition_state now request_id from_state to_state reason result_code db = (r, db')) :
    TransitionState now request_id from_state to_state reason result_code db r db' := by
  unfold transition_state at h
  by_cases hc : can_transition from_state to_state = true
  · rw [if_pos hc] at h
    by_cases hz : db.review_requests.countP
        (fun r => r.request_id == request_id && r.state == from_state) = 0
    · have hm : ∀ row ∈ db.review_requests, row.request_id = request_id →
          row.state ≠ from_state := by
        simpa [List.countP_eq_zero] using hz
      cases hf : (db.set_state now to_state
          fun r => r.request_id == request_id && r.state == from_state).find_request request_id with
      | none =>
        rw [Txn.atomic_error _ db (keyError request_id)] at h
        · cases h
          exact .mismatch _ hm
        · simp [Txn.run_bind, update_state_run, hz, hf]
      | some current =>
        rw [Txn.atomic_error _ db (valueError ("current state mismatch: expected " ++
          from_state.value ++ ", got " ++ current.state.value))] at h
        · cases h
          exact .mismatch _ hm
        · simp [Txn.run_bind, update_state_run, hz, hf]
    · obtain ⟨row, hrow, hp⟩ := List.countP_pos_iff.mp (Nat.pos_of_ne_zero hz)
      simp only [Bool.and_eq_true, beq_iff_eq] at hp
      cases hd : PyDict.dumps [("from", .str from_state.value), ("to", .str to_state.value),
          ("reason", reason), ("result_code", result_code)] with
      | error e =>
        rw [Txn.atomic_error _ db e] at h
        · cases h
          exact .unserializable e hd
        · simp [Txn.run_bind, update_state_run, hz, insert_event_error hd]
      | ok payload =>
        have hl := PyDict.dumps_ok hd
        rw [Txn.atomic_ok _ db ((db.set_state now to_state
          fun r => r.request_id == request_id && r.state == from_state).log
          now request_id "review.state_changed" payload) ()] at h
        · cases h
          exact .changed row payload hc hrow hp.1 hp.2 hl
        · simp [Txn.run_bind, update_state_run, hz, insert_event, hd, Txn.run_ofExcept]
  · simp only [Bool.not_eq_true] at hc
    rw [if_neg (by simp [hc])] at h
    cases h
    exact .invalid _ hc

inductive MarkTerminal (now request_id : String) (final_state : ReviewState)
    (reason result_code : PyVal) (db : Db) : Except PyExc Unit → Db → Prop where
  | missing (e : PyExc) : (∀ row ∈ db.review_requests, row.request_id ≠ request_id) →
      MarkTerminal now request_id final_state reason result_code db (.error e) db
  | unserializable (e : PyExc) : PyDict.dumps [("state", .str final_state.value),
        ("reason", reason), ("result_code", result_code)] = .error e →
      MarkTerminal now request_id final_state reason result_code db (.error e) db
  | marked (row : RequestRow) (payload : JsonText) : row ∈ db.review_requests →
      row.request_id = request_id →
      payload.loads = [("state", .str final_state.value), ("reason", reason),
        ("result_code", result_code)] →
      MarkTerminal now request_id final_state reason result_code db (.ok ())
        ((db.set_state now final_state (·.request_id == request_id)).log
          now request_id "review.terminal" payload)

theorem mark_terminal_cases {now request_id : String} {final_state : ReviewState}
    {reason result_code : PyVal} {db db' : Db} {r : Except PyExc Unit}
    (h : mark_terminal now request_id final_state reason result_code db = (r, db')) :
    MarkTerminal now request_id final_state reason result_code db r db' := by
  unfold mark_terminal at h
  by_cases hz : db.review_requests.countP (·.request_id == request_id) = 0
  · have hm : ∀ row ∈ db.review_requests, row.request_id ≠ request_id := by
      simpa [List.countP_eq_zero] using hz
    rw [Txn.atomic_error _ db (keyError request_id)] at h
    · cases h
      exact .missing _ hm
    · simp [Txn.run_bind, update_state_run, hz]
  · obtain ⟨row, hrow, hp⟩ := List.countP_pos_iff.mp (Nat.pos_of_ne_zero hz)
    simp only [beq_iff_eq] at hp
    cases hd : PyDict.dumps [("state", .str final_state.value), ("reason", reason),
        ("result_code", result_code)] with
    | error e =>
      rw [Txn.atomic_error _ db e] at h
      · cases h
        exact .unserializable e hd
      · simp [Txn.run_bind, update_state_run, hz, insert_event_error hd]
    | ok payload =>
      have hl := PyDict.dumps_ok hd
      rw [Txn.atomic_ok _ db ((db.set_state now final_state (·.request_id == request_id)).log
        now request_id "review.terminal" payload) ()] at h
      · cases h
        exact .marked row payload hrow hp hl
      · simp [Txn.run_bind, update_state_run, hz, insert_event, hd, Txn.run_ofExcept]

inductive AppendEvent (now request_id event_type : String) (payload : PyDict) (db : Db) :
    Except PyExc Unit → Db → Prop where
  | unserializable (e : PyExc) : payload.dumps = .error e →
      AppendEvent now request_id event_type payload db (.error e) db
  | appended (payload_json : JsonText) : payload_json.loads = payload →
      AppendEvent now request_id event_type payload db (.ok ())
        (db.log now request_id event_type payload_json)

theorem append_event_cases {now request_id event_type : String} {payload : PyDict} {db db' : Db}
    {r : Except PyExc Unit} (h : append_event now request_id event_type payload db = (r, db')) :
    AppendEvent now request_id event_type payload db r db' := by
  unfold append_event at h
  cases hd : payload.dumps with
  | error e =>
    rw [Txn.atomic_error _ db e (by rw [insert_event_error hd])] at h
    cases h
    exact .unserializable e hd
  | ok payload_json =>
    have hl := PyDict.dumps_ok hd
    rw [Txn.atomic_ok _ db (db.log now request_id event_type payload_json) ()] at h
    · cases h
      exact .appended payload_json hl
    · simp [insert_event, Txn.run_bind, Txn.run_ofExcept, hd]

end Nitpicker
