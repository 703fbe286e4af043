import NitpickerDaemon.JobStoreHistory

/-!
A job store over a table that an earlier schema created: what its initialisation adds, and which
statements name a column that is still missing.
-/

set_option autoImplicit false

namespace Nitpicker

open Effect

/-- The later columns that a table of requests has. -/
structure Columns where
  trigger_intent : Bool
  created_at : Bool
  updated_at : Bool
  deriving DecidableEq, Repr

/-- After the `ALTER TABLE` of the initialisation. -/
def Columns.migrated (c : Columns) : Columns := { c with trigger_intent := true }

/-- A row of a table with the columns `c`; there is no value in a column that is not there. -/
structure StoredRow (c : Columns) where
  request_id : String
  idempotency_key : String
  project_id : String
  project_profile : String
  trigger : String
  trigger_intent : c.trigger_intent = true → String
  target_file : String
  git_revision : String
  base_file_hash : String
  diff_text : String
  metadata_json : JsonText
  state : ReviewState
  created_at : c.created_at = true → String
  updated_at : c.updated_at = true → String

structure StoredDb (c : Columns) where
  review_requests : List (StoredRow c) := []
  review_events : List EventRow := []
  sequence : Nat := 0

/-- The row in a table that has the columns `c` only. -/
def RequestRow.stored (c : Columns) (row : RequestRow) : StoredRow c where
  request_id := row.request_id
  idempotency_key := row.idempotency_key
  project_id := row.project_id
  project_profile := row.project_profile
  trigger := row.trigger
  trigger_intent := fun _ => row.trigger_intent
  target_file := row.target_file
  git_revision := row.git_revision
  base_file_hash := row.base_file_hash
  diff_text := row.diff_text
  metadata_json := row.metadata_json
  state := row.state
  created_at := fun _ => row.created_at
  updated_at := fun _ => row.updated_at

def Db.stored (c : Columns) (db : Db) : StoredDb c where
  review_requests := db.review_requests.map (RequestRow.stored c)
  review_events := db.review_events
  sequence := db.sequence

def operationalError (message : String) : PyExc := ⟨"OperationalError", [], message⟩

def integrityError (message : String) : PyExc := ⟨"IntegrityError", [], message⟩

/-- `ADD COLUMN trigger_intent TEXT NOT NULL DEFAULT 'active_intent'`, where it is missing. -/
def StoredRow.migrate {c : Columns} (row : StoredRow c) : StoredRow c.migrated :=
  { row with
    trigger_intent := fun _ =>
      if h : c.trigger_intent = true then row.trigger_intent h else "active_intent"
    created_at := row.created_at
    updated_at := row.updated_at }

namespace StoredDb

variable {c : Columns}

/-- `_initialize`: the unique index comes before the new column. -/
def initialize_schema (store : StoredDb c) : Except PyExc (StoredDb c.migrated) :=
  if (store.review_requests.map (·.idempotency_key)).Nodup then .ok {
    review_requests := store.review_requests.map StoredRow.migrate
    review_events := store.review_events
    sequence := store.sequence }
  else .error (integrityError "UNIQUE constraint failed: review_requests.idempotency_key")

abbrev Statement (c : Columns) (α : Type) := Txn PyExc (StoredDb c) α

def find_key (store : StoredDb c) (key : String) : Option (StoredRow c) :=
  store.review_requests.find? (·.idempotency_key == key)

def find_request (store : StoredDb c) (request_id : String) : Option (StoredRow c) :=
  store.review_requests.find? (·.request_id == request_id)

def conflicts (store : StoredDb c) (row : StoredRow c) : Bool :=
  store.review_requests.any fun r =>
    r.request_id == row.request_id || r.idempotency_key == row.idempotency_key

/-- `INSERT OR IGNORE`, which names `trigger_intent` and leaves the times to their defaults. -/
def insert_or_ignore (row : Option RequestRow) : Statement c Nat :=
  if c.trigger_intent then do
    let store ← Txn.read
    match row with
    | none => pure 0
    | some row =>
      if store.conflicts (row.stored c) then pure 0 else do
        Txn.write { store with review_requests := store.review_requests ++ [row.stored c] }
        pure 1
  else Txn.raise (operationalError "table review_requests has no column named trigger_intent")

/-- `UPDATE review_requests SET state, updated_at WHERE ...`; returns the row count. -/
def update_state (now : String) (state : ReviewState) (where_ : StoredRow c → Bool) :
    Statement c Nat :=
  if c.updated_at then do
    let store ← Txn.read
    let rows := store.review_requests.map fun r =>
      if where_ r then { r with state := state, updated_at := fun _ => now } else r
    Txn.write { store with review_requests := rows }
    pure (store.review_requests.countP where_)
  else Txn.raise (operationalError "no such column: updated_at")

/-- `_append_event` -/
def insert_event (now request_id event_type : String) (payload : PyDict) : Statement c Unit := do
  let payload_json ← Txn.ofExcept payload.dumps
  let store ← Txn.read
  let event : EventRow := ⟨store.sequence + 1, request_id, event_type, payload_json, now⟩
  Txn.write { store with
    review_events := store.review_events ++ [event], sequence := store.sequence + 1 }

def create_request (now : String) (request : ReviewRequest) : Statement c JobCreationOutcome :=
  Txn.atomic do
    let metadata_json ← Txn.ofExcept request.metadata.dumps
    let rowcount ← insert_or_ignore (request.row now metadata_json)
    if rowcount = 0 then do
      let store ← Txn.read
      match store.find_key request.idempotency_key with
      | none => pure ⟨false, true, none⟩
      | some existing => do
        insert_event now existing.request_id "review.duplicate_ignored" [
          ("duplicate_request_id", .str request.request_id),
          ("idempotency_key", .str request.idempotency_key),
          ("existing_state", .str existing.state.value)]
        pure ⟨false, true, some existing.state.value⟩
    else do
      insert_event now request.request_id "review.request"
        [("state", .str ReviewState.QUEUED.value)]
      pure ⟨true, false, some ReviewState.QUEUED.value⟩

def transition_state (now request_id : String) (from_state to_state : ReviewState)
    (reason result_code : PyVal) : Statement c Unit :=
  if can_transition from_state to_state then
    Txn.atomic do
      let rowcount ← update_state now to_state
        fun r => r.request_id == request_id && r.state == from_state
      if rowcount = 0 then do
        let store ← Txn.read
        match store.find_request request_id with
        | none => Txn.raise (keyError request_id)
        | some current => Txn.raise (valueError ("current state mismatch: expected " ++
            from_state.value ++ ", got " ++ current.state.value))
      else
        insert_event now request_id "review.state_changed" [
          ("from", .str from_state.value), ("to", .str to_state.value),
          ("reason", reason), ("result_code", result_code)]
  else
    Txn.raise (valueError ("invalid state transition: " ++ from_state.value ++ " -> " ++
      to_state.value))

def append_event (now request_id event_type : String) (payload : PyDict) : Statement c Unit :=
  Txn.atomic (insert_event now request_id event_type payload)

def mark_terminal (now request_id : String) (final_state : ReviewState)
    (reason result_code : PyVal) : Statement c Unit :=
  Txn.atomic do
    let rowcount ← update_state now final_state (·.request_id == request_id)
    if rowcount = 0 then Txn.raise (keyError request_id) else
      insert_event now request_id "review.terminal" [
        ("state", .str final_state.value), ("reason", reason), ("result_code", result_code)]

end StoredDb

def indexError (message : String) : PyExc := ⟨"IndexError", [], message⟩

/-- The request of a row of `SELECT *`, which must have the column `trigger_intent`. -/
def StoredRow.request {c : Columns} (row : StoredRow c) : Except PyExc ReviewRequest :=
  if h : c.trigger_intent = true then .ok {
    request_id := row.request_id
    idempotency_key := row.idempotency_key
    project_id := row.project_id
    project_profile := row.project_profile
    trigger := some row.trigger
    trigger_intent := some (row.trigger_intent h)
    target_file := row.target_file
    git_revision := some row.git_revision
    base_file_hash := row.base_file_hash
    diff_text := row.diff_text
    metadata := row.metadata_json.loads }
  else .error (indexError "No item with that key")

namespace StoredDb

variable {c : Columns}

def get_request (store : StoredDb c) (request_id : String) :
    Except PyExc (Option ReviewRequest) :=
  match store.find_request request_id with
  | none => .ok none
  | some row => row.request.map some

def list_recoverable_jobs (store : StoredDb c) : Except PyExc (List ReviewRequest) := do
  let jobs ← (store.review_requests.filter (·.state ∈ recoverable)).mapM
    fun row => store.get_request row.request_id
  pure (jobs.filterMap id)

end StoredDb

section Agreement

variable {c : Columns}

theorem stored_find {p : RequestRow → Bool} {p' : StoredRow c → Bool} (rows : List RequestRow)
    (h : ∀ r, p' (r.stored c) = p r) :
    (rows.map (RequestRow.stored c)).find? p' = (rows.find? p).map (RequestRow.stored c) := by
  induction rows with
  | nil => rfl
  | cons r rows ih =>
    simp only [List.map_cons, List.find?_cons, h]
    cases p r with
    | true => rfl
    | false => exact ih

theorem stored_find_key (db : Db) (key : String) :
    (db.stored c).find_key key = (db.find_key key).map (RequestRow.stored c) :=
  stored_find _ fun _ => rfl

theorem stored_find_request (db : Db) (request_id : String) :
    (db.stored c).find_request request_id = (db.find_request request_id).map
      (RequestRow.stored c) :=
  stored_find _ fun _ => rfl

theorem stored_conflicts (db : Db) (row : RequestRow) :
    (db.stored c).conflicts (row.stored c) = db.conflicts row := by
  simp only [StoredDb.conflicts, Db.conflicts, Db.stored, List.any_map]
  rfl

theorem stored_insert (db : Db) (row : RequestRow) :
    (db.insert row).stored c = { db.stored c with
      review_requests := (db.stored c).review_requests ++ [row.stored c] } := by
  simp [Db.insert, Db.stored]

theorem stored_set_state (db : Db) (now : String) (state : ReviewState) {p : RequestRow → Bool}
    {p' : StoredRow c → Bool} (h : ∀ r, p' (r.stored c) = p r) :
    (db.set_state now state p).stored c = { db.stored c with
      review_requests := (db.stored c).review_requests.map fun r =>
        if p' r then { r with state := state, updated_at := fun _ => now } else r } := by
  simp only [Db.set_state, Db.stored, List.map_map, StoredDb.mk.injEq, and_true]
  refine List.map_congr_left fun r _ => ?_
  simp only [Function.comp_apply, h]
  split <;> rfl

theorem insert_follows (hi : c.trigger_intent = true) (row : Option RequestRow) :
    Txn.Follows (Db.stored c) (StoredDb.insert_or_ignore row) (insert_or_ignore row) := by
  unfold StoredDb.insert_or_ignore insert_or_ignore
  rw [if_pos hi]
  refine .read fun db => ?_
  cases row with
  | none => exact .pure 0
  | some row =>
    simp only [stored_conflicts, ← stored_insert]
    by_cases h : db.conflicts row = true
    · simp only [if_pos h]
      exact .pure 0
    · simp only [if_neg h]
      exact .bind (.write _) fun _ => .pure 1

theorem update_follows (hu : c.updated_at = true) {now : String} {state : ReviewState}
    {p : RequestRow → Bool} {p' : StoredRow c → Bool} (h : ∀ r, p' (r.stored c) = p r) :
    Txn.Follows (Db.stored c) (StoredDb.update_state now state p') (update_state now state p) := by
  unfold StoredDb.update_state update_state
  rw [if_pos hu]
  refine .read fun db => ?_
  simp only [← stored_set_state db now state h]
  have hcount : (db.stored c).review_requests.countP p' = db.review_requests.countP p := by
    simp only [Db.stored, List.countP_map]
    congr 1
    exact funext h
  rw [hcount]
  exact .bind (.write _) fun _ => .pure _

theorem event_follows (now request_id event_type : String) (payload : PyDict) :
    Txn.Follows (Db.stored c) (StoredDb.insert_event now request_id event_type payload)
      (insert_event now request_id event_type payload) :=
  .bind (.ofExcept _) fun payload_json => .read fun db =>
    .write (db.log now request_id event_type payload_json)

theorem create_follows (hi : c.trigger_intent = true) (now : String) (request : ReviewRequest) :
    Txn.Follows (Db.stored c) (StoredDb.create_request now request)
      (create_request now request) := by
  refine .atomic (.bind (.ofExcept _) fun metadata_json => .bind (insert_follows hi _)
    fun rowcount => ?_)
  by_cases h : rowcount = 0
  · simp only [if_pos h]
    refine .read fun db => ?_
    rw [stored_find_key]
    cases db.find_key request.idempotency_key with
    | none => exact .pure _
    | some existing => exact .bind (event_follows _ _ _ _) fun _ => .pure _
  · simp only [if_neg h]
    exact .bind (event_follows _ _ _ _) fun _ => .pure _

theorem transition_follows (hu : c.updated_at = true) (now request_id : String)
    (from_state to_state : ReviewState) (reason result_code : PyVal) :
    Txn.Follows (Db.stored c)
      (StoredDb.transition_state now request_id from_state to_state reason result_code)
      (transition_state now request_id from_state to_state reason result_code) := by
  unfold StoredDb.transition_state transition_state
  by_cases hcan : can_transition from_state to_state = true
  · simp only [if_pos hcan]
    refine .atomic (.bind (update_follows hu fun _ => rfl) fun rowcount => ?_)
    by_cases h : rowcount = 0
    · simp only [if_pos h]
      refine .read fun db => ?_
      rw [stored_find_request]
      cases db.find_request request_id with
      | none => exact .raise _
      | some current => exact .raise _
    · simp only [if_neg h]
      exact event_follows _ _ _ _
  · simp only [if_neg hcan]
    exact .raise _

theorem mark_follows (hu : c.updated_at = true) (now request_id : String)
    (final_state : ReviewState) (reason result_code : PyVal) :
    Txn.Follows (Db.stored c)
      (StoredDb.mark_terminal now request_id final_state reason result_code)
      (mark_terminal now request_id final_state reason result_code) := by
  refine .atomic (.bind (update_follows hu fun _ => rfl) fun rowcount => ?_)
  by_cases h : rowcount = 0
  · simp only [if_pos h]
    exact .raise _
  · simp only [if_neg h]
    exact event_follows _ _ _ _

theorem stored_request (hi : c.trigger_intent = true) (row : RequestRow) :
    (row.stored c).request = .ok row.request := by
  simp [StoredRow.request, hi, RequestRow.stored, RequestRow.request]

theorem stored_get_request (hi : c.trigger_intent = true) (db : Db) (request_id : String) :
    (db.stored c).get_request request_id = .ok (get_request db request_id) := by
  unfold StoredDb.get_request get_request
  rw [stored_find_request]
  cases db.find_request request_id with
  | none => rfl
  | some row => simp [stored_request hi, Except.map]

theorem stored_list_recoverable (hi : c.trigger_intent = true) (db : Db) :
    (db.stored c).list_recoverable_jobs = .ok (list_recoverable_jobs db) := by
  have hall : ∀ rows : List RequestRow,
      (rows.map (RequestRow.stored c)).mapM
        (fun row => (db.stored c).get_request row.request_id) =
      .ok (rows.map fun row => get_request db row.request_id) := by
    intro rows
    induction rows with
    | nil => rfl
    | cons row rows ih =>
      rw [List.map_cons, List.mapM_cons, ih, stored_get_request hi]
      rfl
  have hfilter : (db.stored c).review_requests.filter (·.state ∈ recoverable) =
      (db.review_requests.filter (·.state ∈ recoverable)).map (RequestRow.stored c) := by
    simp only [Db.stored, List.filter_map]
    rfl
  unfold StoredDb.list_recoverable_jobs list_recoverable_jobs
  rw [hfilter, hall]
  simp [bind, Except.bind, pure, Except.pure, List.filterMap_map]

end Agreement

inductive StoreOperation where
  | call (now : String) (c : StoreCall)
  | get_request (request_id : String)
  | list_recoverable_jobs

inductive StoreReply where
  | called (r : Except PyExc (Option JobCreationOutcome))
  | request (r : Except PyExc (Option ReviewRequest))
  | jobs (r : Except PyExc (List ReviewRequest))

def StoreOperation.on_db : StoreOperation → Db → StoreReply × Db
  | .call now c, db => (.called (c.run now db).1, (c.run now db).2)
  | .get_request request_id, db => (.request (.ok (Nitpicker.get_request db request_id)), db)
  | .list_recoverable_jobs, db => (.jobs (.ok (Nitpicker.list_recoverable_jobs db)), db)

def StoreCall.run_stored {c : Columns} (now : String) :
    StoreCall → StoredDb c → Except PyExc (Option JobCreationOutcome) × StoredDb c
  | .create request, store =>
    let (r, store') := StoredDb.create_request now request store
    (r.map some, store')
  | .transition request_id from_state to_state reason result_code, store =>
    let (r, store') :=
      StoredDb.transition_state now request_id from_state to_state reason result_code store
    (r.map fun _ => none, store')
  | .mark request_id final_state reason result_code, store =>
    let (r, store') := StoredDb.mark_terminal now request_id final_state reason result_code store
    (r.map fun _ => none, store')
  | .append request_id event_type payload, store =>
    let (r, store') := StoredDb.append_event now request_id event_type payload store
    (r.map fun _ => none, store')

def StoreOperation.on_stored {c : Columns} :
    StoreOperation → StoredDb c → StoreReply × StoredDb c
  | .call now c, store => (.called (c.run_stored now store).1, (c.run_stored now store).2)
  | .get_request request_id, store => (.request (store.get_request request_id), store)
  | .list_recoverable_jobs, store => (.jobs store.list_recoverable_jobs, store)

/-- The replies to `operations`, one after the other, and the store they leave. -/
def run_operations {S : Type} (step : StoreOperation → S → StoreReply × S) :
    List StoreOperation → S → List StoreReply × S
  | [], s => ([], s)
  | operation :: operations, s =>
    let (reply, s') := step operation s
    let (replies, s'') := run_operations step operations s'
    (reply :: replies, s'')

section Runs

variable {c : Columns}

theorem run_stored_follows (hi : c.trigger_intent = true) (hu : c.updated_at = true)
    (now : String) (call : StoreCall) (db : Db) :
    call.run_stored now (db.stored c) = ((call.run now db).1, (call.run now db).2.stored c) := by
  cases call with
  | create request =>
    simp only [StoreCall.run_stored, StoreCall.run, create_follows hi now request db]
  | transition request_id from_state to_state reason result_code =>
    simp only [StoreCall.run_stored, StoreCall.run, transition_follows hu now request_id
      from_state to_state reason result_code db]
  | mark request_id final_state reason result_code =>
    simp only [StoreCall.run_stored, StoreCall.run, mark_follows hu now request_id final_state
      reason result_code db]
  | append request_id event_type payload =>
    have h := Txn.Follows.atomic (event_follows (c := c) now request_id event_type payload) db
    simp only [StoreCall.run_stored, StoreCall.run]
    unfold StoredDb.append_event append_event
    rw [h]

theorem on_stored_follows (hi : c.trigger_intent = true) (hu : c.updated_at = true)
    (operation : StoreOperation) (db : Db) : operation.on_stored (db.stored c) =
      ((operation.on_db db).1, (operation.on_db db).2.stored c) := by
  cases operation with
  | call now call =>
    simp only [StoreOperation.on_stored, StoreOperation.on_db, run_stored_follows hi hu]
  | get_request request_id =>
    simp only [StoreOperation.on_stored, StoreOperation.on_db, stored_get_request hi]
  | list_recoverable_jobs =>
    simp only [StoreOperation.on_stored, StoreOperation.on_db, stored_list_recoverable hi]

theorem run_operations_follows (hi : c.trigger_intent = true) (hu : c.updated_at = true)
    (operations : List StoreOperation) (db : Db) :
    run_operations StoreOperation.on_stored operations (db.stored c) =
      ((run_operations StoreOperation.on_db operations db).1,
        (run_operations StoreOperation.on_db operations db).2.stored c) := by
  induction operations generalizing db with
  | nil => rfl
  | cons operation operations ih =>
    simp only [run_operations, on_stored_follows hi hu, ih]

end Runs

section Opening

variable {c : Columns}

/-- The row in the current schema; `now` stands in a column of times that is missing. -/
def StoredRow.current (now : String) (row : StoredRow c) : RequestRow where
  request_id := row.request_id
  idempotency_key := row.idempotency_key
  project_id := row.project_id
  project_profile := row.project_profile
  trigger := row.trigger
  trigger_intent := if h : c.trigger_intent = true then row.trigger_intent h else "active_intent"
  target_file := row.target_file
  git_revision := row.git_revision
  base_file_hash := row.base_file_hash
  diff_text := row.diff_text
  metadata_json := row.metadata_json
  state := row.state
  created_at := if h : c.created_at = true then row.created_at h else now
  updated_at := if h : c.updated_at = true then row.updated_at h else now

/-- The database of the current schema with the same rows and default values. -/
def StoredDb.current (now : String) (store : StoredDb c) : Db where
  review_requests := store.review_requests.map (StoredRow.current now)
  review_events := store.review_events
  sequence := store.sequence

theorem current_migrate (now : String) (row : StoredRow c) :
    (row.current now).stored c.migrated = row.migrate := by
  have htime : ∀ (b : Bool) (f : b = true → String),
      (fun _ : b = true => if h : b = true then f h else now) = f := by
    intro b f
    funext h
    rw [dif_pos h]
  unfold StoredRow.migrate RequestRow.stored StoredRow.current
  congr 1
  · exact htime c.created_at row.created_at
  · exact htime c.updated_at row.updated_at

/-- Opening the store keeps its rows, and from then on every sequence of operations has the
replies and the effects it has on the database of the current schema. -/
def Harmless (store : StoredDb c) : Prop :=
  ∃ opened, store.initialize_schema = .ok opened ∧
    opened.review_requests = store.review_requests.map StoredRow.migrate ∧
    ∀ now operations, run_operations StoreOperation.on_stored operations opened =
      ((run_operations StoreOperation.on_db operations (store.current now)).1,
        (run_operations StoreOperation.on_db operations (store.current now)).2.stored c.migrated)

theorem mark_reply (db : Db) (now request_id : String) (final_state : ReviewState) :
    (mark_terminal now request_id final_state .none .none db).1 =
      if db.review_requests.countP (·.request_id == request_id) = 0
      then .error (keyError request_id) else .ok () := by
  obtain ⟨payload_json, hdumps⟩ : ∃ payload_json, PyDict.dumps
      [("state", .str final_state.value), ("reason", .none), ("result_code", .none)] =
        .ok payload_json := ⟨_, PyDict.dumps_of_serializable rfl⟩
  by_cases h : db.review_requests.countP (·.request_id == request_id) = 0
  · simp [mark_terminal, update_state, Txn.atomic, Txn.run_bind, h]
  · simp [mark_terminal, update_state, insert_event, hdumps, Txn.run_ofExcept, Txn.atomic,
      Txn.run_bind, h]

/-- An `UPDATE` of a table without `updated_at` raises, and the current schema never does so. -/
theorem mark_differs (hu : c.updated_at = false) (store : StoredDb c) (db : Db)
    (now request_id : String) (final_state : ReviewState) :
    (StoredDb.mark_terminal now request_id final_state .none .none store).1 ≠
      (mark_terminal now request_id final_state .none .none db).1 := by
  have hstored : (StoredDb.mark_terminal now request_id final_state .none .none store).1 =
      .error (operationalError "no such column: updated_at") := by
    simp [StoredDb.mark_terminal, StoredDb.update_state, hu, Txn.atomic, Txn.run_bind]
  rw [hstored, mark_reply]
  split
  · simp [operationalError, keyError]
  · simp

theorem Harmless.updated_at {store : StoredDb c} (h : Harmless store) : c.updated_at = true := by
  obtain ⟨opened, -, -, hagree⟩ := h
  by_contra hu
  have hmigrated : c.migrated.updated_at = false := Bool.eq_false_of_not_eq_true hu
  have hreplies := congrArg Prod.fst (hagree "" [.call "" (.mark "" .FAILED .none .none)])
  simp only [run_operations, StoreOperation.on_stored, StoreOperation.on_db,
    StoreCall.run_stored, StoreCall.run, List.cons.injEq, and_true, StoreReply.called.injEq]
    at hreplies
  have hne := mark_differs hmigrated opened (store.current "") "" "" .FAILED
  generalize (StoredDb.mark_terminal "" "" .FAILED .none .none opened).1 = r at hreplies hne
  generalize (mark_terminal "" "" .FAILED .none .none (store.current "")).1 = r' at hreplies hne
  refine hne ?_
  cases r <;> cases r' <;> simp_all [Except.map]

/-- An old database is opened without harm just when its table has `updated_at` and no two of its
rows share an idempotency key. -/
theorem harmless_iff (store : StoredDb c) : Harmless store ↔
    c.updated_at = true ∧ (store.review_requests.map (·.idempotency_key)).Nodup := by
  constructor
  · intro h
    refine ⟨h.updated_at, ?_⟩
    obtain ⟨opened, hopen, -⟩ := h
    by_contra hdup
    simp [StoredDb.initialize_schema, hdup] at hopen
  · rintro ⟨hu, hkeys⟩
    refine ⟨_, if_pos hkeys, rfl, fun now operations => ?_⟩
    have hopened : (store.current now).stored c.migrated = {
        review_requests := store.review_requests.map StoredRow.migrate
        review_events := store.review_events
        sequence := store.sequence } := by
      simp only [StoredDb.current, Db.stored, List.map_map, StoredDb.mk.injEq, and_true]
      exact List.map_congr_left fun row _ => current_migrate now row
    rw [← hopened]
    exact run_operations_follows (c := c.migrated) rfl hu operations _

end Opening

/-- A table with none of the later columns, and one queued request. -/
def oldStore : StoredDb ⟨false, false, false⟩ where
  review_requests := [{
    request_id := "req_1"
    idempotency_key := "idemp_1"
    project_id := "project"
    project_profile := "general"
    trigger := "daemon"
    trigger_intent := nofun
    target_file := "a.py"
    git_revision := "HEAD"
    base_file_hash := ""
    diff_text := "+x"
    metadata_json := ⟨[], rfl⟩
    state := .QUEUED
    created_at := nofun
    updated_at := nofun }]

/-- The store opens, and the queued request can never leave its state. -/
theorem old_request_stuck : ¬Harmless oldStore ∧
    ∃ opened, oldStore.initialize_schema = .ok opened ∧
      (StoredDb.transition_state "" "req_1" .QUEUED .CONTEXT_READY .none .none opened).1 =
        .error (operationalError "no such column: updated_at") ∧
      (transition_state "" "req_1" .QUEUED .CONTEXT_READY .none .none
        (oldStore.current "")).1 = .ok () := by
  refine ⟨fun h => ?_, _, rfl, rfl, rfl⟩
  have hu := h.updated_at
  cases hu

end Nitpicker
