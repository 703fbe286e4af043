import NitpickerDaemon.StateMachine
import NitpickerDaemon.Effect.Transaction

/-!
The SQLite job store: the table of requests, the table of events and the calls that
change them. Every call runs in one transaction; `now` is the `CURRENT_TIMESTAMP` it sees.
-/

set_option autoImplicit false

namespace Nitpicker

open Effect

structure RequestRow where
  request_id : String
  idempotency_key : String
  project_id : String
  project_profile : String
  trigger : String
  trigger_intent : String
  target_file : String
  git_revision : String
  base_file_hash : String
  diff_text : String
  metadata_json : JsonText
  state : ReviewState
  created_at : String
  updated_at : String

structure EventRow where
  id : Nat
  request_id : String
  event_type : String
  payload_json : JsonText
  created_at : String

/-- The two tables; `sequence` is the last id `AUTOINCREMENT` gave to an event. -/
structure Db where
  review_requests : List RequestRow := []
  review_events : List EventRow := []
  sequence : Nat := 0

abbrev Statement (α : Type) := Txn PyExc Db α

structure JobCreationOutcome where
  created : Bool
  duplicate : Bool
  existing_state : Option String := none
  deriving DecidableEq, Repr

/-- The row the `INSERT` would add; `none` when a `NOT NULL` column is bound to `NULL`. -/
def ReviewRequest.row (now : String) (request : ReviewRequest) (metadata_json : JsonText) :
    Option RequestRow :=
  match request.trigger, request.trigger_intent, request.git_revision with
  | some trigger, some trigger_intent, some git_revision => some {
      request_id := request.request_id
      idempotency_key := request.idempotency_key
      project_id := request.project_id
      project_profile := request.project_profile
      trigger := trigger
      trigger_intent := trigger_intent
      target_file := request.target_file
      git_revision := git_revision
      base_file_hash := request.base_file_hash
      diff_text := request.diff_text
      metadata_json := metadata_json
      state := .QUEUED
      created_at := now
      updated_at := now }
  | _, _, _ => none

/-- The `PRIMARY KEY` or the unique index on `idempotency_key` refuses `row`. -/
def Db.conflicts (db : Db) (row : RequestRow) : Bool :=
  db.review_requests.any fun r =>
    r.request_id == row.request_id || r.idempotency_key == row.idempotency_key

def Db.insert (db : Db) (row : RequestRow) : Db :=
  { db with review_requests := db.review_requests ++ [row] }

def Db.set_state (db : Db) (now : String) (state : ReviewState) (where_ : RequestRow → Bool) : Db :=
  let rows := db.review_requests.map fun r =>
    if where_ r then { r with state := state, updated_at := now } else r
  { db with review_requests := rows }

def Db.log (db : Db) (now request_id event_type : String) (payload_json : JsonText) : Db :=
  let event : EventRow := ⟨db.sequence + 1, request_id, event_type, payload_json, now⟩
  { db with review_events := db.review_events ++ [event], sequence := db.sequence + 1 }

def Db.find_key (db : Db) (key : String) : Option RequestRow :=
  db.review_requests.find? (·.idempotency_key == key)

def Db.find_request (db : Db) (request_id : String) : Option RequestRow :=
  db.review_requests.find? (·.request_id == request_id)

/-- `INSERT OR IGNORE`; returns the row count. -/
def insert_or_ignore (row : Option RequestRow) : Statement Nat := do
  let db ← Txn.read
  match row with
  | none => pure 0
  | some row =>
    if db.conflicts row then pure 0 else do
      Txn.write (db.insert row)
      pure 1

/-- `UPDATE review_requests SET state, updated_at WHERE ...`; returns the row count. -/
def update_state (now : String) (state : ReviewState) (where_ : RequestRow → Bool) :
    Statement Nat := do
  let db ← Txn.read
  Txn.write (db.set_state now state where_)
  pure (db.review_requests.countP where_)

/-- `_append_event` -/
def insert_event (now request_id event_type : String) (payload : PyDict) : Statement Unit := do
  let payload_json ← Txn.ofExcept payload.dumps
  let db ← Txn.read
  Txn.write (db.log now request_id event_type payload_json)

def create_request (now : String) (request : ReviewRequest) : Statement JobCreationOutcome :=
  Txn.atomic do
    let metadata_json ← Txn.ofExcept request.metadata.dumps
    let rowcount ← insert_or_ignore (request.row now metadata_json)
    if rowcount = 0 then do
      let db ← Txn.read
      match db.find_key request.idempotency_key with
      | none => pure ⟨false, true, none⟩
      | some existing => do
        insert_event now existing.request_id "review.duplicate_ignored" [
          ("duplicate_request_id", .str request.request_id),
          ("idempotency_key", .str request.idempotency_key),
          ("existing_state", .str existing.state.value)]
        pure ⟨false, true, some existing.state.value⟩
    else do
      insert_event now request.request_id "review.request"
        [("state", .str ReviewState.QUEUED.value)]
      pure ⟨true, false, some ReviewState.QUEUED.value⟩

def transition_state (now request_id : String) (from_state to_state : ReviewState)
    (reason result_code : PyVal) : Statement Unit :=
  if can_transition from_state to_state then
    Txn.atomic do
      let rowcount ← update_state now to_state
        fun r => r.request_id == request_id && r.state == from_state
      if rowcount = 0 then do
        let db ← Txn.read
        match db.find_request request_id with
        | none => Txn.raise (keyError request_id)
        | some current => Txn.raise (valueError ("current state mismatch: expected " ++
            from_state.value ++ ", got " ++ current.state.value))
      else
        insert_event now request_id "review.state_changed" [
          ("from", .str from_state.value), ("to", .str to_state.value),
          ("reason", reason), ("result_code", result_code)]
  else
    Txn.raise (valueError ("invalid state transition: " ++ from_state.value ++ " -> " ++
      to_state.value))

def append_event (now request_id event_type : String) (payload : PyDict) : Statement Unit :=
  Txn.atomic (insert_event now request_id event_type payload)

def mark_terminal (now request_id : String) (final_state : ReviewState)
    (reason result_code : PyVal) : Statement Unit :=
  Txn.atomic do
    let rowcount ← update_state now final_state (·.request_id == request_id)
    if rowcount = 0 then Txn.raise (keyError request_id) else
      insert_event now request_id "review.terminal" [
        ("state", .str final_state.value), ("reason", reason), ("result_code", result_code)]

def RequestRow.request (row : RequestRow) : ReviewRequest where
  request_id := row.request_id
  idempotency_key := row.idempotency_key
  project_id := row.project_id
  project_profile := row.project_profile
  trigger := some row.trigger
  trigger_intent := some row.trigger_intent
  target_file := row.target_file
  git_revision := some row.git_revision
  base_file_hash := row.base_file_hash
  diff_text := row.diff_text
  metadata := row.metadata_json.loads

def get_request (db : Db) (request_id : String) : Option ReviewRequest :=
  (db.find_request request_id).map RequestRow.request

def recoverable : List ReviewState := [.QUEUED, .CONTEXT_READY, .ANALYZING, .PATCH_PROPOSED]

def list_recoverable_jobs (db : Db) : List ReviewRequest :=
  (db.review_requests.filter (·.state ∈ recoverable)).filterMap
    fun row => get_request db row.request_id

end Nitpicker
