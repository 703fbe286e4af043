import NitpickerDaemon.JobStoreReplay

/-!
Histories of calls on a fresh job store.
-/

set_option autoImplicit false

namespace Nitpicker

open Effect

inductive StoreCall where
  | create (request : ReviewRequest)
  | transition (request_id : String) (from_state to_state : ReviewState)
      (reason result_code : PyVal)
  | mark (request_id : String) (final_state : ReviewState) (reason result_code : PyVal)
  | append (request_id event_type : String) (payload : PyDict)

/-- Outside callers append no lifecycle event of their own. -/
def StoreCall.admissible : StoreCall → Prop
  | .append _ event_type _ => event_type ∉ lifecycle
  | _ => True

def StoreCall.run (now : String) :
    StoreCall → Db → Except PyExc (Option JobCreationOutcome) × Db
  | .create request, db =>
    let (r, db') := create_request now request db
    (r.map some, db')
  | .transition request_id from_state to_state reason result_code, db =>
    let (r, db') := transition_state now request_id from_state to_state reason result_code db
    (r.map fun _ => none, db')
  | .mark request_id final_state reason result_code, db =>
    let (r, db') := mark_terminal now request_id final_state reason result_code db
    (r.map fun _ => none, db')
  | .append request_id event_type payload, db =>
    let (r, db') := append_event now request_id event_type payload db
    (r.map fun _ => none, db')

/-- The store after `calls`, each with the time it was made at, on a fresh database. -/
def run_calls (calls : List (String × StoreCall)) : Db :=
  calls.foldl (fun db c => (c.2.run c.1 db).2) {}

theorem run_calls_append (calls : List (String × StoreCall)) (c : String × StoreCall) :
    run_calls (calls ++ [c]) = (c.2.run c.1 (run_calls calls)).2 := by simp [run_calls]

theorem StoreCall.run_step {c : StoreCall} (h : c.admissible) (now : String) (db : Db) :
    DbStep db (c.run now db).2 := by
  cases c with
  | create request => exact create_request_step rfl
  | transition request_id from_state to_state reason result_code => exact transition_state_step rfl
  | mark request_id final_state reason result_code => exact mark_terminal_step rfl
  | append request_id event_type payload => exact append_event_step rfl h

theorem run_calls_consistent {calls : List (String × StoreCall)}
    (h : ∀ c ∈ calls, c.2.admissible) : (run_calls calls).Consistent := by
  induction calls using List.reverseRecOn with
  | nil => exact Db.consistent_empty
  | append_singleton calls c ih =>
    rw [run_calls_append]
    have hc := ih fun d hd => h d (by simp [hd])
    exact hc.step (StoreCall.run_step (h c (by simp)) c.1 _)

/-- The stores some calls lead to. -/
def Db.Reachable (db : Db) : Prop :=
  ∃ calls : List (String × StoreCall), (∀ c ∈ calls, c.2.admissible) ∧ run_calls calls = db

theorem Db.Reachable.consistent {db : Db} (h : db.Reachable) : db.Consistent := by
  obtain ⟨calls, hadm, rfl⟩ := h
  exact run_calls_consistent hadm

theorem Db.reachable_empty : ({} : Db).Reachable := ⟨[], by simp, rfl⟩

/-- The columns no call writes after the insert: the row as it was inserted. -/
def RequestRow.fixed (row : RequestRow) : RequestRow :=
  { row with state := .QUEUED, updated_at := row.created_at }

theorem row_request {now : String} {request : ReviewRequest} {metadata_json : JsonText}
    {row : RequestRow} (h : request.row now metadata_json = some row)
    (hm : metadata_json.loads = request.metadata) : row.request = request := by
  obtain ⟨_, _, _, _, trigger, trigger_intent, _, git_revision, _, _, _⟩ := request
  cases trigger <;> cases trigger_intent <;> cases git_revision <;>
    simp only [ReviewRequest.row, Option.some.injEq, reduceCtorEq] at h
  subst h
  simp [RequestRow.request, hm]

theorem Db.Consistent.find_request {db : Db} (hc : db.Consistent) {row : RequestRow}
    (h : row ∈ db.review_requests) : db.find_request row.request_id = some row := by
  cases hf : db.find_request row.request_id with
  | none =>
    have hn := List.find?_eq_none.mp hf row h
    simp at hn
  | some r =>
    have hid : r.request_id = row.request_id := by simpa using List.find?_some hf
    rw [hc.row_unique (List.mem_of_find?_eq_some hf) h hid]

/-- One of `calls` inserted `row`, which differs from the inserted row at most in `state`
and `updated_at`. -/
def InsertedBy (calls : List (String × StoreCall)) (row : RequestRow) : Prop :=
  ∃ pre now request post metadata_json state,
    calls = pre ++ (now, .create request) :: post ∧
    (create_request now request (run_calls pre)).1 = .ok ⟨true, false, state⟩ ∧
    request.row now metadata_json = some row.fixed ∧ metadata_json.loads = request.metadata

theorem InsertedBy.append {calls : List (String × StoreCall)} {row row' : RequestRow}
    (h : InsertedBy calls row) (hf : row'.fixed = row.fixed) (c : String × StoreCall) :
    InsertedBy (calls ++ [c]) row' := by
  obtain ⟨pre, now, request, post, metadata_json, state, rfl, hcreated, hrow, hm⟩ := h
  exact ⟨pre, now, request, post ++ [c], metadata_json, state, by simp, hcreated, hf ▸ hrow, hm⟩

/-- A request with its deciding fields given and the others fixed. -/
def sampleRequest (request_id idempotency_key : String) : ReviewRequest where
  request_id := request_id
  idempotency_key := idempotency_key
  project_id := "auto_research_review"
  project_profile := "general"
  trigger := some "cli"
  git_revision := some "workspace"

end Nitpicker
