import NitpickerDaemon.Triggers
import NitpickerDaemon.JobStoreHistory

/-!
The duplicate check: what the idempotency key identifies, and which question
`create_request` answers with it.
-/

set_option autoImplicit false

namespace Nitpicker

open Effect

/-- The key of two requests agrees exactly when file and diff do. -/
def KeyIdentifiesChange (r₁ r₂ : ReviewRequest) : Prop :=
  r₁.idempotency_key = r₂.idempotency_key ↔
    r₁.target_file = r₂.target_file ∧ r₁.diff_text = r₂.diff_text

theorem append_split {a b c d : String} (h : a ++ b = c ++ d) (hl : a.length = c.length) :
    a = c ∧ b = d := by
  have hh : a.toList ++ b.toList = c.toList ++ d.toList := by
    rw [← String.toList_append, ← String.toList_append, h]
  obtain ⟨h₁, h₂⟩ := List.append_inj hh (by rw [String.length_toList, String.length_toList, hl])
  exact ⟨String.toList_injective h₁, String.toList_injective h₂⟩

theorem key_prefix_inj {a b : String} (h : "idemp_" ++ a = "idemp_" ++ b) : a = b :=
  (append_split h rfl).2

/-- With the truncated digests of the two inputs free of collisions, the key identifies the
change exactly when the concatenations of file name and diff differ or split alike. -/
theorem idempotency_key_identifies_iff {sha256 : ByteArray → String} {a₁ a₂ : Adapter}
    {e₁ e₂ : TriggerEvent} {r₁ r₂ : ReviewRequest}
    (h₁ : a₁.build_request sha256 e₁ = .ok r₁) (h₂ : a₂.build_request sha256 e₂ = .ok r₂)
    (hinj : hexPrefix (digest sha256 r₁.target_file r₁.diff_text) 16 =
        hexPrefix (digest sha256 r₂.target_file r₂.diff_text) 16 →
      r₁.target_file ++ r₁.diff_text = r₂.target_file ++ r₂.diff_text) :
    KeyIdentifiesChange r₁ r₂ ↔
      (r₁.target_file ++ r₁.diff_text ≠ r₂.target_file ++ r₂.diff_text ∨
        r₁.target_file.length = r₂.target_file.length) := by
  have hkey : r₁.idempotency_key = r₂.idempotency_key ↔
      r₁.target_file ++ r₁.diff_text = r₂.target_file ++ r₂.diff_text := by
    rw [Adapter.build_request_key h₁, Adapter.build_request_key h₂]
    refine ⟨fun h => hinj (key_prefix_inj h), fun h => ?_⟩
    rw [digest, digest, h]
  unfold KeyIdentifiesChange
  rw [hkey]
  constructor
  · intro h
    by_cases heq : r₁.target_file ++ r₁.diff_text = r₂.target_file ++ r₂.diff_text
    · exact .inr (by rw [(h.mp heq).1])
    · exact .inl heq
  · rintro (hne | hl)
    · exact ⟨fun h => absurd h hne, fun h => by rw [h.1, h.2]⟩
    · exact ⟨fun h => append_split h hl, fun h => by rw [h.1, h.2]⟩

def fileEvent (source target_file diff_text : String) : TriggerEvent where
  source := source
  payload := [("target_file", some target_file), ("diff_text", some diff_text)]

/-- SHA-256 on the inputs of `key_identifies_sample`. -/
def sampleSha256 (bytes : ByteArray) : String :=
  if bytes = "a.py+x".toUTF8 then
    "4f28cd5e9b7421e34cdaf32605d5c43d3fa492fb3f1cd503c52aad4d0bc1c9a1"
  else if bytes = "b.py+x".toUTF8 then
    "ddd4111a7f03feaf7d3cd9680a7e1738d201f61c86c9ab2b8e17fded91dc18d7"
  else "ba7816bf8f01cfea414140de5dae2223b00361a396177a9cb410ff61f20015ad"

theorem key_identifies_sample :
    ∃ r₁ r₂, Adapter.cli.build_request sampleSha256 (fileEvent "cli" "a.py" "+x") = .ok r₁ ∧
      Adapter.lsp.build_request sampleSha256 (fileEvent "lsp" "b.py" "+x") = .ok r₂ ∧
      KeyIdentifiesChange r₁ r₂ := by
  refine ⟨_, _, rfl, rfl, (@idempotency_key_identifies_iff sampleSha256 .cli .lsp
    (fileEvent "cli" "a.py" "+x") (fileEvent "lsp" "b.py" "+x") _ _ rfl rfl ?_).mpr (.inr rfl)⟩
  intro h
  exact absurd h (by decide)

/-- Moving the boundary between file name and diff keeps the key. -/
theorem key_ignores_boundary :
    ∃ r₁ r₂, Adapter.cli.build_request sampleSha256 (fileEvent "cli" "ab" "c") = .ok r₁ ∧
      Adapter.cli.build_request sampleSha256 (fileEvent "cli" "a" "bc") = .ok r₂ ∧
      ¬KeyIdentifiesChange r₁ r₂ := by
  refine ⟨_, _, rfl, rfl, fun h => ?_⟩
  have hsame := h.mp rfl
  exact absurd hsame.1 (by decide)

def Db.KeyStored (db : Db) (key : String) : Prop :=
  ∃ row ∈ db.review_requests, row.idempotency_key = key

def Db.IdStored (db : Db) (request_id : String) : Prop :=
  ∃ row ∈ db.review_requests, row.request_id = request_id

/-- A `NOT NULL` column of the request is null. -/
def ReviewRequest.HasNull (request : ReviewRequest) : Prop :=
  request.trigger = none ∨ request.trigger_intent = none ∨ request.git_revision = none

/-- `create_request` reports a duplicate exactly when the key is stored, and otherwise
inserts the request as a new queued row or raises. -/
def AnswersDuplicateQuestion (now : String) (request : ReviewRequest) (db : Db) : Prop :=
  ((∃ outcome, (create_request now request db).1 = .ok outcome ∧ outcome.duplicate = true) ↔
    db.KeyStored request.idempotency_key) ∧
  (¬db.KeyStored request.idempotency_key →
    (∃ e, (create_request now request db).1 = .error e) ∨
    ∃ outcome row, (create_request now request db).1 = .ok outcome ∧
      outcome.created = true ∧ outcome.duplicate = false ∧
      (create_request now request db).2.review_requests = db.review_requests ++ [row] ∧
      row.request = request ∧ row.state = .QUEUED)

theorem row_none_iff (now : String) (request : ReviewRequest) (metadata_json : JsonText) :
    request.row now metadata_json = none ↔ request.HasNull := by
  obtain ⟨_, _, _, _, trigger, trigger_intent, _, git_revision, _, _, _⟩ := request
  cases trigger <;> cases trigger_intent <;> cases git_revision <;>
    simp [ReviewRequest.row, ReviewRequest.HasNull]

theorem Db.find_key_some {db : Db} {key : String} {row : RequestRow}
    (h : db.find_key key = some row) : row ∈ db.review_requests ∧ row.idempotency_key = key :=
  ⟨List.mem_of_find?_eq_some h, by simpa using List.find?_some h⟩

theorem Db.find_key_none {db : Db} {key : String} (h : db.find_key key = none) :
    ¬db.KeyStored key := by
  rintro ⟨row, hrow, hkey⟩
  have hn := List.find?_eq_none.mp h row hrow
  simp [hkey] at hn

theorem Db.not_conflicts {db : Db} {now : String} {request : ReviewRequest}
    {metadata_json : JsonText} {row : RequestRow} (hrow : request.row now metadata_json = some row)
    (hc : db.conflicts row = false) :
    ¬db.KeyStored request.idempotency_key ∧ ¬db.IdStored request.request_id := by
  obtain ⟨hid, hkey, -⟩ := row_fields hrow
  rw [Db.conflicts_false] at hc
  refine ⟨?_, ?_⟩
  · rintro ⟨r, hr, hk⟩
    exact (hc r hr).2 (hk.trans hkey.symm)
  · rintro ⟨r, hr, hi⟩
    exact (hc r hr).1 (hi.trans hid.symm)

/-- A refused insert with an unknown key was refused for its id or for a null column. -/
theorem Db.refused_reason {db : Db} {now : String} {request : ReviewRequest}
    {metadata_json : JsonText} (h : db.refuses now request metadata_json)
    (hk : ¬db.KeyStored request.idempotency_key) :
    db.IdStored request.request_id ∨ request.HasNull := by
  cases hrow : request.row now metadata_json with
  | none => exact .inr ((row_none_iff now request metadata_json).mp hrow)
  | some row =>
    obtain ⟨hid, hkey, -⟩ := row_fields hrow
    have hc := h row hrow
    simp only [Db.conflicts, List.any_eq_true, Bool.or_eq_true, beq_iff_eq] at hc
    obtain ⟨r, hr, hi | hk'⟩ := hc
    · exact .inl ⟨r, hr, hi.trans hid⟩
    · exact absurd ⟨r, hr, hk'.trans hkey⟩ hk

theorem dumps_error_iff {d : PyDict} : (∃ e, d.dumps = .error e) ↔
    (PyVal.dict d).unserializable ≠ none := by
  constructor
  · rintro ⟨e, he⟩ h
    rw [PyDict.dumps_of_serializable h] at he
    cases he
  · intro h
    cases hd : d.dumps with
    | error e => exact ⟨e, rfl⟩
    | ok t =>
      have hl := PyDict.dumps_ok hd
      have hs := t.serializable
      rw [hl] at hs
      exact absurd hs h

theorem dumps_serializable {d : PyDict} {t : JsonText} (h : d.dumps = .ok t) :
    (PyVal.dict d).unserializable = none := PyDict.dumps_ok h ▸ t.serializable

/-- When the duplicate question is answered: with a stored key when the metadata can be
encoded; with an unknown key when it cannot, or when the id is unused and nothing is null. -/
theorem create_request_answers_iff (now : String) (request : ReviewRequest) (db : Db) :
    AnswersDuplicateQuestion now request db ↔
      (db.KeyStored request.idempotency_key ∧
        (PyVal.dict request.metadata).unserializable = none) ∨
      (¬db.KeyStored request.idempotency_key ∧
        ((PyVal.dict request.metadata).unserializable ≠ none ∨
          (¬db.IdStored request.request_id ∧ ¬request.HasNull))) := by
  unfold AnswersDuplicateQuestion
  rcases hr : create_request now request db with ⟨r, db'⟩
  cases create_request_cases hr with
  | raised e hd =>
    have hs := dumps_error_iff.mp ⟨e, hd⟩
    by_cases hk : db.KeyStored request.idempotency_key <;> simp [hk, hs]
  | created metadata_json row payload hd hrow hc hp =>
    obtain ⟨hk, hi⟩ := Db.not_conflicts hrow hc
    have hn : ¬request.HasNull := fun hn => by
      rw [(row_none_iff now request metadata_json).mpr hn] at hrow
      cases hrow
    have hreq := row_request hrow (PyDict.dumps_ok hd)
    have hstate := (row_fields hrow).2.2.1
    simp [hk, hi, hn, hreq, hstate]
  | duplicate metadata_json existing payload hd href hkey =>
    have hk : db.KeyStored request.idempotency_key := ⟨existing, Db.find_key_some hkey⟩
    simp [hk, dumps_serializable hd]
  | swallowed metadata_json hd href hkey =>
    have hk := Db.find_key_none hkey
    have hs := dumps_serializable hd
    have hreason := Db.refused_reason href hk
    simp only [hk, hs, not_false_eq_true, forall_const, iff_false, not_exists, false_and, ne_eq,
      not_true_eq_false, false_or, true_and]
    refine iff_of_false (fun h => h.1 ⟨false, true, none⟩ ⟨rfl, rfl⟩) fun h => ?_
    exact hreason.elim h.1 h.2

def nullIntentEvent : TriggerEvent where
  source := "daemon"
  payload := [("target_file", some "a.py"), ("diff_text", some "+x"), ("trigger_intent", none)]

/-- A null intent from the wire is answered as a duplicate by an empty store, and so is an
id that is used again for another change. -/
theorem create_request_swallows :
    (∃ request, Adapter.daemon.build_request sampleSha256 nullIntentEvent = .ok request ∧
      ¬AnswersDuplicateQuestion "t0" request {}) ∧
    ¬AnswersDuplicateQuestion "t1" (sampleRequest "req_1" "idemp_2")
      (run_calls [("t0", .create (sampleRequest "req_1" "idemp_1"))]) := by
  refine ⟨⟨_, rfl, fun h => ?_⟩, fun h => ?_⟩
  · obtain ⟨row, hrow, -⟩ := h.1.mp ⟨⟨false, true, none⟩, rfl, rfl⟩
    cases hrow
  · obtain ⟨row, hrow, hkey⟩ := h.1.mp ⟨⟨false, true, none⟩, rfl, rfl⟩
    rw [List.mem_singleton.mp hrow] at hkey
    exact absurd hkey (by decide)

end Nitpicker
