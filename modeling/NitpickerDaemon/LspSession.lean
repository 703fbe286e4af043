import NitpickerDaemon.Effect.Labelled
import NitpickerDaemon.JsonRpc
import NitpickerDaemon.LspWatcher
import NitpickerDaemon.PyJson

/-!
A session of the language server: the main thread answers the messages of the client while the
watcher thread publishes diagnostics, both on one stream.
-/

set_option autoImplicit false

namespace Nitpicker

open Effect Text

/-- `_respond` -/
def respond (req_id result : PyVal) : PyDict :=
  [("jsonrpc", .str "2.0"), ("id", req_id), ("result", result)]

def notification (method : String) (params : PyVal) : PyDict :=
  [("jsonrpc", .str "2.0"), ("method", .str method), ("params", params)]

def method_not_found (py : Python) (req_id method : PyVal) : PyDict :=
  [("jsonrpc", .str "2.0"), ("id", req_id),
    ("error", .dict [("code", .int (-32601)), ("message", .str ("Method not found: " ++ py.str method))])]

def text_range (start_line : PyVal) (start_character : Nat) (end_line : PyVal) (end_character : Nat) :
    PyVal :=
  .dict [("start", .dict [("line", start_line), ("character", .int start_character)]),
    ("end", .dict [("line", end_line), ("character", .int end_character)])]

def Diagnostic.dict (d : Diagnostic) : PyVal :=
  .dict [("range", text_range d.line 0 d.line 9999), ("severity", .int d.severity),
    ("source", .str d.source), ("message", .str d.message), ("code", d.code),
    ("data", .dict [("agent", d.agent), ("code", d.code), ("line_number", d.line)])]

def TextEdit.dict (e : TextEdit) : PyVal :=
  .dict [("range", text_range e.start_line e.start_character e.end_line e.end_character),
    ("newText", .str e.new_text)]

def CodeAction.dict (a : CodeAction) : PyVal :=
  .dict ([("title", a.title), ("kind", .str "quickfix"), ("diagnostics", .list a.diagnostics)] ++
    (if a.is_preferred then [("isPreferred", .bool true)] else []) ++
    [("edit", match a.edit with
      | some (uri, edits) => .dict [("changes", .dict [(uri, .list (edits.map TextEdit.dict))])]
      | none => .dict [])])

/-- The result of `initialize`. -/
def initialize_result : PyVal :=
  .dict [("capabilities", .dict
      [("codeActionProvider", .dict [("codeActionKinds", .list [.str "quickfix"])]),
        ("textDocumentSync", .dict [("openClose", .bool true), ("change", .int 0)])]),
    ("serverInfo", .dict [("name", .str "jemmin-lsp"), ("version", .str "0.2.0")])]

/-- What `_dispatch` does: it writes a message, or nothing, or ends the loop, or raises. -/
inductive Dispatched where
  | responds (msg : PyDict)
  | silent
  | quits
  | raises (e : PyExc)

/-- `_handle_code_action`; for a URI that is no string, or diagnostics that are no list, only where
the review has no actions. -/
def handle_code_action (py : Python) (review : PyDict) (req_id params : PyVal) :
    Except PyExc (Option PyDict) := do
  let text_doc := (← params.call_get "textDocument" .none).or (.dict [])
  let uri ← text_doc.call_get "uri" (.str "")
  let request_range := (← params.call_get "range" .none).or (.dict [])
  let context := (← params.call_get "context" .none).or (.dict [])
  let context_diags ← context.call_get "diagnostics" (.list [])
  if (review.getD "code_actions" (.list [])).truthy = false then
    return some (respond req_id (.list []))
  match request_range, uri, context_diags with
  | .dict request_range, .str uri, .list context_diags =>
    let actions ← build_code_actions py review uri request_range context_diags
    return some (respond req_id (.list (actions.map CodeAction.dict)))
  | .dict _, _, _ => return none
  | _, _, _ => throw (attributeError request_range "get")

/-- `_dispatch`, with the review in the cache. -/
def LspSession.dispatch (py : Python) (review msg : PyDict) : Option Dispatched :=
  let method := msg.getD "method" (.str "")
  let req_id := PyDict.get msg "id"
  if method.isStr "initialize" then some (.responds (respond req_id initialize_result))
  else if method.isStr "initialized" then some .silent
  else if method.isStr "textDocument/codeAction" then
    match handle_code_action py review req_id ((PyDict.get msg "params").or (.dict [])) with
    | .ok reply => reply.map .responds
    | .error e => some (.raises e)
  else if method.isStr "shutdown" then some (.responds (respond req_id .none))
  else if method.isStr "exit" then some .quits
  else match req_id with
    | .none => some .silent
    | _ => some (.responds (method_not_found py req_id method))

namespace Watcher

/-- The diagnostics that go out in a poll. -/
def published (py : Python) (s : Watcher) (seen : Observation) : List (String × List Diagnostic) :=
  if s.alive = false then []
  else match seen with
  | .missing => []
  | .unreadable _ => []
  | .document mtime review =>
    if mtime = s.last_mtime then []
    else match review_to_diagnostics py review with
    | .error _ => []
    | .ok (uri, diagnostics) =>
      if uri = "" then []
      else (if s.last_uri ≠ "" ∧ s.last_uri ≠ uri then [(s.last_uri, [])] else []) ++
        [(uri, diagnostics)]

/-- What a client shows that is sent these diagnostics. -/
def shown (client : String → List Diagnostic) (sent : List (String × List Diagnostic)) :
    String → List Diagnostic :=
  sent.foldl (fun client p => Function.update client p.1 p.2) client

theorem poll_client (py : Python) (s : Watcher) (seen : Observation) :
    (s.poll py seen).client = shown s.client (s.published py seen) := by
  unfold poll published
  split
  · rfl
  · cases seen with
    | missing => rfl
    | unreadable mtime => rfl
    | document mtime review =>
      simp only
      split
      · rfl
      · unfold Watcher.publish
        cases review_to_diagnostics py review with
        | error e =>
          simp only
          split <;> rfl
        | ok found =>
          obtain ⟨uri, diagnostics⟩ := found
          simp only
          split
          · rfl
          · by_cases hclear : s.last_uri ≠ "" ∧ s.last_uri ≠ uri
            · simp [shown, notify, clear_last, hclear]
            · rw [clear_last, if_neg hclear, if_neg hclear]
              rfl

end Watcher

def publish_diagnostics (sent : String × List Diagnostic) : PyDict :=
  notification "textDocument/publishDiagnostics"
    (.dict [("uri", .str sent.1), ("diagnostics", .list (sent.2.map Diagnostic.dict))])

/-- Where the loop of `main` stands: at `_read_message`, at `_write_message`, or at its end. -/
inductive MainThread where
  | reading
  | writing (reply : PyDict)
  | returned
  | raised (type_name : String)

/-- The streams of the server, its main thread, its watcher, and the notifications the watcher has
still to write. -/
structure LspSession where
  stdin : List UInt8
  stdout : List UInt8 := []
  main : MainThread := .reading
  watcher : Watcher := {}
  notices : List PyDict := []

inductive LspLabel where
  | handled (msg : JsonObject)
  | stopped
  | failed (type_name : String)
  | responded (reply : JsonObject)
  | polled (seen : Observation)
  | notified (notice : JsonObject)

/-- Where the loop goes on after a message. -/
def Dispatched.next : Dispatched → Option MainThread
  | .responds reply => some (.writing reply)
  | .silent => some .reading
  | .quits => some .returned
  | .raises _ => none

namespace LspSession

/-- A step of one of the two threads. `_write_message` makes one write of its bytes, and only the
main thread reads, so that the cache is read as the message is. -/
inductive Step (floats : Floats) (py : Python) : LspSession → LspLabel → LspSession → Prop where
  | handle {s : LspSession} {msg : JsonObject} {rest : List UInt8} {entries : PyDict}
      {d : Dispatched} {next : MainThread} : s.main = .reading →
      read_message floats s.stdin = .ok (some (.object msg), rest) →
      py_members msg = some entries → dispatch py s.watcher.latest_review entries = some d →
      d.next = some next →
      Step floats py s (.handled msg) { s with stdin := rest, main := next }
  | raise {s : LspSession} {msg : JsonObject} {rest : List UInt8} {entries : PyDict} {e : PyExc} :
      s.main = .reading → read_message floats s.stdin = .ok (some (.object msg), rest) →
      py_members msg = some entries →
      dispatch py s.watcher.latest_review entries = some (.raises e) →
      Step floats py s (.failed e.type_name) { s with stdin := rest, main := .raised e.type_name }
  | no_dict {s : LspSession} {msg : Json} {rest : List UInt8} : s.main = .reading →
      read_message floats s.stdin = .ok (some msg, rest) → msg ≠ .null →
      (∀ members, msg ≠ .object members) →
      Step floats py s (.failed "AttributeError")
        { s with stdin := rest, main := .raised "AttributeError" }
  | stop {s : LspSession} {msg : Option Json} {rest : List UInt8} : s.main = .reading →
      read_message floats s.stdin = .ok (msg, rest) → (msg = none ∨ msg = some .null) →
      Step floats py s .stopped { s with stdin := rest, main := .returned }
  | value_error {s : LspSession} : s.main = .reading →
      read_message floats s.stdin = .error .value_error →
      Step floats py s (.failed "ValueError") { s with main := .raised "ValueError" }
  | json_decode_error {s : LspSession} : s.main = .reading →
      read_message floats s.stdin = .error .json_decode_error →
      Step floats py s (.failed "JSONDecodeError") { s with main := .raised "JSONDecodeError" }
  | respond {s : LspSession} {reply : PyDict} {members : JsonObject} {bytes : List UInt8} :
      s.main = .writing reply → json_members reply = some members →
      write_message floats members = some bytes →
      Step floats py s (.responded members)
        { s with stdout := s.stdout ++ bytes, main := .reading }
  | poll {s : LspSession} (seen : Observation) : s.notices = [] →
      Step floats py s (.polled seen)
        { s with watcher := s.watcher.poll py seen
                 notices := (s.watcher.published py seen).map publish_diagnostics }
  | notify {s : LspSession} {notice : PyDict} {notices : List PyDict} {members : JsonObject}
      {bytes : List UInt8} : s.notices = notice :: notices → json_members notice = some members →
      write_message floats members = some bytes →
      Step floats py s (.notified members)
        { s with stdout := s.stdout ++ bytes, notices := notices }

abbrev Run (floats : Floats) (py : Python) (stdin : List UInt8) : List LspLabel → LspSession → Prop :=
  LabelledRun (Step floats py) { stdin := stdin }

section Messages

def message_id (msg : JsonObject) : Json := (msg.lookup (code_points "id")).getD .null

def has_method (msg : JsonObject) (method : String) : Bool :=
  match msg.lookup (code_points "method") with
  | some (.str s) => s = code_points method
  | _ => false

/-- A message that names a method is a request or a notification, and not a response. -/
def names_method (msg : JsonObject) : Bool := (msg.lookup (code_points "method")).isSome

/-- The client is sent a response to the message. -/
def expects_response (msg : JsonObject) : Bool :=
  has_method msg "initialize" || has_method msg "textDocument/codeAction" ||
    has_method msg "shutdown" ||
    ((match message_id msg with
      | .null => false
      | _ => true) && !has_method msg "initialized" && !has_method msg "exit")

/-- The messages up to the first `exit`. -/
def upto_exit : List JsonObject → List JsonObject
  | [] => []
  | msg :: msgs => if has_method msg "exit" then [msg] else msg :: upto_exit msgs

/-- What `textDocument/publishDiagnostics` says. -/
def publication (msg : JsonObject) : Option (List CodePoint × Json) :=
  if has_method msg "textDocument/publishDiagnostics" then
    match msg.lookup (code_points "params") with
    | some (.object params) =>
      match params.lookup (code_points "uri"), params.lookup (code_points "diagnostics") with
      | some (.str uri), some diagnostics => some (uri, diagnostics)
      | _, _ => none
    | _ => none
  else none

/-- The diagnostics a client has after it read the messages. -/
def client_view (msgs : List JsonObject) : List CodePoint → Json :=
  msgs.foldl (fun view msg => match publication msg with
    | some (uri, diagnostics) => Function.update view uri diagnostics
    | none => view) fun _ => .array []

end Messages

def handled (log : List LspLabel) : List JsonObject :=
  log.filterMap fun l => match l with
    | .handled msg => some msg
    | _ => none

/-- What either thread wrote. -/
def written (log : List LspLabel) : List JsonObject :=
  log.filterMap fun l => match l with
    | .responded reply => some reply
    | .notified notice => some notice
    | _ => none

def polls (log : List LspLabel) : List Observation :=
  log.filterMap fun l => match l with
    | .polled seen => some seen
    | _ => none

section Dispatch

variable {py : Python} {review entries : PyDict} {msg : JsonObject}

def reply_id (reply : PyDict) : Json := (PyDict.get reply "id").json.getD .null

theorem message_id_json (h : json_members entries = some msg) : message_id msg = reply_id entries := by
  rw [message_id, reply_id, json_lookup h, PyDict.get, PyDict.getD]
  cases entries.lookup "id" <;> rfl

theorem isStr_method (h : json_members entries = some msg) {method : String} (hmethod : method ≠ "") :
    (entries.getD "method" (.str "")).isStr method = has_method msg method := by
  rw [has_method, json_lookup h, PyDict.getD]
  cases entries.lookup "method" with
  | none =>
    simp [PyVal.isStr, Ne.symm hmethod]
  | some x =>
    cases x with
    | str s =>
      have hiff : code_points s = code_points method ↔ s = method :=
        ⟨code_points_inj, fun h => h ▸ rfl⟩
      simp [PyVal.isStr, PyVal.json, hiff, Bool.beq_eq_decide_eq]
    | list xs => cases hxs : json_items xs <;> simp [PyVal.isStr, PyVal.json, hxs]
    | dict kvs => cases hkvs : json_members kvs <;> simp [PyVal.isStr, PyVal.json, hkvs]
    | _ => simp [PyVal.isStr, PyVal.json]

theorem get_id_none (h : json_members entries = some msg) :
    PyDict.get entries "id" = .none ↔ message_id msg = .null := by
  rw [message_id_json h, reply_id]
  constructor
  · intro hid
    rw [hid]
    rfl
  · intro hid
    cases hlookup : entries.lookup "id" with
    | none => simp [PyDict.get, PyDict.getD, hlookup]
    | some x =>
      obtain ⟨v, hv⟩ := json_of_lookup h hlookup
      have hget : PyDict.get entries "id" = x := by simp [PyDict.get, PyDict.getD, hlookup]
      rw [hget, hv, Option.getD_some] at hid
      rw [hget]
      exact eq_none_of_json (hid ▸ hv)

/-- A response has the id of its message, and names no method. -/
structure Responds (msg : JsonObject) (reply : PyDict) : Prop where
  id : reply_id reply = message_id msg
  no_method : reply.lookup "method" = none

theorem responds_respond (h : json_members entries = some msg) (result : PyVal) :
    Responds msg (respond (PyDict.get entries "id") result) where
  id := by
    rw [message_id_json h]
    rfl
  no_method := rfl

theorem responds_not_found (h : json_members entries = some msg) (method : PyVal) :
    Responds msg (method_not_found py (PyDict.get entries "id") method) where
  id := by
    rw [message_id_json h]
    rfl
  no_method := rfl

theorem handle_code_action_responds (h : json_members entries = some msg) {params : PyVal}
    {reply : PyDict}
    (hreply : handle_code_action py review (PyDict.get entries "id") params = .ok (some reply)) :
    Responds msg reply := by
  simp only [handle_code_action, Traverse.bind_ok] at hreply
  obtain ⟨_, -, _, -, _, -, _, -, _, -, hreply⟩ := hreply
  split at hreply
  · cases hreply
    exact responds_respond h _
  · split at hreply
    · obtain ⟨actions, -, heq⟩ := Traverse.bind_ok.mp hreply
      cases heq
      exact responds_respond h _
    · cases hreply
    · cases hreply

theorem has_method_other {method other : String} (h : has_method msg method = true)
    (hne : method ≠ other) : has_method msg other = false := by
  unfold has_method at h ⊢
  split at h
  · rename_i s hs
    rw [decide_eq_true_iff] at h
    rw [decide_eq_false_iff_not, h]
    exact fun heq => hne (code_points_inj heq)
  · cases h

/-- What comes of a message that is dispatched. -/
theorem dispatch_cases (h : json_members entries = some msg) {d : Dispatched}
    (hd : dispatch py review entries = some d) :
    match d with
    | .responds reply => expects_response msg = true ∧ has_method msg "exit" = false ∧
        Responds msg reply
    | .silent => expects_response msg = false ∧ has_method msg "exit" = false
    | .quits => expects_response msg = false ∧ has_method msg "exit" = true
    | .raises _ => has_method msg "textDocument/codeAction" = true := by
  have hmethod {method : String} (hne : method ≠ "") := isStr_method h hne
  simp only [dispatch, hmethod, ne_eq, String.reduceEq, not_false_eq_true] at hd
  split at hd
  · rename_i hinitialize
    cases hd
    exact ⟨by simp [expects_response, hinitialize], has_method_other hinitialize (by simp),
      responds_respond h _⟩
  · rename_i hinitialize
    split at hd
    · rename_i hinitialized
      cases hd
      have hother {other : String} (hne : "initialized" ≠ other) :=
        has_method_other hinitialized hne
      simp [expects_response, hinitialized, hother]
    · rename_i hinitialized
      split at hd
      · rename_i haction
        split at hd
        · rename_i reply hreply
          obtain ⟨reply, rfl, rfl⟩ := Option.map_eq_some_iff.mp hd
          exact ⟨by simp [expects_response, haction], has_method_other haction (by simp),
            handle_code_action_responds h hreply⟩
        · cases hd
          exact haction
      · rename_i haction
        split at hd
        · rename_i hshutdown
          cases hd
          exact ⟨by simp [expects_response, hshutdown], has_method_other hshutdown (by simp),
            responds_respond h _⟩
        · rename_i hshutdown
          split at hd
          · rename_i hexit
            cases hd
            simp [expects_response, hinitialize, haction, hshutdown, hexit]
          · rename_i hexit
            simp only [Bool.not_eq_true] at hexit
            have hid := @get_id_none entries msg h
            split at hd
            · rename_i hnone
              cases hd
              simp [expects_response, hinitialize, haction, hshutdown, hexit, hid.mp hnone]
            · rename_i hnone
              cases hd
              refine ⟨?_, hexit, responds_not_found h _⟩
              have hsome : message_id msg ≠ .null := fun hnull => hnone (hid.mpr hnull)
              simp [expects_response, hexit, hinitialized]

end Dispatch

section Output

variable {floats : Floats} {py : Python} {stdin : List UInt8} {log : List LspLabel} {s s' : LspSession}
  {l : LspLabel}

/-- The stream that is written one message after the other. -/
def write_all (floats : Floats) (msgs : List JsonObject) : Option (List UInt8) :=
  write_messages floats (msgs.map fun msg => ⟨msg, []⟩)

theorem readline_append (stream : List UInt8) :
    (readline stream).1 ++ (readline stream).2 = stream := by
  induction stream with
  | nil => rfl
  | cons b stream ih =>
    rw [readline]
    split
    · rfl
    · simp [ih]

theorem write_plain (msg : JsonObject) : Framed.write floats ⟨msg, []⟩ = write_message floats msg := by
  have hplain : insert_headers [] = id := by
    funext bytes
    simp [insert_headers, header_lines, readline_append]
  rw [Framed.write, hplain, Option.map_id, id]

theorem write_all_cons {msg : JsonObject} {msgs : List JsonObject} {stdout : List UInt8} :
    write_all floats (msg :: msgs) = some stdout ↔ ∃ bytes rest,
      write_message floats msg = some bytes ∧ write_all floats msgs = some rest ∧
      stdout = bytes ++ rest := by
  simp only [write_all, List.map_cons, write_messages, write_plain, Option.bind_eq_bind,
    Option.bind_eq_some_iff, Option.pure_def, Option.some.injEq]
  grind

theorem write_all_snoc {msgs : List JsonObject} {msg : JsonObject} {stdout bytes : List UInt8}
    (hstdout : write_all floats msgs = some stdout) (hbytes : write_message floats msg = some bytes) :
    write_all floats (msgs ++ [msg]) = some (stdout ++ bytes) := by
  induction msgs generalizing stdout with
  | nil =>
    cases hstdout
    exact write_all_cons.mpr ⟨bytes, [], hbytes, rfl, by simp⟩
  | cons m msgs ih =>
    obtain ⟨first, rest, hfirst, hrest, rfl⟩ := write_all_cons.mp hstdout
    exact write_all_cons.mpr ⟨first, rest ++ bytes, hfirst, ih hrest, by simp⟩

theorem scalar_of_write {msg : JsonObject} {bytes : List UInt8}
    (h : write_message floats msg = some bytes) : (Json.object msg).Scalar := by
  simp only [write_message, Option.bind_eq_bind, Option.bind_eq_some_iff] at h
  obtain ⟨encoded, hencoded, -⟩ := h
  exact Json.encode_dumps.mp (Option.isSome_of_eq_some hencoded)

/-- What was written is read, message by message. -/
theorem read_written {msgs : List JsonObject} {stdout : List UInt8}
    (hheld : ∀ msg ∈ msgs, (Json.object msg).Held floats)
    (hstdout : write_all floats msgs = some stdout) (n : Nat) :
    read_messages floats (msgs.length + n) stdout =
      .ok (msgs.map (fun msg => some (.object msg)) ++ List.replicate n none) := by
  induction msgs generalizing stdout with
  | nil =>
    cases hstdout
    simp [read_messages_end]
  | cons msg msgs ih =>
    obtain ⟨bytes, rest, hbytes, hrest, rfl⟩ := write_all_cons.mp hstdout
    obtain ⟨written, hwritten, hread⟩ := @read_frame floats ⟨msg, []⟩ (hheld msg List.mem_cons_self)
      (scalar_of_write hbytes)
    rw [write_plain, hbytes] at hwritten
    cases hwritten
    have htail := ih (fun m hm => hheld m (List.mem_cons_of_mem _ hm)) hrest
    have hcount : (msg :: msgs).length + n = msgs.length + n + 1 := by
      rw [List.length_cons]
      omega
    rw [hcount, read_messages, hread]
    simp [htail, bind, Except.bind, pure, Except.pure]

/-- The id of the message that the main thread has still to answer. -/
def owed (s : LspSession) : List Json :=
  match s.main with
  | .writing reply => [reply_id reply]
  | _ => []

/-- The output holds the messages of both threads, and of these the responses are the ones to the
handled messages, up to the one that is owed. -/
structure OutputKept (floats : Floats) (log : List LspLabel) (s : LspSession) : Prop where
  stream : write_all floats (written log) = some s.stdout
  responses : ((written log).filter (!names_method ·)).map message_id ++ s.owed =
    ((handled log).filter expects_response).map message_id
  reply : ∀ reply, s.main = .writing reply → reply.lookup "method" = none
  notices : ∀ notice ∈ s.notices, ∃ sent, notice = publish_diagnostics sent

theorem names_method_json {d : PyDict} {msg : JsonObject} (h : json_members d = some msg) :
    names_method msg = (d.lookup "method").isSome := by
  rw [names_method, json_lookup h]
  cases hlookup : d.lookup "method" with
  | none => rfl
  | some x =>
    obtain ⟨v, hv⟩ := json_of_lookup h hlookup
    simp [hv]

@[simp] theorem written_append (log more : List LspLabel) :
    written (log ++ more) = written log ++ written more := List.filterMap_append

@[simp] theorem handled_append (log more : List LspLabel) :
    handled (log ++ more) = handled log ++ handled more := List.filterMap_append

@[simp] theorem polls_append (log more : List LspLabel) :
    polls (log ++ more) = polls log ++ polls more := List.filterMap_append

/-- The loop of the main thread ends. -/
theorem OutputKept.ends (h : OutputKept floats log s) (hmain : s.main = .reading)
    (hl : written [l] = [] ∧ handled [l] = []) (stdin : List UInt8) {main : MainThread}
    (hends : ∀ reply, main ≠ .writing reply) :
    OutputKept floats (log ++ [l]) { s with stdin := stdin, main := main } := by
  have howed : owed { s with stdin := stdin, main := main } = s.owed := by
    rw [owed, owed, hmain]
    cases main with
    | writing reply => exact absurd rfl (hends reply)
    | _ => rfl
  refine ⟨?_, ?_, fun reply hreply => absurd hreply (hends reply), h.notices⟩
  · rw [written_append, hl.1, List.append_nil]
    exact h.stream
  · rw [written_append, handled_append, hl.1, hl.2, List.append_nil, List.append_nil, howed]
    exact h.responses

theorem OutputKept.step (h : OutputKept floats log s) (hs : Step floats py s l s') :
    OutputKept floats (log ++ [l]) s' := by
  obtain ⟨hstream, hresponses, hreply, hnotices⟩ := id h
  cases hs with
  | @handle msg _ entries d next hmain _ hentries hdispatch hnext =>
    have hcases := dispatch_cases (json_py_members hentries) hdispatch
    simp only [owed, hmain, List.append_nil] at hresponses
    cases d with
    | responds reply =>
      cases hnext
      obtain ⟨hexpects, -, hresponds⟩ := hcases
      refine ⟨by simpa [written] using hstream, ?_, ?_, hnotices⟩
      · simpa [owed, written, handled, hexpects, hresponds.id] using hresponses
      · rintro _ ⟨⟩
        exact hresponds.no_method
    | silent =>
      cases hnext
      refine ⟨by simpa [written] using hstream, ?_, nofun, hnotices⟩
      simpa [owed, written, handled, hcases.1] using hresponses
    | quits =>
      cases hnext
      refine ⟨by simpa [written] using hstream, ?_, nofun, hnotices⟩
      simpa [owed, written, handled, hcases.1] using hresponses
    | raises e => cases hnext
  | raise hmain _ _ _ => exact h.ends hmain ⟨rfl, rfl⟩ _ nofun
  | no_dict hmain _ _ _ => exact h.ends hmain ⟨rfl, rfl⟩ _ nofun
  | stop hmain _ _ => exact h.ends hmain ⟨rfl, rfl⟩ _ nofun
  | value_error hmain _ => exact h.ends hmain ⟨rfl, rfl⟩ s.stdin nofun
  | json_decode_error hmain _ => exact h.ends hmain ⟨rfl, rfl⟩ s.stdin nofun
  | respond hmain hmembers hbytes =>
    have hplain := names_method_json hmembers
    rw [hreply _ hmain] at hplain
    simp only [owed, hmain, ← message_id_json hmembers] at hresponses
    refine ⟨by simpa [written] using write_all_snoc hstream hbytes, ?_, nofun, hnotices⟩
    simpa [owed, written, handled, hplain] using hresponses
  | poll seen _ =>
    refine ⟨by simpa [written] using hstream, by simpa [owed, written, handled] using hresponses,
      hreply, fun notice hnotice => ?_⟩
    obtain ⟨sent, -, rfl⟩ := List.mem_map.mp hnotice
    exact ⟨sent, rfl⟩
  | notify hpending hmembers hbytes =>
    rw [hpending, List.forall_mem_cons] at hnotices
    obtain ⟨⟨sent, rfl⟩, hnotices⟩ := hnotices
    have hnames : names_method _ = true := names_method_json hmembers
    refine ⟨by simpa [written] using write_all_snoc hstream hbytes, ?_, hreply, hnotices⟩
    simpa [owed, written, handled, hnames] using hresponses

end Output

section Input

variable {floats : Floats} {py : Python} {log : List LspLabel} {s s' : LspSession} {l : LspLabel}
  {msgs : List JsonObject}

/-- The messages that were handled are the first ones of the client, as far as its `exit`. -/
def InputKept (floats : Floats) (msgs : List JsonObject) (log : List LspLabel) (s : LspSession) : Prop :=
  match s.main with
  | .returned => handled log = upto_exit msgs
  | .raised _ => handled log <+: upto_exit msgs
  | _ => ∃ frames, (∀ frame ∈ frames, (Json.object frame.msg).Held floats) ∧
      write_messages floats frames = some s.stdin ∧
      upto_exit msgs = handled log ++ upto_exit (frames.map Framed.msg)

theorem InputKept.prefix (h : InputKept floats msgs log s) : handled log <+: upto_exit msgs := by
  unfold InputKept at h
  split at h
  · exact h ▸ List.prefix_refl _
  · exact h
  · obtain ⟨frames, -, -, heq⟩ := h
    exact heq ▸ List.prefix_append _ _

/-- What is read is the next of the messages, or the end of the stream. -/
theorem read_next {frames : List Framed} (hheld : ∀ frame ∈ frames, (Json.object frame.msg).Held floats)
    {stdin : List UInt8} (hstdin : write_messages floats frames = some stdin) :
    (frames = [] ∧ read_message floats stdin = .ok (none, [])) ∨
    ∃ frame rest stdin', frames = frame :: rest ∧ write_messages floats rest = some stdin' ∧
      read_message floats stdin = .ok (some (.object frame.msg), stdin') := by
  cases frames with
  | nil =>
    cases hstdin
    exact .inl ⟨rfl, rfl⟩
  | cons frame frames =>
    simp only [write_messages, Option.bind_eq_bind, Option.bind_eq_some_iff, Option.pure_def] at hstdin
    obtain ⟨bytes, hbytes, rest, hrest, heq⟩ := hstdin
    cases heq
    obtain ⟨plain, hplain, -⟩ := Option.map_eq_some_iff.mp hbytes
    obtain ⟨written, hwritten, hread⟩ := read_frame (hheld frame List.mem_cons_self)
      (scalar_of_write hplain)
    rw [hbytes] at hwritten
    cases hwritten
    exact .inr ⟨frame, frames, rest, rfl, hrest, hread rest⟩

theorem InputKept.step (h : InputKept floats msgs log s) (hs : Step floats py s l s') :
    InputKept floats msgs (log ++ [l]) s' := by
  have hprefix := h.prefix
  have hsilent : handled [l] = [] → handled (log ++ [l]) = handled log := fun hl => by
    rw [handled_append, hl, List.append_nil]
  have hreading : s.main = .reading → ∃ frames, (∀ frame ∈ frames, (Json.object frame.msg).Held floats) ∧
      write_messages floats frames = some s.stdin ∧
      upto_exit msgs = handled log ++ upto_exit (frames.map Framed.msg) := fun hmain => by
    rw [InputKept, hmain] at h
    exact h
  cases hs with
  | @handle msg rest entries d next hmain hread hentries hdispatch hnext =>
    obtain ⟨frames, hheld, hstdin, heq⟩ := hreading hmain
    obtain ⟨-, hend⟩ | ⟨frame, frames, stdin', rfl, hrest, hnext'⟩ := read_next hheld hstdin
    · rw [hend] at hread
      cases hread
    · rw [hnext'] at hread
      cases hread
      have hcases := dispatch_cases (json_py_members hentries) hdispatch
      have hheld' : ∀ f ∈ frames, (Json.object f.msg).Held floats :=
        fun f hf => hheld f (List.mem_cons_of_mem _ hf)
      have hgoes : has_method frame.msg "exit" = false → upto_exit msgs =
          handled (log ++ [.handled frame.msg]) ++ upto_exit (frames.map Framed.msg) := fun hexit => by
        rw [heq, handled_append, List.map_cons, upto_exit, hexit, List.append_assoc]
        rfl
      cases d with
      | responds reply =>
        cases hnext
        exact ⟨frames, hheld', hrest, hgoes hcases.2.1⟩
      | silent =>
        cases hnext
        exact ⟨frames, hheld', hrest, hgoes hcases.2⟩
      | quits =>
        cases hnext
        show handled (log ++ [.handled frame.msg]) = upto_exit msgs
        rw [heq, handled_append, List.map_cons, upto_exit, hcases.2]
        rfl
      | raises e => cases hnext
  | raise hmain _ _ _ =>
    show handled (log ++ [_]) <+: upto_exit msgs
    rw [hsilent rfl]
    exact hprefix
  | no_dict hmain _ _ _ =>
    show handled (log ++ [_]) <+: upto_exit msgs
    rw [hsilent rfl]
    exact hprefix
  | stop hmain hread hnull =>
    obtain ⟨frames, hheld, hstdin, heq⟩ := hreading hmain
    obtain ⟨rfl, hend⟩ | ⟨frame, frames, stdin', rfl, hrest, hnext'⟩ := read_next hheld hstdin
    · show handled (log ++ [_]) = upto_exit msgs
      rw [hsilent rfl, heq, List.map_nil, upto_exit, List.append_nil]
    · rw [hnext'] at hread
      cases hread
      simp at hnull
  | value_error hmain _ =>
    show handled (log ++ [_]) <+: upto_exit msgs
    rw [hsilent rfl]
    exact hprefix
  | json_decode_error hmain _ =>
    show handled (log ++ [_]) <+: upto_exit msgs
    rw [hsilent rfl]
    exact hprefix
  | respond hmain _ _ =>
    rw [InputKept, hmain] at h
    rw [InputKept, hsilent rfl]
    exact h
  | poll seen _ =>
    rw [InputKept, hsilent rfl]
    exact h
  | notify _ _ _ =>
    rw [InputKept, hsilent rfl]
    exact h

end Input

section View

variable {floats : Floats} {py : Python} {log : List LspLabel} {s s' : LspSession} {l : LspLabel}

/-- The JSON of a list of diagnostics. -/
def diagnostics_json (diagnostics : List Diagnostic) : Option Json :=
  (PyVal.list (diagnostics.map Diagnostic.dict)).json

theorem publication_published {sent : String × List Diagnostic} {members : JsonObject}
    (h : json_members (publish_diagnostics sent) = some members) : ∃ diagnostics,
      diagnostics_json sent.2 = some diagnostics ∧
      publication members = some (code_points sent.1, diagnostics) := by
  have hmethod : members.lookup (code_points "method") =
      some (.str (code_points "textDocument/publishDiagnostics")) := json_lookup h "method"
  obtain ⟨v, hv⟩ := @json_of_lookup _ _ h "params" _ rfl
  have hparams : members.lookup (code_points "params") = some v := (json_lookup h "params").trans hv
  obtain ⟨params, hjson, rfl⟩ := Option.map_eq_some_iff.mp hv
  have huri : params.lookup (code_points "uri") = some (.str (code_points sent.1)) :=
    json_lookup hjson "uri"
  obtain ⟨diagnostics, hdiagnostics⟩ := @json_of_lookup _ _ hjson "diagnostics" _ rfl
  have hlookup : params.lookup (code_points "diagnostics") = some diagnostics :=
    (json_lookup hjson "diagnostics").trans hdiagnostics
  refine ⟨diagnostics, hdiagnostics, ?_⟩
  simp [publication, has_method, hmethod, hparams, huri, hlookup]

theorem client_view_snoc (msgs : List JsonObject) (msg : JsonObject) :
    client_view (msgs ++ [msg]) = match publication msg with
      | some (uri, diagnostics) => Function.update (client_view msgs) uri diagnostics
      | none => client_view msgs := by
  simp [client_view, List.foldl_append]

theorem publication_response {reply : PyDict} {members : JsonObject}
    (h : json_members reply = some members) (hreply : reply.lookup "method" = none) :
    publication members = none := by
  have hmethod : members.lookup (code_points "method") = none := by
    rw [json_lookup h, hreply, Option.bind_none]
  simp [publication, has_method, hmethod]

/-- The client was sent what the watcher counts as sent, but for the notifications it has still to
write. -/
structure ViewKept (py : Python) (log : List LspLabel) (s : LspSession) : Prop where
  watcher : s.watcher = Watcher.after py (polls log)
  view : ∃ client sent, s.notices = sent.map publish_diagnostics ∧
    s.watcher.client = Watcher.shown client sent ∧
    ∀ u, diagnostics_json (client u) = some (client_view (written log) (code_points u))

/-- The main thread reads, and writes nothing. -/
theorem ViewKept.reads (h : ViewKept py log s) (hl : written [l] = [] ∧ polls [l] = [])
    (stdin : List UInt8) (main : MainThread) :
    ViewKept py (log ++ [l]) { s with stdin := stdin, main := main } where
  watcher := by
    rw [polls_append, hl.2, List.append_nil]
    exact h.watcher
  view := by
    rw [written_append, hl.1, List.append_nil]
    exact h.view

theorem ViewKept.step (h : ViewKept py log s) (hout : OutputKept floats log s)
    (hs : Step floats py s l s') : ViewKept py (log ++ [l]) s' := by
  obtain ⟨hwatcher, client, sent, hnotices, hclient, hview⟩ := id h
  cases hs with
  | handle _ _ _ _ _ => exact h.reads ⟨rfl, rfl⟩ _ _
  | raise _ _ _ _ => exact h.reads ⟨rfl, rfl⟩ _ _
  | no_dict _ _ _ _ => exact h.reads ⟨rfl, rfl⟩ _ _
  | stop _ _ _ => exact h.reads ⟨rfl, rfl⟩ _ _
  | value_error _ _ => exact h.reads ⟨rfl, rfl⟩ s.stdin _
  | json_decode_error _ _ => exact h.reads ⟨rfl, rfl⟩ s.stdin _
  | respond hmain hmembers _ =>
    have hnone := publication_response hmembers (hout.reply _ hmain)
    refine ⟨by simpa [polls] using hwatcher, client, sent, hnotices, hclient, ?_⟩
    simpa [written, client_view_snoc, hnone] using hview
  | poll seen hnone =>
    have hsent : sent = [] := by simpa [hnone] using hnotices.symm
    subst hsent
    refine ⟨?_, s.watcher.client, s.watcher.published py seen, rfl, Watcher.poll_client _ _ _, ?_⟩
    · simp [polls, Watcher.after, hwatcher]
    · rw [hclient]
      simpa [written, Watcher.shown] using hview
  | notify hpending hmembers _ =>
    cases sent with
    | nil => simp [hpending] at hnotices
    | cons p sent =>
      rw [hpending, List.map_cons] at hnotices
      obtain ⟨rfl, rfl⟩ := List.cons.inj hnotices
      obtain ⟨diagnostics, hjson, hpublication⟩ := publication_published hmembers
      refine ⟨by simpa [polls] using hwatcher, Function.update client p.1 p.2, sent, rfl, hclient,
        fun u => ?_⟩
      have hkey : code_points u = code_points p.1 ↔ u = p.1 := ⟨code_points_inj, fun h => h ▸ rfl⟩
      by_cases hu : u = p.1
      · simp [written, client_view_snoc, hpublication, hu, hjson]
      · simpa [written, client_view_snoc, hpublication, hu, hkey, Function.update_of_ne] using hview u

end View

section Session

variable {floats : Floats} {py : Python} {stdin : List UInt8} {log : List LspLabel} {s : LspSession}

theorem start_output : OutputKept floats [] { stdin := stdin } :=
  ⟨rfl, rfl, fun _ hmain => by simp at hmain, fun _ hnotice => by simp at hnotice⟩

theorem start_view : ViewKept py [] { stdin := stdin } :=
  ⟨rfl, fun _ => [], [], rfl, rfl, fun _ => rfl⟩

theorem Run.output (h : Run floats py stdin log s) : OutputKept floats log s :=
  LabelledRun.invariant start_output (fun _ _ _ _ _ hkept hs => hkept.step hs) h

theorem Run.view (h : Run floats py stdin log s) : ViewKept py log s :=
  LabelledRun.invariant start_view (fun _ _ _ _ hrun hkept hs => hkept.step (Run.output hrun) hs) h

theorem Run.input (h : Run floats py stdin log s) {frames : List Framed}
    (hstdin : write_messages floats frames = some stdin)
    (hheld : ∀ frame ∈ frames, (Json.object frame.msg).Held floats) :
    InputKept floats (frames.map Framed.msg) log s := by
  have hstart : InputKept floats (frames.map Framed.msg) [] { stdin := stdin } :=
    show ∃ frames', _ from ⟨frames, hheld, hstdin, rfl⟩
  exact LabelledRun.invariant hstart (fun _ _ _ _ _ hkept hs => hkept.step hs) h

/-- In every interleaving of the two threads the client reads back what they wrote, and of this the
responses answer one after the other the messages it sent that have a response, as far as the first
`exit`; once the server has returned, all of them. -/
theorem responses_read (h : Run floats py stdin log s) {frames : List Framed}
    (hstdin : write_messages floats frames = some stdin)
    (hheld : ∀ frame ∈ frames, (Json.object frame.msg).Held floats)
    (hwritten : ∀ msg ∈ written log, (Json.object msg).Held floats) :
    ∃ msgs answered : List JsonObject,
      (∀ n, read_messages floats (msgs.length + n) s.stdout =
        .ok (msgs.map (fun msg => some (.object msg)) ++ List.replicate n none)) ∧
      (msgs.filter (!names_method ·)).map message_id ++ s.owed =
        (answered.filter expects_response).map message_id ∧
      answered <+: upto_exit (frames.map Framed.msg) ∧
      (s.main = .returned → answered = upto_exit (frames.map Framed.msg)) := by
  have hout := Run.output h
  have hin := Run.input h hstdin hheld
  refine ⟨written log, handled log, read_written hwritten hout.stream, hout.responses, hin.prefix,
    fun hmain => ?_⟩
  rw [InputKept, hmain] at hin
  exact hin

/-- In every interleaving of the two threads the client that reads back the output, and to whom no
notification is owed, has the diagnostics that the watcher shows it after its polls. -/
theorem view_read (h : Run floats py stdin log s)
    (hwritten : ∀ msg ∈ written log, (Json.object msg).Held floats) (hnotices : s.notices = []) :
    ∃ msgs : List JsonObject,
      (∀ n, read_messages floats (msgs.length + n) s.stdout =
        .ok (msgs.map (fun msg => some (.object msg)) ++ List.replicate n none)) ∧
      ∀ u, diagnostics_json ((Watcher.after py (polls log)).client u) =
        some (client_view msgs (code_points u)) := by
  obtain ⟨hwatcher, client, sent, hsent, hclient, hview⟩ := Run.view h
  have hnone : sent = [] := by simpa [hnotices] using hsent.symm
  subst hnone
  refine ⟨written log, read_written hwritten (Run.output h).stream, fun u => ?_⟩
  rw [← hwatcher, hclient]
  exact hview u

end Session

section Samples

def initializeMessage : JsonObject :=
  [(code_points "jsonrpc", .str (code_points "2.0")), (code_points "id", .int 1),
    (code_points "method", .str (code_points "initialize"))]

def exitMessage : JsonObject :=
  [(code_points "jsonrpc", .str (code_points "2.0")),
    (code_points "method", .str (code_points "exit"))]

def sampleFinding : Diagnostic :=
  ⟨.int 2, (SEVERITY_MAP.lookup "warning".toLower).getD 2, "jemmin", "bad name", .str "", .str ""⟩

def samplePublished : String × List Diagnostic := ("file:///repo/a.py", [sampleFinding])

def sampleReview : Observation := .document 1 (Watcher.reviewOf "/repo/a.py" (.int 3))

theorem sample_published : Watcher.published text_python {} sampleReview = [samplePublished] := by
  have hline : (PyVal.int 2).max_zero = .int 2 := by simp [PyVal.max_zero, PyVal.number]
  have hreview : review_to_diagnostics text_python (Watcher.reviewOf "/repo/a.py" (.int 3)) =
      .ok ("file:///repo/a.py",
        [⟨(PyVal.int 2).max_zero, (SEVERITY_MAP.lookup "warning".toLower).getD 2, "jemmin",
          "bad name", .str "", .str ""⟩]) := rfl
  have hmtime : ¬(1 : Rat) = -1 := by norm_num
  rw [hline] at hreview
  simp [Watcher.published, sampleReview, hreview, hmtime, samplePublished, sampleFinding]

theorem write_held {floats : Floats} {msg : JsonObject} (hheld : (Json.object msg).Held floats)
    (hscalar : (Json.object msg).Scalar) : ∃ bytes, write_message floats msg = some bytes := by
  obtain ⟨bytes, hbytes, -⟩ := @read_frame floats ⟨msg, []⟩ hheld hscalar
  rw [write_plain] at hbytes
  exact ⟨bytes, hbytes⟩

def sampleFrames : List Framed := [⟨initializeMessage, [sampleHeader]⟩, ⟨exitMessage, []⟩]

theorem sample_frames_held : ∀ frame ∈ sampleFrames, (Json.object frame.msg).Held sampleFloats := by
  simp [sampleFrames, initializeMessage, exitMessage, Json.Held, Json.Held_members, Dict.Keyed]
  decide

theorem sample_reply : ∃ reply, json_members (respond (.int 1) initialize_result) = some reply ∧
    (Json.object reply).Held sampleFloats ∧ (Json.object reply).Scalar := by
  refine ⟨_, rfl, ?_, ?_⟩
  · simp [Json.Held, Json.Held_members, Json.Held_items, Dict.Keyed]
    decide
  · exact @json_scalar (.dict (respond (.int 1) initialize_result)) _ rfl

theorem sample_notice : ∃ notice, json_members (publish_diagnostics samplePublished) = some notice ∧
    (Json.object notice).Held sampleFloats ∧ (Json.object notice).Scalar := by
  refine ⟨_, rfl, ?_, ?_⟩
  · simp [Json.Held, Json.Held_members, Json.Held_items, Dict.Keyed]
    decide
  · exact @json_scalar (.dict (publish_diagnostics samplePublished)) _ rfl

/-- A review is published while a request is answered. -/
theorem sample_run : ∃ stdin log s,
    write_messages sampleFloats sampleFrames = some stdin ∧
    Run sampleFloats text_python stdin log s ∧ s.main = .returned ∧ s.notices = [] ∧
    polls log = [sampleReview] ∧ ∀ msg ∈ written log, (Json.object msg).Held sampleFloats := by
  obtain ⟨reply, hreply, hreply_held, hreply_scalar⟩ := sample_reply
  obtain ⟨notice, hnotice, hnotice_held, hnotice_scalar⟩ := sample_notice
  obtain ⟨reply_bytes, hreply_bytes⟩ := write_held hreply_held hreply_scalar
  obtain ⟨notice_bytes, hnotice_bytes⟩ := write_held hnotice_held hnotice_scalar
  have hscalar : ∀ frame ∈ sampleFrames, (Json.object frame.msg).Scalar := by
    simp [sampleFrames, initializeMessage, exitMessage, Json.Scalar, Json.Scalar_members]
  obtain ⟨first, hfirst, hread⟩ := read_frame (sample_frames_held _ List.mem_cons_self)
    (hscalar _ List.mem_cons_self)
  obtain ⟨second, hsecond, hread'⟩ := read_frame (sample_frames_held ⟨exitMessage, []⟩ (by simp [sampleFrames]))
    (hscalar ⟨exitMessage, []⟩ (by simp [sampleFrames]))
  have hentries : py_members initializeMessage =
      some [("jsonrpc", .str "2.0"), ("id", .int 1), ("method", .str "initialize")] := by
    simp [initializeMessage, py_members, py_of_json]
  have hentries' : py_members exitMessage =
      some [("jsonrpc", .str "2.0"), ("method", .str "exit")] := by
    simp [exitMessage, py_members, py_of_json]
  have hstart : Run sampleFloats text_python (first ++ (second ++ [])) []
      { stdin := first ++ (second ++ []) } := .start
  have hhandled := hstart.step (Step.handle rfl (hread _) hentries rfl rfl)
  have hpolled := hhandled.step (Step.poll sampleReview rfl)
  have hnotices : (Watcher.published text_python {} sampleReview).map publish_diagnostics =
      [publish_diagnostics samplePublished] := by rw [sample_published, List.map_singleton]
  have hnotified := hpolled.step (Step.notify hnotices hnotice hnotice_bytes)
  have hresponded := hnotified.step (Step.respond rfl hreply hreply_bytes)
  have hexited := hresponded.step (Step.handle rfl (hread' _) hentries' rfl rfl)
  refine ⟨_, _, _, by simp [sampleFrames, write_messages, hfirst, hsecond], hexited, rfl, rfl, rfl, ?_⟩
  simp [written, hreply_held, hnotice_held]

theorem sample_responses : ∃ stdin log s,
    Run sampleFloats text_python stdin log s ∧ s.main = .returned ∧
    ∃ msgs answered : List JsonObject,
      (∀ n, read_messages sampleFloats (msgs.length + n) s.stdout =
        .ok (msgs.map (fun msg => some (.object msg)) ++ List.replicate n none)) ∧
      (msgs.filter (!names_method ·)).map message_id ++ s.owed =
        (answered.filter expects_response).map message_id ∧
      answered = upto_exit (sampleFrames.map Framed.msg) := by
  obtain ⟨stdin, log, s, hstdin, hrun, hmain, -, -, hwritten⟩ := sample_run
  obtain ⟨msgs, answered, hread, hids, -, hall⟩ :=
    responses_read hrun hstdin sample_frames_held hwritten
  exact ⟨stdin, log, s, hrun, hmain, msgs, answered, hread, hids, hall hmain⟩

theorem sample_view : ∃ stdin log s, Run sampleFloats text_python stdin log s ∧
    polls log = [sampleReview] ∧ ∃ msgs : List JsonObject,
      (∀ n, read_messages sampleFloats (msgs.length + n) s.stdout =
        .ok (msgs.map (fun msg => some (.object msg)) ++ List.replicate n none)) ∧
      ∀ u, diagnostics_json ((Watcher.after text_python (polls log)).client u) =
        some (client_view msgs (code_points u)) := by
  obtain ⟨stdin, log, s, -, hrun, -, hnotices, hpolls, hwritten⟩ := sample_run
  exact ⟨stdin, log, s, hrun, hpolls, view_read hrun hwritten hnotices⟩

end Samples

end LspSession

end Nitpicker
