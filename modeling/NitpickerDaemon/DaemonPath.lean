import NitpickerDaemon.Controller
import NitpickerDaemon.JsonRpc
import NitpickerDaemon.PyJson
import NitpickerDaemon.Triggers
import NitpickerDaemon.ZmqRouter

/-!
A review by way of the daemon: the message of the command line, the request the daemon builds of
it, the reply of the router, and the exit code that is read off the reply.
-/

set_option autoImplicit false

namespace Nitpicker

open Effect Text

/-- The codec reads UTF-8 and JSON, whatever its errors say. -/
structure JsonCodec.Standard (codec : JsonCodec) (floats : Floats) : Prop where
  decode : ∀ bs text, decode_utf8 bs = some text → codec.decode bs = .ok (text_of text)
  loads : ∀ text v, Text.loads floats.read (code_points text) = some v → codec.loads text = .ok v
  float_repr : codec.float_repr = floats.repr

namespace ZmqClient

/-- The copy that is sent, with its schema version. -/
def safe_message (message : Members) : Members :=
  if (member message "schema_version").isSome then message
  else message ++ [(code_points "schema_version", .str (code_points "1.0"))]

/-- `json.dumps(safe_message, ensure_ascii=False).encode("utf-8")` -/
def payload_bytes (floats : Floats) (message : Members) : Option (List UInt8) :=
  encode ((Json.object (safe_message message)).dumps floats.repr)

/-- What comes of a message that was sent: a reply, `zmq.error.Again`, or another `ZMQError`. -/
inductive Delivery where
  | reply (reply_bytes : List UInt8)
  | again
  | error (text : List CodePoint)

/-- What `send` does: it returns the reply, or raises one of the two errors its callers expect, or
another one, by the name of its type. -/
inductive SendResult where
  | returned (response : Json)
  | timeout_error (message : List CodePoint)
  | connection_error (message : List CodePoint)
  | raised (type_name : String)

/-- `message.get("request_id", "UNKNOWN")` in an f-string; `str` is that of a value other than a
string. -/
def req_id (str : Json → List CodePoint) (message : Members) : List CodePoint :=
  match (member message "request_id").getD UNKNOWN with
  | .str s => s
  | v => str v

def send (floats : Floats) (str : Json → List CodePoint) (server_address : String)
    (message : Members) : Delivery → SendResult
  | .reply reply_bytes =>
    match decode_utf8 reply_bytes with
    | none => .raised "UnicodeDecodeError"
    | some text =>
      match Text.loads floats.read text with
      | none => .raised "JSONDecodeError"
      | some response => .returned response
  | .again => .timeout_error (code_points "[req_id: " ++ req_id str message ++
      code_points ("] Nitpicker 데몬(" ++ server_address ++ ") 응답 타임아웃."))
  | .error text => .connection_error (code_points "[req_id: " ++ req_id str message ++
      code_points "] ZMQ 통신 오류: " ++ text)

end ZmqClient

/-- A member that is a string or null. -/
def optional_text (v : Option String) : Json :=
  match v with
  | some s => .str (code_points s)
  | none => .null

/-- The payload of `_run_via_daemon`. -/
def daemon_payload (request : ReviewRequest) : Members :=
  [(code_points "schema_version", .str (code_points "1.0")),
    (code_points "message_type", .str (code_points "review.request")),
    (code_points "request_id", .str (code_points request.request_id)),
    (code_points "target_file", .str (code_points request.target_file)),
    (code_points "diff_text", .str (code_points request.diff_text)),
    (code_points "project_id", .str (code_points request.project_id)),
    (code_points "project_profile", .str (code_points request.project_profile)),
    (code_points "trigger", optional_text request.trigger),
    (code_points "trigger_intent", optional_text request.trigger_intent),
    (code_points "git_revision", optional_text request.git_revision)]

/-- What `_run_via_daemon` ends with: an exit code, `None`, or an exception it does not catch. -/
inductive ViaDaemon where
  | exits (code : Nat)
  | falls_back
  | raises (type_name : String)
  deriving DecidableEq

/-- `_exit_code_from_result_code` of a value of the reply; an absent one is `None`. -/
def exit_code_of_json : Option Json → Nat
  | some (.str s) => if s = code_points "REVIEW_PASSED" then 0 else 1
  | _ => 1

/-- `response.get("status") == "success"` -/
def succeeded (response : Members) : Bool :=
  match member response "status" with
  | some (.str status) => status = code_points "success"
  | _ => false

def read_response : Json → ViaDaemon
  | .object response =>
    if succeeded response then
      match member response "response" with
      | some (.object result) => .exits (exit_code_of_json (member result "result_code"))
      | some _ => .raises "AttributeError"
      | none => .raises "KeyError"
    else .exits 1
  | _ => .raises "AttributeError"

/-- `_run_via_daemon`, from what comes of its message. -/
def run_via_daemon (floats : Floats) (str : Json → List CodePoint) (server_address : String)
    (request : ReviewRequest) (delivery : ZmqClient.Delivery) : ViaDaemon :=
  match ZmqClient.send floats str server_address (daemon_payload request) delivery with
  | .returned response => read_response response
  | .timeout_error _ => .falls_back
  | .connection_error _ => .falls_back
  | .raised type_name => .raises type_name

/-- The members of a payload, when each of them is a string or null. -/
def payload_of : Members → Option Payload
  | [] => some []
  | (key, .str s) :: members => (payload_of members).map ((text_of key, some (text_of s)) :: ·)
  | (key, .null) :: members => (payload_of members).map ((text_of key, none) :: ·)
  | _ => none

/-- The dict `handle_review_request` returns. -/
def review_response (result : ReviewResult) : Option Members := do
  let summary ← result.summary.json
  let result_code ← result.result_code.json
  return [(code_points "request_id", .str (code_points result.request_id)),
    (code_points "state", .str (code_points result.state.value)),
    (code_points "status", .str (code_points result.status.value)),
    (code_points "summary", summary),
    (code_points "confidence_score", .float result.confidence_score),
    (code_points "result_code", result_code)]

/-- `handle_review_request`, for the payloads and results that JSON has a value for. -/
def handle_review_request (sha256 : ByteArray → String) (run_once : ReviewRequest → ReviewResult)
    (request_data : Members) : Option HandlerOutcome := do
  let payload ← payload_of request_data
  match Adapter.daemon.build_request sha256 ⟨"daemon", payload, []⟩ with
  | .error e => return .raises e.raised
  | .ok request =>
    let response ← review_response (run_once request)
    return .returns response

section Requests

variable {sha256 : ByteArray → String} {event : TriggerEvent} {request : ReviewRequest}

theorem orDefault_orDefault (v : Option String) {default : String} (h : default ≠ "")
    (default' : String) : orDefault (some (orDefault v default)) default' = orDefault v default := by
  cases v with
  | none => simp [orDefault, h]
  | some s =>
    by_cases hs : s = ""
    · simp [orDefault, hs, h]
    · simp [orDefault, hs]

theorem payload_of_optional (key : String) (v : Option String) (members : Members) :
    payload_of ((code_points key, optional_text v) :: members) =
      (payload_of members).map ((key, v) :: ·) := by
  cases v <;> simp [payload_of, optional_text]

theorem payload_of_daemon_payload (request : ReviewRequest) :
    payload_of (daemon_payload request) = some
      [("schema_version", some "1.0"), ("message_type", some "review.request"),
        ("request_id", some request.request_id), ("target_file", some request.target_file),
        ("diff_text", some request.diff_text), ("project_id", some request.project_id),
        ("project_profile", some request.project_profile), ("trigger", request.trigger),
        ("trigger_intent", request.trigger_intent), ("git_revision", request.git_revision)] := by
  simp only [daemon_payload, payload_of, payload_of_optional, text_of_code_points, Option.map_some]

/-- The daemon builds the request again that the command line built. -/
theorem daemon_rebuilds (hrequest : Adapter.cli.build_request sha256 event = .ok request)
    (hmetadata : event.metadata = []) : ∃ payload,
      payload_of (daemon_payload request) = some payload ∧
      Adapter.daemon.build_request sha256 ⟨"daemon", payload, []⟩ = .ok request := by
  refine ⟨_, payload_of_daemon_payload request, ?_⟩
  have hid : ∀ d : String, "req_" ++ hexPrefix d 12 ≠ "" := fun d h => by
    have hlength := congrArg String.length h
    simp at hlength
  simp only [Adapter.build_request, build_common] at hrequest
  split at hrequest
  · cases hrequest
    simp [Adapter.build_request, build_common, Payload.getD, Payload.get, List.lookup,
      orDefault_orDefault, hid, hmetadata]
  · cases hrequest
  · cases hrequest
  · cases hrequest

theorem safe_daemon_payload (request : ReviewRequest) :
    ZmqClient.safe_message (daemon_payload request) = daemon_payload request := rfl

theorem optional_text_held (floats : Floats) (v : Option String) : (optional_text v).Held floats := by
  cases v <;> trivial

theorem optional_text_scalar (v : Option String) : (optional_text v).Scalar := by
  cases v <;> simp [optional_text, Json.Scalar]

theorem daemon_payload_held (floats : Floats) (request : ReviewRequest) :
    (Json.object (daemon_payload request)).Held floats := by
  refine ⟨?_, ?_⟩
  · simp only [Dict.Keyed, daemon_payload, List.map_cons, List.map_nil]
    decide
  · simp [daemon_payload, Json.Held_members, Json.Held, optional_text_held]

theorem daemon_payload_scalar (request : ReviewRequest) :
    (Json.object (daemon_payload request)).Scalar := by
  simp [daemon_payload, Json.Scalar, Json.Scalar_members, optional_text_scalar]

end Requests

section Transport

variable {floats : Floats} {router : ZmqRouter}

/-- The router reads the message that the client sent. -/
theorem read_request_sent (hstandard : router.codec.Standard floats) {message : Members}
    {bytes : List UInt8} (hheld : (Json.object (ZmqClient.safe_message message)).Held floats)
    (hbytes : ZmqClient.payload_bytes floats message = some bytes) :
    router.read_request bytes = router.route (ZmqClient.safe_message message) := by
  rw [ZmqClient.payload_bytes] at hbytes
  have hclean := encode_isSome.mp (Option.isSome_of_eq_some hbytes)
  have hdecode := hstandard.decode _ _ (decode_utf8_encode hbytes)
  have hloads := hstandard.loads (text_of _) _
    ((congrArg (Text.loads floats.read) (code_points_text_of_clean hclean)).trans (loads_dumps hheld))
  have hread : router.codec.decode bytes >>= router.codec.loads =
      .ok (.object (ZmqClient.safe_message message)) := by
    rw [hdecode]
    exact hloads
  simp only [ZmqRouter.read_request, hread]

/-- The client reads the reply that the router sent. -/
theorem send_reply (hstandard : router.codec.Standard floats) {reply_data message : Members}
    {bytes : List UInt8} (str : Json → List CodePoint) (server_address : String)
    (hheld : (Json.object reply_data).Held floats)
    (hbytes : router.reply_bytes reply_data = some bytes) :
    ZmqClient.send floats str server_address message (.reply bytes) =
      .returned (.object reply_data) := by
  rw [ZmqRouter.reply_bytes, hstandard.float_repr] at hbytes
  simp only [ZmqClient.send, decode_utf8_encode hbytes, loads_dumps hheld]

theorem route_daemon_payload (request : ReviewRequest)
    (hregistered : code_points "review.request" ∈ router.handlers) :
    router.route (daemon_payload request) =
      .routed (.str (code_points request.request_id)) (.str (code_points "review.request"))
        (daemon_payload request) := by
  have hversion : member (daemon_payload request) "schema_version" =
      some (.str (code_points "1.0")) := rfl
  have htype : member (daemon_payload request) "message_type" =
      some (.str (code_points "review.request")) := rfl
  have hid : member (daemon_payload request) "request_id" =
      some (.str (code_points request.request_id)) := rfl
  have hhandler : router.handler (.str (code_points "review.request")) = .ok () := by
    simp only [ZmqRouter.handler, if_pos hregistered]
  have hsupported : unsupported (daemon_payload request) (.str (code_points "review.request")) =
      false := by
    simp only [unsupported, hversion]
    decide
  simp only [ZmqRouter.route, htype, hid, Option.getD_some, hsupported, hhandler]
  rfl

theorem success_reply_held {request_id : String} {response : Members}
    (hheld : (Json.object response).Held floats) :
    (Json.object (success_reply (.str (code_points request_id))
      (.str (code_points "review.request")) response)).Held floats := by
  refine ⟨?_, ?_⟩
  · simp only [Dict.Keyed, success_reply, List.map_cons, List.map_nil]
    decide
  · simpa [success_reply, Json.Held_members, Json.Held] using hheld

theorem review_response_scalar {result : ReviewResult} {response : Members}
    (h : review_response result = some response) : (Json.object response).Scalar := by
  simp only [review_response, Option.bind_eq_bind, Option.bind_eq_some_iff, Option.pure_def] at h
  obtain ⟨summary, hsummary, result_code, hcode, heq⟩ := h
  cases heq
  simp [Json.Scalar, Json.Scalar_members, json_scalar hsummary, json_scalar hcode]

theorem exit_code_of_json_eq {result_code : PyVal} {v : Json} (h : result_code.json = some v) :
    exit_code_of_json (some v) = exit_code_from_result_code result_code := by
  cases result_code with
  | str s =>
    cases h
    have hcode : code_points s = code_points "REVIEW_PASSED" ↔ s = "REVIEW_PASSED" :=
      ⟨code_points_inj, fun h => h ▸ rfl⟩
    simp [exit_code_of_json, exit_code_from_result_code, PyVal.isStr, hcode]
  | list xs =>
    obtain ⟨items, -, rfl⟩ := Option.map_eq_some_iff.mp h
    rfl
  | dict kvs =>
    obtain ⟨members, -, rfl⟩ := Option.map_eq_some_iff.mp h
    rfl
  | none => cases h; rfl
  | bool b => cases h; rfl
  | int n => cases h; rfl
  | float q => cases h; rfl
  | object name => cases h

/-- A reply of the daemon gives the exit code of the result. -/
theorem read_response_reply {result : ReviewResult} {response : Members} (request_id msg_type : Json)
    (h : review_response result = some response) :
    read_response (.object (success_reply request_id msg_type response)) =
      .exits (exit_code_from_result_code result.result_code) := by
  simp only [review_response, Option.bind_eq_bind, Option.bind_eq_some_iff, Option.pure_def] at h
  obtain ⟨summary, -, result_code, hcode, heq⟩ := h
  cases heq
  rw [← exit_code_of_json_eq hcode]
  rfl

end Transport

section Verdict

open RouterLabel

variable {floats : Floats} {router : ZmqRouter} {sha256 : ByteArray → String}
  {run_once : ReviewRequest → ReviewResult} {event : TriggerEvent} {request : ReviewRequest}
  {response : Members}

/-- The daemon's handler answers the message of the command line with the result of the request. -/
theorem handle_daemon_payload (hrequest : Adapter.cli.build_request sha256 event = .ok request)
    (hmetadata : event.metadata = []) (hresponse : review_response (run_once request) = some response) :
    handle_review_request sha256 run_once (daemon_payload request) = some (.returns response) := by
  obtain ⟨payload, hpayload, hbuilt⟩ := daemon_rebuilds hrequest hmetadata
  simp [handle_review_request, hpayload, hbuilt, hresponse]

/-- In every run of the router, with any other clients, the command line that sent the message of
its request is sent one reply once its task is done, and the exit code it reads off the reply is
that of the result `run_once` has for this very request. -/
theorem cli_reads_verdict (hstandard : router.codec.Standard floats)
    (hregistered : code_points "review.request" ∈ router.handlers)
    (hrequest : Adapter.cli.build_request sha256 event = .ok request)
    (hmetadata : event.metadata = [])
    (hresponse : review_response (run_once request) = some response)
    (hheld : (Json.object response).Held floats)
    {log : List RouterLabel} {s : RouterState} (h : RouterState.Run router log s) {n : Nat}
    {t : RouterTask} (hn : s.tasks[n]? = some t) (hdone : t.stage = .done)
    (hpayload : ZmqClient.payload_bytes floats (daemon_payload request) = some t.payload_bytes)
    (hhandler : ∀ o ∈ outcomes log n,
      handle_review_request sha256 run_once (daemon_payload request) = some o) :
    ∃ reply_bytes, replies log n = [(t.client_id, reply_bytes)] ∧
      ∀ str server_address, run_via_daemon floats str server_address request (.reply reply_bytes) =
        .exits (exit_code_from_result_code (run_once request).result_code) := by
  have hread := @read_request_sent floats router hstandard (daemon_payload request) _
    (daemon_payload_held floats request) hpayload
  rw [safe_daemon_payload, route_daemon_payload request hregistered] at hread
  have hreturns := handle_daemon_payload hrequest hmetadata hresponse
  obtain ⟨reply_data, hbuilt, hreplies⟩ :=
    ((RouterState.Run.invariant h).history n t hn).ended hdone
  generalize hout : outcomes log n = happened at hbuilt
  cases hbuilt with
  | refused hrefused => rw [hread] at hrefused; cases hrefused
  | @raised _ _ _ error _ =>
    have hraised := hhandler (.raises error) (by simp [hout])
    rw [hreturns] at hraised
    cases hraised
  | @returned _ _ _ response' hrouted =>
    have hsame := hhandler (.returns response') (by simp [hout])
    rw [hreturns] at hsame
    cases hsame
    rw [hread] at hrouted
    cases hrouted
    have hscalar : (Json.object (success_reply (.str (code_points request.request_id))
        (.str (code_points "review.request")) response)).Scalar :=
      success_reply_scalar.mpr ⟨clean_code_points _, clean_code_points _,
        review_response_scalar hresponse⟩
    obtain ⟨reply_bytes, hbytes⟩ := Option.isSome_iff_exists.mp
      ((@Json.encode_dumps router.codec.float_repr _).mpr hscalar)
    refine ⟨reply_bytes, ?_, fun str server_address => ?_⟩
    · rw [hreplies, ZmqRouter.reply_bytes, hbytes]
      rfl
    · rw [run_via_daemon, send_reply hstandard str server_address (success_reply_held hheld) hbytes]
      exact read_response_reply _ _ hresponse

section Samples

/-- The one float of the sample reply. -/
def halfFloats : Floats where
  repr _ := "0.5"
  read _ := 1 / 2
  Double q := q = 1 / 2
  repr_float := by
    rintro q rfl
    refine ⟨⟨false, [code_point '0'], [code_point '5'], none⟩, ?_, rfl, rfl, rfl⟩
    constructor
    · simp
      decide
    · simp
    · left
      rfl
    · simp
      decide
    · simp

def standardCodec (floats : Floats) : JsonCodec where
  decode bs :=
    match decode_utf8 bs with
    | some text => .ok (text_of text)
    | none => .error ⟨"UnicodeDecodeError", [.valueError], "invalid start byte"⟩
  loads text :=
    match Text.loads floats.read (code_points text) with
    | some v => .ok v
    | none => .error ⟨"JSONDecodeError", [.valueError], "Expecting value: line 1 column 1 (char 0)"⟩
  float_repr := floats.repr

theorem standard_codec (floats : Floats) : (standardCodec floats).Standard floats where
  decode bs text h := by simp only [standardCodec, h]
  loads text v h := by simp only [standardCodec, h]
  float_repr := rfl

def daemonRouter : ZmqRouter := ⟨1, [code_points "review.request"], standardCodec halfFloats⟩

def fixedDigest (_ : ByteArray) : String := "0123456789abcdef"

def sampleEvent : TriggerEvent :=
  ⟨"cli", [("target_file", some "a.py"), ("diff_text", some "+x = 1")], []⟩

def passOnce (request : ReviewRequest) : ReviewResult :=
  ⟨request.request_id, .DELIVERED, .pass, .str "ok", 1 / 2, .str "REVIEW_PASSED", none, none,
    .str "mock"⟩

theorem sample_verdict : ∃ request log s t reply_bytes,
    Adapter.cli.build_request fixedDigest sampleEvent = .ok request ∧
    RouterState.Run daemonRouter log s ∧ s.tasks[0]? = some t ∧
    replies log 0 = [(t.client_id, reply_bytes)] ∧
    run_via_daemon halfFloats (fun _ => []) "tcp://127.0.0.1:5555" request (.reply reply_bytes) =
      .exits 0 := by
  obtain ⟨request, hrequest⟩ : ∃ request,
      Adapter.cli.build_request fixedDigest sampleEvent = .ok request := ⟨_, rfl⟩
  obtain ⟨response, hresponse⟩ : ∃ response, review_response (passOnce request) = some response :=
    ⟨_, rfl⟩
  have hheld : (Json.object response).Held halfFloats := by
    cases hresponse
    refine ⟨?_, ?_⟩
    · simp only [Dict.Keyed, List.map_cons, List.map_nil]
      decide
    · simp [Json.Held_members, Json.Held, halfFloats, passOnce]
  obtain ⟨bytes, hbytes⟩ := Option.isSome_iff_exists.mp
    ((@Json.encode_dumps halfFloats.repr _).mpr (daemon_payload_scalar request))
  have hread := @read_request_sent halfFloats daemonRouter (standard_codec _) (daemon_payload request)
    bytes (daemon_payload_held _ request) hbytes
  rw [safe_daemon_payload, route_daemon_payload request (by simp [daemonRouter])] at hread
  have hhandled : RouterState.Run daemonRouter _ ⟨0, none, [⟨[1], bytes, _⟩]⟩ :=
    RouterState.handled_run rfl hread (.returns response)
  have hscalar : (Json.object (success_reply (.str (code_points request.request_id))
      (.str (code_points "review.request")) response)).Scalar :=
    success_reply_scalar.mpr ⟨clean_code_points _, clean_code_points _,
      review_response_scalar hresponse⟩
  obtain ⟨reply, hreply⟩ := Option.isSome_iff_exists.mp
    ((@Json.encode_dumps daemonRouter.codec.float_repr _).mpr hscalar)
  have hsent := hhandled.step (@RouterState.Step.send daemonRouter _ 0 _ _ reply rfl rfl hreply)
  have hdone := hsent.step (@RouterState.Step.release daemonRouter _ 0 _ rfl rfl)
  have hreturns := handle_daemon_payload hrequest rfl hresponse
  obtain ⟨reply_bytes, hreplies, hexits⟩ := cli_reads_verdict (standard_codec _)
    (by simp [daemonRouter]) hrequest rfl hresponse hheld hdone (n := 0) (t := ⟨[1], bytes, .done⟩)
    rfl rfl hbytes (fun o ho => by
      obtain rfl : .returns response = o := by simpa [outcomes, outcome] using ho
      exact hreturns)
  exact ⟨request, _, _, _, reply_bytes, hrequest, hdone, rfl, hreplies, hexits _ _⟩

end Samples

end Verdict

end Nitpicker
