import NitpickerDaemon.Effect.Labelled
import NitpickerDaemon.Text.Json
import NitpickerDaemon.PyValue

/-!
The router: it receives messages, runs a bounded number of tasks, and sends their replies.
-/

set_option autoImplicit false

namespace Nitpicker

open Effect Text

/-- `bytes.decode`, which yields no surrogate, `json.loads` and the `repr` of a float. -/
structure JsonCodec where
  decode : List UInt8 → Except PyExc String
  loads : String → Except PyExc Json
  float_repr : Rat → String

structure ZmqRouter where
  max_concurrent_jobs : Nat
  handlers : List (List CodePoint)
  codec : JsonCodec

/-- An exception, by the name of its type and its `str()`. -/
structure Raised where
  type_name : String
  message : List CodePoint

def PyExc.raised (e : PyExc) : Raised := ⟨e.type_name, code_points e.message⟩

abbrev Members := List (List CodePoint × Json)

def member (members : Members) (key : String) : Option Json := members.lookup (code_points key)

def UNKNOWN : Json := .str (code_points "UNKNOWN")

/-- The payload up to the call of the handler. -/
inductive RouterRequest where
  | refused (request_id msg_type : Json) (error : Raised)
  | routed (request_id msg_type : Json) (request_data : Members)

/-- The name of a value's type. -/
def json_type_name : Json → String
  | .null => "NoneType"
  | .bool _ => "bool"
  | .int _ => "int"
  | .float _ => "float"
  | .str _ => "str"
  | .array _ => "list"
  | .object _ => "dict"

/-- `self._handlers.get(msg_type)`, with the `TypeError` of a key that has no hash. -/
def ZmqRouter.handler (router : ZmqRouter) (msg_type : Json) : Except Raised Unit :=
  let missing (text : List CodePoint) : Except Raised Unit :=
    .error ⟨"NotImplementedError",
      code_points "'" ++ text ++ code_points "'에 대한 핸들러가 없습니다."⟩
  match msg_type with
  | .str name => if name ∈ router.handlers then .ok () else missing name
  | .null => missing (code_points "None")
  | .bool b => missing (code_points (if b then "True" else "False"))
  | .int n => missing (code_points (toString n))
  | .float q => missing (code_points (router.codec.float_repr q))
  | value => .error ⟨"TypeError",
      code_points ("unhashable type: '" ++ json_type_name value ++ "'")⟩

/-- `request_data.get("schema_version") != "1.0" or not msg_type` -/
def unsupported (request_data : Members) (msg_type : Json) : Bool :=
  match member request_data "schema_version" with
  | some (.str version) => version ≠ code_points "1.0" || !msg_type.truthy
  | _ => true

def ZmqRouter.route (router : ZmqRouter) (request_data : Members) : RouterRequest :=
  let request_id := (member request_data "request_id").getD UNKNOWN
  let msg_type := (member request_data "message_type").getD UNKNOWN
  if unsupported request_data msg_type then
    .refused request_id msg_type ⟨"ValueError",
      code_points "지원하지 않는 스키마 버전이거나 message_type이 없습니다."⟩
  else
    match router.handler msg_type with
    | .error e => .refused request_id msg_type e
    | .ok () => .routed request_id msg_type request_data

def ZmqRouter.read_request (router : ZmqRouter) (payload_bytes : List UInt8) : RouterRequest :=
  match router.codec.decode payload_bytes >>= router.codec.loads with
  | .error e => .refused UNKNOWN UNKNOWN e.raised
  | .ok (.object request_data) => router.route request_data
  | .ok value => .refused UNKNOWN UNKNOWN ⟨"AttributeError",
      code_points ("'" ++ json_type_name value ++ "' object has no attribute 'get'")⟩

def success_reply (request_id msg_type : Json) (response : Members) : Members :=
  [(code_points "schema_version", .str (code_points "1.0")),
    (code_points "status", .str (code_points "success")),
    (code_points "request_id", request_id),
    (code_points "message_type", msg_type),
    (code_points "response", .object response)]

def error_reply (request_id msg_type : Json) (error : Raised) : Members :=
  [(code_points "schema_version", .str (code_points "1.0")),
    (code_points "status", .str (code_points "error")),
    (code_points "request_id", request_id),
    (code_points "message_type", msg_type),
    (code_points "error_code", .str (code_points error.type_name)),
    (code_points "error_message", .str error.message)]

/-- `json.dumps(reply_data, ensure_ascii=False).encode("utf-8")`, after the `try`. -/
def ZmqRouter.reply_bytes (router : ZmqRouter) (reply_data : Members) : Option (List UInt8) :=
  encode ((Json.object reply_data).dumps router.codec.float_repr)

/-- What the handler does: it returns a dict, or it raises. -/
inductive HandlerOutcome where
  | returns (response : Members)
  | raises (error : Raised)

/-- Where a task of `_process_and_reply_wrapper` is; `done` once `_on_task_done` has run. -/
inductive TaskStage where
  | created
  | handling (request_id msg_type : Json)
  | replying (reply_data : Members)
  | finished
  | done

def TaskStage.running : TaskStage → Bool
  | .done => false
  | _ => true

/-- The steps a task has left, at most. -/
def TaskStage.left : TaskStage → Nat
  | .created => 4
  | .handling _ _ => 3
  | .replying _ => 2
  | .finished => 1
  | .done => 0

structure RouterTask where
  client_id : List UInt8
  payload_bytes : List UInt8
  stage : TaskStage := .created

namespace ZmqRouter

def begin_task (router : ZmqRouter) (payload_bytes : List UInt8) : TaskStage :=
  match router.read_request payload_bytes with
  | .refused request_id msg_type error => .replying (error_reply request_id msg_type error)
  | .routed request_id msg_type _ => .handling request_id msg_type

def conclude (request_id msg_type : Json) : HandlerOutcome → TaskStage
  | .returns response => .replying (success_reply request_id msg_type response)
  | .raises error => .replying (error_reply request_id msg_type error)

theorem begin_task_running (router : ZmqRouter) (payload_bytes : List UInt8) :
    (router.begin_task payload_bytes).running = true := by
  unfold begin_task
  split <;> rfl

theorem begin_task_left (router : ZmqRouter) (payload_bytes : List UInt8) :
    (router.begin_task payload_bytes).left < 4 := by
  unfold begin_task
  split <;> simp [TaskStage.left]

theorem conclude_left (request_id msg_type : Json) (outcome : HandlerOutcome) :
    (conclude request_id msg_type outcome).left < 3 := by
  cases outcome <;> simp [conclude, TaskStage.left]

theorem conclude_running (request_id msg_type : Json) (outcome : HandlerOutcome) :
    (conclude request_id msg_type outcome).running = true := by
  cases outcome <;> rfl

end ZmqRouter

/-- The loop of `start`, with the message it holds while it waits for the semaphore. -/
structure RouterState where
  permits : Nat
  waiting : Option (List UInt8 × List UInt8) := none
  tasks : List RouterTask := []

inductive RouterLabel where
  | received (frames : List (List UInt8))
  | accepted
  | began (task : Nat)
  | handled (task : Nat) (outcome : HandlerOutcome)
  | sent (task : Nat) (client_id reply_bytes : List UInt8)
  | failed (task : Nat)
  | released (task : Nat)

/-- The message of three frames with an empty delimiter. -/
def accept_frames : List (List UInt8) → Option (List UInt8 × List UInt8)
  | [client_id, empty, payload_bytes] =>
    if empty ≠ [] then none else some (client_id, payload_bytes)
  | _ => none

namespace RouterState

def set_stage (s : RouterState) (n : Nat) (t : RouterTask) (stage : TaskStage) : RouterState :=
  { s with tasks := s.tasks.set n { t with stage } }

/-- The loop and the tasks take their steps in any order. -/
inductive Step (router : ZmqRouter) : RouterState → RouterLabel → RouterState → Prop where
  | receive {s : RouterState} {frames : List (List UInt8)} : s.waiting = none →
      Step router s (.received frames) { s with waiting := accept_frames frames }
  | accept {p : Nat} {client_id payload_bytes : List UInt8} {tasks : List RouterTask} :
      Step router ⟨p + 1, some (client_id, payload_bytes), tasks⟩ .accepted
        ⟨p, none, tasks ++ [⟨client_id, payload_bytes, .created⟩]⟩
  | run {s : RouterState} {n : Nat} {t : RouterTask} : s.tasks[n]? = some t →
      t.stage = .created →
      Step router s (.began n) (s.set_stage n t (router.begin_task t.payload_bytes))
  | handle {s : RouterState} {n : Nat} {t : RouterTask} {request_id msg_type : Json}
      {outcome : HandlerOutcome} : s.tasks[n]? = some t → t.stage = .handling request_id msg_type →
      Step router s (.handled n outcome)
        (s.set_stage n t (ZmqRouter.conclude request_id msg_type outcome))
  | send {s : RouterState} {n : Nat} {t : RouterTask} {reply_data : Members}
      {bytes : List UInt8} : s.tasks[n]? = some t → t.stage = .replying reply_data →
      router.reply_bytes reply_data = some bytes →
      Step router s (.sent n t.client_id bytes) (s.set_stage n t .finished)
  -- the encoding raises after the `try`, and the task ends
  | fail {s : RouterState} {n : Nat} {t : RouterTask} {reply_data : Members} :
      s.tasks[n]? = some t → t.stage = .replying reply_data →
      router.reply_bytes reply_data = none →
      Step router s (.failed n) (s.set_stage n t .finished)
  | release {s : RouterState} {n : Nat} {t : RouterTask} : s.tasks[n]? = some t →
      t.stage = .finished →
      Step router s (.released n) { s.set_stage n t .done with permits := s.permits + 1 }

abbrev Run (router : ZmqRouter) : List RouterLabel → RouterState → Prop :=
  LabelledRun (Step router) { permits := router.max_concurrent_jobs }

def running (s : RouterState) : Nat := s.tasks.countP fun t => t.stage.running

end RouterState

namespace RouterLabel

def reply (n : Nat) : RouterLabel → Option (List UInt8 × List UInt8)
  | .sent m client_id bytes => if m = n then some (client_id, bytes) else none
  | _ => none

def outcome (n : Nat) : RouterLabel → Option HandlerOutcome
  | .handled m outcome => if m = n then some outcome else none
  | _ => none

def message : RouterLabel → Option (List UInt8 × List UInt8)
  | .received frames => accept_frames frames
  | _ => none

/-- What task `n` sent. -/
def replies (log : List RouterLabel) (n : Nat) : List (List UInt8 × List UInt8) :=
  log.filterMap (reply n)

/-- What the handler of task `n` did. -/
def outcomes (log : List RouterLabel) (n : Nat) : List HandlerOutcome := log.filterMap (outcome n)

/-- The messages that ask for a reply. -/
def messages (log : List RouterLabel) : List (List UInt8 × List UInt8) := log.filterMap message

@[simp] theorem replies_snoc (log : List RouterLabel) (l : RouterLabel) (n : Nat) :
    replies (log ++ [l]) n = replies log n ++ (l.reply n).toList := by
  cases h : l.reply n <;> simp [replies, h]

@[simp] theorem outcomes_snoc (log : List RouterLabel) (l : RouterLabel) (n : Nat) :
    outcomes (log ++ [l]) n = outcomes log n ++ (l.outcome n).toList := by
  cases h : l.outcome n <;> simp [outcomes, h]

@[simp] theorem messages_snoc (log : List RouterLabel) (l : RouterLabel) :
    messages (log ++ [l]) = messages log ++ l.message.toList := by
  cases h : l.message <;> simp [messages, h]

/-- The step of a task other than `n`, or of the loop. -/
def Aside (l : RouterLabel) (n : Nat) : Prop := l.reply n = none ∧ l.outcome n = none

end RouterLabel

/-- A field of the payload; `UNKNOWN` where the payload has none or is no object. -/
def ZmqRouter.field (router : ZmqRouter) (payload_bytes : List UInt8) (key : String) : Json :=
  match router.codec.decode payload_bytes >>= router.codec.loads with
  | .ok (.object request_data) => (member request_data key).getD UNKNOWN
  | _ => UNKNOWN

def HandlerOutcome.Scalar : HandlerOutcome → Prop
  | .returns response => (Json.object response).Scalar
  | .raises error => Text.Clean error.message

/-- The reply a task builds from its payload and what its handler did. -/
inductive Built (router : ZmqRouter) (payload_bytes : List UInt8) :
    List HandlerOutcome → Members → Prop where
  | refused {request_id msg_type : Json} {error : Raised} :
      router.read_request payload_bytes = .refused request_id msg_type error →
      Built router payload_bytes [] (error_reply request_id msg_type error)
  | returned {request_id msg_type : Json} {request_data response : Members} :
      router.read_request payload_bytes = .routed request_id msg_type request_data →
      Built router payload_bytes [.returns response] (success_reply request_id msg_type response)
  | raised {request_id msg_type : Json} {request_data : Members} {error : Raised} :
      router.read_request payload_bytes = .routed request_id msg_type request_data →
      Built router payload_bytes [.raises error] (error_reply request_id msg_type error)

section Payload

variable {router : ZmqRouter} {payload_bytes : List UInt8} {request_id msg_type : Json}

theorem handler_error_clean {e : Raised} (h : router.handler msg_type = .error e)
    (hty : msg_type.Scalar) : Text.Clean e.message := by
  unfold ZmqRouter.handler at h
  split at h
  · split at h
    · cases h
    · cases h
      simpa [Json.Scalar] using hty
  · cases h; simp
  · cases h; simp
  · cases h; simp
  · cases h; simp
  · cases h; simp

theorem UNKNOWN_scalar : UNKNOWN.Scalar := by simp [UNKNOWN, Json.Scalar]

theorem route_refused {request_data : Members} {error : Raised}
    (h : router.route request_data = .refused request_id msg_type error) :
    request_id = (member request_data "request_id").getD UNKNOWN ∧
      msg_type = (member request_data "message_type").getD UNKNOWN ∧
      (msg_type.Scalar → Text.Clean error.message) := by
  simp only [ZmqRouter.route] at h
  split at h
  · cases h
    simp
  · split at h
    · rename_i e he
      cases h
      exact ⟨rfl, rfl, handler_error_clean he⟩
    · cases h

theorem route_routed {request_data data : Members}
    (h : router.route request_data = .routed request_id msg_type data) :
    request_id = (member request_data "request_id").getD UNKNOWN ∧
      msg_type = (member request_data "message_type").getD UNKNOWN := by
  simp only [ZmqRouter.route] at h
  split at h
  · cases h
  · split at h
    · cases h
    · cases h
      exact ⟨rfl, rfl⟩

/-- What is refused is refused with the fields of the payload, and a message of its type. -/
theorem read_request_refused {error : Raised}
    (h : router.read_request payload_bytes = .refused request_id msg_type error) :
    request_id = router.field payload_bytes "request_id" ∧
      msg_type = router.field payload_bytes "message_type" ∧
      (msg_type.Scalar → Text.Clean error.message) := by
  unfold ZmqRouter.read_request at h
  unfold ZmqRouter.field
  split at h
  · rename_i e he
    cases h
    simp [he, PyExc.raised]
  · rename_i request_data he
    simpa only [he] using route_refused h
  · rename_i value hobject he
    cases h
    rw [he]
    split
    · rename_i d hd
      exact absurd (Except.ok.inj hd) (hobject d)
    · simp

theorem read_request_routed {request_data : Members}
    (h : router.read_request payload_bytes = .routed request_id msg_type request_data) :
    request_id = router.field payload_bytes "request_id" ∧
      msg_type = router.field payload_bytes "message_type" := by
  unfold ZmqRouter.read_request at h
  unfold ZmqRouter.field
  split at h
  · cases h
  · rename_i data he
    simpa only [he] using route_routed h
  · cases h

@[simp] theorem success_reply_scalar {response : Members} :
    (Json.object (success_reply request_id msg_type response)).Scalar ↔
      request_id.Scalar ∧ msg_type.Scalar ∧ (Json.object response).Scalar := by
  simp [success_reply, Json.Scalar, Json.Scalar_members]

@[simp] theorem error_reply_scalar {error : Raised} :
    (Json.object (error_reply request_id msg_type error)).Scalar ↔
      request_id.Scalar ∧ msg_type.Scalar ∧ Text.Clean error.message := by
  simp [error_reply, Json.Scalar, Json.Scalar_members]

theorem success_reply_request_id {response : Members} :
    member (success_reply request_id msg_type response) "request_id" = some request_id := rfl

theorem error_reply_request_id {error : Raised} :
    member (error_reply request_id msg_type error) "request_id" = some request_id := rfl

namespace Built

variable {happened : List HandlerOutcome} {reply_data : Members}

/-- A reply has the request id of the payload. -/
theorem carries_request_id (h : Built router payload_bytes happened reply_data) :
    member reply_data "request_id" = some (router.field payload_bytes "request_id") := by
  cases h with
  | refused hread => rw [error_reply_request_id, (read_request_refused hread).1]
  | returned hread => rw [success_reply_request_id, (read_request_routed hread).1]
  | raised hread => rw [error_reply_request_id, (read_request_routed hread).1]

/-- A reply has bytes just when no surrogate came with the payload or from the handler. -/
theorem scalar_iff (h : Built router payload_bytes happened reply_data) :
    (router.reply_bytes reply_data).isSome ↔
      (router.field payload_bytes "request_id").Scalar ∧
      (router.field payload_bytes "message_type").Scalar ∧ ∀ o ∈ happened, o.Scalar := by
  rw [ZmqRouter.reply_bytes, Json.encode_dumps]
  cases h with
  | refused hread =>
    obtain ⟨rfl, rfl, hmessage⟩ := read_request_refused hread
    simp only [error_reply_scalar, List.not_mem_nil, false_imp_iff, implies_true, and_true]
    tauto
  | returned hread =>
    obtain ⟨rfl, rfl⟩ := read_request_routed hread
    simp [HandlerOutcome.Scalar]
  | raised hread =>
    obtain ⟨rfl, rfl⟩ := read_request_routed hread
    simp [HandlerOutcome.Scalar]

end Built

/-- Where a task is, with what its handler did and what it sent. -/
inductive TaskHistory (router : ZmqRouter) (client_id payload_bytes : List UInt8) :
    TaskStage → List HandlerOutcome → List (List UInt8 × List UInt8) → Prop where
  | created : TaskHistory router client_id payload_bytes .created [] []
  | handling {request_id msg_type : Json} {request_data : Members} :
      router.read_request payload_bytes = .routed request_id msg_type request_data →
      TaskHistory router client_id payload_bytes (.handling request_id msg_type) [] []
  | replying {happened : List HandlerOutcome} {reply_data : Members} :
      Built router payload_bytes happened reply_data →
      TaskHistory router client_id payload_bytes (.replying reply_data) happened []
  | finished {happened : List HandlerOutcome} {reply_data : Members} {stage : TaskStage} :
      Built router payload_bytes happened reply_data → stage = .finished ∨ stage = .done →
      TaskHistory router client_id payload_bytes stage happened
        ((router.reply_bytes reply_data).map (client_id, ·)).toList

namespace TaskHistory

variable {stage : TaskStage} {client_id : List UInt8} {happened : List HandlerOutcome}
  {sent : List (List UInt8 × List UInt8)}

theorem begin_task
    (h : TaskHistory router client_id payload_bytes .created happened sent) :
    TaskHistory router client_id payload_bytes (router.begin_task payload_bytes) happened sent := by
  cases h with
  | created =>
    unfold ZmqRouter.begin_task
    split
    · rename_i hread
      exact .replying (.refused hread)
    · rename_i hread
      exact .handling hread
  | finished _ hstage => simp at hstage

theorem conclude {outcome : HandlerOutcome}
    (h : TaskHistory router client_id payload_bytes (.handling request_id msg_type) happened sent) :
    TaskHistory router client_id payload_bytes (ZmqRouter.conclude request_id msg_type outcome)
      (happened ++ [outcome]) sent := by
  cases h with
  | handling hread =>
    cases outcome with
    | returns response => exact .replying (.returned hread)
    | raises error => exact .replying (.raised hread)
  | finished _ hstage => simp at hstage

theorem settle {reply_data : Members}
    (h : TaskHistory router client_id payload_bytes (.replying reply_data) happened sent) :
    TaskHistory router client_id payload_bytes .finished happened
      (sent ++ ((router.reply_bytes reply_data).map (client_id, ·)).toList) := by
  cases h with
  | replying hbuilt =>
    rw [List.nil_append]
    exact .finished hbuilt (.inl rfl)
  | finished _ hstage => simp at hstage

theorem replies_length
    (h : TaskHistory router client_id payload_bytes stage happened sent) : sent.length ≤ 1 := by
  have hoption : ∀ o : Option (List UInt8 × List UInt8), o.toList.length ≤ 1 := fun o => by
    cases o <;> simp
  cases h with
  | created => exact Nat.zero_le _
  | handling _ => exact Nat.zero_le _
  | replying _ => exact Nat.zero_le _
  | finished _ _ => exact hoption _

theorem ended (h : TaskHistory router client_id payload_bytes stage happened sent)
    (hstage : stage = .done) : ∃ reply_data, Built router payload_bytes happened reply_data ∧
      sent = ((router.reply_bytes reply_data).map (client_id, ·)).toList := by
  subst hstage
  cases h with
  | finished hbuilt _ => exact ⟨_, hbuilt, rfl⟩

theorem release (h : TaskHistory router client_id payload_bytes .finished happened sent) :
    TaskHistory router client_id payload_bytes .done happened sent := by
  cases h with
  | finished hbuilt _ => exact .finished hbuilt (.inr rfl)

end TaskHistory

end Payload

namespace RouterState

open RouterLabel

variable {router : ZmqRouter} {s s' : RouterState} {log : List RouterLabel} {n : Nat}
  {t : RouterTask} {stage : TaskStage} {l : RouterLabel}

/-- What holds of every run. -/
structure Invariant (router : ZmqRouter) (log : List RouterLabel) (s : RouterState) : Prop where
  permits : s.permits + s.running = router.max_concurrent_jobs
  history : ∀ (n : Nat) (t : RouterTask), s.tasks[n]? = some t →
    TaskHistory router t.client_id t.payload_bytes t.stage (outcomes log n) (replies log n)
  fresh : ∀ n, s.tasks.length ≤ n → outcomes log n = [] ∧ replies log n = []
  messages : s.tasks.map (fun t => (t.client_id, t.payload_bytes)) ++ s.waiting.toList =
    messages log

theorem running_set_stage (hn : s.tasks[n]? = some t) :
    (s.set_stage n t stage).running + t.stage.running.toNat =
      s.running + stage.running.toNat := by
  obtain ⟨hlen, rfl⟩ := List.getElem?_eq_some_iff.mp hn
  simp only [running, set_stage, List.countP_set hlen]
  have hpos : s.tasks[n].stage.running = true →
      0 < s.tasks.countP fun t => t.stage.running := fun h =>
    List.countP_pos_iff.mpr ⟨_, List.getElem_mem hlen, h⟩
  cases h : s.tasks[n].stage.running <;> cases stage.running <;> simp_all

/-- A task goes on, and the others stay as they are. -/
theorem Invariant.advance {permits : Nat} (h : Invariant router log s)
    (hn : s.tasks[n]? = some t) (haside : ∀ m, m ≠ n → l.Aside m) (hmessage : l.message = none)
    (hpermits : permits + stage.running.toNat = s.permits + t.stage.running.toNat)
    (hhistory : TaskHistory router t.client_id t.payload_bytes stage
      (outcomes log n ++ (l.outcome n).toList) (replies log n ++ (l.reply n).toList)) :
    Invariant router (log ++ [l]) { s.set_stage n t stage with permits } := by
  have hlen := (List.getElem?_eq_some_iff.mp hn).1
  constructor
  · have hrunning : (s.set_stage n t stage).running + t.stage.running.toNat =
        s.running + stage.running.toNat := running_set_stage hn
    have hold := h.permits
    have hset : RouterState.running { s.set_stage n t stage with permits } =
        (s.set_stage n t stage).running := rfl
    simp only [hset]
    omega
  · intro m u hm
    by_cases hmn : m = n
    · subst hmn
      simp only [set_stage, List.getElem?_set_self hlen] at hm
      obtain rfl := Option.some.inj hm
      rw [outcomes_snoc, replies_snoc]
      exact hhistory
    · obtain ⟨hreply, houtcome⟩ := haside m hmn
      simp only [set_stage, List.getElem?_set_ne (Ne.symm hmn)] at hm
      simpa [hreply, houtcome] using h.history m u hm
  · intro m hm
    simp only [set_stage, List.length_set] at hm
    have hmn : m ≠ n := by omega
    obtain ⟨hreply, houtcome⟩ := haside m hmn
    simpa [hreply, houtcome] using h.fresh m hm
  · have htasks : (s.tasks.set n { t with stage }).map (fun t => (t.client_id, t.payload_bytes)) =
        s.tasks.map fun t => (t.client_id, t.payload_bytes) := by
      obtain ⟨-, rfl⟩ := List.getElem?_eq_some_iff.mp hn
      rw [List.map_set]
      exact List.ext_getElem (by simp) fun i h₁ h₂ => by grind
    simpa [set_stage, htasks, hmessage] using h.messages

/-- One step keeps what holds of every run. -/
theorem Invariant.step (h : Invariant router log s) (hs : Step router s l s') :
    Invariant router (log ++ [l]) s' := by
  cases hs with
  | @receive s frames hnone =>
    have hmessages := h.messages
    rw [hnone] at hmessages
    refine ⟨h.permits, fun n t hn => by simpa [reply, outcome] using h.history n t hn,
      fun n hn => by simpa [reply, outcome] using h.fresh n hn, ?_⟩
    simp only [Option.toList_none, List.append_nil] at hmessages
    simp [hmessages, message]
  | @accept p client_id payload_bytes tasks =>
    refine ⟨?_, fun n t hn => ?_, fun n hn => ?_, ?_⟩
    · have hold := h.permits
      have hrunning : running ⟨p, none, tasks ++ [⟨client_id, payload_bytes, .created⟩]⟩ =
          running ⟨p + 1, some (client_id, payload_bytes), tasks⟩ + 1 := by
        simp only [running, List.countP_append, List.countP_singleton]
        rfl
      rw [hrunning]
      simp only at hold ⊢
      omega
    · rw [List.getElem?_append] at hn
      split at hn
      · simpa [reply, outcome] using h.history n t hn
      · rename_i hlen
        obtain ⟨houtcomes, hreplies⟩ := h.fresh n (Nat.le_of_not_lt hlen)
        rw [List.getElem?_singleton] at hn
        split at hn
        · obtain rfl := Option.some.inj hn
          simpa [reply, outcome, houtcomes, hreplies] using TaskHistory.created
        · cases hn
    · simp only [List.length_append, List.length_singleton] at hn
      simpa [reply, outcome] using h.fresh n (Nat.le_of_succ_le hn)
    · simpa [message] using h.messages
  | @run s n t hn hstage =>
    have hhistory := h.history n t hn
    rw [hstage] at hhistory
    refine h.advance hn (fun m hm => ⟨rfl, rfl⟩) rfl ?_ (by simpa [reply, outcome] using hhistory.begin_task)
    rw [hstage, ZmqRouter.begin_task_running]
    rfl
  | @handle s n t request_id msg_type o hn hstage =>
    have hhistory := h.history n t hn
    rw [hstage] at hhistory
    refine h.advance hn (fun m hm => ⟨rfl, by simp [outcome, Ne.symm hm]⟩) rfl ?_
      (by simpa [reply, outcome] using hhistory.conclude)
    rw [hstage, ZmqRouter.conclude_running]
    rfl
  | @send s n t reply_data bytes hn hstage hbytes =>
    have hhistory := h.history n t hn
    rw [hstage] at hhistory
    refine h.advance hn (fun m hm => ⟨by simp [reply, Ne.symm hm], rfl⟩) rfl ?_
      (by simpa [reply, outcome, hbytes] using hhistory.settle)
    rw [hstage]
    rfl
  | @fail s n t reply_data hn hstage hnone =>
    have hhistory := h.history n t hn
    rw [hstage] at hhistory
    refine h.advance hn (fun m hm => ⟨rfl, rfl⟩) rfl ?_
      (by simpa [reply, outcome, hnone] using hhistory.settle)
    rw [hstage]
    rfl
  | @release s n t hn hstage =>
    have hhistory := h.history n t hn
    rw [hstage] at hhistory
    refine h.advance hn (fun m hm => ⟨rfl, rfl⟩) rfl ?_
      (by simpa [reply, outcome] using hhistory.release)
    rw [hstage]
    rfl

theorem Run.invariant (h : Run router log s) : Invariant router log s := by
  refine LabelledRun.invariant (I := fun log s => Invariant router log s) ?_
    (fun _ _ _ _ _ ih hs => ih.step hs) h
  refine ⟨rfl, fun n t hn => ?_, fun n _ => ⟨rfl, rfl⟩, rfl⟩
  simp at hn

section Progress

/-- The steps that are left for the messages that were received. -/
def left (s : RouterState) : Nat :=
  (s.tasks.map fun t => t.stage.left).sum + 5 * s.waiting.toList.length

theorem left_set_stage (hn : s.tasks[n]? = some t) (hlt : stage.left < t.stage.left) :
    (s.set_stage n t stage).left < s.left := by
  obtain ⟨hlen, rfl⟩ := List.getElem?_eq_some_iff.mp hn
  have hsplit := List.take_append_drop n s.tasks
  rw [← List.getElem_cons_drop hlen] at hsplit
  have hsum := congrArg (fun tasks => (tasks.map fun t => t.stage.left).sum) hsplit
  simp only [left, set_stage, List.set_eq_take_append_cons_drop, if_pos hlen]
  simp only [List.map_append, List.map_cons, List.sum_append, List.sum_cons] at hsum ⊢
  omega

/-- While something is left, a step can be taken that leaves less. -/
theorem progress (h : Run router log s) (hmax : 0 < router.max_concurrent_jobs)
    (hleft : s.waiting ≠ none ∨ ∃ t ∈ s.tasks, t.stage ≠ .done) :
    ∃ l s', Step router s l s' ∧ l.message = none ∧ s'.left < s.left := by
  by_cases hdone : ∃ t ∈ s.tasks, t.stage ≠ .done
  · obtain ⟨t, ht, hstage⟩ := hdone
    obtain ⟨n, hn⟩ := List.getElem?_of_mem ht
    cases ht : t.stage with
    | created =>
      refine ⟨_, _, .run hn ht, rfl, left_set_stage hn ?_⟩
      rw [ht]
      exact ZmqRouter.begin_task_left _ _
    | handling request_id msg_type =>
      refine ⟨_, _, @Step.handle _ _ _ _ _ _ (.returns []) hn ht, rfl, left_set_stage hn ?_⟩
      rw [ht]
      exact ZmqRouter.conclude_left _ _ _
    | replying reply_data =>
      have hlt : TaskStage.finished.left < t.stage.left := by simp [ht, TaskStage.left]
      cases hbytes : router.reply_bytes reply_data with
      | some bytes => exact ⟨_, _, .send hn ht hbytes, rfl, left_set_stage hn hlt⟩
      | none => exact ⟨_, _, .fail hn ht hbytes, rfl, left_set_stage hn hlt⟩
    | finished =>
      have hlt : TaskStage.done.left < t.stage.left := by simp [ht, TaskStage.left]
      exact ⟨_, _, .release hn ht, rfl, left_set_stage hn hlt⟩
    | done => exact absurd ht hstage
  · have hwaiting := hleft.resolve_right hdone
    have hrunning : s.running = 0 := by
      simp only [running, List.countP_eq_zero]
      intro t ht
      have hstage : t.stage = .done := by
        by_contra hne
        exact hdone ⟨t, ht, hne⟩
      simp [hstage, TaskStage.running]
    have hpermits := (Run.invariant h).permits
    obtain ⟨permits, waiting, tasks⟩ := s
    obtain ⟨p, rfl⟩ : ∃ p, permits = p + 1 := ⟨permits - 1, by simp only at hpermits; omega⟩
    obtain ⟨⟨client_id, payload_bytes⟩, rfl⟩ := Option.ne_none_iff_exists'.mp hwaiting
    refine ⟨_, _, .accept, rfl, ?_⟩
    simp [left, TaskStage.left]

/-- Whatever was received can be brought to its end. -/
theorem drains (h : Run router log s) (hmax : 0 < router.max_concurrent_jobs) :
    ∃ more s', Run router (log ++ more) s' ∧ messages more = [] ∧ s'.waiting = none ∧
      ∀ t ∈ s'.tasks, t.stage = .done := by
  induction hk : s.left using Nat.strong_induction_on generalizing s log with
  | _ k ih =>
    by_cases hleft : s.waiting ≠ none ∨ ∃ t ∈ s.tasks, t.stage ≠ .done
    · obtain ⟨l, s₁, hs, hl, hlt⟩ := progress h hmax hleft
      obtain ⟨more, s', hrun, hmore, hend⟩ := ih _ (hk ▸ hlt) (h.step hs) rfl
      refine ⟨l :: more, s', by simpa using hrun, ?_, hend⟩
      simpa [messages, hl] using hmore
    · simp only [not_or, not_not, not_exists, not_and] at hleft
      exact ⟨[], s, by simpa using h, rfl, hleft⟩

end Progress

/-- Task `n` sent one reply, to its client and with the request id of its payload. -/
def Answered (router : ZmqRouter) (log : List RouterLabel) (n : Nat) (t : RouterTask) : Prop :=
  ∃ reply_data bytes, replies log n = [(t.client_id, bytes)] ∧
    router.reply_bytes reply_data = some bytes ∧
    member reply_data "request_id" = some (router.field t.payload_bytes "request_id")

/-- Every message has its task, the tasks that run and the free permits make up the bound, and a
task that is done has sent one reply just when no lone surrogate came with the request id, with the
message type, or from the handler; whatever was received can be brought to its end. -/
theorem one_reply_iff (h : Run router log s) :
    s.running ≤ router.max_concurrent_jobs ∧
    s.permits + s.running = router.max_concurrent_jobs ∧
    s.tasks.map (fun t => (t.client_id, t.payload_bytes)) ++ s.waiting.toList = messages log ∧
    (∀ n, (replies log n).length ≤ 1 ∧ (s.tasks.length ≤ n → replies log n = [])) ∧
    (0 < router.max_concurrent_jobs → ∃ more s', Run router (log ++ more) s' ∧
      messages more = [] ∧ s'.waiting = none ∧ ∀ t ∈ s'.tasks, t.stage = .done) ∧
    ∀ n t, s.tasks[n]? = some t → t.stage = .done →
      (Answered router log n t ↔ (router.field t.payload_bytes "request_id").Scalar ∧
        (router.field t.payload_bytes "message_type").Scalar ∧ ∀ o ∈ outcomes log n, o.Scalar) := by
  obtain ⟨hpermits, hhistory, hfresh, hmessages⟩ := Run.invariant h
  refine ⟨by omega, hpermits, hmessages, fun n => ⟨?_, fun hn => (hfresh n hn).2⟩, drains h,
    fun n t hn hdone => ?_⟩
  · cases hn : s.tasks[n]? with
    | none => simp [(hfresh n (List.getElem?_eq_none_iff.mp hn)).2]
    | some t => exact (hhistory n t hn).replies_length
  · obtain ⟨reply_data, hbuilt, hreplies⟩ := (hhistory n t hn).ended hdone
    rw [← hbuilt.scalar_iff]
    constructor
    · rintro ⟨-, bytes, hsent, -, -⟩
      rw [hreplies] at hsent
      cases hbytes : router.reply_bytes reply_data with
      | none => simp [hbytes] at hsent
      | some bytes => rfl
    · intro hsome
      obtain ⟨bytes, hbytes⟩ := Option.isSome_iff_exists.mp hsome
      refine ⟨reply_data, bytes, ?_, hbytes, hbuilt.carries_request_id⟩
      rw [hreplies, hbytes]
      rfl

section Samples

/-- A message is received and accepted, and its handler answers. -/
theorem handled_run {client_id payload_bytes : List UInt8} {request_id msg_type : Json}
    {request_data : Members} {m : Nat} (hmax : router.max_concurrent_jobs = m + 1)
    (hread : router.read_request payload_bytes = .routed request_id msg_type request_data)
    (o : HandlerOutcome) : Run router
      [.received [client_id, [], payload_bytes], .accepted, .began 0, .handled 0 o]
      ⟨m, none, [⟨client_id, payload_bytes, ZmqRouter.conclude request_id msg_type o⟩]⟩ := by
  have hstart : Run router [] ⟨m + 1, none, []⟩ := hmax ▸ .start
  have hreceived := hstart.step (@Step.receive router _ [client_id, [], payload_bytes] rfl)
  have haccepted := hreceived.step (@Step.accept router m client_id payload_bytes [])
  have hbegan := haccepted.step (@Step.run router _ 0 _ rfl rfl)
  simp only [ZmqRouter.begin_task, hread] at hbegan
  have hhandled := hbegan.step (@Step.handle router _ 0
    ⟨client_id, payload_bytes, .handling request_id msg_type⟩ request_id msg_type o rfl rfl)
  exact hhandled

def pingText (request_id : String) : String :=
  "\x7b\"schema_version\": \"1.0\", \"message_type\": \"ping\", \"request_id\": \"" ++ request_id ++
    "\"\x7d"

def pingBytes (request_id : String) : List UInt8 :=
  (pingText request_id).toList.map fun c => UInt8.ofNat c.toNat

def pingMembers (request_id : List CodePoint) : Members :=
  [(code_points "schema_version", .str (code_points "1.0")),
    (code_points "message_type", .str (code_points "ping")),
    (code_points "request_id", .str request_id)]

def loneSurrogate : List CodePoint := [⟨0xD800, by decide⟩]

/-- The codec on the texts of the samples, which are ASCII. -/
def sampleCodec : JsonCodec where
  decode bytes :=
    if bytes.all (· < 128) then .ok (String.ofList (bytes.map fun b => Char.ofNat b.toNat))
    else .error ⟨"UnicodeDecodeError", [.valueError], "invalid start byte"⟩
  loads text :=
    if text = pingText "r1" then .ok (.object (pingMembers (code_points "r1")))
    else if text = pingText "\\ud800" then .ok (.object (pingMembers loneSurrogate))
    else .error ⟨"JSONDecodeError", [.valueError], "Expecting value: line 1 column 1 (char 0)"⟩
  float_repr q := toString q

def pingRouter : ZmqRouter where
  max_concurrent_jobs := 1
  handlers := [code_points "ping"]
  codec := sampleCodec

theorem ping_routed (request_id : List CodePoint) :
    pingRouter.route (pingMembers request_id) = .routed (.str request_id)
      (.str (code_points "ping")) (pingMembers request_id) := by
  rfl

theorem ping_read {text : String} {request_id : List CodePoint}
    (hascii : (pingBytes text).all (· < 128) = true)
    (htext : String.ofList ((pingBytes text).map fun b => Char.ofNat b.toNat) = pingText text)
    (hloads : sampleCodec.loads (pingText text) = .ok (.object (pingMembers request_id))) :
    pingRouter.read_request (pingBytes text) =
      .routed (.str request_id) (.str (code_points "ping")) (pingMembers request_id) := by
  have hread : pingRouter.codec.decode (pingBytes text) >>= pingRouter.codec.loads =
      .ok (.object (pingMembers request_id)) := by
    simp only [pingRouter, sampleCodec, hascii, if_true, htext]
    exact hloads
  simp only [ZmqRouter.read_request, hread, ping_routed]

theorem ping_good : pingRouter.read_request (pingBytes "r1") = .routed (.str (code_points "r1"))
    (.str (code_points "ping")) (pingMembers (code_points "r1")) :=
  ping_read (by decide +kernel) (by decide +kernel) (by simp [sampleCodec])

theorem ping_lone : pingRouter.read_request (pingBytes "\\ud800") = .routed (.str loneSurrogate)
    (.str (code_points "ping")) (pingMembers loneSurrogate) := by
  have hne : pingText "\\ud800" ≠ pingText "r1" := by decide +kernel
  exact ping_read (by decide +kernel) (by decide +kernel) (by simp [sampleCodec, hne])

theorem ping_reply {text : String} {request_id : List CodePoint}
    (hread : pingRouter.read_request (pingBytes text) =
      .routed (.str request_id) (.str (code_points "ping")) (pingMembers request_id)) :
    (pingRouter.reply_bytes
      (success_reply (.str request_id) (.str (code_points "ping")) [])).isSome ↔ Text.Clean request_id := by
  have hbuilt : Built pingRouter (pingBytes text) [.returns []] _ := .returned hread
  rw [hbuilt.scalar_iff, ← (read_request_routed hread).1, ← (read_request_routed hread).2]
  simp [Json.Scalar, Json.Scalar_members, HandlerOutcome.Scalar]

/-- A request with a clean id is answered. -/
theorem ping_answered : ∃ log s t, Run pingRouter log s ∧ messages log = [([1], pingBytes "r1")] ∧
    s.tasks[0]? = some t ∧ Answered pingRouter log 0 t := by
  obtain ⟨bytes, hbytes⟩ := Option.isSome_iff_exists.mp
    ((ping_reply ping_good).mpr (clean_code_points "r1"))
  have hhandled : Run pingRouter _ ⟨0, none, [⟨[1], _, _⟩]⟩ :=
    handled_run rfl ping_good (.returns [])
  have hsent := hhandled.step (@Step.send pingRouter _ 0 _ _ bytes rfl rfl hbytes)
  have hdone := hsent.step (@Step.release pingRouter _ 0 _ rfl rfl)
  refine ⟨_, _, ⟨[1], pingBytes "r1", .done⟩, hdone, by simp [messages, message, accept_frames], rfl,
    ((one_reply_iff hdone).2.2.2.2.2 0 _ rfl rfl).mpr ?_⟩
  rw [← (read_request_routed ping_good).1, ← (read_request_routed ping_good).2]
  simp [Json.Scalar, outcomes, outcome, HandlerOutcome.Scalar, Json.Scalar_members]

/-- A request whose id is an escaped lone surrogate is handled, and never answered. -/
theorem lone_surrogate_unanswered : ∃ log s, Run pingRouter log s ∧ s.waiting = none ∧
    (∀ t ∈ s.tasks, t.stage = .done) ∧ messages log = [([1], pingBytes "\\ud800")] ∧
    outcomes log 0 = [.returns []] ∧ ∀ n, replies log n = [] := by
  have hbytes : pingRouter.reply_bytes
      (success_reply (.str loneSurrogate) (.str (code_points "ping")) []) = none := by
    rw [← Option.not_isSome_iff_eq_none, ping_reply ping_lone]
    decide +kernel
  have hhandled : Run pingRouter _ ⟨0, none, [⟨[1], _, _⟩]⟩ :=
    handled_run rfl ping_lone (.returns [])
  have hfailed := hhandled.step (@Step.fail pingRouter _ 0 _ _ rfl rfl hbytes)
  have hdone := hfailed.step (@Step.release pingRouter _ 0 _ rfl rfl)
  refine ⟨_, _, hdone, rfl, ?_, rfl, rfl, fun n => rfl⟩
  simp [set_stage]

end Samples

end RouterState

end Nitpicker
