import NitpickerDaemon.Models

/-!
The trigger adapters: how events from the command line, the daemon, the language server
and the git hook become review requests. `sha256` is `hashlib.sha256(...).hexdigest()`.
-/

set_option autoImplicit false

namespace Nitpicker

/-- The members of a payload the adapters read; a member is a string or null. -/
abbrev Payload := List (String × Option String)

/-- `payload.get(key, default)` -/
def Payload.getD (payload : Payload) (key default : String) : Option String :=
  match payload.lookup key with
  | some v => v
  | none => some default

/-- `payload.get(key)` -/
def Payload.get (payload : Payload) (key : String) : Option String :=
  match payload.lookup key with
  | some v => v
  | none => none

/-- `v or default` -/
def orDefault (v : Option String) (default : String) : String :=
  match v with
  | some s => if s = "" then default else s
  | none => default

structure TriggerEvent where
  source : String
  payload : Payload
  metadata : PyDict := []

/-- `digest[:n]` -/
def hexPrefix (digest : String) (n : Nat) : String := String.ofList (digest.toList.take n)

section Adapters

variable (sha256 : ByteArray → String)

/-- `_digest` -/
def digest (target_file diff_text : String) : String := sha256 (target_file ++ diff_text).toUTF8

/-- `_build_common`; concatenating with a null raises before the digest is taken. -/
def build_common (target_file diff_text trigger trigger_intent : Option String)
    (request_id project_id project_profile git_revision : Option String) (metadata : PyDict) :
    Except PyExc ReviewRequest :=
  match target_file, diff_text with
  | some target_file, some diff_text =>
    let d := digest sha256 target_file diff_text
    .ok {
      request_id := orDefault request_id ("req_" ++ hexPrefix d 12)
      idempotency_key := "idemp_" ++ hexPrefix d 16
      project_id := orDefault project_id "auto_research_review"
      project_profile := orDefault project_profile "general"
      trigger := trigger
      trigger_intent := trigger_intent
      target_file := target_file
      git_revision := git_revision
      base_file_hash := d
      diff_text := diff_text
      metadata := metadata }
  | some _, none => .error (typeError "can only concatenate str (not \"NoneType\") to str")
  | none, some _ =>
    .error (typeError "unsupported operand type(s) for +: 'NoneType' and 'str'")
  | none, none =>
    .error (typeError "unsupported operand type(s) for +: 'NoneType' and 'NoneType'")

inductive Adapter where
  | cli | daemon | lsp | git_hook
  deriving DecidableEq, Repr

def Adapter.supports (adapter : Adapter) (event : TriggerEvent) : Bool :=
  match adapter with
  | .cli => event.source == "cli"
  | .daemon => event.source == "daemon" || event.source == "zmq"
  | .lsp => event.source == "lsp"
  | .git_hook => event.source == "git_hook"

def Adapter.build_request (adapter : Adapter) (event : TriggerEvent) :
    Except PyExc ReviewRequest :=
  let p := event.payload
  match adapter with
  | .cli => build_common sha256 (p.getD "target_file" "") (p.getD "diff_text" "") (some "cli")
      (p.getD "trigger_intent" "active_intent") none (p.get "project_id")
      (p.get "project_profile") (p.getD "git_revision" "workspace") event.metadata
  | .daemon => build_common sha256 (p.getD "target_file" "") (p.getD "diff_text" "")
      (p.getD "trigger" "cli") (p.getD "trigger_intent" "active_intent") (p.get "request_id")
      (p.get "project_id") (p.get "project_profile") (p.getD "git_revision" "workspace")
      event.metadata
  | .lsp => build_common sha256 (p.getD "target_file" "") (p.getD "diff_text" "") (some "lsp")
      (some "passive_save") none none none (p.getD "git_revision" "workspace") event.metadata
  | .git_hook => build_common sha256 (p.getD "target_file" "") (p.getD "diff_text" "")
      (some "git_hook") (some "active_intent") none none none (p.getD "git_revision" "HEAD")
      event.metadata

/-- `ReviewRequestFactory.build_request` -/
def dispatch (adapters : List Adapter) (event : TriggerEvent) : Except PyExc ReviewRequest :=
  match adapters.find? (·.supports event) with
  | some adapter => adapter.build_request sha256 event
  | none => .error (valueError ("no trigger adapter registered for source='" ++ event.source ++ "'"))

variable {sha256 : ByteArray → String}

theorem build_common_key {target_file diff_text trigger trigger_intent request_id project_id
    project_profile git_revision : Option String} {metadata : PyDict} {request : ReviewRequest}
    (h : build_common sha256 target_file diff_text trigger trigger_intent request_id project_id
      project_profile git_revision metadata = .ok request) :
    request.idempotency_key =
      "idemp_" ++ hexPrefix (digest sha256 request.target_file request.diff_text) 16 := by
  unfold build_common at h
  split at h
  · cases h
    rfl
  · cases h
  · cases h
  · cases h

/-- Whatever the channel, the key is taken from the file name and the diff alone. -/
theorem Adapter.build_request_key {adapter : Adapter} {event : TriggerEvent}
    {request : ReviewRequest} (h : adapter.build_request sha256 event = .ok request) :
    request.idempotency_key =
      "idemp_" ++ hexPrefix (digest sha256 request.target_file request.diff_text) 16 := by
  cases adapter <;> exact build_common_key h

end Adapters

end Nitpicker
