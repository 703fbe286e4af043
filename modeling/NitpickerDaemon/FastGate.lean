import NitpickerDaemon.AddedLines
import NitpickerDaemon.Text.Search
import NitpickerDaemon.LspServer
import NitpickerDaemon.Models
import NitpickerDaemon.WatchDaemon

/-!
The fast gate: ruff and mypy on the changed file, and what it decides on their findings.
-/

set_option autoImplicit false

namespace Nitpicker

open Traverse

open Text (Regex)

/-- What comes of running a tool. -/
inductive ToolRun where
  | timeout
  | not_found
  | raised (e : PyExc)
  | wrote (stdout : String)

/-- The files and the two tools; the argument of a tool is the path. -/
structure StaticTools where
  exists_file : String → Bool
  ruff : String → ToolRun
  mypy : String → ToolRun

namespace FastGateAgent

/-- A finding of a tool. -/
structure ToolFinding where
  code : PyVal
  line_number : PyVal
  message : PyVal
  severity : PyVal

def ruff_timeout : ToolFinding :=
  ⟨.str "GATE_TIMEOUT", .none, .str "ruff timed out after 5s", .str "warning"⟩

def mypy_timeout : ToolFinding :=
  ⟨.str "GATE_TIMEOUT", .none, .str "mypy timed out after 10s", .str "warn"⟩

def ruff_finding (item : PyVal) : Except PyExc ToolFinding := do
  let code ← item.call_get "code" (.str "RUFF")
  let location ← item.call_get "location" (.dict [])
  let line_number ← location.call_get "row" .none
  let message ← item.call_get "message" (.str "")
  let severity ← item.call_get "severity" (.str "error")
  return ⟨code, line_number, message, severity⟩

def read_ruff (py : Python) : ToolRun → Except PyExc (List ToolFinding)
  | .timeout => .ok [ruff_timeout]
  | .not_found => .ok []
  | .raised e => .error e
  | .wrote stdout =>
    if (strip stdout).isEmpty then .ok []
    else match py.loads stdout with
      | .error e => if e.is_json_decode_error then .ok [] else .error e
      | .ok items => do (← items.iter).mapM ruff_finding

def mypy_finding (item : PyVal) : Except PyExc (Option ToolFinding) := do
  let severity ← item.call_get "severity" .none
  if severity.isStr "note" then return none
  let line_number ← item.call_get "line" .none
  let message ← item.call_get "message" (.str "")
  return some ⟨.str "MYPY", line_number, message, .str "warn"⟩

/-- One turn of the loop over the lines of mypy. -/
def mypy_line (py : Python) (raw_line : String) : Except PyExc (Option ToolFinding) :=
  if (strip raw_line).isEmpty then .ok none
  else match py.loads (strip raw_line) with
    | .error e => if e.is_json_decode_error then .ok none else .error e
    | .ok item => mypy_finding item

def read_mypy (py : Python) : ToolRun → Except PyExc (List ToolFinding)
  | .timeout => .ok [mypy_timeout]
  | .not_found => .ok []
  | .raised e => .error e
  | .wrote stdout => do
    let findings ← (splitlines stdout).mapM (mypy_line py)
    return findings.reduceOption

/-- The tools look only at Python files on the disk. -/
def checks (tools : StaticTools) (file_path : String) : Bool :=
  tools.exists_file file_path && path_suffix file_path == ".py".toList

def run_ruff (py : Python) (tools : StaticTools) (file_path : String) :
    Except PyExc (List ToolFinding) :=
  if checks tools file_path then read_ruff py (tools.ruff file_path) else .ok []

def run_mypy (py : Python) (tools : StaticTools) (file_path : String) :
    Except PyExc (List ToolFinding) :=
  if checks tools file_path then read_mypy py (tools.mypy file_path) else .ok []

/-- `_fmt` -/
def fmt (py : Python) (f : ToolFinding) : PyDict :=
  let loc := if f.line_number.truthy then "line " ++ py.str f.line_number ++ ": " else ""
  [("code", f.code), ("message", .str (py.str f.code ++ " " ++ loc ++ py.str f.message))]

/-- `f.get("severity", "error") == "error"` -/
def ToolFinding.is_error (f : ToolFinding) : Bool := f.severity.isStr "error"

/-- The decision on the findings of both tools. -/
def decide (py : Python) (ruff_findings mypy_findings : List ToolFinding) : AgentDecision :=
  let ruff_errors := ruff_findings.filter ToolFinding.is_error
  let ruff_warns := ruff_findings.filter (!·.is_error)
  let all_findings := (ruff_errors ++ ruff_warns ++ mypy_findings).map (fmt py)
  if ruff_errors ≠ [] then
    { agent_name := "fast_gate"
      status := .reject
      confidence_score := 95 / 100
      findings := all_findings
      suggested_actions := ["fix ruff errors before merging"] }
  else if mypy_findings ≠ [] ∨ ruff_warns ≠ [] then
    { agent_name := "fast_gate"
      status := .warn
      confidence_score := if mypy_findings ≠ [] then 85 / 100 else 80 / 100
      findings := all_findings
      suggested_actions := ["address mypy / ruff warnings"] }
  else
    { agent_name := "fast_gate"
      status := .pass
      confidence_score := 9 / 10
      findings := []
      suggested_actions := [] }

/-- `^\+\+\+ b/(.+)$` -/
def ADDED_FILE_RE : Regex Char :=
  .seq bol (.seq (literal "+++ b/") (.seq (.group 1 (.run true 1 none dot)) eol))

/-- `_extract_added_file_path` -/
def extract_added_file_path (diff_text : String) : Option String :=
  (ADDED_FILE_RE.search [] diff_text.toList).map fun m => String.ofList (m.group 1)

/-- The file the tools are run on. -/
def file_path (request : ReviewRequest) : String :=
  if request.target_file = "" then (extract_added_file_path request.diff_text).getD ""
  else request.target_file

def run (py : Python) (tools : StaticTools) (request : ReviewRequest) :
    Except PyExc AgentDecision := do
  let ruff_findings ← run_ruff py tools (file_path request)
  let mypy_findings ← run_mypy py tools (file_path request)
  return decide py ruff_findings mypy_findings

end FastGateAgent

end Nitpicker
