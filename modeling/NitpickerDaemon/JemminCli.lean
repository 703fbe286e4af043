import NitpickerDaemon.Controller
import NitpickerDaemon.GitIndex

/-!
The `jemmin_cli` command: a direct review of one file, and the review of all staged files.
-/

set_option autoImplicit false

namespace Nitpicker

open Effect

/-- What the command line asks: git, the run-time files, the providers, a run of the
orchestrator, and its output, standard error included. -/
inductive CliOp where
  | git (args : List String)
  | unlink_spool
  | make_runtime_dirs
  | ollama_available (model : Option String)
  | gemini_available
  | open_services
  | run_once (file_path diff_text reviewer_label : String)
  | close_analytics
  | read_latest
  | print (text : String)

/-- The answers. A provider gives the name of its model, and whether it is available; the
latest review may have no file. -/
abbrev CliAns : CliOp → Type
  | .git _ => Except PyExc String
  | .unlink_spool => Except PyExc Unit
  | .make_runtime_dirs => Except PyExc Unit
  | .ollama_available _ => Except PyExc (String × Bool)
  | .gemini_available => Except PyExc (String × Bool)
  | .open_services => Except PyExc Unit
  | .run_once _ _ _ => Except PyExc ReviewResult
  | .close_analytics => Except PyExc Unit
  | .read_latest => Except PyExc (Option String)
  | .print _ => Unit

abbrev Cli (α : Type) := Proc PyExc Unit CliOp CliAns α

namespace JemminCli

def print (text : String) : Cli Unit := Proc.invoke (.print (text ++ "\n")) .ok

def mock_label : String := "MockLocalLLMProvider/unknown"

/-- `_select_provider`: the label of the provider. -/
def select_provider (name : String) (model : Option String) : Cli String :=
  if name = "ollama" then do
    let (model, available) ← Proc.invoke (.ollama_available model) id
    if available then do
      print ("[jemmin_cli] Ollama provider active (model=" ++ model ++ ")")
      pure ("OllamaProvider/" ++ model)
    else do
      print "[jemmin_cli] Ollama not available, falling back to mock"
      pure mock_label
  else if name = "gemini" then do
    let (model, available) ← Proc.invoke .gemini_available id
    if available then do
      print ("[jemmin_cli] Gemini provider active (model=" ++ model ++ ")")
      pure ("GeminiProvider/" ++ model)
    else do
      print "[jemmin_cli] Gemini not available (no API key?), falling back to mock"
      pure mock_label
  else pure mock_label

/-- `print(result.state.value, result.status, result.summary)` -/
def result_line (py : Python) (result : ReviewResult) : String :=
  result.state.value ++ " " ++ result.status.value ++ " " ++ py.str result.summary

/-- The token `_emit_result_code` prints. -/
def result_code_token (py : Python) (result_code : PyVal) : String :=
  "JEMMIN_RESULT_CODE=" ++ py.str (result_code.or (.str "UNKNOWN"))

def run_direct (py : Python) (file_path diff_text provider_name : String)
    (model : Option String) : Cli Nat := do
  Proc.invoke .make_runtime_dirs id
  let reviewer_label ← select_provider provider_name model
  Proc.invoke .open_services id
  Proc.ensure
    (do
      let result ← Proc.invoke (.run_once file_path diff_text reviewer_label) id
      print (result_line py result)
      print (result_code_token py result.result_code)
      pure (exit_code_from_result_code result.result_code))
    (Proc.invoke .close_analytics id)

end JemminCli

end Nitpicker
