import NitpickerDaemon.AddedLines
import NitpickerDaemon.AutoFix
import NitpickerDaemon.ControllerRun
import NitpickerDaemon.Effect.Monitor

/-!
The patch service and the verification service on a tree of files, and what a verified patch of a
run says about the patched tree.
-/

set_option autoImplicit false

namespace Nitpicker

open Effect
open Text (Regex)

/-- What git and pytest make of the files under test. `git apply --check` exits with 0 exactly
if the patch can be applied. -/
structure Workbench where
  apply : String → Tree → Option Tree
  check : String → Tree → Except PyExc Completed
  pytest : List String → Tree → Except PyExc Completed
  check_apply : ∀ diff tree c, check diff tree = .ok c →
    (c.returncode = 0 ↔ (apply diff tree).isSome = true)

/-- The tests pass on the tree. -/
def Workbench.passes (w : Workbench) (cmd : List String) (tree : Tree) : Bool :=
  match w.pytest cmd tree with
  | .ok result => result.returncode == 0
  | .error _ => false

def is_timeout_expired (e : PyExc) : Bool := e.type_name == "TimeoutExpired"

/-- The exceptions after which `git apply --check` is skipped: no git, or no time. -/
def skips_check (e : PyExc) : Bool := e.type_name == "FileNotFoundError" || is_timeout_expired e

/-- What the two services ask of the operating system. Patches are saved outside the files under
test. -/
inductive PatchOp where
  | apply_check (diff_text : String)
  | mkdir
  | write_text (patch_file diff_text : String)
  | pytest (cmd : List String)

abbrev PatchAns : PatchOp → Type
  | .apply_check _ => Except PyExc Completed
  | .mkdir => Except PyExc Unit
  | .write_text _ _ => Except PyExc Unit
  | .pytest _ => Except PyExc Completed

abbrev Patching (α : Type) := Proc PyExc Unit PatchOp PatchAns α

/-- None of the answers changes the tree. -/
def Workbench.step (w : Workbench) : Surroundings Tree PatchOp PatchAns := fun tree o a tree' =>
  tree' = tree ∧ match o, a with
    | .apply_check diff_text, a => a = w.check diff_text tree
    | .pytest cmd, a => a = w.pytest cmd tree
    | _, _ => True

structure PatchService where
  patches_dir : Option String := none
  project_root : Option String := none
  sha256 : String → String

namespace PatchService

/-- The `re.search` of a fenced diff, without regard to case. -/
def DIFF_BLOCK_RE : Regex Char :=
  .seq (word_any_case "```diff") (.seq (.run true 0 none isspace)
    (.seq (.group 1 (.run false 0 none fun _ => true)) (literal "```")))

def extract_diff_from_text (text : String) : Option String :=
  match (DIFF_BLOCK_RE.finditer 0 [] text.toList).head? with
  | some m => some (strip (String.ofList (m.group 1)))
  | none =>
    let stripped := strip text
    if startswith "---" stripped || startswith "+++" stripped || startswith "@@" stripped then
      some stripped
    else none

/-- `_git_apply_check`: whether the patch may be proposed. Without a project root, without git and
after a timeout it may. -/
def git_apply_check (svc : PatchService) (diff_text : String) : Patching Bool :=
  match svc.project_root with
  | none => pure true
  | some _ => Proc.attempt (do
      let result ← Proc.invoke (.apply_check diff_text) id
      pure (result.returncode == 0)) fun e =>
        if skips_check e then pure true else Proc.raise e

/-- The patch is written to its file if there is a directory for it. -/
def save (svc : PatchService) (patch_hash diff_text : String) : Patching (Option String) :=
  match svc.patches_dir with
  | none => pure none
  | some patches_dir => do
    let patch_file := patches_dir ++ "/" ++ patch_hash ++ ".patch"
    Proc.invoke .mkdir id
    Proc.invoke (.write_text patch_file diff_text) id
    pure (some patch_file)

/-- The part of `create_patch` after the check. -/
def propose (svc : PatchService) (request : ReviewRequest) (diff_text : String) :
    Patching (Option PatchProposal) := do
  let patch_hash := String.ofList ((svc.sha256 diff_text).toList.take 16)
  let saved_path ← svc.save patch_hash diff_text
  pure (some {
    patch_hash := patch_hash
    unified_diff := diff_text
    source_file := request.target_file
    saved_path := saved_path })

def create_patch (svc : PatchService) (request : ReviewRequest) (consensus : ConsensusResult) :
    Patching (Option PatchProposal) :=
  match consensus.summary with
  | .str text =>
    match extract_diff_from_text text with
    | none => pure none
    | some diff_text =>
      if diff_text = "" then pure none
      else do
        if ← svc.git_apply_check diff_text then svc.propose request diff_text else pure none
  | _ => Proc.raise (typeError "expected string or bytes-like object")

end PatchService

structure VerificationService where
  executable : String
  pytest_args : List String := ["--tb=short", "-q"]

namespace VerificationService

def cmd (svc : VerificationService) (extra_args : List String) : List String :=
  [svc.executable, "-m", "pytest"] ++ svc.pytest_args ++ extra_args

/-- `s[-n:]` -/
def last (n : Nat) (s : String) : String := String.ofList (s.toList.drop (s.toList.length - n))

def verify_patch (svc : VerificationService) (_request : ReviewRequest) (patch : PatchProposal)
    (extra_args : List String) : Patching VerificationReport :=
  Proc.attempt (do
    let result ← Proc.invoke (.pytest (svc.cmd extra_args)) id
    pure {
      passed := result.returncode == 0
      returncode := result.returncode
      stdout := last 4000 result.stdout
      stderr := last 1000 result.stderr
      patch_hash := patch.patch_hash }) fun e =>
    if is_timeout_expired e then pure {
      passed := false
      returncode := -1
      stdout := ""
      stderr := "pytest 실행 시간 초과"
      patch_hash := patch.patch_hash }
    else Proc.raise e

end VerificationService

section Services

variable {w : Workbench} {tree tree' : Tree} {request : ReviewRequest}
  {calls : List (Event Tree PatchOp PatchAns)}

end Services

/-- The value begins as the summary of a verified patch does. -/
def labelled : PyVal → Bool
  | .str s => startswith "[PATCH VERIFIED]" s
  | _ => false

/-- What a run has heard of patches, and of labels that come from elsewhere. -/
inductive PatchMark where
  | proposed (patch : PatchProposal)
  | verified (patch : PatchProposal)
  | label

/-- A proposed patch was verified, unless a label came from elsewhere. -/
def Backed (y : List PatchMark) : Prop :=
  PatchMark.label ∈ y ∨ ∃ patch, PatchMark.proposed patch ∈ y ∧ PatchMark.verified patch ∈ y

theorem Backed.mono {x y : List PatchMark} (h : Backed x) (hxy : x <+: y) : Backed y := by
  rcases h with h | ⟨patch, hproposed, hverified⟩
  · exact .inl (hxy.subset h)
  · exact .inr ⟨patch, hxy.subset hproposed, hxy.subset hverified⟩

namespace Orchestrator

/-- What the verdict says of a verified patch is backed. -/
structure Sound (v : Verdict) (y : List PatchMark) : Prop where
  summary : labelled v.summary = true → Backed y
  consensus : labelled v.consensus.summary = true → Backed y

theorem Sound.mono {v : Verdict} {x y : List PatchMark} (h : Sound v x) (hxy : x <+: y) :
    Sound v y :=
  ⟨fun hl => (h.summary hl).mono hxy, fun hl => (h.consensus hl).mono hxy⟩

section Backs

variable {α : Type} {orc : Orchestrator} {request : ReviewRequest} {context : ContextBundle}
  {x : List PatchMark}

end Backs

end Orchestrator

section Marks

variable {t : Trace} {patch : PatchProposal}

end Marks

/-- The patches of a run come from the service, which works on the tree. -/
def PatchService.Serves (svc : PatchService) (w : Workbench) (tree : Tree) (t : Trace) : Prop :=
  ∀ request consensus a, Answered t (.create_patch request consensus) a →
    ∃ calls, Steps w.step tree (svc.create_patch request consensus ()) calls tree (.ret (a, ()))

def VerificationService.Serves (svc : VerificationService) (w : Workbench) (tree : Tree)
    (t : Trace) : Prop :=
  ∀ request patch a, Answered t (.verify_patch request patch) a →
    ∃ calls, Steps w.step tree (svc.verify_patch request patch [] ()) calls tree (.ret (a, ()))

end Nitpicker
