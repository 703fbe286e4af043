import NitpickerDaemon.Effect.Procedure
import NitpickerDaemon.Models

/-!
The auto-fix service: a patch is applied through `git apply`, verified and, when that fails,
rolled back through `git checkout`. The commands work on a repository of files.
-/

set_option autoImplicit false

namespace Nitpicker

open Effect

/-- The content of each file that exists. -/
abbrev Tree := String → Option String

structure Repo where
  worktree : Tree
  index : Tree

/-- `subprocess.CompletedProcess` -/
structure Completed where
  returncode : Int
  stdout : String := ""
  stderr : String := ""

/-- What `apply_patch` asks of the operating system and of git. -/
inductive Command where
  | mkstemp
  | write (patch_text : String)
  | apply_check (patch_text : String)
  | apply (patch_text : String)
  | unlink
  | verify (verify_cmd : List String)
  | checkout (target_file : String)

abbrev CommandAns : Command → Type
  | .mkstemp => Except PyExc Unit
  | .write _ => Except PyExc Unit
  | .apply_check _ => Except PyExc Completed
  | .apply _ => Except PyExc Completed
  | .unlink => Except PyExc Unit
  | .verify _ => Except PyExc Completed
  | .checkout _ => Except PyExc Completed

abbrev Fixing (α : Type) := Proc PyExc Unit Command CommandAns α

structure AutoFixService where
  verify_cmd : List String := []
  auto_rollback : Bool := true

/-- `except (subprocess.TimeoutExpired, OSError)`; `FileNotFoundError` is an `OSError`. -/
def command_catches (e : PyExc) : Bool := e.isInstance .osError || e.type_name == "TimeoutExpired"

/-- `stderr.strip() or stdout.strip() or "unknown"` -/
def Completed.failure_reason (p : Completed) : String :=
  if strip p.stderr = "" then
    if strip p.stdout = "" then "unknown" else strip p.stdout
  else strip p.stderr

namespace AutoFixService

/-- The `try` of `_git_apply` once there is a temporary file. -/
def check_and_apply (patch_text : String) : Fixing (Bool × String) := do
  Proc.invoke (.write patch_text) id
  let check ← Proc.invoke (.apply_check patch_text) id
  if check.returncode ≠ 0 then pure (false, "dry-run 실패: " ++ check.failure_reason)
  else do
    let apply ← Proc.invoke (.apply patch_text) id
    if apply.returncode ≠ 0 then pure (false, "적용 실패: " ++ apply.failure_reason)
    else pure (true, "")

/-- `except (FileNotFoundError, subprocess.TimeoutExpired, OSError)` -/
def apply_failed (e : PyExc) : Fixing (Bool × String) :=
  if command_catches e then pure (false, e.message) else Proc.raise e

/-- `_git_apply`; the temporary file is removed at the end if there is one. -/
def git_apply (patch_text : String) : Fixing (Bool × String) := do
  let failed ← Proc.attempt (do
    Proc.invoke .mkstemp id
    pure none) fun e => do
      let result ← apply_failed e
      pure (some result)
  match failed with
  | some result => pure result
  | none =>
    Proc.ensure (Proc.attempt (check_and_apply patch_text) apply_failed)
      (Proc.invoke .unlink id)

/-- `_run_verify` -/
def run_verify (svc : AutoFixService) : Fixing Bool :=
  if svc.verify_cmd = [] then pure true
  else Proc.attempt (do
    let result ← Proc.invoke (.verify svc.verify_cmd) id
    pure (result.returncode == 0)) fun e =>
      if command_catches e then pure false else Proc.raise e

/-- `_rollback`; what git answers is not looked at. -/
def rollback (target_file : String) : Fixing Unit :=
  Proc.attempt (do
    let _ ← Proc.invoke (.checkout target_file) id
    pure ()) fun e => if command_catches e then pure () else Proc.raise e

/-- `apply_patch` for a patch that is text. -/
def apply_text (svc : AutoFixService) (patch_text target_file : String) :
    Fixing AutoFixResult :=
  if strip patch_text = "" then pure { reason := "빈 패치" }
  else do
    let (ok, reason) ← git_apply patch_text
    if !ok then pure { reason := reason, patch_text := patch_text }
    else if svc.verify_cmd = [] then
      pure { applied := true, reason := "패치 적용 성공 (재검증 미설정)", patch_text := patch_text }
    else do
      let verify_ok ← svc.run_verify
      if verify_ok then
        pure { applied := true, reason := "패치 적용 + 재검증 통과", patch_text := patch_text
               verify_passed := some true }
      else if svc.auto_rollback && target_file != "" then do
        rollback target_file
        pure { rolled_back := true, reason := "재검증 실패 → 롤백 완료", patch_text := patch_text
               verify_passed := some false }
      else
        pure { applied := true, reason := "재검증 실패 (롤백 미설정)", patch_text := patch_text
               verify_passed := some false }

/-- `not patch_text or not patch_text.strip()`, then the patch itself. -/
def apply_patch (svc : AutoFixService) (patch_text : PyVal) (target_file : String) :
    Fixing AutoFixResult :=
  match patch_text with
  | .str text => svc.apply_text text target_file
  | value => if value.truthy then Proc.raise (attributeError value "strip")
    else pure { reason := "빈 패치" }

end AutoFixService

/-- The repository under the commands; `patched` is the tree that git makes of a patch and a
tree. `git apply` and `git checkout` take effect as a whole or not at all, also when they are
stopped by their timeout; the verification may do anything to the files. -/
def Repo.step (patched : String → Tree → Option Tree) : Surroundings Repo Command CommandAns :=
  fun s c a s' =>
  match c, a with
  | .apply patch_text, .ok p =>
    if p.returncode = 0 then
      ∃ tree, patched patch_text s.worktree = some tree ∧ s' = { s with worktree := tree }
    else s' = s
  | .apply patch_text, .error _ =>
    s' = s ∨ ∃ tree, patched patch_text s.worktree = some tree ∧ s' = { s with worktree := tree }
  | .verify _, _ => True
  | .checkout f, .ok p =>
    if p.returncode = 0 then
      ∃ content, s.index f = some content ∧
        s' = { s with worktree := Function.update s.worktree f (some content) }
    else s' = s
  | .checkout f, .error _ =>
    s' = s ∨ ∃ content, s.index f = some content ∧
      s' = { s with worktree := Function.update s.worktree f (some content) }
  | _, _ => s' = s

end Nitpicker
