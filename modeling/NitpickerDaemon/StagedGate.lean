import NitpickerDaemon.GreenLight
import NitpickerDaemon.JemminCli
import NitpickerDaemon.SilentPass

/-!
The two staged gates: which staged changes stand behind an exit status of 0.
-/

set_option autoImplicit false

namespace Nitpicker

open Effect

namespace JemminCli

section StagedRun

variable {S : Type} {py : Python} {provider_name : String} {model : Option String} {git : Git}

abbrev CliTrace (S : Type) := List (Event S CliOp CliAns)

/-- Every answer of git in `t` follows the index. -/
def Follows (git : Git) (t : CliTrace S) : Prop :=
  ∀ args a, Asked t (.git args) a → git.Answers args a

theorem Follows.left {t u : CliTrace S} (h : Follows git (t ++ u)) : Follows git t :=
  fun args a ha => h args a (ha.append_left u)

theorem Follows.right {t u : CliTrace S} (h : Follows git (t ++ u)) : Follows git u :=
  fun args a ha => h args a (ha.append_right t)

/-- A direct run for `diff` of `f` returned a pass. -/
def Passed (t : CliTrace S) (f diff : String) : Prop :=
  ∃ label result, Asked t (.run_once f diff label) (.ok result) ∧
    result.result_code = .str "REVIEW_PASSED"

theorem Passed.append_left {t : CliTrace S} {f diff : String} (h : Passed t f diff)
    (u : CliTrace S) : Passed (t ++ u) f diff := by
  obtain ⟨label, result, hasked, hcode⟩ := h
  exact ⟨label, result, hasked.append_left u, hcode⟩

theorem Passed.append_right {t : CliTrace S} {f diff : String} (h : Passed t f diff)
    (u : CliTrace S) : Passed (u ++ t) f diff := by
  obtain ⟨label, result, hasked, hcode⟩ := h
  exact ⟨label, result, hasked.append_right u, hcode⟩

/-- The only file a question gives to a run of the orchestrator. -/
def OnlyRuns (files : List String) (o : CliOp) : Prop :=
  ∀ f diff label, o = .run_once f diff label → f ∈ files

theorem not_run {t : CliTrace S} (h : ∀ ev ∈ t, OnlyRuns [] ev.op) {f diff label : String}
    {a : Except PyExc ReviewResult} : ¬Asked t (.run_once f diff label) a := by
  intro hasked
  obtain ⟨s, s', hev⟩ := hasked
  have hmem := h _ hev f diff label rfl
  cases hmem

/-- What a run over `files` says: only listed files whose diff can be read are reviewed, and
with exit code 0 each of them with a diff was reviewed and passed. -/
structure StagedRun (git : Git) (files : List String) (exit_code : Nat) (t : CliTrace S) :
    Prop where
  given : ∀ f diff label a, Asked t (.run_once f diff label) a → f ∈ files ∧ ¬git.fails f
  passed : exit_code = 0 → ∀ f ∈ files, ¬git.fails f → strip (git.index.diff_of f) ≠ "" →
    Passed t f (strip (git.index.diff_of f))

theorem StagedRun.cons {f : String} {files : List String} {exit_code : Nat} {t u : CliTrace S}
    (h : StagedRun git files exit_code u) (hgiven : ∀ f' diff label a,
      Asked t (.run_once f' diff label) a → f' = f ∧ ¬git.fails f)
    (hpassed : exit_code = 0 → ¬git.fails f → strip (git.index.diff_of f) ≠ "" →
      Passed t f (strip (git.index.diff_of f))) :
    StagedRun git (f :: files) exit_code (t ++ u) := by
  constructor
  · intro f' diff label a hasked
    obtain ⟨s, s', hev⟩ := hasked
    rcases List.mem_append.mp hev with hev | hev
    · obtain ⟨rfl, hfails⟩ := hgiven f' diff label a ⟨s, s', hev⟩
      exact ⟨List.mem_cons_self, hfails⟩
    · obtain ⟨hmem, hfails⟩ := h.given f' diff label a ⟨s, s', hev⟩
      exact ⟨List.mem_cons_of_mem _ hmem, hfails⟩
  · intro hzero f' hmem hfails hne
    rcases List.mem_cons.mp hmem with rfl | hmem
    · exact (hpassed hzero hfails hne).append_left u
    · exact (h.passed hzero f' hmem hfails hne).append_right t

/-- The staged change `e` was given to a review that ended with `REVIEW_PASSED`. -/
def Reviewed (t : CliTrace S) (e : IndexEntry) : Prop :=
  ∃ path, GitIndex.Spells path e.name ∧ Passed t path (strip e.diff)

theorem StagedRun.frame {files : List String} {exit_code : Nat} {t u v : CliTrace S}
    (h : StagedRun git files exit_code u) (ht : ∀ ev ∈ t, OnlyRuns [] ev.op)
    (hv : ∀ ev ∈ v, OnlyRuns [] ev.op) : StagedRun git files exit_code (t ++ u ++ v) := by
  constructor
  · intro f diff label a hasked
    obtain ⟨s, s', hev⟩ := hasked
    simp only [List.mem_append] at hev
    rcases hev with (hev | hev) | hev
    · exact absurd ⟨s, s', hev⟩ (not_run ht)
    · exact h.given f diff label a ⟨s, s', hev⟩
    · exact absurd ⟨s, s', hev⟩ (not_run hv)
  · intro hzero f hmem hfails hne
    exact ((h.passed hzero f hmem hfails hne).append_right t).append_left v

end StagedRun

end JemminCli

namespace MiniReviewer

section StagedRun

variable {S : Type} {py : Python} {has_genai : Bool} {settings : MiniReviewerSettings} {g : Git}

/-- Every answer of git in `t` follows the index. -/
def Follows (g : Git) (t : MiniTrace S) : Prop :=
  ∀ args a, Asked t (.git args) a → g.Answers args a

section Questions

variable {α : Type} {targets : List String}

end Questions

/-- The staged change `e` was given to a review that ended with `REVIEW_PASSED`. -/
def Reviewed (py : Python) (has_genai : Bool) (settings : MiniReviewerSettings) (t : MiniTrace S)
    (e : IndexEntry) : Prop :=
  ∃ path payload, GitIndex.Spells path e.name ∧
    Proc.Ran (generate_review py has_genai path true settings) (some payload) t ∧ Passes payload

end StagedRun

end MiniReviewer

/-- Git over an index whose commands never fail. -/
def git_answer (ix : GitIndex) (args : List String) : Except PyExc String :=
  if args = MiniReviewer.staged_names then .ok ix.listing
  else .ok (ix.diff_of (args.getLast?.getD ""))

/-- An index with one added file. -/
def one_added (name : List UInt8) (named : name ≠ []) : GitIndex where
  entries := [⟨name, .added, "diff --git\n+x", named, by decide⟩]
  distinct := by simp

def passed_result : ReviewResult where
  request_id := "req_1"
  state := .DELIVERED
  status := .pass
  summary := .str "ok"
  confidence_score := 1
  result_code := .str "REVIEW_PASSED"
  reviewer := .str ""

/-- The command line with this index, where every review passes. -/
def staged_cli (ix : GitIndex) : (o : CliOp) → CliAns o
  | .git args => git_answer ix args
  | .unlink_spool => .ok ()
  | .make_runtime_dirs => .ok ()
  | .ollama_available _ => .ok ("", false)
  | .gemini_available => .ok ("", false)
  | .open_services => .ok ()
  | .run_once _ _ _ => .ok passed_result
  | .close_analytics => .ok ()
  | .read_latest => .ok none
  | .print _ => ()

/-- A run of the command line with fixed answers. -/
def cli_play {α : Type} (m : Cli α) (answers : (o : CliOp) → CliAns o) (n : Nat) :
    JemminCli.CliTrace Unit × Unit × Prog CliOp CliAns (Except PyExc α × Unit) :=
  (m ()).run_for (fun s o => (answers o, s)) n ()

theorem cli_play_steps {α : Type} (m : Cli α) (answers : (o : CliOp) → CliAns o) (n : Nat) :
    Steps (fun _ o a _ => a = answers o) () (m ()) (cli_play m answers n).1 ()
      (cli_play m answers n).2.2 :=
  Prog.run_for_steps (fun _ _ => rfl) n (m ()) ()

/-- `a.py` -/
def ascii_index : GitIndex := one_added [97, 46, 112, 121] (by decide)

end Nitpicker
