import NitpickerDaemon.MiniReviewer

/-!
No silent pass in the mini reviewer: its verdict is the one in the streamed answer, and its
command exits with 0 only when every changed target passed.
-/

set_option autoImplicit false

namespace Nitpicker

open Effect

namespace OllamaProvider

/-- The JSON object on a line of the stream, if it holds one. -/
def chunk (py : Python) (r : StreamRead) : Option PyDict :=
  match r.line with
  | .error _ => none
  | .ok line =>
    match String.fromUTF8? line with
    | none => none
    | some text =>
      match py.loads text with
      | .ok (.dict chunk) => some chunk
      | _ => none

/-- The token of a JSON object of the stream, if it is kept. -/
def kept_token (chunk : PyDict) : List PyVal :=
  [PyDict.getD chunk "response" (.str "")].filter (·.truthy)

/-- What one turn of the read loop did, when the loop returned. -/
inductive Turn (py : Python) (p : OllamaProvider) (deadline : Rat) (r : StreamRead)
    (reads : List StreamRead) (before tokens : List PyVal) : Prop where
  | ended : tokens = before → Turn py p deadline r reads before tokens
  | skipped : chunk py r = none → p.read_tokens py deadline reads before = .ok tokens →
      Turn py p deadline r reads before tokens
  | done (d : PyDict) : chunk py r = some d → tokens = before ++ kept_token d →
      Turn py p deadline r reads before tokens
  | kept (d : PyDict) : chunk py r = some d →
      p.read_tokens py deadline reads (before ++ kept_token d) = .ok tokens →
      Turn py p deadline r reads before tokens

end OllamaProvider

namespace MiniReviewer

section Verdicts

variable {S : Type} {py : Python} {has_genai staged : Bool} {settings : MiniReviewerSettings}
  {path : String}

abbrev MiniTrace (S : Type) := List (Event S MiniOp MiniAns)

/-- The rest of a review of a diff that is not empty. -/
theorem generate_review_diffed {s s' : S} {out : String} {t : MiniTrace S}
    {r : Except PyExc (Option PyDict)}
    (hp : Path (generate_review py has_genai path staged settings ())
      (⟨s, .git (diff_args path staged), .ok out, s'⟩ :: t) (.ret (r, ())))
    (hdiff : strip out ≠ "") :
    Path ((if settings.provider = "ollama" then
      some <$> generate_review_ollama py path (strip out) settings
    else some <$> generate_review_gemini py has_genai path (strip out) settings) ()) t
      (.ret (r, ())) := by
  unfold generate_review at hp
  cases hskip : settings.skip with
  | true =>
    rw [hskip, if_pos rfl] at hp
    obtain ⟨hnil, -⟩ := hp.ret_inv
    cases hnil
  | false =>
    simp only [hskip, Bool.false_eq_true, if_false] at hp
    cases hp with
    | call hk =>
      have hrest : Path ((if strip out = "" then pure none
        else if settings.provider = "ollama" then
          some <$> generate_review_ollama py path (strip out) settings
        else some <$> generate_review_gemini py has_genai path (strip out) settings :
          MiniReview (Option PyDict)) ()) t (.ret (r, ())) := hk
      rwa [if_neg hdiff] at hrest

/-- The verdict on `payload` is a pass. -/
def Passes (payload : PyDict) : Prop := PyDict.get payload "result_code" = .str "REVIEW_PASSED"

/-- A part of `t` is a whole review of `path`, which found no diff or passed it. -/
def Cleared (py : Python) (has_genai staged : Bool) (settings : MiniReviewerSettings)
    (path : String) (t : MiniTrace S) : Prop :=
  ∃ t₁ t' t₂ verdict diff, t = t₁ ++ t' ++ t₂ ∧
    Path (generate_review py has_genai path staged settings ()) t' (.ret (.ok verdict, ())) ∧
    Proc.Ran (diff_for path staged) diff t' ∧
    (diff ≠ "" → ∃ payload, verdict = some payload ∧ Passes payload)

theorem Cleared.append_left {t : MiniTrace S} (h : Cleared py has_genai staged settings path t)
    (u : MiniTrace S) : Cleared py has_genai staged settings path (t ++ u) := by
  obtain ⟨t₁, t', t₂, verdict, diff, rfl, hp⟩ := h
  exact ⟨t₁, t', t₂ ++ u, verdict, diff, by simp, hp⟩

theorem Cleared.append_right {t : MiniTrace S} (h : Cleared py has_genai staged settings path t)
    (u : MiniTrace S) : Cleared py has_genai staged settings path (u ++ t) := by
  obtain ⟨t₁, t', t₂, verdict, diff, rfl, hp⟩ := h
  exact ⟨u ++ t₁, t', t₂, verdict, diff, by simp, hp⟩

end Verdicts

end MiniReviewer

/-- A verdict, and the line of the stream that carries it. -/
def passed_text : String := "\x7b\"result_code\": \"REVIEW_PASSED\"\x7d"

def passed_line : String :=
  "\x7b\"response\": \"\x7b\\\"result_code\\\": \\\"REVIEW_PASSED\\\"\x7d\", \"done\": true\x7d\n"

/-- `json.loads` on these two texts. -/
def sample_python : Python where
  format := fun _ => ""
  repr := fun _ => ""
  float_of_text := fun s => .error (valueError ("could not convert string to float: " ++ s))
  loads := fun text =>
    if text = passed_text then .ok (.dict [("result_code", .str "REVIEW_PASSED")])
    else if text = passed_line then
      .ok (.dict [("response", .str passed_text), ("done", .bool true)])
    else .error (jsonDecodeError "Expecting value")

def sample_settings : MiniReviewerSettings where
  ollama_model := "qwen2.5-coder:7b"

/-- One changed file, and an Ollama that passes it. -/
def sample_answers : (o : MiniOp) → MiniAns o
  | .load_settings => .ok sample_settings
  | .normalize_target path => .ok path
  | .git _ => .ok "+x"
  | .get_system_prompt => .ok "review"
  | .available _ => .ok true
  | .urlopen _ _ => .ok ⟨0, [⟨1, .ok passed_line.toUTF8⟩]⟩
  | .build_client _ => .ok ()
  | .generate_content _ _ _ => .ok ⟨.other, .none⟩
  | .git_apply_check _ => .ok true
  | .git_apply _ => .ok true
  | .utc_now => "2026-01-01T00:00:00+00:00"
  | .kst_now => "2026-01-01 09:00:00 KST"
  | .append_log _ => .ok ()
  | .replace_latest_json _ => .ok ()
  | .replace_latest_text _ => .ok ()

/-- A run of the mini reviewer with fixed answers. -/
def mini_play {α : Type} (m : MiniReview α) (answers : (o : MiniOp) → MiniAns o) (n : Nat) :
    MiniReviewer.MiniTrace Unit × Unit × Prog MiniOp MiniAns (Except PyExc α × Unit) :=
  (m ()).run_for (fun s o => (answers o, s)) n ()

theorem mini_play_steps {α : Type} (m : MiniReview α) (answers : (o : MiniOp) → MiniAns o)
    (n : Nat) : Steps (fun _ o a _ => a = answers o) () (m ()) (mini_play m answers n).1 ()
      (mini_play m answers n).2.2 :=
  Prog.run_for_steps (fun _ _ => rfl) n (m ()) ()

end Nitpicker
