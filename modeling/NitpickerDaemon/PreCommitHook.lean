import NitpickerDaemon.Evidence
import NitpickerDaemon.StagedGate

/-!
The pre-commit hook of the setup wizard: it judges a file by the text the command line prints
for it, where the command line itself exits by the result code.
-/

set_option autoImplicit false

namespace Nitpicker

open Effect

namespace PreCommitHook

/-- `$(…)`: NUL characters are dropped, and the line feeds at the end. -/
def command_substitution (out : String) : List Char :=
  (out.toList.filter (· ≠ '\x00')).rdropWhile (· == '\n')

/-- `echo "$RESULT" | grep -qiE 'rejected|reject'` -/
def grep_reject (result : List Char) : Bool :=
  (result.splitOn '\n').any fun line =>
    let lowered := line.map Char.toLower
    decide ("rejected".toList <:+: lowered) || decide ("reject".toList <:+: lowered)

/-- The counters of the hook. -/
structure Tally where
  total : Nat := 0
  passed : Nat := 0
  failed : Nat := 0

/-- What one file with a diff adds, after the command line printed `out` for it. -/
def count_file (tally : Tally) (out : String) : Tally :=
  if grep_reject (command_substitution out) then
    { tally with total := tally.total + 1, failed := tally.failed + 1 }
  else { tally with total := tally.total + 1, passed := tally.passed + 1 }

/-- The hook blocks the commit without asking. -/
def blocks (tally : Tally) : Bool := 0 < tally.failed

/-- The file is counted as PASS. -/
def CountsPass (out : String) : Prop := ∀ tally : Tally,
  (count_file tally out).passed = tally.passed + 1 ∧ (count_file tally out).failed = tally.failed

/-- The text has the word `reject` in it, in any case, once its NUL characters are dropped. -/
def Mentions (s : String) : Prop :=
  "reject".toList <:+: (s.toList.filter (· ≠ '\x00')).map Char.toLower

instance (s : String) : Decidable (Mentions s) := inferInstanceAs (Decidable (_ <:+: _))

theorem mentions_empty : ¬Mentions "" := by decide

theorem not_mentions {cs : List Char}
    (h : ¬"reject".toList <:+: (cs.filter (· ≠ '\x00')).map Char.toLower) :
    ¬Mentions (String.ofList cs) := by
  have htext : (String.ofList cs).toList = cs := String.toList_ofList
  rwa [Mentions, htext]

/-- A character that the word does not have, and that is not dropped. -/
def apart (c : Char) : Bool := !"reject".toList.contains c.toLower && c != '\x00'

/-- The text ends in such a character. -/
def ends_apart (s : String) : Bool := (s.toList.getLast?.map apart).getD false

/-- The text starts with such a character. -/
def starts_apart (s : String) : Bool := (s.toList.head?.map apart).getD false

theorem mentions_separated {xs ys : List Char} {c : Char} (hc : apart c = true) :
    "reject".toList <:+: ((xs ++ c :: ys).filter (· ≠ '\x00')).map Char.toLower ↔
      "reject".toList <:+: (xs.filter (· ≠ '\x00')).map Char.toLower ∨
      "reject".toList <:+: (ys.filter (· ≠ '\x00')).map Char.toLower := by
  simp only [apart, Bool.and_eq_true, Bool.not_eq_true', bne_iff_ne] at hc
  have hword : c.toLower ∉ "reject".toList := by
    simpa using hc.1
  rw [← Text.infix_separated hword]
  simp [hc.2]

/-- A text that ends apart is judged on its own. -/
theorem mentions_left {s u : String} (h : ends_apart s = true) :
    Mentions (s ++ u) ↔ Mentions s ∨ Mentions u := by
  cases hlast : s.toList.getLast? with
  | none => simp [ends_apart, hlast] at h
  | some c =>
    have hc : apart c = true := by simpa [ends_apart, hlast] using h
    obtain ⟨init, hinit⟩ := List.getLast?_eq_some_iff.mp hlast
    have happend : (s ++ u).toList = init ++ c :: u.toList := by simp [hinit]
    have hs : Mentions s ↔ "reject".toList <:+: (init.filter (· ≠ '\x00')).map Char.toLower := by
      unfold Mentions
      rw [hinit, mentions_separated hc]
      simp
    rw [hs]
    unfold Mentions
    rw [happend, mentions_separated hc]

theorem mentions_right {s u : String} (h : starts_apart u = true) :
    Mentions (s ++ u) ↔ Mentions s ∨ Mentions u := by
  cases hu : u.toList with
  | nil => simp [starts_apart, hu] at h
  | cons c rest =>
    have hc : apart c = true := by simpa [starts_apart, hu] using h
    have happend : (s ++ u).toList = s.toList ++ c :: rest := by simp [hu]
    have hrest : Mentions u ↔ "reject".toList <:+: (rest.filter (· ≠ '\x00')).map Char.toLower := by
      have hnil := @mentions_separated [] rest c hc
      unfold Mentions
      rw [hu]
      simpa using hnil
    rw [hrest]
    unfold Mentions
    rw [happend, mentions_separated hc]

/-- `grep` finds the word exactly when the text has it. -/
theorem grep_reject_iff {out : String} :
    grep_reject (command_substitution out) = true ↔ Mentions out := by
  have hlonger : ∀ line : List Char, "rejected".toList <:+: line → "reject".toList <:+: line := by
    intro line h
    have hprefix : "reject".toList <+: "rejected".toList := by decide
    exact hprefix.isInfix.trans h
  have hlines : grep_reject (command_substitution out) = true ↔
      ∃ line ∈ (command_substitution out).splitOn '\n',
        "reject".toList <:+: line.map Char.toLower := by
    simp only [grep_reject, List.any_eq_true, Bool.or_eq_true, decide_eq_true_eq]
    constructor
    · rintro ⟨line, hline, h | h⟩
      · exact ⟨line, hline, hlonger _ h⟩
      · exact ⟨line, hline, h⟩
    · rintro ⟨line, hline, h⟩
      exact ⟨line, hline, .inr h⟩
  have hfeed : Char.toLower '\n' ∉ "reject".toList := by decide
  rw [hlines, ← Text.infix_map_splitOn hfeed (by decide), command_substitution,
    Text.infix_map_rdropWhile hfeed]
  rfl

theorem counts_pass_iff {out : String} : CountsPass out ↔ ¬Mentions out := by
  rw [← grep_reject_iff]
  constructor
  · intro h hreject
    have hfailed := (h {}).2
    simp [count_file, hreject] at hfailed
  · intro h tally
    simp [count_file, h]

/-- A whole line of output. -/
theorem mentions_line {s : String} : Mentions (s ++ "\n") ↔ Mentions s := by
  rw [mentions_right (by decide)]
  have hfeed : ¬Mentions "\n" := by decide
  simp [hfeed]

theorem ends_apart_line {s : String} : ends_apart (s ++ "\n") = true := by
  simp [ends_apart]
  decide

section Output

variable {S : Type} {py : Python}

/-- What a question writes. -/
def written_text : CliOp → String
  | .print text => text
  | _ => ""

/-- The output of a command. -/
def printed (t : JemminCli.CliTrace S) : String :=
  t.foldr (fun ev out => written_text ev.op ++ out) ""

@[simp] theorem printed_nil : printed ([] : JemminCli.CliTrace S) = "" := rfl

theorem printed_append (t u : JemminCli.CliTrace S) : printed (t ++ u) = printed t ++ printed u := by
  induction t with
  | nil => simp [printed]
  | cons ev t ih =>
    simp only [printed, List.cons_append, List.foldr_cons] at ih ⊢
    rw [ih, String.append_assoc]

theorem mentions_spaced {s u : String} : Mentions (s ++ " " ++ u) ↔ Mentions s ∨ Mentions u := by
  have hspace : ¬Mentions " " := by decide
  have hends : ends_apart (s ++ " ") = true := by simp [ends_apart]; decide
  rw [mentions_left hends, mentions_right (by decide)]
  simp [hspace]

theorem mentions_state {state : ReviewState} : ¬Mentions state.value := by
  cases state <;> decide

theorem mentions_status {status : ReviewStatus} : Mentions status.value ↔ status = .rejected := by
  cases status <;> decide

/-- The first line of a result. -/
theorem mentions_result_line {result : ReviewResult} :
    Mentions (JemminCli.result_line py result) ↔
      result.status = .rejected ∨ Mentions (py.str result.summary) := by
  have hstate : ¬Mentions result.state.value := mentions_state
  rw [JemminCli.result_line, mentions_spaced, mentions_spaced, mentions_status]
  simp [hstate]

theorem mentions_token {result_code : PyVal} :
    Mentions (JemminCli.result_code_token py result_code) ↔
      Mentions (py.str (result_code.or (.str "UNKNOWN"))) := by
  have hname : ¬Mentions "JEMMIN_RESULT_CODE=" := not_mentions (by decide)
  have hends : ends_apart "JEMMIN_RESULT_CODE=" = true := by decide
  unfold JemminCli.result_code_token
  rw [mentions_left hends]
  simp only [hname, false_or]

theorem print_returns {text : String} : Proc.Returns (JemminCli.print text)
    fun _ (t : JemminCli.CliTrace S) => printed t = text ++ "\n" :=
  .invoke fun a v s s' h => by simp [printed, written_text]

/-- A question that writes nothing. -/
theorem silent_returns {α : Type} {o : CliOp} {g : CliAns o → Except PyExc α}
    (h : written_text o = "") : Proc.Returns (Proc.invoke o g : Cli α)
      fun _ (t : JemminCli.CliTrace S) => printed t = "" :=
  .invoke fun a v s s' _ => by simp [printed, h]

/-- The line about the provider, if there is one, has the word exactly when its label has. -/
theorem select_provider_returns {name : String} {model : Option String} :
    Proc.Returns (JemminCli.select_provider name model)
      fun label (t : JemminCli.CliTrace S) => (Mentions (printed t) ↔ Mentions label) ∧
        (printed t = "" ∨ ends_apart (printed t) = true) := by
  have hmock : ¬Mentions JemminCli.mock_label := not_mentions (by decide)
  have hactive : ∀ (head label : String) {t : JemminCli.CliTrace S} {model : String},
      ends_apart head = true → ¬Mentions head → ends_apart label = true → ¬Mentions label →
      printed t = head ++ model ++ ")" ++ "\n" →
      (Mentions (printed t) ↔ Mentions (label ++ model)) ∧
        (printed t = "" ∨ ends_apart (printed t) = true) := by
    intro head label t model hhead hnone hlabel hnone' ht
    have hparen : ¬Mentions ")" := by decide
    rw [ht]
    refine ⟨?_, .inr ends_apart_line⟩
    rw [mentions_line, mentions_right (by decide), mentions_left hhead, mentions_left hlabel]
    simp [hparen, hnone, hnone']
  have hnone : ∀ (text : String) {t : JemminCli.CliTrace S}, ¬Mentions text →
      printed t = text ++ "\n" → (Mentions (printed t) ↔ Mentions JemminCli.mock_label) ∧
        (printed t = "" ∨ ends_apart (printed t) = true) := by
    intro text t htext ht
    rw [ht]
    refine ⟨?_, .inr ends_apart_line⟩
    rw [mentions_line]
    simp [htext, hmock]
  unfold JemminCli.select_provider
  refine .ite (fun _ => .bind (silent_returns rfl) fun p t₁ h₁ => .ite (fun _ =>
    .bind print_returns fun _ t₂ h₂ => .pure ?_) fun _ => .bind print_returns fun _ t₂ h₂ =>
      .pure ?_) fun _ => .ite (fun _ => .bind (silent_returns rfl) fun p t₁ h₁ => .ite (fun _ =>
    .bind print_returns fun _ t₂ h₂ => .pure ?_) fun _ => .bind print_returns fun _ t₂ h₂ =>
      .pure ?_) fun _ => .pure ?_
  · refine hactive "[jemmin_cli] Ollama provider active (model=" "OllamaProvider/" (by decide)
      (not_mentions (by decide)) (by decide) (not_mentions (by decide)) ?_
    simp [printed_append, h₁, h₂]
  · refine hnone "[jemmin_cli] Ollama not available, falling back to mock"
      (not_mentions (by decide)) ?_
    simp [printed_append, h₁, h₂]
  · refine hactive "[jemmin_cli] Gemini provider active (model=" "GeminiProvider/" (by decide)
      (not_mentions (by decide)) (by decide) (not_mentions (by decide)) ?_
    simp [printed_append, h₁, h₂]
  · refine hnone "[jemmin_cli] Gemini not available (no API key?), falling back to mock"
      (not_mentions (by decide)) ?_
    simp [printed_append, h₁, h₂]
  · simp [hmock, mentions_empty]

/-- What a direct run prints has the word exactly when its provider or its result has. -/
theorem run_direct_prints {f diff name : String} {model : Option String} :
    Proc.Returns (JemminCli.run_direct py f diff name model)
      fun rc (t : JemminCli.CliTrace S) => ∃ label result,
        Asked t (.run_once f diff label) (.ok result) ∧
        rc = exit_code_from_result_code result.result_code ∧
        (Mentions (printed t) ↔ Mentions label ∨ Mentions (JemminCli.result_line py result) ∨
          Mentions (JemminCli.result_code_token py result.result_code)) := by
  have hbody : ∀ label : String, Proc.Returns (do
      let result ← Proc.invoke (.run_once f diff label) id
      JemminCli.print (JemminCli.result_line py result)
      JemminCli.print (JemminCli.result_code_token py result.result_code)
      pure (exit_code_from_result_code result.result_code) : Cli Nat)
      fun rc (t : JemminCli.CliTrace S) => ∃ result, Asked t (.run_once f diff label) (.ok result) ∧
        rc = exit_code_from_result_code result.result_code ∧
        printed t = JemminCli.result_line py result ++ "\n" ++
          (JemminCli.result_code_token py result.result_code ++ "\n") := by
    intro label
    refine .bind (Proc.Returns.asked.and (silent_returns rfl)) fun result t₁ h₁ =>
      .bind print_returns fun _ t₂ h₂ => .bind print_returns fun _ t₃ h₃ => .pure ?_
    obtain ⟨⟨_, rfl, hasked⟩, hsilent⟩ := h₁
    refine ⟨result, hasked.append_left _, rfl, ?_⟩
    simp [printed_append, hsilent, h₂, h₃]
  have hclosed : ∀ label : String, Proc.Returns (Proc.ensure (do
      let result ← Proc.invoke (.run_once f diff label) id
      JemminCli.print (JemminCli.result_line py result)
      JemminCli.print (JemminCli.result_code_token py result.result_code)
      pure (exit_code_from_result_code result.result_code) : Cli Nat)
      (Proc.invoke .close_analytics id))
      fun rc (t : JemminCli.CliTrace S) => ∃ result, Asked t (.run_once f diff label) (.ok result) ∧
        rc = exit_code_from_result_code result.result_code ∧
        printed t = JemminCli.result_line py result ++ "\n" ++
          (JemminCli.result_code_token py result.result_code ++ "\n") := by
    intro label
    refine .ensure (hbody label) fun rc t h => (silent_returns rfl).mono fun _ u hu => ?_
    obtain ⟨result, hasked, hrc, hprinted⟩ := h
    refine ⟨result, hasked.append_left u, hrc, ?_⟩
    simp [printed_append, hprinted, hu]
  refine .bind (silent_returns rfl) fun _ t₁ h₁ => .bind select_provider_returns fun label t₂ h₂ =>
    .bind (silent_returns rfl) fun _ t₃ h₃ => (hclosed label).mono fun rc t₄ h₄ => ?_
  obtain ⟨result, hasked, hrc, hprinted⟩ := h₄
  refine ⟨label, result, ((hasked.append_right t₃).append_right t₂).append_right t₁, hrc, ?_⟩
  have hlines : Mentions (JemminCli.result_line py result ++ "\n" ++
      (JemminCli.result_code_token py result.result_code ++ "\n")) ↔
      Mentions (JemminCli.result_line py result) ∨
        Mentions (JemminCli.result_code_token py result.result_code) := by
    rw [mentions_left ends_apart_line, mentions_line, mentions_line]
  have hall : printed (t₁ ++ (t₂ ++ (t₃ ++ t₄))) = printed t₂ ++
      (JemminCli.result_line py result ++ "\n" ++
        (JemminCli.result_code_token py result.result_code ++ "\n")) := by
    simp [printed_append, h₁, h₃, hprinted]
  rw [hall]
  rcases h₂.2 with hempty | hends
  · have hlabel : ¬Mentions label := by
      rw [← h₂.1, hempty]
      exact mentions_empty
    rw [hempty, String.empty_append, hlines]
    simp only [hlabel, false_or]
  · rw [mentions_left hends, hlines, h₂.1]

end Output

/-- The hook and the command line agree on this result of a run with this provider. -/
def Agrees (py : Python) (label : String) (result : ReviewResult) : Prop :=
  (result.result_code = .str "REVIEW_PASSED" ∧ result.status ≠ .rejected ∧ ¬Mentions label ∧
      ¬Mentions (py.str result.summary)) ∨
    (result.result_code ≠ .str "REVIEW_PASSED" ∧ (result.status = .rejected ∨ Mentions label ∨
      Mentions (py.str result.summary) ∨
      Mentions (py.str (result.result_code.or (.str "UNKNOWN")))))

end PreCommitHook

open PreCommitHook in
/-- The hook counts a file as PASS exactly when the command line exits with 0, if and only if
the word it looks for stands in the output of a refused file and of no passed one. -/
theorem hook_agrees_iff {S : Type} {py : Python} {f diff provider_name : String}
    {model : Option String} {status : Nat} {t : JemminCli.CliTrace S}
    (hp : Path (JemminCli.run_direct py f diff provider_name model ()) t (.ret (.ok status, ()))) :
    ∃ label result, Asked t (.run_once f diff label) (.ok result) ∧
      ((CountsPass (printed t) ↔ status = 0) ↔ PreCommitHook.Agrees py label result) := by
  obtain ⟨label, result, hasked, hstatus, hprinted⟩ := run_direct_prints _ _ _ _ hp
  refine ⟨label, result, hasked, ?_⟩
  rw [counts_pass_iff, hprinted, hstatus, exit_code_zero_iff, mentions_result_line, mentions_token]
  unfold PreCommitHook.Agrees
  have hclean : result.result_code = .str "REVIEW_PASSED" →
      ¬Mentions (py.str (result.result_code.or (.str "UNKNOWN"))) := by
    intro hcode
    rw [hcode]
    have hword : ¬Mentions "REVIEW_PASSED" := not_mentions (by decide)
    exact hword
  generalize Mentions (py.str (result.result_code.or (.str "UNKNOWN"))) = coded at hclean ⊢
  generalize Mentions label = labelled
  generalize Mentions (py.str result.summary) = summed
  by_cases hcode : result.result_code = .str "REVIEW_PASSED"
  · have hcoded := hclean hcode
    simp only [hcode, hcoded, or_false, not_or, ne_eq, not_true_eq_false, false_and, true_and,
      iff_true]
    grind
  · simp only [hcode, ne_eq, not_false_eq_true, true_and, false_and, false_or, iff_false, not_not]
    grind

/-- A direct run of the command line where the orchestrator returns `result`. -/
def returning (result : ReviewResult) : (o : CliOp) → CliAns o
  | .run_once _ _ _ => .ok result
  | o => staged_cli ascii_index o

def labelled_mock : CliOp → Bool
  | .run_once _ _ label => label == JemminCli.mock_label
  | _ => true

open PreCommitHook in
/-- What such a run prints has the word exactly when the result has. -/
theorem returning_mentions {result : ReviewResult} {status : Nat} {t : JemminCli.CliTrace Unit}
    (hsteps : Steps (fun _ o a _ => a = returning result o) ()
      (JemminCli.run_direct sample_python "a.py" "+x" "mock" none ()) t () (.ret (.ok status, ())))
    (hmock : t.all (fun ev => labelled_mock ev.op) = true) :
    Mentions (printed t) ↔ result.status = .rejected ∨
      Mentions (sample_python.str result.summary) ∨
      Mentions (sample_python.str (result.result_code.or (.str "UNKNOWN"))) := by
  obtain ⟨label, result', ⟨s, s', hev⟩, -, hprinted⟩ := run_direct_prints _ _ _ _ hsteps.path
  have hresult : (.ok result' : Except PyExc ReviewResult) = .ok result := hsteps.event _ hev
  cases hresult
  have hlabel : label = JemminCli.mock_label := by
    simpa [labelled_mock] using List.all_eq_true.mp hmock _ hev
  have hnone : ¬Mentions JemminCli.mock_label := not_mentions (by decide)
  rw [hprinted, hlabel, mentions_result_line, mentions_token, or_iff_right hnone, or_assoc]

open PreCommitHook in
theorem hook_agrees_sample : ∃ t : JemminCli.CliTrace Unit,
    Path (JemminCli.run_direct sample_python "a.py" "+x" "mock" none ()) t (.ret (.ok 0, ())) ∧
      CountsPass (printed t) := by
  have hsteps := cli_play_steps (JemminCli.run_direct sample_python "a.py" "+x" "mock" none)
    (returning passed_result) 20
  obtain ⟨label, result, ⟨s, s', hev⟩, hiff⟩ := hook_agrees_iff hsteps.path
  have hresult : (.ok result : Except PyExc ReviewResult) = .ok passed_result :=
    hsteps.event _ hev
  cases hresult
  have hall : (cli_play (JemminCli.run_direct sample_python "a.py" "+x" "mock" none)
      (returning passed_result) 20).1.all (fun ev => labelled_mock ev.op) = true := rfl
  have hlabel : label = JemminCli.mock_label := by
    simpa [labelled_mock] using List.all_eq_true.mp hall _ hev
  refine ⟨_, hsteps.path, (hiff.mpr (.inl ⟨rfl, by decide, ?_, by decide⟩)).mpr rfl⟩
  rw [hlabel]
  exact not_mentions (by decide)

/-- The result of a review whose L3 call ran into a timeout. -/
def timed_out : ReviewResult :=
  Orchestrator.build_result (sampleRequest "req_1" "key") .DEGRADED .degraded
    (.str (Orchestrator.build_user_failure_summary "LLM_TIMEOUT")) 0 (.str "LLM_TIMEOUT")

/-- The L3 review passes the change. -/
def approval : PyDict :=
  [("result_code", .str "REVIEW_PASSED"), ("summary", .str "no reason to reject")]

/-- The result of this review. -/
def approved : ReviewResult :=
  Orchestrator.build_result (sampleRequest "req_1" "key") .DELIVERED .pass
    (.str "no reason to reject") (1 / 2) (.str "REVIEW_PASSED")

open PreCommitHook in
/-- The hook lets a timeout through, which the command line refuses, and refuses a pass whose
summary has the word. -/
theorem hook_misreads :
    (∃ db run l, Steps anyone.step {} (gated.run_once (sampleRequest "req_1" "key") {}) run db
        (.ret (.ok timed_out, l)) ∧
      ∃ t : JemminCli.CliTrace Unit,
        Path (JemminCli.run_direct sample_python "a.py" "+x" "mock" none ()) t
          (.ret (.ok 1, ())) ∧
        Asked t (.run_once "a.py" "+x" JemminCli.mock_label) (.ok timed_out) ∧
        CountsPass (printed t)) ∧
    ∃ db run l, Steps anyone.step {} (gated.run_once (sampleRequest "req_1" "key") {}) run db
        (.ret (.ok approved, l)) ∧
      ∃ t : JemminCli.CliTrace Unit,
        Path (JemminCli.run_direct sample_python "a.py" "+x" "mock" none ()) t
          (.ret (.ok 0, ())) ∧
        Asked t (.run_once "a.py" "+x" JemminCli.mock_label) (.ok approved) ∧
        ¬CountsPass (printed t) := by
  have htimeout := @play_steps anyone l3_times_out (fun _ => trivial) gated
    (sampleRequest "req_1" "key") {} 60
  have hcli := cli_play_steps (JemminCli.run_direct sample_python "a.py" "+x" "mock" none)
    (returning timed_out) 20
  constructor
  · refine ⟨_, _, _, htimeout, _, hcli.path, ⟨_, _, List.mem_of_getElem? (i := 2) rfl⟩, ?_⟩
    rw [counts_pass_iff, returning_mentions hcli rfl]
    decide +kernel
  · have happroved := @play_steps anyone (l3_replies approval) (fun _ => trivial) gated
      (sampleRequest "req_1" "key") {} 60
    have hgreen := cli_play_steps (JemminCli.run_direct sample_python "a.py" "+x" "mock" none)
      (returning approved) 20
    refine ⟨_, _, _, happroved, _, hgreen.path,
      ⟨_, _, List.mem_of_getElem? (i := 2) rfl⟩, ?_⟩
    rw [counts_pass_iff, returning_mentions hgreen rfl]
    decide +kernel

end Nitpicker
