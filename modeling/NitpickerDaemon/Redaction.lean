import NitpickerDaemon.AddedLines
import NitpickerDaemon.Permissions

/-!
The redaction of secrets before a text leaves the machine, and the diff that a run hands over to
the offload gateway.
-/

set_option autoImplicit false

namespace Nitpicker

open Effect
open Text (Regex)

/-- `\b`, for the letters and digits that `str.isalnum` knows. -/
def word_boundary (isalnum : Char → Bool) : Regex Char :=
  let word := fun c => isalnum c || c == '_'
  .place fun before after => before.any word != after.any word

/-- `['\"]` -/
def quote (c : Char) : Bool := c == '\'' || c == '"'

def digit (c : Char) : Bool := '0' ≤ c && c ≤ '9'

/-- `[A-Za-z0-9\-_./+]` under `(?i)` -/
def key_char (c : Char) : Bool :=
  let c := ignore_case c
  ('a' ≤ c && c ≤ 'z') || digit c || c == '-' || c == '_' || c == '.' || c == '/' || c == '+'

/-- `[^\s'\"]` -/
def unquoted_char (c : Char) : Bool := !(isspace c || quote c)

def spaces (least : Nat) : Regex Char := .run true least none isspace

/-- `(key\s*[:=]\s*)['\"]?(value{least,})['\"]?` -/
def assignment (key : Regex Char) (value : Char → Bool) (least : Nat) : Regex Char :=
  .seq (.group 1 (.seq key (.seq (spaces 0)
      (.seq (.char fun c => c == ':' || c == '=') (spaces 0)))))
    (.seq (.opt (.char quote)) (.seq (.group 2 (.run true least none value)) (.opt (.char quote))))

structure SecretPattern where
  name : String
  pattern : Regex Char
  replacement : Regex.Match Char → List Char

/-- `[_-]?key` -/
def key_suffix : Regex Char :=
  .seq (.opt (.char fun c => c == '_' || c == '-')) (word_any_case "key")

/-- The replacement `\1[REDACTED]`. -/
def keep_prefix (m : Regex.Match Char) : List Char := m.group 1 ++ "[REDACTED]".toList

section Patterns

variable (isalnum : Char → Bool)

def aws_access_key : SecretPattern where
  name := "aws_access_key"
  pattern := .seq (word_boundary isalnum) (.seq (literal "AKIA")
    (.seq (.run true 16 (some 16) fun c => digit c || ('A' ≤ c && c ≤ 'Z'))
      (word_boundary isalnum)))
  replacement _ := "[REDACTED]".toList

def api_key : SecretPattern where
  name := "api_key"
  pattern := assignment
    (.seq (word_boundary isalnum) (.seq (word_any_case "api") key_suffix)) key_char 8
  replacement := keep_prefix

def password : SecretPattern where
  name := "password"
  pattern := assignment (.seq (word_boundary isalnum) (.seq (word_any_case "pass")
    (.opt (.alt (word_any_case "word") (word_any_case "wd"))))) unquoted_char 4
  replacement := keep_prefix

def secret : SecretPattern where
  name := "secret"
  pattern := assignment (.seq (word_boundary isalnum) (.seq (word_any_case "secret")
    (.opt key_suffix))) key_char 8
  replacement := keep_prefix

def token : SecretPattern where
  name := "token"
  pattern := assignment (.seq (word_boundary isalnum) (.seq (.opt (word_any_case "access_"))
    (word_any_case "token"))) key_char 8
  replacement := keep_prefix

def auth : SecretPattern where
  name := "auth"
  pattern := assignment (.seq (word_boundary isalnum) (.seq (word_any_case "auth")
    (.opt (word_any_case "orization")))) unquoted_char 8
  replacement := keep_prefix

def bearer : SecretPattern where
  name := "bearer"
  pattern := .seq (.group 1 (.seq (word_any_case "bearer") (spaces 1)))
    (.group 2 (.run true 8 none key_char))
  replacement := keep_prefix

/-- `(?:[A-Z ]+ )?PRIVATE KEY-----` -/
def private_key_end : Regex Char :=
  .seq (.opt (.seq (.run true 1 none fun c => ('A' ≤ c && c ≤ 'Z') || c == ' ') (literal " ")))
    (literal "PRIVATE KEY-----")

def private_key : SecretPattern where
  name := "private_key"
  pattern := .seq (literal "-----BEGIN ") (.seq private_key_end
    (.seq (.run false 0 none fun _ => true) (.seq (literal "-----END ") private_key_end)))
  replacement _ := "[REDACTED_PRIVATE_KEY]".toList

def db_url : SecretPattern where
  name := "db_url"
  pattern := .seq
    (.group 1 (.seq (.alt (word_any_case "postgresql") (.alt (word_any_case "mysql")
        (.alt (word_any_case "mongodb") (word_any_case "redis"))))
      (.seq (literal "://") (.seq (.run true 1 none (· != ':')) (literal ":")))))
    (.seq (.group 2 (.run true 1 none fun c => !(c == '@' || isspace c))) (.group 3 (literal "@")))
  replacement m := m.group 1 ++ "[REDACTED]".toList ++ m.group 3

/-- `_SECRET_PATTERNS` -/
def SECRET_PATTERNS : List SecretPattern :=
  [aws_access_key isalnum, api_key isalnum, password isalnum, secret isalnum, token isalnum,
    auth isalnum, bearer, private_key, db_url]

/-- `pattern.sub(replacement, text)` -/
def SecretPattern.sub (p : SecretPattern) (text : List Char) : List Char :=
  p.pattern.sub p.replacement 0 [] text

def redact_secrets (text : String) : String :=
  String.ofList ((SECRET_PATTERNS isalnum).foldl (fun text p => p.sub text) text.toList)

end Patterns

theorem redact_all {patterns : List SecretPattern} {text : List Char}
    (h : ∀ p ∈ patterns, p.pattern.finditer 0 [] text = []) :
    patterns.foldl (fun text p => p.sub text) text = text := by
  induction patterns with
  | nil => rfl
  | cons p patterns ih =>
    have hp : p.sub text = text := Regex.sub_unmatched (h p List.mem_cons_self)
    rw [List.foldl_cons, hp]
    exact ih fun q hq => h q (List.mem_cons_of_mem p hq)

/-- A text in which no pattern finds a secret is left as it is. -/
theorem redact_unmatched {isalnum : Char → Bool} {text : String}
    (h : ∀ p ∈ SECRET_PATTERNS isalnum, p.pattern.finditer 0 [] text.toList = []) :
    redact_secrets isalnum text = text := by
  rw [redact_secrets, redact_all h, String.ofList_toList]

example : redact_secrets Char.isAlphanum "+password = 'hunter2' # keep" =
    "+password = [REDACTED] # keep" := by decide +kernel

example : redact_secrets Char.isAlphanum "postgresql://app:hunter2@db" =
    "postgresql://app:[REDACTED]@db" := by decide +kernel

/-- Everything that a run hands over to the gateway is its redacted diff. -/
def Masked (isalnum : Char → Bool) (request : ReviewRequest) (t : Trace) : Prop :=
  ∀ s sent a s', ⟨s, .submit sent, a, s'⟩ ∈ t →
    sent.masked_diff = redact_secrets isalnum request.diff_text

/-- What is handed over is the diff of the request, character by character. -/
theorem submitted_diff {env : Env} {orc : Orchestrator} {request : ReviewRequest} {db db' : Db}
    {t : Trace} {p : Running} (hr : Steps env.step db (orc.run_once request {}) t db' p)
    {s s' : Db} {sent : OffloadRequest} {a : Ans (.submit sent)}
    (hev : ⟨s, .submit sent, a, s'⟩ ∈ t) : sent.masked_diff = request.diff_text := by
  have hmem : EffectMark.submitted sent.masked_diff ∈ effects orc t :=
    submitted_mem.mpr ⟨s, sent, a, s', hev, rfl⟩
  have hsubmitted := (run_accountable hr.path).submitted _ hmem
  exact hsubmitted.2

/-- A diff is handed over masked if the redaction has nothing to change in it, and only then; two
diffs with one redaction are told apart unless they are equal. -/
theorem masked_iff (isalnum : Char → Bool) {env₁ env₂ : Env} {orc₁ orc₂ : Orchestrator}
    {request₁ request₂ : ReviewRequest} {db₁ db₁' db₂ db₂' : Db} {t₁ t₂ : Trace} {p₁ p₂ : Running}
    (hr₁ : Steps env₁.step db₁ (orc₁.run_once request₁ {}) t₁ db₁' p₁)
    (hr₂ : Steps env₂.step db₂ (orc₂.run_once request₂ {}) t₂ db₂' p₂)
    {s₁ s₁' s₂ s₂' : Db} {sent₁ sent₂ : OffloadRequest} {a₁ : Ans (.submit sent₁)}
    {a₂ : Ans (.submit sent₂)} (hev₁ : ⟨s₁, .submit sent₁, a₁, s₁'⟩ ∈ t₁)
    (hev₂ : ⟨s₂, .submit sent₂, a₂, s₂'⟩ ∈ t₂) :
    (Masked isalnum request₁ t₁ ↔
      redact_secrets isalnum request₁.diff_text = request₁.diff_text) ∧
    (redact_secrets isalnum request₁.diff_text = redact_secrets isalnum request₂.diff_text →
      (sent₁.masked_diff = sent₂.masked_diff ↔ request₁.diff_text = request₂.diff_text)) := by
  have hdiff₁ := submitted_diff hr₁ hev₁
  have hdiff₂ := submitted_diff hr₂ hev₂
  constructor
  · constructor
    · intro h
      have hmasked := h _ _ _ _ hev₁
      rw [hdiff₁] at hmasked
      exact hmasked.symm
    · intro h s sent a s' hev
      rw [submitted_diff hr₁ hev, h]
  · intro _
    rw [hdiff₁, hdiff₂]

def diffRequest (diff : String) : ReviewRequest := { fixRequest with diff_text := diff }

theorem offload_sample (diff : String) : ∃ t db result l s sent a s',
    Steps anyone.step {} (offloading.run_once (diffRequest diff) {}) t db (.ret (.ok result, l)) ∧
    ⟨s, .submit sent, a, s'⟩ ∈ t ∧ sent.masked_diff = diff := by
  have hr := @play_steps anyone (policy true true) (fun _ => trivial) offloading (diffRequest diff)
    {} 60
  have heffects : effects offloading (offloading.play (policy true true) (diffRequest diff) {} 60).1 =
    [.decided ⟨true, "general", true, true, true, none, false, none⟩, .offloads,
      .submitted diff, .proposed, .applied] := rfl
  have hmem : EffectMark.submitted diff ∈
      effects offloading (offloading.play (policy true true) (diffRequest diff) {} 60).1 := by
    rw [heffects]
    simp
  obtain ⟨s, sent, a, s', hev, hdiff⟩ := submitted_mem.mp hmem
  exact ⟨_, _, _, _, s, sent, a, s', hr, hev, hdiff⟩

theorem masked_sample : ∃ t db result l,
    Steps anyone.step {} (offloading.run_once (diffRequest "+retries = 3") {}) t db
      (.ret (.ok result, l)) ∧
    redact_secrets Char.isAlphanum "+retries = 3" = "+retries = 3" ∧
    Masked Char.isAlphanum (diffRequest "+retries = 3") t := by
  have hredacted : redact_secrets Char.isAlphanum "+retries = 3" = "+retries = 3" := by
    decide +kernel
  obtain ⟨t, db, result, l, s, sent, a, s', hr, hev, _⟩ := offload_sample "+retries = 3"
  exact ⟨t, db, result, l, hr, hredacted,
    (masked_iff Char.isAlphanum hr hr hev hev).1.mpr hredacted⟩

/-- Two passwords with one redaction leave the machine as they stand. -/
theorem secrets_submitted : ∃ t₁ t₂ db₁ db₂ r₁ r₂ s₁ s₁' s₂ s₂' sent₁ sent₂ a₁ a₂,
    Steps anyone.step {} (offloading.run_once (diffRequest "+password = hunter2") {}) t₁ db₁
      (.ret r₁) ∧
    Steps anyone.step {} (offloading.run_once (diffRequest "+password = swordfish") {}) t₂ db₂
      (.ret r₂) ∧
    ⟨s₁, .submit sent₁, a₁, s₁'⟩ ∈ t₁ ∧ ⟨s₂, .submit sent₂, a₂, s₂'⟩ ∈ t₂ ∧
    redact_secrets Char.isAlphanum "+password = hunter2" = "+password = [REDACTED]" ∧
    redact_secrets Char.isAlphanum "+password = swordfish" = "+password = [REDACTED]" ∧
    sent₁.masked_diff = "+password = hunter2" ∧ sent₂.masked_diff = "+password = swordfish" ∧
    ¬Masked Char.isAlphanum (diffRequest "+password = hunter2") t₁ := by
  have hredacted : redact_secrets Char.isAlphanum "+password = hunter2" =
      "+password = [REDACTED]" := by decide +kernel
  have hredacted' : redact_secrets Char.isAlphanum "+password = swordfish" =
      "+password = [REDACTED]" := by decide +kernel
  obtain ⟨t₁, db₁, result₁, l₁, s₁, sent₁, a₁, s₁', hr₁, hev₁, hdiff₁⟩ :=
    offload_sample "+password = hunter2"
  obtain ⟨t₂, db₂, result₂, l₂, s₂, sent₂, a₂, s₂', hr₂, hev₂, hdiff₂⟩ :=
    offload_sample "+password = swordfish"
  refine ⟨t₁, t₂, db₁, db₂, _, _, s₁, s₁', s₂, s₂', sent₁, sent₂, a₁, a₂, hr₁, hr₂, hev₁, hev₂,
    hredacted, hredacted', hdiff₁, hdiff₂, ?_⟩
  intro h
  have hmasked := h _ _ _ _ hev₁
  rw [hdiff₁] at hmasked
  have hsame : "+password = hunter2" = "+password = [REDACTED]" := hmasked.trans hredacted
  exact absurd hsame (by decide)

end Nitpicker
