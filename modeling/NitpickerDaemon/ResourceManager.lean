import NitpickerDaemon.Data.Admission
import NitpickerDaemon.Data.Dict
import NitpickerDaemon.Models

/-!
The debounce of the resource manager: when a file was last admitted is kept under one text for the
intent and the file, and what is missing counts as zero on the clock.
-/

set_option autoImplicit false

namespace Nitpicker

def DEBOUNCE_SECONDS : List (String × Rat) := [("passive_save", 3 / 2), ("active_intent", 0)]

structure DefaultResourceManager where
  breaker_open : Bool := false
  debounce : List (String × Rat) := DEBOUNCE_SECONDS
  last_request_at : List (String × Rat) := []

/-- A call of `allow_new_job` at the reading `now` of the monotonic clock. -/
structure JobCall where
  request : ReviewRequest
  now : Rat

/-- `self._debounce.get(intent, 0.0)` -/
def JobCall.wait (debounce : List (String × Rat)) (c : JobCall) : Rat :=
  match c.request.trigger_intent with
  | some intent => (debounce.lookup intent).getD 0
  | none => 0

/-- `f"{intent}:{request.target_file}"` -/
def JobCall.key (c : JobCall) : String :=
  c.request.trigger_intent.getD "None" ++ ":" ++ c.request.target_file

namespace DefaultResourceManager

def allow_new_job (mgr : DefaultResourceManager) (c : JobCall) : Bool × DefaultResourceManager :=
  if mgr.breaker_open then (false, mgr)
  else if 0 < c.wait mgr.debounce then
    let last := (mgr.last_request_at.lookup c.key).getD 0
    if c.now - last < c.wait mgr.debounce then (false, mgr)
    else (true, { mgr with last_request_at := Dict.set mgr.last_request_at c.key c.now })
  else (true, mgr)

/-- The manager after some calls. -/
def after (mgr : DefaultResourceManager) (calls : List JobCall) : DefaultResourceManager :=
  calls.foldl (fun mgr c => (mgr.allow_new_job c).2) mgr

/-- The answer to a call after the calls before it. -/
def answer (mgr : DefaultResourceManager) (before : List JobCall) (c : JobCall) : Bool :=
  ((mgr.after before).allow_new_job c).1

end DefaultResourceManager

/-- The same intent and the same file. -/
def JobCall.SamePair (a c : JobCall) : Prop :=
  a.request.trigger_intent = c.request.trigger_intent ∧
    a.request.target_file = c.request.target_file

instance (a c : JobCall) : Decidable (a.SamePair c) := inferInstanceAs (Decidable (_ ∧ _))

namespace Debounce

variable (debounce : List (String × Rat))

/-- The rule of the manager: the calls that count are those with the same key, and one at zero. -/
def key_rule (past : List JobCall) (c : JobCall) : Bool :=
  decide (c.wait debounce ≤ 0 ∨ (c.wait debounce ≤ c.now ∧
    ∀ a ∈ past, 0 < a.wait debounce → a.key = c.key → c.wait debounce ≤ c.now - a.now))

/-- Calls at the readings of a clock that starts at zero or later and never goes back. -/
structure ClockedCalls where
  calls : List JobCall
  sorted : calls.Pairwise fun a c => a.now ≤ c.now
  from_zero : ∀ c ∈ calls, 0 ≤ c.now

variable {debounce} {a c : JobCall}

theorem SamePair.key (h : a.SamePair c) : a.key = c.key := by
  rw [JobCall.key, JobCall.key, h.1, h.2]

theorem SamePair.wait (h : a.SamePair c) : a.wait debounce = c.wait debounce := by
  rw [JobCall.wait, JobCall.wait, h.1]

/-- The times of the admitted calls that are kept under a key. -/
def times (debounce : List (String × Rat)) (key : String) (past : List JobCall) : List Rat :=
  (past.filter fun a => decide (0 < a.wait debounce ∧ a.key = key)).map JobCall.now

/-- A manager with the breaker closed and nothing admitted yet. -/
def fresh (debounce : List (String × Rat)) : DefaultResourceManager where
  debounce := debounce

/-- The table holds the last admitted time of each key. -/
structure Keeps (debounce : List (String × Rat)) (past : List JobCall)
    (mgr : DefaultResourceManager) : Prop where
  closed : mgr.breaker_open = false
  same_debounce : mgr.debounce = debounce
  last (key : String) : mgr.last_request_at.lookup key = (times debounce key past).getLast?

section Step

variable {mgr : DefaultResourceManager} {past : List JobCall}

end Step

end Debounce

namespace Debounce

variable {debounce : List (String × Rat)}

theorem earlier {calls : ClockedCalls} {before after : List JobCall} {c : JobCall}
    (heq : calls.calls = before ++ c :: after) :
    ∀ a ∈ Admission.admitted (key_rule debounce) before, a.now ≤ c.now := by
  intro a ha
  have hsorted := calls.sorted
  rw [heq, List.pairwise_append] at hsorted
  exact hsorted.2.2 a (Admission.admitted_sublist.subset ha) c List.mem_cons_self

end Debounce

end Nitpicker
