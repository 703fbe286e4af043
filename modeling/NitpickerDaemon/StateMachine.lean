import NitpickerDaemon.Models

/-!
The review state machine.
-/

set_option autoImplicit false

namespace Nitpicker

def ALLOWED_TRANSITIONS : ReviewState → List ReviewState
  | .QUEUED => [.PRECHECK_FAILED, .CONTEXT_READY, .FAILED]
  | .PRECHECK_FAILED => []
  | .CONTEXT_READY => [.ANALYZING, .DEGRADED, .FAILED]
  | .ANALYZING => [.CONSENSUS_REACHED, .DEGRADED, .FAILED]
  | .CONSENSUS_REACHED => [.PATCH_PROPOSED, .DELIVERED, .FAILED]
  | .PATCH_PROPOSED => [.VERIFIED, .FAILED]
  | .VERIFIED => [.DELIVERED, .FAILED]
  | .DELIVERED => []
  | .DEGRADED => [.DELIVERED, .FAILED]
  | .FAILED => []

def can_transition (from_state to_state : ReviewState) : Bool :=
  decide (to_state ∈ ALLOWED_TRANSITIONS from_state)

theorem can_transition_iff {s t : ReviewState} :
    can_transition s t = true ↔ t ∈ ALLOWED_TRANSITIONS s := by simp [can_transition]

theorem can_transition_irrefl (s : ReviewState) : can_transition s s = false := by
  cases s <;> rfl

/-- From every state that is not terminal the pipeline may still fail. -/
theorem can_transition_failed {s : ReviewState} (h : s.terminal = false) :
    can_transition s .FAILED = true := by
  cases s <;> first | rfl | cases h

end Nitpicker
