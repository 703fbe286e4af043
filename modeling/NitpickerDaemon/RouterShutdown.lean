import NitpickerDaemon.ZmqRouter

/-!
The router from its start to its end: the loop of `start`, `stop`, the signals that cancel the
task of the loop, and the shutdown, which drains the tasks and then closes the socket.
-/

set_option autoImplicit false

namespace Nitpicker

open Effect Text RouterLabel

/-- Where `start` is. It is `abandoned` when a signal cancels `_graceful_shutdown` itself. -/
inductive RouterPhase where
  | head
  | polling
  | acquiring
  | draining
  | cancelling
  | closed
  | abandoned
  deriving DecidableEq, Repr

/-- The phases of the loop. -/
def RouterPhase.serving : RouterPhase → Bool
  | .head | .polling | .acquiring => true
  | _ => false

/-- The phases in which tasks can have been cancelled. -/
def RouterPhase.cancels : RouterPhase → Bool
  | .cancelling | .abandoned => true
  | _ => false

structure RouterServer where
  router : RouterState
  phase : RouterPhase := .head
  is_running : Bool := true

inductive ServerLabel where
  | routed (l : RouterLabel)
  | entered
  | idle
  | stopped
  | left
  | interrupted
  | expired
  | cancelled (task : Nat)
  | abandoned
  | closed

/-- The label of a step that a task takes. -/
def RouterLabel.of_task : RouterLabel → Bool
  | .received _ | .accepted => false
  | _ => true

/-- A task that is at an `await`, or has not begun. -/
def TaskStage.suspended : TaskStage → Bool
  | .created | .handling _ _ | .replying _ => true
  | _ => false

namespace RouterServer

/-- The loop, the tasks, `stop` and the signals come in any order. -/
inductive Step (router : ZmqRouter) : RouterServer → ServerLabel → RouterServer → Prop where
  | enter {s : RouterServer} : s.phase = .head → s.is_running = true →
      Step router s .entered { s with phase := .polling }
  | idle {s : RouterServer} : s.phase = .polling → Step router s .idle { s with phase := .head }
  | receive {s : RouterServer} {frames : List (List UInt8)} {r : RouterState} :
      s.phase = .polling → RouterState.Step router s.router (.received frames) r →
      Step router s (.routed (.received frames))
        { s with router := r, phase := if (accept_frames frames).isSome then .acquiring else .head }
  | accept {s : RouterServer} {r : RouterState} : s.phase = .acquiring →
      RouterState.Step router s.router .accepted r →
      Step router s (.routed .accepted) { s with router := r, phase := .head }
  | task {s : RouterServer} {l : RouterLabel} {r : RouterState} : s.phase ≠ .closed →
      l.of_task = true → RouterState.Step router s.router l r →
      Step router s (.routed l) { s with router := r }
  | stop {s : RouterServer} : Step router s .stopped { s with is_running := false }
  | leave {s : RouterServer} : s.phase = .head → s.is_running = false →
      Step router s .left { s with phase := .draining }
  -- a message that waits for the semaphore is dropped
  | interrupt {s : RouterServer} : s.phase = .polling ∨ s.phase = .acquiring →
      Step router s .interrupted
        ⟨{ s.router with waiting := none }, .draining, false⟩
  | expire {s : RouterServer} : s.phase = .draining → 0 < s.router.running →
      Step router s .expired { s with phase := .cancelling }
  | cancel {s : RouterServer} {n : Nat} {t : RouterTask} : s.phase.cancels = true →
      s.router.tasks[n]? = some t → t.stage.suspended = true →
      Step router s (.cancelled n) { s with router := s.router.set_stage n t .finished }
  | abandon {s : RouterServer} : s.phase = .draining ∨ s.phase = .cancelling →
      0 < s.router.running → Step router s .abandoned { s with phase := .abandoned }
  | close {s : RouterServer} : s.phase = .draining ∨ s.phase = .cancelling →
      s.router.running = 0 → Step router s .closed { s with phase := .closed }

abbrev Run (router : ZmqRouter) : List ServerLabel → RouterServer → Prop :=
  LabelledRun (Step router) { router := { permits := router.max_concurrent_jobs } }

end RouterServer

namespace ServerLabel

def router_label : ServerLabel → Option RouterLabel
  | .routed l => some l
  | _ => none

/-- The steps of the loop and of the tasks. -/
def routed_labels (log : List ServerLabel) : List RouterLabel := log.filterMap router_label

@[simp] theorem routed_labels_snoc (log : List ServerLabel) (l : ServerLabel) :
    routed_labels (log ++ [l]) = routed_labels log ++ l.router_label.toList := by
  cases h : l.router_label <;> simp [routed_labels, h]

end ServerLabel

open ServerLabel

/-- The step of a task other than `n`, or of the loop. -/
def ServerLabel.Aside (l : ServerLabel) (n : Nat) : Prop :=
  l ≠ .cancelled n ∧ ∀ r, l.router_label = some r → r.Aside n

section TaskSteps

variable {router : ZmqRouter} {r r' : RouterState} {l : RouterLabel}

/-- What a step of a task does: it moves one task on, and gives its permit back at the end. -/
structure Moves (router : ZmqRouter) (r : RouterState) (l : RouterLabel) (r' : RouterState)
    (n : Nat) (t : RouterTask) (stage : TaskStage) : Prop where
  task : r.tasks[n]? = some t
  after : r' = { r.set_stage n t stage with permits := r'.permits }
  permits : r'.permits + stage.running.toNat = r.permits + t.stage.running.toNat
  aside : ∀ m, m ≠ n → l.Aside m
  message : l.message = none
  history : ∀ happened sent,
    TaskHistory router t.client_id t.payload_bytes t.stage happened sent →
      TaskHistory router t.client_id t.payload_bytes stage (happened ++ (l.outcome n).toList)
        (sent ++ (l.reply n).toList)
  settled : t.stage.suspended = false → stage.suspended = false ∧ l.reply n = none
  left : stage.left < t.stage.left

theorem moves_of_step (h : RouterState.Step router r l r') (htask : l.of_task = true) :
    ∃ n t stage, Moves router r l r' n t stage := by
  cases h with
  | receive _ => simp [of_task] at htask
  | accept => simp [of_task] at htask
  | @run _ n t hn hstage =>
    refine ⟨n, t, _, hn, rfl, ?_, fun m _ => ⟨rfl, rfl⟩, rfl, fun happened sent h => ?_, ?_, ?_⟩
    · rw [hstage, ZmqRouter.begin_task_running]
      rfl
    · rw [hstage] at h
      simpa [reply, outcome] using h.begin_task
    · simp [hstage, TaskStage.suspended]
    · rw [hstage]
      exact ZmqRouter.begin_task_left _ _
  | @handle _ n t request_id msg_type o hn hstage =>
    refine ⟨n, t, _, hn, rfl, ?_, fun m hm => ⟨rfl, by simp [outcome, Ne.symm hm]⟩, rfl,
      fun happened sent h => ?_, ?_, ?_⟩
    · rw [hstage, ZmqRouter.conclude_running]
      rfl
    · rw [hstage] at h
      simpa [reply, outcome] using h.conclude
    · simp [hstage, TaskStage.suspended]
    · rw [hstage]
      exact ZmqRouter.conclude_left _ _ _
  | @send _ n t reply_data bytes hn hstage hbytes =>
    refine ⟨n, t, _, hn, rfl, ?_, fun m hm => ⟨by simp [reply, Ne.symm hm], rfl⟩, rfl,
      fun happened sent h => ?_, ?_, ?_⟩
    · rw [hstage]
      rfl
    · rw [hstage] at h
      simpa [reply, outcome, hbytes] using h.settle
    · simp [hstage, TaskStage.suspended]
    · simp [hstage, TaskStage.left]
  | @fail _ n t reply_data hn hstage hnone =>
    refine ⟨n, t, _, hn, rfl, ?_, fun m _ => ⟨rfl, rfl⟩, rfl, fun happened sent h => ?_, ?_, ?_⟩
    · rw [hstage]
      rfl
    · rw [hstage] at h
      simpa [reply, outcome, hnone] using h.settle
    · simp [hstage, TaskStage.suspended]
    · simp [hstage, TaskStage.left]
  | @release _ n t hn hstage =>
    refine ⟨n, t, _, hn, rfl, ?_, fun m _ => ⟨rfl, rfl⟩, rfl, fun happened sent h => ?_, ?_, ?_⟩
    · rw [hstage]
      rfl
    · rw [hstage] at h
      simpa [reply, outcome] using h.release
    · exact fun _ => ⟨rfl, rfl⟩
    · simp [hstage, TaskStage.left]

theorem accepted_eq (h : RouterState.Step router r .accepted r') :
    ∃ p client_id payload_bytes tasks, r = ⟨p + 1, some (client_id, payload_bytes), tasks⟩ ∧
      r' = ⟨p, none, tasks ++ [⟨client_id, payload_bytes, .created⟩]⟩ := by
  cases h with
  | accept => exact ⟨_, _, _, _, rfl, rfl⟩

theorem received_eq {frames : List (List UInt8)}
    (h : RouterState.Step router r (.received frames) r') :
    r.waiting = none ∧ r' = { r with waiting := accept_frames frames } := by
  cases h with
  | receive hnone => exact ⟨hnone, rfl⟩

theorem TaskHistory.unsent {client_id payload_bytes : List UInt8} {stage : TaskStage}
    {happened : List HandlerOutcome} {sent : List (List UInt8 × List UInt8)}
    (h : TaskHistory router client_id payload_bytes stage happened sent)
    (hsuspended : stage.suspended = true) : sent = [] := by
  cases h with
  | created => rfl
  | handling _ => rfl
  | replying _ => rfl
  | finished _ hstage =>
    rcases hstage with rfl | rfl
    · simp [TaskStage.suspended] at hsuspended
    · simp [TaskStage.suspended] at hsuspended

/-- A task that is done has sent one reply just when that has no lone surrogate. -/
theorem TaskHistory.answered_iff {log : List RouterLabel} {n : Nat} {t : RouterTask}
    (h : TaskHistory router t.client_id t.payload_bytes t.stage (outcomes log n) (replies log n))
    (hdone : t.stage = .done) : RouterState.Answered router log n t ↔
      (router.field t.payload_bytes "request_id").Scalar ∧
      (router.field t.payload_bytes "message_type").Scalar ∧ ∀ o ∈ outcomes log n, o.Scalar := by
  obtain ⟨reply_data, hbuilt, hreplies⟩ := h.ended hdone
  rw [← hbuilt.scalar_iff, RouterState.Answered, hreplies]
  cases hbytes : router.reply_bytes reply_data with
  | none => simp
  | some bytes => simpa using ⟨reply_data, hbytes, hbuilt.carries_request_id⟩

theorem set_stage_messages {n : Nat} {t : RouterTask} {stage : TaskStage}
    (hn : r.tasks[n]? = some t) :
    (r.set_stage n t stage).tasks.map (fun t => (t.client_id, t.payload_bytes)) =
      r.tasks.map fun t => (t.client_id, t.payload_bytes) := by
  obtain ⟨hlen, rfl⟩ := List.getElem?_eq_some_iff.mp hn
  rw [RouterState.set_stage, List.map_set]
  exact List.ext_getElem (by simp) fun i h₁ h₂ => by grind

end TaskSteps

/-- What is known of task `n`: it was cancelled before it could send, or it goes the way of a task
that is left alone. -/
inductive TaskFate (router : ZmqRouter) (log : List ServerLabel) (n : Nat) (t : RouterTask) :
    Prop where
  | kept : ServerLabel.cancelled n ∉ log →
      TaskHistory router t.client_id t.payload_bytes t.stage (outcomes (routed_labels log) n)
        (replies (routed_labels log) n) → TaskFate router log n t
  | cut : ServerLabel.cancelled n ∈ log → t.stage.suspended = false →
      replies (routed_labels log) n = [] → TaskFate router log n t

section Fate

variable {router : ZmqRouter} {log : List ServerLabel} {l : ServerLabel}

theorem aside_same {n : Nat} (haside : l.Aside n) :
    outcomes (routed_labels (log ++ [l])) n = outcomes (routed_labels log) n ∧
      replies (routed_labels (log ++ [l])) n = replies (routed_labels log) n ∧
      (ServerLabel.cancelled n ∈ log ++ [l] ↔ ServerLabel.cancelled n ∈ log) := by
  have hlog : ServerLabel.cancelled n ∈ log ++ [l] ↔ ServerLabel.cancelled n ∈ log := by
    simp [Ne.symm haside.1]
  rw [routed_labels_snoc]
  cases hrouted : l.router_label with
  | none => simp [hlog]
  | some r =>
    obtain ⟨hreply, houtcome⟩ := haside.2 r hrouted
    simp [hreply, houtcome, hlog]

theorem TaskFate.aside {n : Nat} {t : RouterTask} (h : TaskFate router log n t)
    (haside : l.Aside n) : TaskFate router (log ++ [l]) n t := by
  obtain ⟨houtcomes, hreplies, hlog⟩ := @aside_same log _ _ haside
  cases h with
  | kept hnot hhistory => exact .kept (by rwa [hlog]) (by rwa [houtcomes, hreplies])
  | cut hcut hstage hsent => exact .cut (by rwa [hlog]) hstage (by rwa [hreplies])

/-- A task of a step that moves it goes on to its next fate. -/
theorem TaskFate.moves {r r' : RouterState} {m : RouterLabel} {n : Nat} {t : RouterTask}
    {stage : TaskStage} (h : TaskFate router log n t) (hmoves : Moves router r m r' n t stage) :
    TaskFate router (log ++ [.routed m]) n { t with stage } := by
  have hlog : ServerLabel.cancelled n ∈ log ++ [.routed m] ↔ ServerLabel.cancelled n ∈ log := by
    simp
  cases h with
  | kept hnot hhistory =>
    refine .kept (by rwa [hlog]) ?_
    simpa [router_label] using hmoves.history _ _ hhistory
  | cut hcut hstage hsent =>
    obtain ⟨hsettled, hreply⟩ := hmoves.settled hstage
    exact .cut (by rwa [hlog]) hsettled (by simp [router_label, hsent, hreply])

end Fate

namespace RouterServer

variable {router : ZmqRouter} {log : List ServerLabel} {s s' : RouterServer} {l : ServerLabel}

/-- The steps that are no step of a task leave the permits and the running tasks in balance. -/
structure TasksKept (router : ZmqRouter) (log : List ServerLabel) (r : RouterState) : Prop where
  permits : r.permits + r.running = router.max_concurrent_jobs
  fate : ∀ (n : Nat) (t : RouterTask), r.tasks[n]? = some t → TaskFate router log n t
  fresh : ∀ n, r.tasks.length ≤ n → outcomes (routed_labels log) n = [] ∧
    replies (routed_labels log) n = [] ∧ ServerLabel.cancelled n ∉ log

/-- Of the messages that were received, each has its task, waits for one, or was dropped by a
signal while it waited. -/
structure MessagesKept (log : List ServerLabel) (s : RouterServer) : Prop where
  messages : ∃ dropped : List (List UInt8 × List UInt8),
    s.router.tasks.map (fun t => (t.client_id, t.payload_bytes)) ++ s.router.waiting.toList ++
      dropped = messages (routed_labels log) ∧
    dropped.length ≤ 1 ∧ (s.phase.serving = true → dropped = [])
  waiting : s.router.waiting.isSome = true ↔ s.phase = .acquiring

structure PhasesKept (log : List ServerLabel) (s : RouterServer) : Prop where
  stopped : s.phase.serving = false → s.is_running = false
  cancelled : ∀ n, ServerLabel.cancelled n ∈ log →
    ServerLabel.expired ∈ log ∨ ServerLabel.abandoned ∈ log
  cancels : s.phase.cancels = true → ServerLabel.expired ∈ log ∨ ServerLabel.abandoned ∈ log
  closed : s.phase = .closed → s.router.running = 0

namespace TasksKept

variable {r r' : RouterState} {n : Nat} {t : RouterTask} {stage : TaskStage}

/-- A step that takes no task on keeps the tasks. -/
theorem aside (h : TasksKept router log r) (haside : ∀ n, l.Aside n)
    (htasks : r'.tasks = r.tasks) (hpermits : r'.permits = r.permits) :
    TasksKept router (log ++ [l]) r' := by
  refine ⟨?_, fun n t hn => (h.fate n t (htasks ▸ hn)).aside (haside n), fun n hn => ?_⟩
  · rw [hpermits, RouterState.running, htasks]
    exact h.permits
  · obtain ⟨houtcomes, hreplies, hlog⟩ := @aside_same log _ _ (haside n)
    rw [houtcomes, hreplies, hlog]
    exact h.fresh n (htasks ▸ hn)

/-- A task goes on, and the others stay as they are. -/
theorem advance (h : TasksKept router log r) (hn : r.tasks[n]? = some t)
    (hafter : r' = { r.set_stage n t stage with permits := r'.permits })
    (hpermits : r'.permits + stage.running.toNat = r.permits + t.stage.running.toNat)
    (haside : ∀ m, m ≠ n → l.Aside m) (hfate : TaskFate router (log ++ [l]) n { t with stage }) :
    TasksKept router (log ++ [l]) r' := by
  have hlen := (List.getElem?_eq_some_iff.mp hn).1
  have htasks : r'.tasks = r.tasks.set n { t with stage } := by rw [hafter]; rfl
  refine ⟨?_, fun m u hm => ?_, fun m hm => ?_⟩
  · have hrunning : (r.set_stage n t stage).running + t.stage.running.toNat =
        r.running + stage.running.toNat := RouterState.running_set_stage hn
    have hsame : r'.running = (r.set_stage n t stage).running := by rw [hafter]; rfl
    have hold := h.permits
    omega
  · rw [htasks] at hm
    by_cases hmn : m = n
    · subst hmn
      rw [List.getElem?_set_self hlen] at hm
      exact Option.some.inj hm ▸ hfate
    · rw [List.getElem?_set_ne (Ne.symm hmn)] at hm
      exact (h.fate m u hm).aside (haside m hmn)
  · rw [htasks, List.length_set] at hm
    obtain ⟨houtcomes, hreplies, hlog⟩ :=
      @aside_same log _ _ (haside m (by omega))
    rw [houtcomes, hreplies, hlog]
    exact h.fresh m hm

theorem accept {client_id payload_bytes : List UInt8} {p : Nat} {tasks : List RouterTask}
    (h : TasksKept router log ⟨p + 1, some (client_id, payload_bytes), tasks⟩) :
    TasksKept router (log ++ [.routed .accepted])
      ⟨p, none, tasks ++ [⟨client_id, payload_bytes, .created⟩]⟩ := by
  have haside : ∀ n, (ServerLabel.routed .accepted).Aside n := fun n =>
    ⟨nofun, fun r hr => by cases hr; exact ⟨rfl, rfl⟩⟩
  refine ⟨?_, fun n t hn => ?_, fun n hn => ?_⟩
  · have hold := h.permits
    simp only [RouterState.running, List.countP_append, List.countP_singleton,
      TaskStage.running] at hold ⊢
    simp only [if_true]
    omega
  · rw [List.getElem?_append] at hn
    split at hn
    · exact (h.fate n t hn).aside (haside n)
    · rename_i hlen
      obtain ⟨houtcomes, hreplies, hnot⟩ := h.fresh n (Nat.le_of_not_lt hlen)
      rw [List.getElem?_singleton] at hn
      split at hn
      · obtain rfl := Option.some.inj hn
        refine TaskFate.aside (.kept hnot ?_) (haside n)
        rw [houtcomes, hreplies]
        exact .created
      · cases hn
  · simp only [List.length_append, List.length_singleton] at hn
    obtain ⟨houtcomes, hreplies, hlog⟩ := @aside_same log _ _ (haside n)
    rw [houtcomes, hreplies, hlog]
    exact h.fresh n (Nat.le_of_succ_le hn)

/-- A task that is cancelled ends without a reply. -/
theorem cut (h : TasksKept router log r) (hn : r.tasks[n]? = some t)
    (hsuspended : t.stage.suspended = true) :
    TasksKept router (log ++ [.cancelled n]) (r.set_stage n t .finished) := by
  have hsent : replies (routed_labels log) n = [] := by
    cases h.fate n t hn with
    | kept _ hhistory => exact hhistory.unsent hsuspended
    | cut _ hsettled _ => simp [hsettled] at hsuspended
  refine h.advance hn rfl ?_ (fun m hm => ⟨by simp [Ne.symm hm], nofun⟩)
    (.cut (by simp) rfl (by simpa [router_label] using hsent))
  cases hstage : t.stage <;> simp_all [TaskStage.suspended, TaskStage.running, RouterState.set_stage]

end TasksKept

theorem TasksKept.step (h : TasksKept router log s.router) (hs : Step router s l s') :
    TasksKept router (log ++ [l]) s'.router := by
  have hquiet : ∀ n, l ≠ .cancelled n → l.router_label = none → l.Aside n := fun n hne hnone =>
    ⟨hne, fun r hr => by rw [hnone] at hr; cases hr⟩
  cases hs with
  | enter => exact h.aside (fun n => hquiet n nofun rfl) rfl rfl
  | idle => exact h.aside (fun n => hquiet n nofun rfl) rfl rfl
  | receive _ hr =>
    obtain ⟨-, rfl⟩ := received_eq hr
    exact h.aside (fun n => ⟨nofun, fun r hr => by cases hr; exact ⟨rfl, rfl⟩⟩) rfl rfl
  | accept _ hr =>
    obtain ⟨p, client_id, payload_bytes, tasks, hold, rfl⟩ := accepted_eq hr
    rw [hold] at h
    exact h.accept
  | task _ htask hr =>
    obtain ⟨n, t, stage, hmoves⟩ := moves_of_step hr htask
    refine h.advance hmoves.task hmoves.after hmoves.permits (fun m hm => ⟨nofun, fun r hr => ?_⟩)
      ((h.fate n t hmoves.task).moves hmoves)
    cases hr
    exact hmoves.aside m hm
  | stop => exact h.aside (fun n => hquiet n nofun rfl) rfl rfl
  | leave => exact h.aside (fun n => hquiet n nofun rfl) rfl rfl
  | interrupt => exact h.aside (fun n => hquiet n nofun rfl) rfl rfl
  | expire => exact h.aside (fun n => hquiet n nofun rfl) rfl rfl
  | cancel _ hn hsuspended => exact h.cut hn hsuspended
  | abandon => exact h.aside (fun n => hquiet n nofun rfl) rfl rfl
  | close => exact h.aside (fun n => hquiet n nofun rfl) rfl rfl

theorem MessagesKept.step (h : MessagesKept log s) (hs : Step router s l s') :
    MessagesKept (log ++ [l]) s' := by
  obtain ⟨⟨dropped, hmessages, hlength, hserving⟩, hwaiting⟩ := h
  have hfree : s.phase ≠ .acquiring → s.router.waiting = none := fun hne => by
    rw [← Option.not_isSome_iff_eq_none, hwaiting]
    exact hne
  cases hs with
  | enter hphase _ =>
    refine ⟨⟨dropped, by simpa [router_label] using hmessages, hlength, fun _ => ?_⟩, ?_⟩
    · exact hserving (by simp [hphase, RouterPhase.serving])
    · simp [hfree (by simp [hphase])]
  | idle hphase =>
    refine ⟨⟨dropped, by simpa [router_label] using hmessages, hlength, fun _ => ?_⟩, ?_⟩
    · exact hserving (by simp [hphase, RouterPhase.serving])
    · simp [hfree (by simp [hphase])]
  | @receive frames _ hphase hr =>
    obtain rfl := hserving (by simp [hphase, RouterPhase.serving])
    obtain ⟨hnone, rfl⟩ := received_eq hr
    refine ⟨⟨[], ?_, hlength, fun _ => rfl⟩, ?_⟩
    · simpa [hnone, router_label, message] using hmessages
    · cases haccept : accept_frames frames <;> simp
  | accept hphase hr =>
    obtain rfl := hserving (by simp [hphase, RouterPhase.serving])
    obtain ⟨p, client_id, payload_bytes, tasks, hold, rfl⟩ := accepted_eq hr
    refine ⟨⟨[], ?_, hlength, fun _ => rfl⟩, by simp⟩
    simpa [hold, router_label, message] using hmessages
  | task _ htask hr =>
    obtain ⟨n, t, stage, hmoves⟩ := moves_of_step hr htask
    have htasks := congrArg (fun r : RouterState =>
      r.tasks.map fun t => (t.client_id, t.payload_bytes)) hmoves.after
    have hsame := congrArg RouterState.waiting hmoves.after
    simp only [set_stage_messages hmoves.task] at htasks hsame
    refine ⟨⟨dropped, ?_, hlength, hserving⟩, ?_⟩
    · simpa [htasks, hsame, RouterState.set_stage, router_label, hmoves.message] using hmessages
    · simpa [hsame, RouterState.set_stage] using hwaiting
  | stop => exact ⟨⟨dropped, by simpa [router_label] using hmessages, hlength, hserving⟩, hwaiting⟩
  | leave hphase _ =>
    refine ⟨⟨dropped, by simpa [router_label] using hmessages, hlength,
      by simp [RouterPhase.serving]⟩, ?_⟩
    simp [hfree (by simp [hphase])]
  | interrupt hphase =>
    obtain rfl := hserving (by rcases hphase with h | h <;> simp [h, RouterPhase.serving])
    refine ⟨⟨s.router.waiting.toList, by simpa [router_label] using hmessages, ?_,
      by simp [RouterPhase.serving]⟩, by simp⟩
    cases s.router.waiting <;> simp
  | expire hphase _ =>
    refine ⟨⟨dropped, by simpa [router_label] using hmessages, hlength,
      by simp [RouterPhase.serving]⟩, ?_⟩
    simp [hfree (by simp [hphase])]
  | @cancel n t _ hn _ =>
    refine ⟨⟨dropped, ?_, hlength, hserving⟩, by simpa [RouterState.set_stage] using hwaiting⟩
    have htasks := @set_stage_messages _ n _ .finished hn
    simp only [htasks]
    simpa [RouterState.set_stage, router_label] using hmessages
  | abandon hphase _ =>
    refine ⟨⟨dropped, by simpa [router_label] using hmessages, hlength,
      by simp [RouterPhase.serving]⟩, ?_⟩
    simp [hfree (by rcases hphase with h | h <;> simp [h])]
  | close hphase _ =>
    refine ⟨⟨dropped, by simpa [router_label] using hmessages, hlength,
      by simp [RouterPhase.serving]⟩, ?_⟩
    simp [hfree (by rcases hphase with h | h <;> simp [h])]

theorem PhasesKept.step (h : PhasesKept log s) (hs : Step router s l s') :
    PhasesKept (log ++ [l]) s' := by
  obtain ⟨hstopped, hcancelled, hcancels, hclosed⟩ := h
  have hmore : ServerLabel.expired ∈ log ∨ ServerLabel.abandoned ∈ log →
      ServerLabel.expired ∈ log ++ [l] ∨ ServerLabel.abandoned ∈ log ++ [l] := fun h =>
    h.imp (fun h => by simp [h]) fun h => by simp [h]
  have hkept : (∀ n, l ≠ .cancelled n) → ∀ n, ServerLabel.cancelled n ∈ log ++ [l] →
      ServerLabel.expired ∈ log ++ [l] ∨ ServerLabel.abandoned ∈ log ++ [l] := fun hne n hn => by
    rcases List.mem_append.mp hn with hn | hn
    · exact hmore (hcancelled n hn)
    · exact absurd (List.mem_singleton.mp hn).symm (hne n)
  cases hs with
  | enter hphase _ => exact ⟨nofun, hkept nofun, nofun, nofun⟩
  | idle hphase => exact ⟨nofun, hkept nofun, nofun, nofun⟩
  | @receive frames r hphase hr =>
    cases haccept : accept_frames frames with
    | none => exact ⟨nofun, hkept nofun, nofun, nofun⟩
    | some _ => exact ⟨nofun, hkept nofun, nofun, nofun⟩
  | accept hphase hr => exact ⟨nofun, hkept nofun, nofun, nofun⟩
  | task hopen _ hr =>
    exact ⟨hstopped, hkept nofun, fun h => hmore (hcancels h), fun h => absurd h hopen⟩
  | stop => exact ⟨fun _ => rfl, hkept nofun, fun h => hmore (hcancels h), hclosed⟩
  | leave _ hoff => exact ⟨fun _ => hoff, hkept nofun, nofun, nofun⟩
  | interrupt _ => exact ⟨fun _ => rfl, hkept nofun, nofun, nofun⟩
  | expire hphase _ =>
    exact ⟨fun _ => hstopped (by simp [hphase, RouterPhase.serving]), hkept nofun,
      fun _ => .inl (by simp), nofun⟩
  | cancel hphase hn _ =>
    refine ⟨hstopped, fun n _ => hmore (hcancels hphase), fun _ => hmore (hcancels hphase), fun h => ?_⟩
    simp only at h
    simp [h, RouterPhase.cancels] at hphase
  | abandon hphase _ =>
    refine ⟨fun _ => hstopped ?_, hkept nofun, fun _ => .inr (by simp), nofun⟩
    rcases hphase with h | h <;> simp [h, RouterPhase.serving]
  | close hphase hnone =>
    refine ⟨fun _ => hstopped ?_, hkept nofun, nofun, fun _ => hnone⟩
    rcases hphase with h | h <;> simp [h, RouterPhase.serving]

theorem Run.kept (h : Run router log s) :
    TasksKept router log s.router ∧ MessagesKept log s ∧ PhasesKept log s := by
  refine LabelledRun.invariant (I := fun log s => TasksKept router log s.router ∧
    MessagesKept log s ∧ PhasesKept log s) ?_
    (fun _ _ _ _ _ ih hs => ⟨ih.1.step hs, ih.2.1.step hs, ih.2.2.step hs⟩) h
  refine ⟨⟨rfl, nofun, fun n _ => ⟨rfl, rfl, nofun⟩⟩, ⟨⟨[], rfl, Nat.zero_le _, fun _ => rfl⟩, ?_⟩,
    ⟨nofun, nofun, nofun, nofun⟩⟩
  simp

/-- Once `stop` was called, one more message can come: the one the loop was polling for. -/
theorem stopped_receives (h : Run router log s) {before after : List ServerLabel}
    (hlog : log = before ++ .stopped :: after) :
    (messages (routed_labels after)).length ≤ 1 := by
  have hsince := LabelledRun.since (m := ServerLabel.stopped) (E := fun _ => False)
    (P := fun _ after s => s.is_running = false ∧ (messages (routed_labels after)).length ≤ 1 ∧
      (s.phase = .polling → messages (routed_labels after) = [])) ?_ ?_ h hlog (fun _ _ => id)
  · exact hsince.2.1
  · intro log s s' _ hs
    cases hs with
    | stop => exact ⟨rfl, Nat.zero_le _, fun _ => rfl⟩
  · rintro before after s l s' - ⟨hoff, hlength, hpolling⟩ hs -
    cases hs with
    | enter _ hon => rw [hoff] at hon; cases hon
    | idle hphase => simpa [router_label, hoff] using hlength
    | @receive frames _ hphase hr =>
      refine ⟨hoff, ?_, fun h => ?_⟩
      · simp only [routed_labels_snoc, router_label, Option.toList_some, messages_snoc,
          hpolling hphase, message, List.nil_append]
        cases accept_frames frames <;> simp
      · split at h <;> cases h
    | accept _ hr => simpa [router_label, message, hoff] using hlength
    | task _ htask hr =>
      obtain ⟨n, t, stage, hmoves⟩ := moves_of_step hr htask
      simpa [router_label, hmoves.message, hoff] using ⟨hlength, hpolling⟩
    | stop => simpa [router_label] using ⟨hlength, hpolling⟩
    | leave _ _ => simpa [router_label, hoff] using hlength
    | interrupt _ => simpa [router_label] using hlength
    | expire _ _ => simpa [router_label, hoff] using hlength
    | cancel _ _ _ => simpa [router_label, hoff] using ⟨hlength, hpolling⟩
    | abandon _ _ => simpa [router_label, hoff] using hlength
    | close _ _ => simpa [router_label, hoff] using hlength

/-- Nothing happens after the socket is closed. -/
theorem closed_still (h : Run router log s) {before after : List ServerLabel}
    (hlog : log = before ++ .closed :: after) : ∀ l ∈ after, l = .stopped := by
  have hsince := LabelledRun.since (m := ServerLabel.closed) (E := fun _ => False)
    (P := fun _ after s => s.phase = .closed ∧ ∀ l ∈ after, l = .stopped) ?_ ?_ h hlog
    (fun _ _ => id)
  · exact hsince.2
  · intro log s s' _ hs
    cases hs with
    | close _ _ => exact ⟨rfl, nofun⟩
  · rintro before after s l s' - ⟨hphase, hstill⟩ hs -
    cases hs with
    | stop => exact ⟨hphase, fun l hl => by simpa using (List.mem_append.mp hl).imp_left (hstill l)⟩
    | task hopen _ _ => exact absurd hphase hopen
    | _ => simp_all [RouterPhase.cancels]

theorem stage_done {r : RouterState} {n : Nat} {t : RouterTask} (hnone : r.running = 0)
    (hn : r.tasks[n]? = some t) : t.stage = .done := by
  have hstopped := List.countP_eq_zero.mp hnone t (List.mem_of_getElem? hn)
  cases hstage : t.stage <;> simp_all [TaskStage.running]

/-- The permits stay in balance through the shutdown, no task replies twice, and no cancelled one
replies; when the socket is closed every task is done and every permit free, and a task that was
not cancelled has sent its reply just when that has no lone surrogate. At most one message is
dropped, and at most one is received after `stop`. -/
theorem shutdown_settles (h : Run router log s) :
    s.router.permits + s.router.running = router.max_concurrent_jobs ∧
    (∃ dropped, s.router.tasks.map (fun t => (t.client_id, t.payload_bytes)) ++
        s.router.waiting.toList ++ dropped = messages (routed_labels log) ∧
      dropped.length ≤ 1 ∧ (s.phase.serving = true → dropped = [])) ∧
    (∀ before after, log = before ++ .stopped :: after →
      (messages (routed_labels after)).length ≤ 1) ∧
    (∀ before after, log = before ++ .closed :: after → ∀ l ∈ after, l = .stopped) ∧
    (∀ n, (replies (routed_labels log) n).length ≤ 1) ∧
    (∀ n, ServerLabel.cancelled n ∈ log → replies (routed_labels log) n = [] ∧
      (ServerLabel.expired ∈ log ∨ ServerLabel.abandoned ∈ log)) ∧
    (s.phase = .closed → s.router.permits = router.max_concurrent_jobs ∧
      s.router.waiting = none ∧ ∀ n t, s.router.tasks[n]? = some t → t.stage = .done ∧
        (ServerLabel.cancelled n ∉ log → (RouterState.Answered router (routed_labels log) n t ↔
          (router.field t.payload_bytes "request_id").Scalar ∧
          (router.field t.payload_bytes "message_type").Scalar ∧
          ∀ o ∈ outcomes (routed_labels log) n, o.Scalar))) := by
  obtain ⟨⟨hpermits, hfate, hfresh⟩, ⟨hmessages, hwaiting⟩, hstopped, hcancelled, hcancels, hclosed⟩ :=
    Run.kept h
  refine ⟨hpermits, hmessages, fun _ _ => stopped_receives h, fun _ _ => closed_still h,
    fun n => ?_, fun n hn => ⟨?_, hcancelled n hn⟩, fun hphase => ⟨?_, ?_, fun n t hn => ?_⟩⟩
  · cases hn : s.router.tasks[n]? with
    | none => simp [(hfresh n (List.getElem?_eq_none_iff.mp hn)).2.1]
    | some t =>
      cases hfate n t hn with
      | kept _ hhistory => exact hhistory.replies_length
      | cut _ _ hsent => simp [hsent]
  · cases htask : s.router.tasks[n]? with
    | none => exact absurd hn (hfresh n (List.getElem?_eq_none_iff.mp htask)).2.2
    | some t =>
      cases hfate n t htask with
      | kept hnot _ => exact absurd hn hnot
      | cut _ _ hsent => exact hsent
  · rw [← hpermits, hclosed hphase, Nat.add_zero]
  · rw [← Option.not_isSome_iff_eq_none, hwaiting, hphase]
    nofun
  · have hdone := stage_done (hclosed hphase) hn
    refine ⟨hdone, fun hnot => ?_⟩
    cases hfate n t hn with
    | cut hcut _ _ => exact absurd hcut hnot
    | kept _ hhistory => exact hhistory.answered_iff hdone

section Drain

theorem left_moves {r r' : RouterState} {m : RouterLabel} {n : Nat} {t : RouterTask}
    {stage : TaskStage} (hmoves : Moves router r m r' n t stage) : r'.left < r.left := by
  have hset := RouterState.left_set_stage hmoves.task hmoves.left
  have hsame := congrArg RouterState.left hmoves.after
  exact hsame.trans_lt hset

/-- After the loop, a step of a task leaves less to do, and no other step more. -/
theorem left_step (hphase : s.phase.serving = false) (hs : Step router s l s') :
    s'.phase.serving = false ∧ l.router_label.toList.length + s'.router.left ≤ s.router.left ∧
      (∀ r, l.router_label = some r → r.message = none) := by
  cases hs with
  | enter h _ => simp [h, RouterPhase.serving] at hphase
  | idle h => simp [h, RouterPhase.serving] at hphase
  | receive h _ => simp [h, RouterPhase.serving] at hphase
  | accept h _ => simp [h, RouterPhase.serving] at hphase
  | task _ htask hr =>
    obtain ⟨n, t, stage, hmoves⟩ := moves_of_step hr htask
    have hleft := left_moves hmoves
    refine ⟨hphase, ?_, fun r hr => by cases hr; exact hmoves.message⟩
    simp only [router_label, Option.toList_some, List.length_singleton]
    omega
  | stop => simpa [router_label] using hphase
  | leave h _ => simp [h, RouterPhase.serving] at hphase
  | interrupt h => rcases h with h | h <;> simp [h, RouterPhase.serving] at hphase
  | expire _ _ => simp [router_label, RouterPhase.serving]
  | @cancel n t _ hn hsuspended =>
    have hleft : (s.router.set_stage n t .finished).left < s.router.left := by
      refine RouterState.left_set_stage hn ?_
      cases hstage : t.stage <;> simp_all [TaskStage.left, TaskStage.suspended]
    refine ⟨hphase, ?_, by simp [router_label]⟩
    simpa [router_label] using hleft.le
  | abandon _ _ => simp [router_label, RouterPhase.serving]
  | close _ _ => simp [router_label, RouterPhase.serving]

theorem drain_bounded (hphase : s.phase.serving = false) {more : List ServerLabel}
    (hmore : LabelledRun (Step router) s more s') : s'.phase.serving = false ∧
      (routed_labels more).length + s'.router.left ≤ s.router.left ∧
      messages (routed_labels more) = [] := by
  refine LabelledRun.invariant (I := fun more s' => s'.phase.serving = false ∧
    (routed_labels more).length + s'.router.left ≤ s.router.left ∧
    messages (routed_labels more) = []) ⟨hphase, by simp [routed_labels], rfl⟩ ?_ hmore
  rintro more s₁ l s₂ - ⟨hserving, hleft, hnone⟩ hs
  obtain ⟨hserving', hstep, hmessage⟩ := left_step hserving hs
  refine ⟨hserving', ?_, ?_⟩
  · rw [routed_labels_snoc, List.length_append]
    omega
  · rw [routed_labels_snoc]
    cases hrouted : l.router_label with
    | none => simpa using hnone
    | some r => simp [hnone, hmessage r hrouted]

/-- While a task runs, one of them can take a step. -/
theorem task_step {r : RouterState} (hrunning : 0 < r.running) :
    ∃ l r', RouterState.Step router r l r' ∧ l.of_task = true := by
  obtain ⟨t, ht, hstage⟩ := List.countP_pos_iff.mp hrunning
  obtain ⟨n, hn⟩ := List.getElem?_of_mem ht
  cases hstage' : t.stage with
  | created => exact ⟨_, _, .run hn hstage', rfl⟩
  | handling request_id msg_type =>
    exact ⟨_, _, @RouterState.Step.handle _ _ _ _ _ _ (.returns []) hn hstage', rfl⟩
  | replying reply_data =>
    cases hbytes : router.reply_bytes reply_data with
    | some bytes => exact ⟨_, _, .send hn hstage' hbytes, rfl⟩
    | none => exact ⟨_, _, .fail hn hstage' hbytes, rfl⟩
  | finished => exact ⟨_, _, .release hn hstage', rfl⟩
  | done => simp [hstage', TaskStage.running] at hstage

theorem drain_closes (h : Run router log s) (hphase : s.phase = .draining ∨ s.phase = .cancelling) :
    ∃ more s', Run router (log ++ more) s' ∧ s'.phase = .closed ∧
      ∀ n, ServerLabel.cancelled n ∉ more := by
  induction hk : s.router.left using Nat.strong_induction_on generalizing s log with
  | _ k ih =>
    by_cases hrunning : 0 < s.router.running
    · obtain ⟨l, r, hr, htask⟩ := @task_step router _ hrunning
      have hopen : s.phase ≠ .closed := by rcases hphase with h | h <;> simp [h]
      have hstep : Step router s (.routed l) { s with router := r } := .task hopen htask hr
      obtain ⟨n, t, stage, hmoves⟩ := moves_of_step hr htask
      obtain ⟨more, s', hrun, hclosed, hnot⟩ :=
        ih _ (hk ▸ left_moves hmoves) (h.step hstep) hphase rfl
      exact ⟨.routed l :: more, s', by simpa using hrun, hclosed, fun n => by simpa using hnot n⟩
    · have hstep : Step router s .closed _ := .close hphase (Nat.eq_zero_of_not_pos hrunning)
      exact ⟨[.closed], _, h.step hstep, rfl, fun n => by simp⟩

/-- Once the loop is left, no message is received, the tasks take no more steps than they have left,
and the socket can be closed with no task cancelled, unless a signal reached the shutdown itself. -/
theorem drain_ends (h : Run router log s) (hphase : s.phase.serving = false) :
    (∀ more s', LabelledRun (Step router) s more s' →
      (routed_labels more).length ≤ s.router.left ∧ messages (routed_labels more) = []) ∧
    (s.phase ≠ .abandoned → ∃ more s', Run router (log ++ more) s' ∧ s'.phase = .closed ∧
      ∀ n, ServerLabel.cancelled n ∉ more) := by
  refine ⟨fun more s' hmore => ?_, fun hgoes => ?_⟩
  · obtain ⟨-, hleft, hnone⟩ := drain_bounded hphase hmore
    exact ⟨by omega, hnone⟩
  · cases hat : s.phase with
    | head => simp [hat, RouterPhase.serving] at hphase
    | polling => simp [hat, RouterPhase.serving] at hphase
    | acquiring => simp [hat, RouterPhase.serving] at hphase
    | draining => exact drain_closes h (.inl hat)
    | cancelling => exact drain_closes h (.inr hat)
    | closed => exact ⟨[], s, by simpa using h, hat, nofun⟩
    | abandoned => exact absurd hat hgoes

end Drain

section Samples

/-- A message is accepted, and a signal comes while its task has not begun. -/
def interruptedLog : List ServerLabel :=
  [.entered, .routed (.received [[1], [], []]), .routed .accepted, .entered, .interrupted]

theorem interrupted_run : Run RouterState.pingRouter interruptedLog
    ⟨⟨0, none, [⟨[1], [], .created⟩]⟩, .draining, false⟩ := by
  have hstart : Run RouterState.pingRouter [] ⟨⟨1, none, []⟩, .head, true⟩ := .start
  have hentered := hstart.step (.enter rfl rfl)
  have hreceived := hentered.step (@Step.receive _ _ [[1], [], []] _ rfl (.receive rfl))
  have haccepted := hreceived.step (.accept rfl .accept)
  exact (haccepted.step (.enter rfl rfl)).step (.interrupt (.inl rfl))

theorem interrupted_settles : ∃ s, Run RouterState.pingRouter interruptedLog s ∧
    s.router.permits + s.router.running = 1 ∧
    ∀ n, (replies (routed_labels interruptedLog) n).length ≤ 1 := by
  obtain ⟨hpermits, -, -, -, hreplies, -⟩ := shutdown_settles interrupted_run
  exact ⟨_, interrupted_run, hpermits, hreplies⟩

theorem interrupted_closes : ∃ more s', Run RouterState.pingRouter (interruptedLog ++ more) s' ∧
    s'.phase = .closed ∧ ∀ n, ServerLabel.cancelled n ∉ more :=
  (drain_ends interrupted_run rfl).2 nofun

end Samples

end RouterServer

end Nitpicker
