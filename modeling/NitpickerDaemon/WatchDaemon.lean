import NitpickerDaemon.Effect.Labelled
import NitpickerDaemon.Data.Dict

/-!
The save-triggered daemon: the handler of file events, and the review threads it starts.
-/

set_option autoImplicit false

namespace Nitpicker

open Effect

structure WatchSettings where
  file_extensions : List String
  debounce_seconds : Rat
  skip : Bool := false

/-- `Path(path).name` -/
def path_name (path : String) : List Char :=
  ((path.toList.splitOn '/').filter fun part => part ≠ [] ∧ part ≠ ['.']).getLastD []

/-- `Path(path).suffix` -/
def path_suffix (path : String) : List Char :=
  let (extension, stem) := (path_name path).reverse.span (· ≠ '.')
  if extension = [] ∨ stem.length ≤ 1 then [] else '.' :: extension.reverse

def WatchSettings.watches (settings : WatchSettings) (path : String) : Bool :=
  settings.file_extensions.contains (String.ofList ((path_suffix path).map Char.toLower))

/-- The events of `watchdog`; a handler has no method for the `other` kinds. -/
inductive FileSystemEvent where
  | modified (src_path : String) (is_directory : Bool)
  | created (src_path : String) (is_directory : Bool)
  | moved (src_path dest_path : String) (is_directory : Bool)
  | other (src_path : String) (is_directory : Bool)

/-- The arguments `_handle_path_event` is called with. -/
def FileSystemEvent.path_event : FileSystemEvent → Option (String × Bool)
  | .modified src_path is_directory => some (src_path, is_directory)
  | .created src_path is_directory => some (src_path, is_directory)
  | .moved _ dest_path is_directory => some (dest_path, is_directory)
  | .other _ _ => none

/-- What becomes of an event. -/
inductive PathEvent where
  | ignored
  | suppressed (path : String)
  | admitted (path : String)
  deriving DecidableEq

/-- `_handle_path_event`, with the table `_last_modified` it leaves. -/
def handle_path_event (settings : WatchSettings) (last_modified : List (String × Rat))
    (path : String) (is_directory : Bool) (now : Rat) : PathEvent × List (String × Rat) :=
  if is_directory then (.ignored, last_modified)
  else if settings.watches path = false then (.ignored, last_modified)
  else
    let previous := (last_modified.lookup path).getD 0
    if now - previous < settings.debounce_seconds then (.suppressed path, last_modified)
    else (.admitted path, Dict.set last_modified path now)

/-- A thread of `_run_review`: it waits for `_review_lock`, reads the diff of its file while it
holds the lock, and lets go of it. -/
inductive ReviewStage where
  | waiting
  | started
  | read
  | over
  deriving DecidableEq

def ReviewStage.locked : ReviewStage → Bool
  | .started => true
  | .read => true
  | _ => false

structure WatchWorld where
  last_modified : List (String × Rat) := []
  /-- What `git diff` shows of each file. -/
  contents : String → String := fun _ => ""
  /-- The events the observer has still to deliver. -/
  events : List FileSystemEvent := []
  reviews : List (String × ReviewStage) := []

inductive WatchLabel where
  | saved (path content : String)
  | notified (event : FileSystemEvent)
  | handled (outcome : PathEvent) (now : Rat)
  | started (review : Nat) (path : String)
  | read (review : Nat) (path content : String)
  | unread (review : Nat) (path : String)
  | finished (review : Nat)

/-- What the handler makes of an event at `now`. -/
def dispatch_event (settings : WatchSettings) (last_modified : List (String × Rat))
    (event : FileSystemEvent) (now : Rat) : PathEvent × List (String × Rat) :=
  match event.path_event with
  | some (path, is_directory) => handle_path_event settings last_modified path is_directory now
  | none => (.ignored, last_modified)

/-- The threads an event starts. -/
def PathEvent.reviews : PathEvent → List (String × ReviewStage)
  | .admitted path => [(path, .waiting)]
  | _ => []

namespace WatchWorld

/-- A file is saved, an event is handled, or a thread goes on. -/
inductive Step (settings : WatchSettings) : WatchWorld → WatchLabel → WatchWorld → Prop where
  | save {w : WatchWorld} {path content : String} {event : FileSystemEvent} :
      event.path_event = some (path, false) → Step settings w (.saved path content)
        { w with contents := Function.update w.contents path content, events := w.events ++ [event] }
  | notify {w : WatchWorld} {event : FileSystemEvent} :
      Step settings w (.notified event) { w with events := w.events ++ [event] }
  | handle {table table' : List (String × Rat)} {contents : String → String}
      {event : FileSystemEvent} {events : List FileSystemEvent}
      {reviews : List (String × ReviewStage)} {now : Rat} {outcome : PathEvent} :
      dispatch_event settings table event now = (outcome, table') →
      Step settings ⟨table, contents, event :: events, reviews⟩ (.handled outcome now)
        ⟨table', contents, events, reviews ++ outcome.reviews⟩
  | start {w : WatchWorld} {n : Nat} {path : String} : w.reviews[n]? = some (path, .waiting) →
      (∀ r ∈ w.reviews, r.2.locked = false) → Step settings w (.started n path)
        { w with reviews := w.reviews.set n (path, .started) }
  | read {w : WatchWorld} {n : Nat} {path : String} : settings.skip = false →
      w.reviews[n]? = some (path, .started) → Step settings w (.read n path (w.contents path))
        { w with reviews := w.reviews.set n (path, .read) }
  -- reviews are skipped, or git failed
  | unread {w : WatchWorld} {n : Nat} {path : String} : w.reviews[n]? = some (path, .started) →
      Step settings w (.unread n path) { w with reviews := w.reviews.set n (path, .over) }
  | finish {w : WatchWorld} {n : Nat} {path : String} : w.reviews[n]? = some (path, .read) →
      Step settings w (.finished n) { w with reviews := w.reviews.set n (path, .over) }

/-- Any number of saves and events, with the threads in any order. -/
abbrev Run (settings : WatchSettings) : List WatchLabel → WatchWorld → Prop :=
  LabelledRun (Step settings) {}

/-- Every event is handled and every thread is over. -/
def Quiet (w : WatchWorld) : Prop := w.events = [] ∧ ∀ r ∈ w.reviews, r.2 = .over

end WatchWorld

namespace WatchLabel

/-- When an event of `path` was admitted. -/
def admission (path : String) : WatchLabel → Option Rat
  | .handled (.admitted p) now => if p = path then some now else none
  | _ => none

def last_admission (path : String) (log : List WatchLabel) : Option Rat :=
  (log.filterMap (admission path)).getLast?

/-- A review of `path` that started in the log read `content` in it. -/
def Reads (log : List WatchLabel) (path content : String) : Prop :=
  ∃ n, .started n path ∈ log ∧ .read n path content ∈ log

/-- A review of `path` that started in the log ended without a diff. -/
def GivesUp (log : List WatchLabel) (path : String) : Prop :=
  ∃ n, .started n path ∈ log ∧ .unread n path ∈ log

/-- After `before`, an event of `path` was suppressed: the event admitted last was younger than
`debounce_seconds`. -/
def Suppressed (settings : WatchSettings) (before after : List WatchLabel) (path : String) : Prop :=
  ∃ mid now rest, after = mid ++ .handled (.suppressed path) now :: rest ∧
    now - (last_admission path (before ++ mid)).getD 0 < settings.debounce_seconds

end WatchLabel

theorem handle_admitted {settings : WatchSettings} {table table' : List (String × Rat)}
    {event : FileSystemEvent} {now : Rat} {path : String}
    (h : dispatch_event settings table event now = (.admitted path, table')) :
    table' = Dict.set table path now := by
  unfold dispatch_event at h
  split at h
  · unfold handle_path_event at h
    grind
  · cases h

theorem handle_kept {settings : WatchSettings} {table table' : List (String × Rat)}
    {event : FileSystemEvent} {now : Rat} {outcome : PathEvent}
    (h : dispatch_event settings table event now = (outcome, table'))
    (hout : ∀ path, outcome ≠ .admitted path) : table' = table := by
  unfold dispatch_event at h
  split at h
  · unfold handle_path_event at h
    grind
  · grind

/-- An event of a watched file is suppressed or admitted, by the age of the entry. -/
theorem handle_watched {settings : WatchSettings} {table : List (String × Rat)}
    {event : FileSystemEvent} {now : Rat} {path : String}
    (hevent : event.path_event = some (path, false)) (hw : settings.watches path = true) :
    (dispatch_event settings table event now).1 =
      if now - (table.lookup path).getD 0 < settings.debounce_seconds then .suppressed path
      else .admitted path := by
  unfold dispatch_event
  rw [hevent]
  simp only [handle_path_event, hw]
  split
  · contradiction
  · split
    · contradiction
    · split <;> rfl

namespace WatchWorld

open WatchLabel

variable {settings : WatchSettings} {w w' : WatchWorld} {log before after : List WatchLabel}
  {path content : String}

/-- `_last_modified` holds the times of the last admissions. -/
theorem Run.table (h : Run settings log w) :
    ∀ path, w.last_modified.lookup path = last_admission path log := by
  refine LabelledRun.invariant
    (I := fun log w => ∀ path, w.last_modified.lookup path = last_admission path log)
    (fun _ => rfl) (fun log w l w' _ ih hs path => ?_) h
  have hquiet : ∀ table', l.admission path = none → table' = w.last_modified →
      table'.lookup path = last_admission path (log ++ [l]) := by
    rintro table' hl rfl
    rw [ih path, last_admission, last_admission, List.filterMap_append]
    simp [hl]
  cases hs with
  | save _ => exact hquiet _ rfl rfl
  | notify => exact hquiet _ rfl rfl
  | start _ _ => exact hquiet _ rfl rfl
  | read _ _ => exact hquiet _ rfl rfl
  | unread _ => exact hquiet _ rfl rfl
  | finish _ => exact hquiet _ rfl rfl
  | @handle table table' contents event events reviews now outcome hh =>
    cases outcome with
    | ignored => exact hquiet _ rfl (handle_kept hh fun _ h => by cases h)
    | suppressed p => exact hquiet _ rfl (handle_kept hh fun _ h => by cases h)
    | admitted p =>
      obtain rfl := handle_admitted hh
      have htable := ih path
      simp only [Dict.lookup_set, last_admission, List.filterMap_append, List.filterMap_cons,
        List.filterMap_nil, admission] at htable ⊢
      by_cases hp : p = path
      · subst hp
        simp
      · simp [hp, Ne.symm hp, htable]

/-- What covers the last save of a file: its event, a thread, or what became of them. -/
inductive Covered (settings : WatchSettings) (path content : String)
    (before after : List WatchLabel) (w : WatchWorld) : Prop where
  | queued (event : FileSystemEvent) : event ∈ w.events →
      event.path_event = some (path, false) → Covered settings path content before after w
  | waiting (n : Nat) : w.reviews[n]? = some (path, .waiting) →
      Covered settings path content before after w
  | started (n : Nat) : .started n path ∈ after → w.reviews[n]? = some (path, .started) →
      Covered settings path content before after w
  | reads : Reads after path content → Covered settings path content before after w
  | gives_up : GivesUp after path → Covered settings path content before after w
  | suppressed : Suppressed settings before after path →
      Covered settings path content before after w

/-- An event stays until it is handled. -/
theorem Step.event {l : WatchLabel} (hs : Step settings w l w') {event : FileSystemEvent}
    (he : event ∈ w.events) : event ∈ w'.events ∨ ∃ outcome now, l = .handled outcome now ∧
      dispatch_event settings w.last_modified event now = (outcome, w'.last_modified) ∧
      w'.reviews = w.reviews ++ outcome.reviews := by
  cases hs with
  | save _ => exact .inl (List.mem_append_left _ he)
  | notify => exact .inl (List.mem_append_left _ he)
  | start _ _ => exact .inl he
  | read _ _ => exact .inl he
  | unread _ => exact .inl he
  | finish _ => exact .inl he
  | handle hh =>
    rcases List.mem_cons.mp he with rfl | he
    · exact .inr ⟨_, _, rfl, hh, rfl⟩
    · exact .inl he

theorem set_stage {reviews : List (String × ReviewStage)} {k n : Nat} {old stage new : ReviewStage}
    {other : String} (hk : reviews[k]? = some (other, old)) (hn : reviews[n]? = some (path, stage)) :
    (reviews.set k (other, new))[n]? = some (path, stage) ∨
      (k = n ∧ other = path ∧ old = stage ∧ (reviews.set k (other, new))[n]? = some (path, new)) := by
  by_cases hkn : k = n
  · subst hkn
    rw [hk] at hn
    obtain ⟨rfl, rfl⟩ := Prod.mk.inj (Option.some.inj hn)
    have hlen := (List.getElem?_eq_some_iff.mp hk).1
    exact .inr ⟨rfl, rfl, rfl, by simp [hlen]⟩
  · exact .inl (by simp [hkn, hn])

/-- A thread waits until it starts, and then until it has read or given up. -/
theorem Step.review {l : WatchLabel} (hs : Step settings w l w') {n : Nat} {stage : ReviewStage}
    (hn : w.reviews[n]? = some (path, stage)) : w'.reviews[n]? = some (path, stage) ∨
      (l = .started n path ∧ w'.reviews[n]? = some (path, .started)) ∨
      (stage = .started ∧ (l = .read n path (w.contents path) ∨ l = .unread n path)) ∨
      stage = .read := by
  cases hs with
  | save _ => exact .inl hn
  | notify => exact .inl hn
  | handle _ =>
    have hlen := (List.getElem?_eq_some_iff.mp hn).1
    exact .inl (by rw [List.getElem?_append_left hlen, hn])
  | start hk _ =>
    rcases set_stage hk hn with h | ⟨rfl, rfl, -, h⟩
    · exact .inl h
    · exact .inr (.inl ⟨rfl, h⟩)
  | read _ hk =>
    rcases set_stage hk hn with h | ⟨rfl, rfl, hstage, -⟩
    · exact .inl h
    · exact .inr (.inr (.inl ⟨hstage.symm, .inl rfl⟩))
  | unread hk =>
    rcases set_stage hk hn with h | ⟨rfl, rfl, hstage, -⟩
    · exact .inl h
    · exact .inr (.inr (.inl ⟨hstage.symm, .inr rfl⟩))
  | finish hk =>
    rcases set_stage hk hn with h | ⟨rfl, rfl, hstage, -⟩
    · exact .inl h
    · exact .inr (.inr (.inr hstage.symm))

/-- What covers the last save goes on to cover it. -/
theorem Covered.step {l : WatchLabel} (h : Covered settings path content before after w)
    (hs : Step settings w l w') (hcontent : w.contents path = content)
    (hw : settings.watches path = true)
    (htable : w.last_modified.lookup path = last_admission path (before ++ after)) :
    Covered settings path content before (after ++ [l]) w' := by
  cases h with
  | queued e he hp =>
    rcases hs.event he with he | ⟨outcome, now, rfl, hh, hreviews⟩
    · exact .queued e he hp
    · have hout := @handle_watched settings w.last_modified e now path hp hw
      rw [hh, htable] at hout
      split at hout
      · rename_i hlt
        obtain rfl := hout
        exact .suppressed ⟨after, now, [], rfl, hlt⟩
      · obtain rfl := hout
        exact .waiting w.reviews.length (by simp [hreviews, PathEvent.reviews])
  | waiting n hn =>
    rcases hs.review hn with h | ⟨rfl, h⟩ | ⟨hstage, -⟩ | hstage
    · exact .waiting n h
    · exact .started n (by simp) h
    · cases hstage
    · cases hstage
  | started n hstart hn =>
    rcases hs.review hn with h | ⟨rfl, h⟩ | ⟨-, rfl | rfl⟩ | hstage
    · exact .started n (by simp [hstart]) h
    · exact .started n (by simp [hstart]) h
    · rw [hcontent]
      exact .reads ⟨n, by simp [hstart], by simp⟩
    · exact .gives_up ⟨n, by simp [hstart], by simp⟩
    · cases hstage
  | reads h =>
    obtain ⟨n, hstart, hread⟩ := h
    exact .reads ⟨n, by simp [hstart], by simp [hread]⟩
  | gives_up h =>
    obtain ⟨n, hstart, hunread⟩ := h
    exact .gives_up ⟨n, by simp [hstart], by simp [hunread]⟩
  | suppressed h =>
    obtain ⟨mid, now, rest, rfl, hlt⟩ := h
    exact .suppressed ⟨mid, now, rest ++ [l], by simp, hlt⟩

theorem Step.contents {l : WatchLabel} (hs : Step settings w l w')
    (hl : ∀ c, l ≠ .saved path c) : w'.contents path = w.contents path := by
  cases hs with
  | @save _ p c _ =>
    have hp : p ≠ path := fun h => hl c (by rw [h])
    simp [Function.update_of_ne (Ne.symm hp)]
  | notify => rfl
  | handle _ => rfl
  | start _ _ => rfl
  | read _ _ => rfl
  | unread _ => rfl
  | finish _ => rfl

/-- The last save of a watched file is covered at every moment. -/
theorem Run.covered (h : Run settings log w) (hw : settings.watches path = true)
    (hlog : log = before ++ .saved path content :: after) (hlast : ∀ c, .saved path c ∉ after) :
    w.contents path = content ∧
      Covered settings path content (before ++ [.saved path content]) after w := by
  refine LabelledRun.since (E := fun l => ∃ c, l = .saved path c)
    (P := fun before after w => w.contents path = content ∧
      Covered settings path content (before ++ [.saved path content]) after w)
    (fun log w w' _ hs => ?_) (fun before after w l w' hrun ih hs hl => ?_) h hlog ?_
  · cases hs with
    | @save _ _ _ e he => exact ⟨by simp, .queued e (by simp) he⟩
  · have htable := Run.table hrun path
    rw [List.append_cons] at htable
    exact ⟨(hs.contents fun c hc => hl ⟨c, hc⟩).trans ih.1, ih.2.step hs ih.1 hw htable⟩
  · rintro l hl ⟨c, rfl⟩
    exact hlast c hl

/-- Once the daemon is quiet, the last content of a watched file was read by a review that started
after the save, unless such a review got no diff or the event of the save was suppressed. -/
theorem last_save_read (h : Run settings log w) (hquiet : w.Quiet)
    (hw : settings.watches path = true) (hlog : log = before ++ .saved path content :: after)
    (hlast : ∀ c, .saved path c ∉ after) :
    Reads after path content ∨ GivesUp after path ∨
      Suppressed settings (before ++ [.saved path content]) after path := by
  obtain ⟨hevents, hreviews⟩ := hquiet
  have hover : ∀ (n : Nat) (stage : ReviewStage), w.reviews[n]? = some (path, stage) →
      stage = .over := fun n stage hn => hreviews _ (List.mem_of_getElem? hn)
  cases (Run.covered h hw hlog hlast).2 with
  | queued e he _ =>
    rw [hevents] at he
    cases he
  | waiting n hn => cases hover n _ hn
  | started n _ hn => cases hover n _ hn
  | reads h => exact .inl h
  | gives_up h => exact .inr (.inl h)
  | suppressed h => exact .inr (.inr h)

section Samples

def twoSeconds : WatchSettings where
  file_extensions := [".py"]
  debounce_seconds := 2

/-- A file is saved and reviewed, and saved again one second later. -/
def savedTwice : List WatchLabel :=
  [.saved "src/a.py" "+v1", .handled (.admitted "src/a.py") 10, .started 0 "src/a.py",
    .read 0 "src/a.py" "+v1", .finished 0, .saved "src/a.py" "+v2",
    .handled (.suppressed "src/a.py") 11]

theorem savedTwice_eq : savedTwice = savedTwice.take 5 ++ .saved "src/a.py" "+v2" ::
    [.handled (.suppressed "src/a.py") 11] := rfl

theorem savedTwice_run : ∃ w, Run twoSeconds savedTwice w ∧ w.Quiet := by
  have hsaved := LabelledRun.start.step (@Step.save twoSeconds {} "src/a.py" "+v1"
    (.modified "src/a.py" false) rfl)
  have hadmitted := hsaved.step (@Step.handle twoSeconds _ [("src/a.py", 10)] _ _ _ _ 10
    (.admitted "src/a.py") (by decide +kernel))
  have hstarted := hadmitted.step (@Step.start _ _ 0 "src/a.py" rfl (by simp [PathEvent.reviews,
    ReviewStage.locked]))
  have hread := hstarted.step (@Step.read _ _ 0 "src/a.py" rfl rfl)
  have hfinished := hread.step (@Step.finish _ _ 0 "src/a.py" rfl)
  have hagain := hfinished.step (@Step.save twoSeconds _ "src/a.py" "+v2"
    (.modified "src/a.py" false) rfl)
  have hsuppressed := hagain.step (@Step.handle twoSeconds _ [("src/a.py", 10)] _ _ _ _ 11
    (.suppressed "src/a.py") (by decide +kernel))
  exact ⟨_, hsuppressed, rfl, by simp [PathEvent.reviews]⟩

/-- The second save is not read, nor given up: its event was suppressed. -/
theorem savedTwice_last : Suppressed twoSeconds (savedTwice.take 5 ++ [.saved "src/a.py" "+v2"])
    [.handled (.suppressed "src/a.py") 11] "src/a.py" := by
  obtain ⟨w, hrun, hquiet⟩ := savedTwice_run
  rcases last_save_read hrun hquiet (by decide +kernel) savedTwice_eq (by simp) with h | h | h
  · obtain ⟨n, hn, -⟩ := h
    simp at hn
  · obtain ⟨n, hn, -⟩ := h
    simp at hn
  · exact h

/-- The last content is not read though nothing is pending. -/
theorem last_save_missed : ∃ log w before after, Run twoSeconds log w ∧ w.Quiet ∧
    twoSeconds.watches "src/a.py" = true ∧ log = before ++ .saved "src/a.py" "+v2" :: after ∧
    (∀ c, .saved "src/a.py" c ∉ after) ∧ ¬Reads after "src/a.py" "+v2" ∧
    ¬GivesUp log "src/a.py" := by
  obtain ⟨w, hrun, hquiet⟩ := savedTwice_run
  refine ⟨savedTwice, w, _, _, hrun, hquiet, by decide +kernel, savedTwice_eq, by simp, ?_, ?_⟩
  · rintro ⟨n, hn, -⟩
    simp at hn
  · rintro ⟨n, -, hn⟩
    simp [savedTwice] at hn

end Samples

end WatchWorld

end Nitpicker
