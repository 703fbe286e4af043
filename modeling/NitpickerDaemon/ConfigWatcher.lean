import NitpickerDaemon.PyText
import NitpickerDaemon.WatchDaemon

/-!
The watcher of the configuration files: what its checks record and deliver over the versions that
the files take on.
-/

set_option autoImplicit false

namespace Nitpicker

structure WatchEntry where
  path : String
  mtime : Rat

/-- The watched files under the names they were registered with. -/
abbrev Watches := List (String × WatchEntry)

/-- What becomes of a look at a file: `is_file`, the time of `stat`, and `read_text`. -/
structure FoundFile where
  is_file : Except PyExc Bool
  st_mtime : Except PyExc Rat
  read_text : Except PyExc String

/-- The files at the time of a check, and what the callbacks do with their contents. -/
structure CheckRound where
  found : String → FoundFile
  callback : String → PyVal → Except PyExc Unit

/-- A call of a callback, with the time of the version it is for. -/
structure Delivery where
  filename : String
  path : String
  mtime : Rat
  content : PyVal

/-- `safe_load` is there where the package `yaml` is installed. -/
structure ConfigWatcher where
  root : String
  py : Python
  safe_load : Option (String → Except PyExc PyVal)

/-- What a check leaves behind. -/
structure Checked where
  watches : Watches
  deliveries : List Delivery
  result : Except PyExc (List String)

namespace ConfigWatcher

/-- `parent / child` -/
def join (parent child : String) : String :=
  if child.toList.head? = some '/' then child else parent ++ "/" ++ child

def register (watcher : ConfigWatcher) (filename subdir : String) (found : FoundFile)
    (watches : Watches) : Except PyExc Watches := do
  let mtime ← if ← found.is_file then found.st_mtime else pure 0
  pure (Dict.set watches filename ⟨join (join watcher.root subdir) filename, mtime⟩)

/-- The pair on a line of `_simple_yaml_parse`, if there is one. -/
def yaml_pair (line : String) : Option (String × String) :=
  let line := (strip line).toList
  if line = [] ∨ line.head? = some '#' then none
  else if ':' ∈ line then
    let (key, val) := line.span (· ≠ ':')
    some (strip (String.ofList key), strip (String.ofList (val.drop 1)))
  else none

def simple_yaml_parse (text : String) : PyVal :=
  .dict (((splitlines text).filterMap yaml_pair).foldl (fun d kv => PyDict.set d kv.1 (.str kv.2)) [])

/-- `_load_file` of a file with this text. -/
def parse (watcher : ConfigWatcher) (path text : String) : Except PyExc PyVal :=
  let suffix := String.ofList (path_suffix path)
  if suffix = ".yaml" ∨ suffix = ".yml" then
    match watcher.safe_load with
    | some safe_load => (safe_load text).map (·.or (.dict []))
    | none => .ok (simple_yaml_parse text)
  else if suffix = ".json" then watcher.py.loads text
  else .ok (.dict [("_raw", .str text)])

def load_file (watcher : ConfigWatcher) (path : String) (found : FoundFile) : Except PyExc PyVal :=
  found.read_text >>= watcher.parse path

/-- The exceptions of a callback that are only logged. -/
def callback_catches (e : PyExc) : Bool :=
  e.isInstance .valueError || e.isInstance .keyError || e.isInstance .typeError ||
    e.isInstance .runtimeError

/-- The time of a version that a check has to load: `none` where it goes on to the next file. -/
def new_mtime (found : FoundFile) (mtime : Rat) : Except PyExc (Option Rat) := do
  if ← found.is_file then
    match found.st_mtime with
    | .ok current_mtime => pure (if current_mtime ≠ mtime then some current_mtime else none)
    | .error e => if e.isInstance .osError then pure none else .error e
  else pure none

/-- A file is passed over. -/
def Checked.pass (filename : String) (entry : WatchEntry) (rest : Checked) : Checked :=
  { rest with watches := (filename, entry) :: rest.watches }

/-- The content of a file went to its callback. -/
def Checked.deliver (d : Delivery) (rest : Checked) : Checked where
  watches := (d.filename, ⟨d.path, d.mtime⟩) :: rest.watches
  deliveries := d :: rest.deliveries
  result := rest.result.map (d.filename :: ·)

def check (watcher : ConfigWatcher) (round : CheckRound) : Watches → Checked
  | [] => ⟨[], [], .ok []⟩
  | (filename, entry) :: watches =>
    match new_mtime (round.found filename) entry.mtime with
    | .error e => ⟨(filename, entry) :: watches, [], .error e⟩
    | .ok none => Checked.pass filename entry (check watcher round watches)
    | .ok (some current_mtime) =>
      -- the new time is recorded before the file is loaded
      match watcher.load_file entry.path (round.found filename) with
      | .error e => ⟨(filename, { entry with mtime := current_mtime }) :: watches, [], .error e⟩
      | .ok content =>
        let delivery : Delivery := ⟨filename, entry.path, current_mtime, content⟩
        match round.callback filename content with
        | .error e =>
          if callback_catches e then Checked.deliver delivery (check watcher round watches)
          else ⟨(filename, { entry with mtime := current_mtime }) :: watches, [delivery], .error e⟩
        | .ok () => Checked.deliver delivery (check watcher round watches)

section Check

variable {watcher : ConfigWatcher} {round : CheckRound} {watches : Watches}

/-- A watched file before and after a check: the time is as it was, or the content of the version
of that time was delivered. -/
def Recorded (watcher : ConfigWatcher) (round : CheckRound) (deliveries : List Delivery)
    (before after : String × WatchEntry) : Prop :=
  after.1 = before.1 ∧ after.2.path = before.2.path ∧ (after.2.mtime = before.2.mtime ∨
    ∃ content, watcher.load_file before.2.path (round.found before.1) = .ok content ∧
      ⟨before.1, before.2.path, after.2.mtime, content⟩ ∈ deliveries)

/-- A check loses nothing: it returns, records no time whose version it did not deliver, and
delivers every changed file that can be loaded. -/
structure Sound (watcher : ConfigWatcher) (round : CheckRound) (watches : Watches) : Prop where
  returns : ∃ changed, (watcher.check round watches).result = .ok changed
  recorded : List.Forall₂ (Recorded watcher round (watcher.check round watches).deliveries) watches
    (watcher.check round watches).watches
  delivered : ∀ file ∈ watches, ∀ mtime content,
    new_mtime (round.found file.1) file.2.mtime = .ok (some mtime) →
    watcher.load_file file.2.path (round.found file.1) = .ok content →
    ⟨file.1, file.2.path, mtime, content⟩ ∈ (watcher.check round watches).deliveries

/-- The look at the file raises nothing, and if it is new, it can be loaded and its callback takes
it or raises one of the exceptions that are caught. -/
def Manageable (watcher : ConfigWatcher) (round : CheckRound) (file : String × WatchEntry) : Prop :=
  ∃ changed, new_mtime (round.found file.1) file.2.mtime = .ok changed ∧
    (changed ≠ none → ∃ content, watcher.load_file file.2.path (round.found file.1) = .ok content ∧
      ∀ e, round.callback file.1 content = .error e → callback_catches e = true)

/-- What the check does with one file and leaves to the rest of the loop. -/
inductive Turn (watcher : ConfigWatcher) (round : CheckRound) (filename : String)
    (entry : WatchEntry) (watches : Watches) : Checked → Prop where
  | passed : new_mtime (round.found filename) entry.mtime = .ok none →
      Turn watcher round filename entry watches
        (Checked.pass filename entry (watcher.check round watches))
  | delivered (mtime : Rat) (content : PyVal) :
      new_mtime (round.found filename) entry.mtime = .ok (some mtime) →
      watcher.load_file entry.path (round.found filename) = .ok content →
      (∀ e, round.callback filename content = .error e → callback_catches e = true) →
      Turn watcher round filename entry watches (Checked.deliver ⟨filename, entry.path, mtime, content⟩
        (watcher.check round watches))
  | raised (c : Checked) (e : PyExc) : c.result = .error e →
      ¬Manageable watcher round (filename, entry) → Turn watcher round filename entry watches c

theorem check_turn (filename : String) (entry : WatchEntry) (watches : Watches) :
    Turn watcher round filename entry watches
      (watcher.check round ((filename, entry) :: watches)) := by
  rw [check]
  cases hnew : new_mtime (round.found filename) entry.mtime with
  | error e =>
    refine .raised _ e rfl fun ⟨changed, hchanged, _⟩ => ?_
    rw [hnew] at hchanged
    cases hchanged
  | ok changed =>
    cases changed with
    | none => exact .passed hnew
    | some mtime =>
      have hnone : ∀ P : Prop, (∃ changed, new_mtime (round.found filename) entry.mtime = .ok changed ∧
          (changed ≠ none → P)) → P := by
        rintro P ⟨changed, hchanged, hP⟩
        rw [hnew] at hchanged
        cases hchanged
        exact hP (by simp)
      cases hload : watcher.load_file entry.path (round.found filename) with
      | error e =>
        refine .raised _ e rfl fun h => ?_
        obtain ⟨content, hcontent, -⟩ := hnone _ h
        rw [hload] at hcontent
        cases hcontent
      | ok content =>
        simp only
        cases hcall : round.callback filename content with
        | ok _ =>
          refine .delivered mtime content hnew hload fun e he => ?_
          rw [hcall] at he
          cases he
        | error e =>
          simp only
          cases hcatch : callback_catches e with
          | true =>
            rw [if_pos rfl]
            refine .delivered mtime content hnew hload fun e' he => ?_
            rw [hcall] at he
            cases he
            exact hcatch
          | false =>
            refine .raised _ e rfl fun h => ?_
            obtain ⟨content', hcontent, hcatches⟩ := hnone _ h
            rw [hload] at hcontent
            cases hcontent
            rw [hcatches e hcall] at hcatch
            cases hcatch

theorem Recorded.mono {ds ds' : List Delivery} {before after : String × WatchEntry}
    (h : Recorded watcher round ds before after) (hsub : ds ⊆ ds') :
    Recorded watcher round ds' before after := by
  obtain ⟨hname, hpath, hmtime | ⟨content, hload, hmem⟩⟩ := h
  · exact ⟨hname, hpath, .inl hmtime⟩
  · exact ⟨hname, hpath, .inr ⟨content, hload, hsub hmem⟩⟩

theorem manageable_of_ok {changed : List String}
    (h : (watcher.check round watches).result = .ok changed) :
    ∀ file ∈ watches, Manageable watcher round file := by
  induction watches generalizing changed with
  | nil => simp
  | cons file watches ih =>
    obtain ⟨filename, entry⟩ := file
    have hturn := @check_turn watcher round filename entry watches
    generalize watcher.check round ((filename, entry) :: watches) = c at h hturn
    cases hturn with
    | passed hnew =>
      rw [List.forall_mem_cons]
      exact ⟨⟨none, hnew, fun hne => absurd rfl hne⟩, ih h⟩
    | delivered mtime content hnew hload hcall =>
      rw [List.forall_mem_cons]
      refine ⟨⟨some mtime, hnew, fun _ => ⟨content, hload, hcall⟩⟩, ?_⟩
      cases hrest : (watcher.check round watches).result with
      | error e => simp [Checked.deliver, hrest, Except.map] at h
      | ok changed => exact ih hrest
    | raised _ e hraised _ =>
      rw [hraised] at h
      cases h

theorem sound_of_manageable (h : ∀ file ∈ watches, Manageable watcher round file) :
    Sound watcher round watches := by
  induction watches with
  | nil => exact ⟨⟨[], rfl⟩, .nil, fun _ hmem => by cases hmem⟩
  | cons file watches ih =>
    obtain ⟨filename, entry⟩ := file
    rw [List.forall_mem_cons] at h
    have hrest := ih h.2
    have hturn := @check_turn watcher round filename entry watches
    generalize hc : watcher.check round ((filename, entry) :: watches) = c at hturn
    cases hturn with
    | passed hnew =>
      refine ⟨?_, ?_, ?_⟩ <;> rw [hc]
      · exact hrest.returns
      · exact .cons ⟨rfl, rfl, .inl rfl⟩ hrest.recorded
      · rintro file hfile mtime content hchanged hload
        rcases List.mem_cons.mp hfile with rfl | hfile
        · rw [hnew] at hchanged
          cases hchanged
        · exact hrest.delivered file hfile mtime content hchanged hload
    | delivered mtime content hnew hload hcall =>
      refine ⟨?_, ?_, ?_⟩ <;> rw [hc]
      · obtain ⟨changed, hchanged⟩ := hrest.returns
        exact ⟨filename :: changed, by simp [Checked.deliver, hchanged, Except.map]⟩
      · exact .cons ⟨rfl, rfl, .inr ⟨content, hload, List.mem_cons_self⟩⟩
          (hrest.recorded.imp fun _ _ hrec => hrec.mono (List.subset_cons_self _ _))
      · rintro file hfile mtime' content' hchanged hload'
        rcases List.mem_cons.mp hfile with rfl | hfile
        · rw [hnew] at hchanged
          rw [hload] at hload'
          cases hchanged
          cases hload'
          exact List.mem_cons_self
        · exact List.mem_cons_of_mem _ (hrest.delivered file hfile mtime' content' hchanged hload')
    | raised _ e _ hbad => exact absurd h.1 hbad

theorem sound_iff : Sound watcher round watches ↔
    ∀ file ∈ watches, Manageable watcher round file := by
  refine ⟨fun h => ?_, sound_of_manageable⟩
  obtain ⟨changed, hchanged⟩ := h.returns
  exact manageable_of_ok hchanged

end Check

/-- The watched files after the checks of these rounds. -/
def watches_after (watcher : ConfigWatcher) (watches : Watches) (rounds : List CheckRound) : Watches :=
  rounds.foldl (fun watches round => (watcher.check round watches).watches) watches

/-- The deliveries of the checks, each with the round it was made in. -/
def deliveries_of (watcher : ConfigWatcher) : Watches → List CheckRound → List (CheckRound × Delivery)
  | _, [] => []
  | watches, round :: rounds =>
    (watcher.check round watches).deliveries.map (round, ·) ++
      watcher.deliveries_of (watcher.check round watches).watches rounds

/-- A watched file at first and now: its time is the one it was registered with, or that of a
version whose content was delivered. -/
def Accounted (watcher : ConfigWatcher) (history : List (CheckRound × Delivery))
    (registered now : String × WatchEntry) : Prop :=
  now.1 = registered.1 ∧ now.2.path = registered.2.path ∧ (now.2.mtime = registered.2.mtime ∨
    ∃ round content,
      watcher.load_file registered.2.path (round.found registered.1) = .ok content ∧
      (round, ⟨registered.1, registered.2.path, now.2.mtime, content⟩) ∈ history)

/-- No check of the run loses a change, and in every state the recorded times are accounted for. -/
structure LosesNothing (watcher : ConfigWatcher) (registered : Watches) (rounds : List CheckRound) :
    Prop where
  checks : ∀ before round after, rounds = before ++ round :: after →
    Sound watcher round (watcher.watches_after registered before)
  states : ∀ before, before <+: rounds → List.Forall₂
    (Accounted watcher (watcher.deliveries_of registered before)) registered
    (watcher.watches_after registered before)

section Runs

variable {watcher : ConfigWatcher} {registered watches : Watches} {rounds : List CheckRound}

theorem watches_after_snoc (round : CheckRound) :
    watcher.watches_after watches (rounds ++ [round]) =
      (watcher.check round (watcher.watches_after watches rounds)).watches := by
  simp [watches_after]

theorem deliveries_of_snoc (round : CheckRound) :
    watcher.deliveries_of watches (rounds ++ [round]) = watcher.deliveries_of watches rounds ++
      (watcher.check round (watcher.watches_after watches rounds)).deliveries.map (round, ·) := by
  induction rounds generalizing watches with
  | nil => simp [deliveries_of, watches_after]
  | cons first rounds ih => simp [deliveries_of, watches_after, ih]

/-- One more check, which recorded only what it delivered. -/
theorem Accounted.check {round : CheckRound} {history : List (CheckRound × Delivery)}
    {deliveries : List Delivery} {first before after : String × WatchEntry}
    (h : Accounted watcher history first before)
    (hcheck : Recorded watcher round deliveries before after) :
    Accounted watcher (history ++ deliveries.map (round, ·)) first after := by
  obtain ⟨hname, hpath, hmtime⟩ := h
  obtain ⟨hname', hpath', hmtime'⟩ := hcheck
  refine ⟨hname'.trans hname, hpath'.trans hpath, ?_⟩
  rcases hmtime' with hsame | ⟨content, hload, hmem⟩
  · rw [hsame]
    rcases hmtime with hfirst | ⟨round', content, hload, hmem⟩
    · exact .inl hfirst
    · exact .inr ⟨round', content, hload, List.mem_append_left _ hmem⟩
  · rw [hname, hpath] at hload hmem
    exact .inr ⟨round, content, hload, List.mem_append_right _ (List.mem_map_of_mem hmem)⟩

theorem accounted_refl : List.Forall₂ (Accounted watcher []) watches watches := by
  rw [List.forall₂_same]
  exact fun _ _ => ⟨rfl, rfl, .inl rfl⟩

theorem forall₂_trans {α β γ : Type} {R : α → β → Prop} {S : β → γ → Prop} {T : α → γ → Prop}
    {xs : List α} {ys : List β} {zs : List γ} (h : List.Forall₂ R xs ys)
    (h' : List.Forall₂ S ys zs) (hT : ∀ x y z, R x y → S y z → T x z) : List.Forall₂ T xs zs := by
  induction h generalizing zs with
  | nil =>
    cases h'
    exact .nil
  | cons hxy _ ih =>
    cases h' with
    | cons hyz hrest => exact .cons (hT _ _ _ hxy hyz) (ih hrest)

/-- While no check loses a change, the recorded times are accounted for. -/
theorem accounted_after (h : ∀ before round after, rounds = before ++ round :: after →
      Sound watcher round (watcher.watches_after registered before)) :
    List.Forall₂ (Accounted watcher (watcher.deliveries_of registered rounds)) registered
      (watcher.watches_after registered rounds) := by
  induction rounds using List.reverseRecOn with
  | nil => exact accounted_refl
  | append_singleton rounds round ih =>
    have hbefore := ih fun before round' after heq =>
      h before round' (after ++ [round]) (by simp [heq])
    have hlast := (h rounds round [] rfl).recorded
    rw [watches_after_snoc, deliveries_of_snoc]
    exact forall₂_trans hbefore hlast fun _ _ _ hacc hrec => hacc.check hrec

/-- The watcher loses no change in a run if and only if in each of its checks every file can be
looked at, and every new version can be loaded and handed over. -/
theorem loses_nothing_iff : LosesNothing watcher registered rounds ↔
    ∀ before round after, rounds = before ++ round :: after →
      ∀ file ∈ watcher.watches_after registered before, Manageable watcher round file := by
  constructor
  · intro h before round after heq
    exact sound_iff.mp (h.checks before round after heq)
  · intro h
    have hsound : ∀ before round after, rounds = before ++ round :: after →
        Sound watcher round (watcher.watches_after registered before) :=
      fun before round after heq => sound_iff.mpr (h before round after heq)
    refine ⟨hsound, ?_⟩
    rintro before ⟨rest, rfl⟩
    exact accounted_after fun first round after heq =>
      hsound first round (after ++ rest) (by simp [heq])

end Runs

/-- A watcher without the package `yaml`, which reads every JSON text as the empty dict. -/
def sample_watcher : ConfigWatcher where
  root := "/repo"
  py := ⟨fun _ => "", fun _ => "", fun s => .error (valueError s), fun _ => .ok (.dict [])⟩
  safe_load := none

/-- The file was registered at the time 1. -/
def registered_file : Watches :=
  [("nitpicker.local.json", ⟨"/repo/config/nitpicker.local.json", 1⟩)]

def denied : PyExc := ⟨"PermissionError", [.osError], "[Errno 13] Permission denied"⟩

/-- The version of the time 2 cannot be read at the first check, and can be at the second. -/
def unreadable_round : CheckRound where
  found := fun _ => ⟨.ok true, .ok 2, .error denied⟩
  callback := fun _ _ => .ok ()

def readable_round : CheckRound where
  found := fun _ => ⟨.ok true, .ok 2, .ok "\x7b\x7d"⟩
  callback := fun _ _ => .ok ()

theorem first_check : sample_watcher.check unreadable_round registered_file =
    ⟨[("nitpicker.local.json", ⟨"/repo/config/nitpicker.local.json", 2⟩)], [], .error denied⟩ := by
  have hnew : new_mtime (unreadable_round.found "nitpicker.local.json") 1 = .ok (some 2) := by
    norm_num [new_mtime, unreadable_round, bind, Except.bind, pure, Except.pure]
  have hload : sample_watcher.load_file "/repo/config/nitpicker.local.json"
      (unreadable_round.found "nitpicker.local.json") = .error denied := rfl
  simp only [registered_file, check, hnew, hload]

theorem second_check : sample_watcher.check readable_round
    [("nitpicker.local.json", ⟨"/repo/config/nitpicker.local.json", 2⟩)] =
    ⟨[("nitpicker.local.json", ⟨"/repo/config/nitpicker.local.json", 2⟩)], [], .ok []⟩ := by
  have hnew : new_mtime (readable_round.found "nitpicker.local.json") 2 = .ok none := by
    norm_num [new_mtime, readable_round, bind, Except.bind, pure, Except.pure]
  simp only [check, hnew, Checked.pass]

/-- The first check raises and has recorded the time, the second finds nothing new. -/
theorem failed_load_lost :
    sample_watcher.watches_after registered_file [unreadable_round, readable_round] =
      [("nitpicker.local.json", ⟨"/repo/config/nitpicker.local.json", 2⟩)] ∧
    sample_watcher.deliveries_of registered_file [unreadable_round, readable_round] = [] ∧
    (sample_watcher.check unreadable_round registered_file).result = .error denied ∧
    ¬LosesNothing sample_watcher registered_file [unreadable_round, readable_round] := by
  refine ⟨?_, ?_, ?_, fun h => ?_⟩
  · simp [watches_after, first_check, second_check]
  · simp [deliveries_of, first_check, second_check]
  · rw [first_check]
  · obtain ⟨changed, hchanged⟩ := (h.checks [] unreadable_round [readable_round] rfl).returns
    rw [show sample_watcher.watches_after registered_file [] = registered_file from rfl,
      first_check] at hchanged
    cases hchanged

end ConfigWatcher

end Nitpicker
