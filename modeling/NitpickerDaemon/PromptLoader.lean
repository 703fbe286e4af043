import NitpickerDaemon.ConfigWatcher
import NitpickerDaemon.Data.Stamped

/-!
The loader of the system prompt: which version of the file the cache that all loaders share
answers with.
-/

set_option autoImplicit false

namespace Nitpicker

/-- `_cache`: the text and the time of each path. -/
abbrev PromptCache := List (String × String × Rat)

structure PromptLoader where
  root : String

namespace PromptLoader

def DEFAULT_PROMPT : String :=
  "You are Nitpicker, an ultra-strict senior software architect.\n" ++
  "Review the provided git diff. Respond only in valid JSON.\n" ++
  "CRITICAL: All review summaries, issues, and reasons MUST be written in Korean.\n"

def prompt_path (loader : PromptLoader) : String :=
  ConfigWatcher.join (ConfigWatcher.join loader.root "config") "system_prompt.md"

def current_mtime (found : FoundFile) : Except PyExc Rat :=
  match found.st_mtime with
  | .ok mtime => .ok mtime
  | .error e => if e.isInstance .osError then .ok 0 else .error e

/-- The text of the file, if it can be read and is not blank. -/
def read_prompt (found : FoundFile) : Except PyExc (Option String) :=
  match found.read_text with
  | .ok text => .ok (if strip text = "" then none else some (strip text))
  | .error e => if e.isInstance .osError then .ok none else .error e

def use_default (path : String) (cache : PromptCache) : Except PyExc String × PromptCache :=
  (.ok DEFAULT_PROMPT, Dict.set cache path (DEFAULT_PROMPT, 0))

def reload (path : String) (found : FoundFile) (mtime : Rat) (cache : PromptCache) :
    Except PyExc String × PromptCache :=
  match read_prompt found with
  | .ok (some text) => (.ok text, Dict.set cache path (text, mtime))
  | .ok none => use_default path cache
  | .error e => (.error e, cache)

def get_system_prompt (loader : PromptLoader) (found : FoundFile) (cache : PromptCache) :
    Except PyExc String × PromptCache :=
  match found.is_file with
  | .error e => (.error e, cache)
  | .ok false => use_default loader.prompt_path cache
  | .ok true => match current_mtime found with
    | .error e => (.error e, cache)
    | .ok mtime => match cache.lookup loader.prompt_path with
      | some (text, cached_mtime) =>
        if cached_mtime = mtime then (.ok text, cache)
        else reload loader.prompt_path found mtime cache
      | none => reload loader.prompt_path found mtime cache

def invalidate_cache (loader : PromptLoader) (cache : PromptCache) : PromptCache :=
  cache.filter fun entry => !decide (entry.1 = loader.prompt_path)

/-- A call of a loader, with the file as it is found then. -/
inductive Call where
  | get_system_prompt (loader : PromptLoader) (found : FoundFile)
  | invalidate_cache (loader : PromptLoader)

def Call.apply (cache : PromptCache) : Call → PromptCache
  | .get_system_prompt loader found => (loader.get_system_prompt found cache).2
  | .invalidate_cache loader => loader.invalidate_cache cache

/-- The cache after the calls of all loaders. -/
def cache_after (calls : List Call) : PromptCache := calls.foldl Call.apply []

/-- The time that a look at the file compares, if it is a file. -/
def prompt_stamp (found : FoundFile) : Except PyExc (Option Rat) :=
  found.is_file >>= fun is_file => if is_file then some <$> current_mtime found else .ok none

/-- What a look at the file loads: the default is remembered under the time 0. -/
def prompt_load (found : FoundFile) : Except PyExc (String × Rat) :=
  prompt_stamp found >>= fun
    | none => .ok (DEFAULT_PROMPT, 0)
    | some mtime => read_prompt found >>= fun
      | none => .ok (DEFAULT_PROMPT, 0)
      | some text => .ok (text, mtime)

def prompt_source : Stamped.Source FoundFile Rat String PyExc := ⟨prompt_stamp, prompt_load⟩

theorem get_system_prompt_eq (loader : PromptLoader) (found : FoundFile) (cache : PromptCache) :
    loader.get_system_prompt found cache = prompt_source.get cache loader.prompt_path found := by
  have hreload : ∀ mtime, prompt_stamp found = .ok (some mtime) →
      reload loader.prompt_path found mtime cache =
        prompt_source.store cache loader.prompt_path found := by
    intro mtime hstamp
    simp only [reload, Stamped.Source.store, prompt_source, prompt_load, hstamp]
    cases read_prompt found with
    | error e => rfl
    | ok text => cases text <;> rfl
  unfold get_system_prompt Stamped.Source.get
  cases hfile : found.is_file with
  | error e =>
    have hstamp : prompt_source.stamp found = .error e := by
      simp [prompt_source, prompt_stamp, hfile, bind, Except.bind]
    simp only [hstamp]
  | ok is_file =>
    cases is_file with
    | false =>
      have hstamp : prompt_stamp found = .ok none := by
        simp [prompt_stamp, hfile, bind, Except.bind]
      have hsource : prompt_source.stamp found = .ok none := hstamp
      simp only [hsource]
      simp [Stamped.Source.store, prompt_source, prompt_load, hstamp, use_default, bind, Except.bind]
    | true =>
      have hstamp : prompt_source.stamp found = some <$> current_mtime found := by
        simp [prompt_source, prompt_stamp, hfile, bind, Except.bind]
      rw [hstamp]
      cases hmtime : current_mtime found with
      | error e => rfl
      | ok mtime =>
        have hsome : prompt_stamp found = .ok (some mtime) := by
          rw [show prompt_stamp found = some <$> current_mtime found from hstamp, hmtime]
          rfl
        simp only [Functor.map, Except.map]
        rw [hreload mtime hsome]
        cases cache.lookup loader.prompt_path with
        | none => rfl
        | some entry => rfl

/-- The use of the table that a call is. -/
def Call.use : Call → Stamped.Use String FoundFile
  | .get_system_prompt loader found => .get loader.prompt_path found
  | .invalidate_cache loader => .drop loader.prompt_path

theorem cache_after_eq (calls : List Call) :
    cache_after calls = prompt_source.table (calls.map Call.use) := by
  have hstep : ∀ (cache : PromptCache) (call : Call),
      call.apply cache = prompt_source.step cache call.use := by
    intro cache call
    cases call with
    | get_system_prompt loader found =>
      simp only [Call.apply, Call.use, Stamped.Source.step, get_system_prompt_eq]
    | invalidate_cache loader => rfl
  rw [cache_after, Stamped.Source.table, List.foldl_map]
  congr 1
  funext cache call
  exact hstep cache call

/-- The text that a read of this version leaves in the cache, and the time it stands under. -/
inductive Remembered (found : FoundFile) : String → Rat → Prop where
  | text (text : String) (mtime : Rat) : found.is_file = .ok true →
      current_mtime found = .ok mtime → read_prompt found = .ok (some text) →
      Remembered found text mtime
  | missing : found.is_file = .ok false → Remembered found DEFAULT_PROMPT 0
  | blank (mtime : Rat) : found.is_file = .ok true → current_mtime found = .ok mtime →
      read_prompt found = .ok none → Remembered found DEFAULT_PROMPT 0

/-- The later version is a file with the time that the earlier one is remembered under, and its
own prompt is another. -/
def Mistaken (earlier later : FoundFile) : Prop :=
  ∃ text mtime, Remembered earlier text mtime ∧ later.is_file = .ok true ∧
    current_mtime later = .ok mtime ∧ ∀ mtime', ¬Remembered later text mtime'

theorem prompt_stamp_some {found : FoundFile} {mtime : Rat} :
    prompt_stamp found = .ok (some mtime) ↔
      found.is_file = .ok true ∧ current_mtime found = .ok mtime := by
  unfold prompt_stamp
  cases found.is_file with
  | error e => simp [bind, Except.bind]
  | ok is_file =>
    cases is_file with
    | false => simp [bind, Except.bind]
    | true => cases current_mtime found <;> simp [bind, Except.bind, Functor.map, Except.map]

theorem prompt_stamp_none {found : FoundFile} :
    prompt_stamp found = .ok none ↔ found.is_file = .ok false := by
  unfold prompt_stamp
  cases found.is_file with
  | error e => simp [bind, Except.bind]
  | ok is_file =>
    cases is_file with
    | false => simp [bind, Except.bind]
    | true => cases current_mtime found <;> simp [bind, Except.bind, Functor.map, Except.map]

theorem remembered_iff {found : FoundFile} {text : String} {mtime : Rat} :
    Remembered found text mtime ↔ prompt_load found = .ok (text, mtime) := by
  constructor
  · intro h
    cases h with
    | text text mtime hfile hmtime hread =>
      simp [prompt_load, prompt_stamp_some.mpr ⟨hfile, hmtime⟩, hread, bind, Except.bind]
    | missing hfile => simp [prompt_load, prompt_stamp_none.mpr hfile, bind, Except.bind]
    | blank mtime hfile hmtime hread =>
      simp [prompt_load, prompt_stamp_some.mpr ⟨hfile, hmtime⟩, hread, bind, Except.bind]
  · intro h
    unfold prompt_load at h
    cases hstamp : prompt_stamp found with
    | error e => simp [hstamp, bind, Except.bind] at h
    | ok stamp =>
      cases stamp with
      | none =>
        simp only [hstamp, bind, Except.bind] at h
        cases h
        exact .missing (prompt_stamp_none.mp hstamp)
      | some current =>
        obtain ⟨hfile, hmtime⟩ := prompt_stamp_some.mp hstamp
        cases hread : read_prompt found with
        | error e => simp [hstamp, hread, bind, Except.bind] at h
        | ok read =>
          cases read with
          | none =>
            simp only [hstamp, hread, bind, Except.bind] at h
            cases h
            exact .blank current hfile hmtime hread
          | some text =>
            simp only [hstamp, hread, bind, Except.bind] at h
            cases h
            exact .text _ _ hfile hmtime hread

theorem loads_iff {found : FoundFile} {text : String} {mtime : Rat} :
    prompt_source.Loads found text mtime ↔ Remembered found text mtime := by
  rw [remembered_iff]
  refine ⟨And.right, fun h => ⟨?_, h⟩⟩
  cases hstamp : prompt_stamp found with
  | error e => simp [prompt_load, hstamp, bind, Except.bind] at h
  | ok stamp => exact ⟨stamp, hstamp⟩

theorem fresh_eq_iff {found : FoundFile} {text : String} :
    prompt_source.fresh found = .ok text ↔ ∃ mtime, Remembered found text mtime := by
  simp only [remembered_iff]
  have hfresh : prompt_source.fresh found =
      prompt_stamp found >>= fun _ => Prod.fst <$> prompt_load found := rfl
  rw [hfresh]
  cases hstamp : prompt_stamp found with
  | error e => simp [prompt_load, hstamp, bind, Except.bind]
  | ok stamp =>
    cases hload : prompt_load found with
    | error e => simp [bind, Except.bind, Functor.map, Except.map]
    | ok loaded =>
      obtain ⟨text', mtime⟩ := loaded
      simp [bind, Except.bind, Functor.map, Except.map]

theorem confused_iff {earlier later : FoundFile} :
    prompt_source.Confused earlier later ↔ Mistaken earlier later := by
  have hstamp : ∀ mtime, prompt_source.stamp later = .ok (some mtime) ↔
      later.is_file = .ok true ∧ current_mtime later = .ok mtime := fun _ => prompt_stamp_some
  simp only [Stamped.Source.Confused, Mistaken, loads_iff, hstamp, ne_eq, fresh_eq_iff, not_exists,
    and_assoc]

/-- The prompts that the loaders of a path hand out, through every history of their calls and
whatever the other paths do, are those of the file as it is then, exactly when no two of its
versions are mistaken for each other. -/
theorem hot_reload_iff (loader : PromptLoader) (versions : FoundFile → Prop) :
    (∀ calls : List Call, (∀ other found, Call.get_system_prompt other found ∈ calls →
        other.prompt_path = loader.prompt_path → versions found) →
      ∀ found, versions found →
        (loader.get_system_prompt found (cache_after calls)).1 =
          (loader.get_system_prompt found []).1) ↔
    ∀ earlier later, versions earlier → versions later → ¬Mistaken earlier later := by
  have hfresh : ∀ found, (loader.get_system_prompt found []).1 = prompt_source.fresh found := by
    intro found
    rw [get_system_prompt_eq]
    exact @Stamped.get_fresh _ _ _ _ _ _ _ prompt_source [] _ found (by simp)
  simp only [hfresh]
  simp only [get_system_prompt_eq, cache_after_eq, ← confused_iff]
  constructor
  · intro h earlier later hearlier hlater hconfused
    refine Stamped.get_confused hconfused (h [.get_system_prompt loader earlier] ?_ later hlater)
    intro other found hmem _
    simp only [List.mem_singleton, Call.get_system_prompt.injEq] at hmem
    rw [hmem.2]
    exact hearlier
  · intro h calls hcalls found hfound
    refine Stamped.get_fresh fun earlier hmem => h earlier found ?_ hfound
    obtain ⟨call, hcall, heq⟩ := List.mem_map.mp hmem
    cases call with
    | invalidate_cache other => cases heq
    | get_system_prompt other seen =>
      simp only [Call.use, Stamped.Use.get.injEq] at heq
      obtain ⟨hpath, rfl⟩ := heq
      exact hcalls other seen hcall hpath

/-- Versions with times of their own, none of them 0, are not mistaken for each other. -/
theorem not_mistaken {versions : FoundFile → Prop}
    (hzero : ∀ found, versions found → current_mtime found ≠ .ok 0)
    (htime : ∀ earlier later, versions earlier → versions later →
      current_mtime earlier = current_mtime later → earlier = later) :
    ∀ earlier later, versions earlier → versions later → ¬Mistaken earlier later := by
  rintro earlier later hearlier hlater ⟨text, mtime, hremembered, hfile, hmtime, hother⟩
  cases hremembered with
  | text text mtime hfile' hmtime' hread =>
    obtain rfl := htime earlier later hearlier hlater (hmtime'.trans hmtime.symm)
    exact hother mtime (.text text mtime hfile' hmtime' hread)
  | missing _ => exact hzero later hlater hmtime
  | blank _ _ _ _ => exact hzero later hlater hmtime

end PromptLoader

end Nitpicker
