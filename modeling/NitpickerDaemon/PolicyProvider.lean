import NitpickerDaemon.ContextService
import NitpickerDaemon.ConfigWatcher
import NitpickerDaemon.Data.Fitting

/-!
The provider of the project's policies: which rule files a context carries, and which state of the
directories it shows once the provider has answered before.
-/

set_option autoImplicit false

namespace Nitpicker

/-- The directories as they are found at the time of a call; `iterdir` gives the names in a
directory in the order of the file system. -/
structure PolicyDisk where
  is_dir : String → Except PyExc Bool
  iterdir : String → Except PyExc (List String)
  file : String → FoundFile

/-- `order` is what the names of a directory are sorted by. -/
structure PolicyProvider where
  rules_dir : Option String
  profiles_dir : Option String
  order : String → List Char

/-- What the provider remembers. -/
structure PolicyCaches where
  rules : Option (List String) := none
  profiles : List (String × List String) := []

namespace PolicyProvider

def MAX_RULE_SIZE : Nat := 8192

def MAX_TOTAL_SIZE : Nat := 32768

def RULE_SUFFIXES : List String := [".md", ".yaml", ".yml", ".txt"]

/-- A text that is cut at the size of one file. -/
def capped (content : String) : String :=
  if MAX_RULE_SIZE < content.length then
    String.ofList (content.toList.take MAX_RULE_SIZE) ++ "\n... (truncated)"
  else content

/-- The text a rule file contributes, if it is one. -/
def read_rule (disk : PolicyDisk) (dir name : String) : Except PyExc (Option String) := do
  let found := disk.file (ConfigWatcher.join dir name)
  if ← found.is_file then
    if RULE_SUFFIXES.contains (String.ofList (path_suffix name)) then
      match found.read_text with
      | .ok content => pure (some (capped content))
      | .error e => if e.isInstance .osError then pure none else throw e
    else pure none
  else pure none

def rule_entry (name content : String) : String := "[Rule: " ++ name ++ "]\n" ++ strip content

/-- The loop over the sorted names, with the size of what it has taken. -/
def load_files (disk : PolicyDisk) (dir : String) : List String → Nat → Except PyExc (List String)
  | [], _ => .ok []
  | name :: names, total_size => do
    match ← read_rule disk dir name with
    | none => load_files disk dir names total_size
    | some content =>
      if MAX_TOTAL_SIZE < total_size + content.length then pure []
      else
        let rules ← load_files disk dir names (total_size + content.length)
        pure (rule_entry name content :: rules)

def sorted_names (provider : PolicyProvider) (names : List String) : List String :=
  names.mergeSort fun a b => decide (provider.order a ≤ provider.order b)

/-- `_load_rules` with nothing remembered. -/
def load_rules (provider : PolicyProvider) (disk : PolicyDisk) : Except PyExc (List String) :=
  match provider.rules_dir with
  | none => .ok []
  | some dir => do
    if ← disk.is_dir dir then
      let names ← disk.iterdir dir
      load_files disk dir (provider.sorted_names names) 0
    else pure []

def profile_entry (profile_name content : String) : String :=
  "[Profile: " ++ profile_name ++ "]\n" ++ strip content

/-- The path of the profile's file, if there is one. -/
def profile_file (disk : PolicyDisk) (dir profile_name : String) : Except PyExc (Option String) := do
  let yaml := ConfigWatcher.join dir (profile_name ++ ".yaml")
  let yml := ConfigWatcher.join dir (profile_name ++ ".yml")
  if ← (disk.file yaml).is_file then pure (some yaml)
  else if ← (disk.file yml).is_file then pure (some yml)
  else pure none

/-- `_load_profile` with nothing remembered. -/
def load_profile (provider : PolicyProvider) (profile_name : String) (disk : PolicyDisk) :
    Except PyExc (List String) :=
  match provider.profiles_dir with
  | none => .ok []
  | some dir => do
    if ← disk.is_dir dir then
      match ← profile_file disk dir profile_name with
      | none => pure []
      | some path => match (disk.file path).read_text with
        | .ok content => pure [profile_entry profile_name (capped content)]
        | .error e => if e.isInstance .osError then pure [] else throw e
    else pure []

/-- `_load_rules` -/
def cached_rules (provider : PolicyProvider) (disk : PolicyDisk) (caches : PolicyCaches) :
    Except PyExc (List String) × PolicyCaches :=
  match caches.rules with
  | some rules => (.ok rules, caches)
  | none => match provider.load_rules disk with
    | .ok rules => (.ok rules, { caches with rules := some rules })
    | .error e => (.error e, caches)

/-- `_load_profile` -/
def cached_profile (provider : PolicyProvider) (profile_name : String) (disk : PolicyDisk)
    (caches : PolicyCaches) : Except PyExc (List String) × PolicyCaches :=
  match caches.profiles.lookup profile_name with
  | some entries => (.ok entries, caches)
  | none => match provider.load_profile profile_name disk with
    | .ok entries =>
      (.ok entries, { caches with profiles := Dict.set caches.profiles profile_name entries })
    | .error e => (.error e, caches)

def profile_name (request : ReviewRequest) : String :=
  if request.project_profile = "" then "general" else request.project_profile

def fragment (profile_name : String) (rules profile_entries : List String) : ContextFragment where
  tier := "tier3"
  entries := rules ++ profile_entries
  metadata := [("source", .str "policy")] ++
    (if rules = [] then [] else [("rules_count", .int rules.length)]) ++
    (if profile_entries = [] then [] else [("profile", .str profile_name)]) ++
    (if rules ++ profile_entries = [] then [("reason", .str "no_rules")] else [])

def collect (provider : PolicyProvider) (request : ReviewRequest) (disk : PolicyDisk)
    (caches : PolicyCaches) : Except PyExc ContextFragment × PolicyCaches :=
  match provider.cached_rules disk caches with
  | (.error e, caches) => (.error e, caches)
  | (.ok rules, caches) => match provider.cached_profile (profile_name request) disk caches with
    | (.error e, caches) => (.error e, caches)
    | (.ok entries, caches) => (.ok (fragment (profile_name request) rules entries), caches)

def invalidate_cache (caches : PolicyCaches) : PolicyCaches :=
  { caches with rules := none, profiles := [] }

/-- A call of the provider, with the directories as they are then. -/
inductive Call where
  | collect (request : ReviewRequest) (disk : PolicyDisk)
  | invalidate_cache

def perform (provider : PolicyProvider) (caches : PolicyCaches) : Call → PolicyCaches
  | .collect request disk => (provider.collect request disk caches).2
  | .invalidate_cache => invalidate_cache caches

def caches_after (provider : PolicyProvider) (calls : List Call) : PolicyCaches :=
  calls.foldl provider.perform {}

section Rules

variable {provider : PolicyProvider} {disk : PolicyDisk} {dir : String}

/-- The rule files among the names, with the texts they contribute. -/
def rule_texts (disk : PolicyDisk) (dir : String) (names : List String) : List (String × String) :=
  names.filterMap fun name => match read_rule disk dir name with
    | .ok (some content) => some (name, content)
    | _ => none

def text_size (rule : String × String) : Nat := rule.2.length

theorem load_files_ok {names : List String} {total_size : Nat} {rules : List String}
    (h : load_files disk dir names total_size = .ok rules) (htotal : total_size ≤ MAX_TOTAL_SIZE) :
    rules = (Fitting.fit text_size (MAX_TOTAL_SIZE - total_size) (rule_texts disk dir names)).map
      fun rule => rule_entry rule.1 rule.2 := by
  induction names generalizing total_size rules with
  | nil =>
    cases h
    rfl
  | cons name names ih =>
    rw [load_files] at h
    rw [rule_texts, List.filterMap_cons, ← rule_texts]
    cases hread : read_rule disk dir name with
    | error e => simp [hread, bind, Except.bind] at h
    | ok content =>
      cases content with
      | none =>
        simp only [hread, bind, Except.bind] at h
        exact ih h htotal
      | some content =>
        simp only [hread, bind, Except.bind] at h
        rw [Fitting.fit]
        by_cases hover : MAX_TOTAL_SIZE < total_size + content.length
        · rw [if_pos hover] at h
          cases h
          rw [if_pos (by simp only [text_size]; omega)]
          rfl
        · rw [if_neg hover] at h
          rw [if_neg (by simp only [text_size]; omega)]
          cases hrest : load_files disk dir names (total_size + content.length) with
          | error e => simp [hrest] at h
          | ok rest =>
            simp only [hrest, pure, Except.pure, Except.ok.injEq] at h
            have hroom : MAX_TOTAL_SIZE - total_size - text_size (name, content) =
                MAX_TOTAL_SIZE - (total_size + content.length) := by
              simp only [text_size]
              omega
            rw [hroom, List.map_cons, ← ih hrest (by omega), h]

theorem capped_length (content : String) : (capped content).length ≤ MAX_RULE_SIZE + 16 := by
  have hmark : "\n... (truncated)".length = 16 := rfl
  unfold capped
  split
  · rw [String.length_append, hmark, String.length_ofList, List.length_take]
    omega
  · omega

theorem read_rule_length {name content : String}
    (h : read_rule disk dir name = .ok (some content)) : content.length ≤ MAX_RULE_SIZE + 16 := by
  unfold read_rule at h
  cases hfile : (disk.file (ConfigWatcher.join dir name)).is_file with
  | error e => simp [hfile, bind, Except.bind] at h
  | ok is_file =>
    simp only [hfile, bind, Except.bind] at h
    split at h
    · split at h
      · cases htext : (disk.file (ConfigWatcher.join dir name)).read_text with
        | ok text =>
          simp only [htext, pure, Except.pure, Except.ok.injEq, Option.some.injEq] at h
          rw [← h]
          exact capped_length text
        | error e =>
          simp only [htext] at h
          split at h
          · cases h
          · cases h
      · cases h
    · cases h

theorem rule_texts_length {names : List String} {rule : String × String}
    (h : rule ∈ rule_texts disk dir names) : rule.2.length ≤ MAX_RULE_SIZE + 16 := by
  obtain ⟨name, -, hrule⟩ := List.mem_filterMap.mp h
  cases hread : read_rule disk dir name with
  | error e => simp [hread] at hrule
  | ok content =>
    cases content with
    | none => simp [hread] at hrule
    | some content =>
      simp only [hread, Option.some.injEq] at hrule
      rw [← hrule]
      exact read_rule_length hread

/-- The names in the order they are sorted by, however the directory lists them. -/
theorem sorted_names_eq {names sorted : List String}
    (hinj : ∀ a ∈ names, ∀ b ∈ names, provider.order a = provider.order b → a = b)
    (hperm : sorted.Perm names)
    (hsorted : sorted.Pairwise fun a b => provider.order a ≤ provider.order b) :
    provider.sorted_names names = sorted := by
  have hmerge : (provider.sorted_names names).Pairwise
      fun a b => provider.order a ≤ provider.order b := by
    have hpairwise := @List.pairwise_mergeSort _
      (fun a b => decide (provider.order a ≤ provider.order b))
      (fun a b c hab hbc => by
        simp only [decide_eq_true_eq] at hab hbc ⊢
        exact hab.trans hbc)
      (fun a b => by
        simp only [Bool.or_eq_true, decide_eq_true_eq]
        exact le_total (provider.order a) (provider.order b)) names
    exact hpairwise.imp fun h => of_decide_eq_true h
  have hnames : (provider.sorted_names names).Perm names := List.mergeSort_perm _ _
  refine List.Perm.eq_of_pairwise (fun a b ha hb hab hba => ?_) hmerge hsorted
    (hnames.trans hperm.symm)
  exact hinj a (hnames.mem_iff.mp ha) b (hperm.mem_iff.mp hb) (le_antisymm hab hba)

/-- The rules are those of the longest run of rule files, in the order of their names, whose
texts stay within the total size; each text stays within the size of one file. -/
theorem rules_longest {names rules : List String} (hdir : provider.rules_dir = some dir)
    (his : disk.is_dir dir = .ok true) (hnames : disk.iterdir dir = .ok names)
    (hinj : ∀ a ∈ names, ∀ b ∈ names, provider.order a = provider.order b → a = b)
    (hload : provider.load_rules disk = .ok rules) {sorted : List String}
    (hperm : sorted.Perm names)
    (hsorted : sorted.Pairwise fun a b => provider.order a ≤ provider.order b) :
    ∃ taken, rules = taken.map (fun rule => rule_entry rule.1 rule.2) ∧
      taken <+: rule_texts disk dir sorted ∧ Fitting.total text_size taken ≤ MAX_TOTAL_SIZE ∧
      (∀ more, more <+: rule_texts disk dir sorted →
        Fitting.total text_size more ≤ MAX_TOTAL_SIZE → more <+: taken) ∧
      ∀ rule ∈ taken, rule.2.length ≤ MAX_RULE_SIZE + 16 := by
  simp only [load_rules, hdir, his, hnames, bind, Except.bind, if_true] at hload
  rw [sorted_names_eq hinj hperm hsorted] at hload
  have hbegin := @Fitting.fit_prefix _ text_size MAX_TOTAL_SIZE (rule_texts disk dir sorted)
  refine ⟨_, load_files_ok hload (Nat.zero_le _), hbegin, Fitting.total_fit _ _,
    fun more hmore htotal => Fitting.prefix_fit hmore htotal, fun rule hrule => ?_⟩
  exact rule_texts_length (hbegin.subset hrule)

end Rules

def sampleProvider : PolicyProvider where
  rules_dir := some "/srv/config/rules"
  profiles_dir := none
  order := String.toList

/-- A directory with a rule file and a file of another kind, listed out of order. -/
def sampleDisk : PolicyDisk where
  is_dir := fun _ => .ok true
  iterdir := fun _ => .ok ["style.md", "notes.csv"]
  file := fun _ => ⟨.ok true, .ok 1, .ok " Keep functions short. "⟩

theorem rules_longest_sample : ∃ rules, sampleProvider.load_rules sampleDisk = .ok rules ∧
    ∃ taken, rules = taken.map (fun rule => rule_entry rule.1 rule.2) ∧
      taken <+: rule_texts sampleDisk "/srv/config/rules" ["notes.csv", "style.md"] ∧
      Fitting.total text_size taken ≤ MAX_TOTAL_SIZE := by
  have hsorted : sampleProvider.sorted_names ["style.md", "notes.csv"] =
      ["notes.csv", "style.md"] :=
    sorted_names_eq (by decide) (by decide) (by decide)
  obtain ⟨rules, hload⟩ : ∃ rules, sampleProvider.load_rules sampleDisk = .ok rules := by
    have hnames : sampleProvider.load_rules sampleDisk =
        load_files sampleDisk "/srv/config/rules" ["notes.csv", "style.md"] 0 := by
      rw [← hsorted]
      rfl
    rw [hnames]
    exact ⟨_, rfl⟩
  obtain ⟨taken, hrules, hbegin, htotal, -, -⟩ :=
    rules_longest rfl rfl rfl (by decide) hload
      (show ["notes.csv", "style.md"].Perm ["style.md", "notes.csv"] by decide) (by decide)
  exact ⟨rules, hload, taken, hrules, hbegin, htotal⟩

/-- The calls of `collect` since the last invalidation. -/
def looks (calls : List Call) : List (ReviewRequest × PolicyDisk) :=
  calls.foldl (fun looks call => match call with
    | .collect request disk => looks ++ [(request, disk)]
    | .invalidate_cache => []) []

section Caches

variable (provider : PolicyProvider)

/-- The directories that the remembered rules are from: those of the first call that could load
its rules. -/
def rules_look (looks : List (ReviewRequest × PolicyDisk)) : Option PolicyDisk :=
  (looks.find? fun look => (provider.load_rules look.2).isOk).map Prod.snd

/-- The directories that a remembered profile is from: those of the first call that had rules,
asked for this profile and could load it. -/
def profile_look (name : String) (looks : List (ReviewRequest × PolicyDisk)) : Option PolicyDisk :=
  ((looks.dropWhile fun look => !(provider.load_rules look.2).isOk).find? fun look =>
    decide (profile_name look.1 = name) && (provider.load_profile name look.2).isOk).map Prod.snd

/-- The fragment with the rules and the profile read from these directories. -/
def read_fragment (request : ReviewRequest) (rules_disk profile_disk : PolicyDisk) :
    Except PyExc ContextFragment := do
  let rules ← provider.load_rules rules_disk
  let entries ← provider.load_profile (profile_name request) profile_disk
  pure (fragment (profile_name request) rules entries)

/-- The caches hold what these looks leave in them. -/
structure Holds (looks : List (ReviewRequest × PolicyDisk)) (caches : PolicyCaches) : Prop where
  rules : caches.rules.map Except.ok = (provider.rules_look looks).map provider.load_rules
  profiles : ∀ name, (caches.profiles.lookup name).map Except.ok =
    (provider.profile_look name looks).map (provider.load_profile name)

end Caches

section Caches

variable {provider : PolicyProvider} {looks : List (ReviewRequest × PolicyDisk)}
  {caches : PolicyCaches} {request : ReviewRequest} {disk : PolicyDisk}

theorem cached_rules_eq (h : provider.Holds looks caches) :
    (provider.cached_rules disk caches).1 =
      provider.load_rules ((provider.rules_look looks).getD disk) := by
  have hrules := h.rules
  unfold cached_rules
  cases hcached : caches.rules with
  | some rules =>
    cases hlook : provider.rules_look looks with
    | none => simp [hcached, hlook] at hrules
    | some look => simpa [hcached, hlook] using hrules
  | none =>
    have hnone : provider.rules_look looks = none := by simpa [hcached] using hrules
    rw [hnone]
    cases hload : provider.load_rules disk <;> simp [hload]

theorem cached_profile_eq {name : String}
    (hprofile : (caches.profiles.lookup name).map Except.ok =
      (provider.profile_look name looks).map (provider.load_profile name)) :
    (provider.cached_profile name disk caches).1 =
      provider.load_profile name ((provider.profile_look name looks).getD disk) := by
  unfold cached_profile
  cases hcached : caches.profiles.lookup name with
  | some entries =>
    cases hlook : provider.profile_look name looks with
    | none => simp [hcached, hlook] at hprofile
    | some look => simpa [hcached, hlook] using hprofile
  | none =>
    have hnone : provider.profile_look name looks = none := by simpa [hcached] using hprofile
    rw [hnone]
    cases hload : provider.load_profile name disk <;> simp [hload]

/-- The look-up of the rules changes nothing, or remembers what it loads. -/
theorem cached_rules_snd : (provider.cached_rules disk caches).2.profiles = caches.profiles ∧
    (provider.cached_rules disk caches).2.rules =
      (provider.cached_rules disk caches).1.toOption := by
  unfold cached_rules
  cases hcached : caches.rules with
  | some rules => simp [hcached, Except.toOption]
  | none => cases provider.load_rules disk <;> simp [hcached, Except.toOption]

theorem cached_profile_snd {name : String} :
    (provider.cached_profile name disk caches).2.rules = caches.rules ∧
    ∀ other, (provider.cached_profile name disk caches).2.profiles.lookup other =
      if other = name then (provider.cached_profile name disk caches).1.toOption
      else caches.profiles.lookup other := by
  unfold cached_profile
  cases hcached : caches.profiles.lookup name with
  | some entries =>
    refine ⟨rfl, fun other => ?_⟩
    by_cases h : other = name
    · simp [h, hcached, Except.toOption]
    · simp [h]
  | none =>
    cases provider.load_profile name disk with
    | error e =>
      refine ⟨rfl, fun other => ?_⟩
      by_cases h : other = name
      · simp [h, hcached, Except.toOption]
      · simp [h]
    | ok entries => exact ⟨rfl, fun other => by simp [Except.toOption]⟩

theorem rules_look_append : provider.rules_look (looks ++ [(request, disk)]) =
    (provider.rules_look looks).or
      (if (provider.load_rules disk).isOk then some disk else none) := by
  unfold rules_look
  rw [List.find?_append, Option.map_or]
  congr 1
  by_cases h : (provider.load_rules disk).isOk = true <;> simp [h]

/-- Before the rules could be loaded no call got to its profile. -/
theorem rules_look_none_iff : provider.rules_look looks = none ↔
    (looks.dropWhile fun look => !(provider.load_rules look.2).isOk) = [] := by
  rw [rules_look, Option.map_eq_none_iff, List.find?_eq_none, List.dropWhile_eq_nil_iff]
  simp

theorem profile_look_none {name : String} (h : provider.rules_look looks = none) :
    provider.profile_look name looks = none := by
  rw [profile_look, rules_look_none_iff.mp h]
  rfl

theorem profile_look_append {name : String}
    (h : (provider.load_rules ((provider.rules_look looks).getD disk)).isOk = true) :
    provider.profile_look name (looks ++ [(request, disk)]) =
      (provider.profile_look name looks).or
        (if profile_name request = name ∧ (provider.load_profile name disk).isOk then some disk
          else none) := by
  have hlast : ([(request, disk)].find? fun look =>
      decide (profile_name look.1 = name) && (provider.load_profile name look.2).isOk).map Prod.snd =
      if profile_name request = name ∧ (provider.load_profile name disk).isOk then some disk
        else none := by
    by_cases hname : profile_name request = name
    · by_cases hload : (provider.load_profile name disk).isOk = true <;> simp [hname, hload]
    · simp [hname]
  have hdrop : ((looks ++ [(request, disk)]).dropWhile fun look =>
      !(provider.load_rules look.2).isOk) =
      (looks.dropWhile fun look => !(provider.load_rules look.2).isOk) ++ [(request, disk)] := by
    rw [List.dropWhile_append]
    split
    · rename_i hempty
      have hnil := List.isEmpty_iff.mp hempty
      rw [rules_look_none_iff.mpr hnil, Option.getD_none] at h
      simp [hnil, h]
    · rfl
  rw [profile_look, hdrop, List.find?_append, Option.map_or, hlast, profile_look]

theorem collect_fst (h : provider.Holds looks caches) :
    (provider.collect request disk caches).1 = provider.read_fragment request
      ((provider.rules_look looks).getD disk)
      ((provider.profile_look (profile_name request) looks).getD disk) := by
  have hrules := @cached_rules_eq provider looks caches disk h
  have hkept := (@cached_rules_snd provider caches disk).1
  unfold collect read_fragment
  generalize provider.cached_rules disk caches = cached at hrules hkept
  obtain ⟨r, caches'⟩ := cached
  simp only at hrules hkept
  rw [← hrules]
  cases r with
  | error e => rfl
  | ok rules =>
    have hprofile := h.profiles (profile_name request)
    rw [← hkept] at hprofile
    have heq := @cached_profile_eq provider looks caches' disk (profile_name request) hprofile
    rw [← heq]
    simp only
    generalize provider.cached_profile (profile_name request) disk caches' = cached
    obtain ⟨r', caches''⟩ := cached
    cases r' <;> rfl

theorem rules_look_ok {look : PolicyDisk} (h : provider.rules_look looks = some look) :
    (provider.load_rules look).isOk = true := by
  obtain ⟨found, hfound, rfl⟩ := Option.map_eq_some_iff.mp h
  have hfind := List.find?_some hfound
  exact hfind

theorem profile_look_ok {name : String} {look : PolicyDisk}
    (h : provider.profile_look name looks = some look) :
    (provider.load_profile name look).isOk = true := by
  obtain ⟨found, hfound, rfl⟩ := Option.map_eq_some_iff.mp h
  have hfind := List.find?_some hfound
  simp only [Bool.and_eq_true] at hfind
  exact hfind.2

/-- A load that answered is remembered, with the look it is from. -/
theorem remembered_eq {β : Type} {load : PolicyDisk → Except PyExc β} {known : Option PolicyDisk}
    (hknown : ∀ look, known = some look → (load look).isOk = true) :
    (load (known.getD disk)).toOption.map Except.ok =
      (known.or (if (load disk).isOk then some disk else none)).map load := by
  have hok : ∀ look, (load look).isOk = true →
      (load look).toOption.map Except.ok = some (load look) := by
    intro look hlook
    cases hload : load look with
    | error e => simp [hload, Except.isOk, Except.toBool] at hlook
    | ok b => rfl
  cases known with
  | some look => simpa using hok look (hknown look rfl)
  | none =>
    rw [Option.getD_none, Option.none_or]
    by_cases hdisk : (load disk).isOk = true
    · simpa [hdisk] using hok disk hdisk
    · cases hload : load disk with
      | error e => simp [Except.isOk, Except.toBool, Except.toOption]
      | ok b => simp [hload, Except.isOk, Except.toBool] at hdisk

theorem collect_holds (h : provider.Holds looks caches) :
    provider.Holds (looks ++ [(request, disk)]) (provider.collect request disk caches).2 := by
  have hrules := @cached_rules_eq provider looks caches disk h
  obtain ⟨hkept, hremembered⟩ := @cached_rules_snd provider caches disk
  have hrules' : (provider.cached_rules disk caches).2.rules.map Except.ok =
      (provider.rules_look (looks ++ [(request, disk)])).map provider.load_rules := by
    rw [hremembered, hrules, rules_look_append]
    exact remembered_eq fun look => rules_look_ok
  unfold collect
  generalize provider.cached_rules disk caches = cached at hrules hkept hremembered hrules'
  obtain ⟨r, caches'⟩ := cached
  simp only at hrules hkept hremembered hrules'
  cases r with
  | error e =>
    -- no rules were ever loaded, so no profile was looked up
    have hnone : provider.rules_look looks = none := by
      cases hlook : provider.rules_look looks with
      | none => rfl
      | some look =>
        have hok := rules_look_ok hlook
        rw [hlook, Option.getD_some] at hrules
        rw [← hrules] at hok
        cases hok
    refine ⟨hrules', fun name => ?_⟩
    have hnone' : provider.rules_look (looks ++ [(request, disk)]) = none := by
      rw [hnone, Option.getD_none] at hrules
      rw [rules_look_append, hnone, ← hrules]
      rfl
    have hprofile := h.profiles name
    rw [profile_look_none hnone] at hprofile
    rw [hkept, hprofile, profile_look_none hnone']
  | ok rules =>
    have hok : (provider.load_rules ((provider.rules_look looks).getD disk)).isOk = true := by
      rw [← hrules]
      rfl
    have hprofiles : ∀ name, (caches'.profiles.lookup name).map Except.ok =
        (provider.profile_look name looks).map (provider.load_profile name) := by
      rw [hkept]
      exact h.profiles
    have heq := @cached_profile_eq provider looks caches' disk _ (hprofiles (profile_name request))
    obtain ⟨hsame, hlookup⟩ := @cached_profile_snd provider caches' disk (profile_name request)
    simp only
    generalize provider.cached_profile (profile_name request) disk caches' = cached at *
    obtain ⟨r', caches''⟩ := cached
    simp only at heq hsame hlookup
    have hholds : provider.Holds (looks ++ [(request, disk)]) caches'' := by
      refine ⟨by rw [hsame, hrules'], fun name => ?_⟩
      rw [hlookup, profile_look_append hok]
      by_cases hname : name = profile_name request
      · subst hname
        rw [if_pos rfl, heq]
        simpa using remembered_eq fun look => profile_look_ok
      · have hother : ¬profile_name request = name := fun heq => hname heq.symm
        simpa [if_neg hname, hother] using hprofiles name
    cases r' <;> exact hholds

end Caches

/-- After any calls, what `collect` answers is read from the rules of the first call since the last
invalidation that could load its rules, and the profile of the first one from there on that asked
for it and could load it; where there is none, from the directories as they are now. -/
theorem collect_after (provider : PolicyProvider) (calls : List Call) (request : ReviewRequest)
    (disk : PolicyDisk) : (provider.collect request disk (provider.caches_after calls)).1 =
      provider.read_fragment request ((provider.rules_look (looks calls)).getD disk)
        ((provider.profile_look (profile_name request) (looks calls)).getD disk) := by
  suffices h : provider.Holds (looks calls) (provider.caches_after calls) from collect_fst h
  induction calls using List.reverseRecOn with
  | nil => exact ⟨rfl, fun name => rfl⟩
  | append_singleton calls call ih =>
    cases call with
    | collect request disk =>
      simp only [looks, caches_after, List.foldl_append, List.foldl_cons, List.foldl_nil]
      exact collect_holds ih
    | invalidate_cache =>
      simp only [looks, caches_after, List.foldl_append, List.foldl_cons, List.foldl_nil]
      exact ⟨rfl, fun name => rfl⟩

end PolicyProvider

end Nitpicker
