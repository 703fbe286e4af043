import NitpickerDaemon.ContextService
import NitpickerDaemon.Text.Components

/-!
The invalidation of the context cache by a path: which entries it removes, and which stand at or
under the path.
-/

set_option autoImplicit false

namespace Nitpicker

open Text (GoesOn components trimmed)

namespace StaticContextService

/-- The names on a path between its separators. -/
def path_components (path : String) : List (List Char) := components '/' (normalized path).toList

/-- The key is the path, or is below it. -/
def Under (file_path key : String) : Prop := path_components file_path <+: path_components key

instance (file_path key : String) : Decidable (Under file_path key) :=
  inferInstanceAs (Decidable (_ <+: _))

/-- The invalidation removes the entries at and under the path, tells their number and keeps the
others. -/
def Exact (file_path : String) (cache : ServiceCache) : Prop :=
  invalidate_for_path file_path cache = (cache.countP fun e => decide (Under file_path e.1),
    cache.filter fun e => !decide (Under file_path e.1))

section Paths

variable {file_path key : String} {cache : ServiceCache}

theorem stale_iff : stale file_path key = true ↔
    GoesOn '/' (normalized file_path).toList (normalized key).toList := by
  rw [Text.goesOn_iff]
  simp only [stale, Bool.or_eq_true, beq_iff_eq, startswith, String.toList_append,
    List.isPrefixOf_iff_prefix]
  exact or_congr_left String.toList_inj.symm

theorem under_iff : Under file_path key ↔
    GoesOn '/' (trimmed '/' (normalized file_path).toList) (normalized key).toList :=
  Text.components_prefix_iff

/-- Every removed entry is at or under the path. -/
theorem under_of_stale (h : stale file_path key = true) : Under file_path key := by
  obtain ⟨rest, hrest, hsep⟩ := stale_iff.mp h
  obtain ⟨n, hn⟩ := Text.trimmed_append '/' (normalized file_path).toList
  rw [under_iff]
  refine ⟨List.replicate n '/' ++ rest, ?_, fun c hc => ?_⟩
  · rw [hrest, ← List.append_assoc, ← hn]
  · cases n with
    | zero => exact hsep c (by simpa using hc)
    | succ n => simpa [List.replicate_succ, eq_comm] using hc

theorem exact_iff_agree : Exact file_path cache ↔
    ∀ e ∈ cache, Under file_path e.1 → stale file_path e.1 = true := by
  constructor
  · intro h e he hunder
    by_contra hfresh
    have hkept : e ∈ (invalidate_for_path file_path cache).2 :=
      List.mem_filter.mpr ⟨he, by simpa using hfresh⟩
    rw [h] at hkept
    have hout := (List.mem_filter.mp hkept).2
    simp [hunder] at hout
  · intro h
    have hagree : ∀ e ∈ cache, stale file_path e.1 = decide (Under file_path e.1) := by
      intro e he
      rw [Bool.eq_iff_iff, decide_eq_true_iff]
      exact ⟨under_of_stale, h e he⟩
    have hcount : cache.countP (fun e => stale file_path e.1) =
        cache.countP fun e => decide (Under file_path e.1) :=
      List.countP_congr fun e he => by rw [hagree e he]
    have hkeep : cache.filter (fun e => !stale file_path e.1) =
        cache.filter fun e => !decide (Under file_path e.1) :=
      List.filter_congr fun e he => by rw [hagree e he]
    rw [Exact, invalidate_for_path, hcount, hkeep]

/-- The path's text, unlike its names, ends in a separator. -/
def Trailing (file_path : String) : Prop := (normalized file_path).toList.getLast? = some '/'

/-- The key repeats the separators at the end of the path, and ends there or has another one. -/
def RepeatsSeparators (file_path key : String) : Prop :=
  GoesOn '/' (normalized file_path).toList (normalized key).toList

/-- An invalidation is exact if and only if the path does not end in a separator, or each key at
or under it repeats the separators at its end. -/
theorem invalidation_exact_iff : Exact file_path cache ↔ ¬Trailing file_path ∨
    ∀ e ∈ cache, Under file_path e.1 → RepeatsSeparators file_path e.1 := by
  rw [exact_iff_agree]
  simp only [stale_iff]
  by_cases htrailing : Trailing file_path
  · simp [htrailing, RepeatsSeparators]
  · refine iff_of_true (fun e he hunder => ?_) (.inl htrailing)
    rwa [under_iff, Text.trimmed_self htrailing] at hunder

end Paths

/-- A bundle of `src/a.py`. -/
def sample_bundle : ContextBundle where
  request_id := "r"
  context_hash := ""
  token_estimate := 1
  tiers := []
  metadata := []

/-- The directory is named with its separator, and the file in it stays in the cache. -/
theorem trailing_separator_ignored : Under "src/" "src/a.py" ∧
    ¬Exact "src/" [("src/a.py", sample_bundle)] ∧
    (invalidate_for_path "src/" [("src/a.py", sample_bundle)]).1 = 0 := by
  have hunder : Under "src/" "src/a.py" := by decide
  have hfresh : stale "src/" "src/a.py" = false := by decide
  refine ⟨hunder, fun h => ?_, ?_⟩
  · have hstale := exact_iff_agree.mp h _ (List.mem_singleton.mpr rfl) hunder
    rw [hfresh] at hstale
    cases hstale
  · simp [invalidate_for_path, hfresh]

end StaticContextService

end Nitpicker
