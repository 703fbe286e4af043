import NitpickerDaemon.Data.Dict

/-!
Results of a function that are remembered under a key of the argument, which need not tell two
arguments apart: what a table that is kept over many calls answers.
-/

set_option autoImplicit false

namespace Memo

variable {ρ κ β ε : Type} [DecidableEq κ]

/-- A use of the table: look an argument up, or forget the keys that are stale. -/
inductive Call (ρ κ : Type) where
  | get (r : ρ)
  | drop (stale : κ → Bool)

section

variable (key : ρ → κ) (f : ρ → Except ε β)

/-- The remembered result, else a new one, which is remembered unless it is an error. -/
def get (table : List (κ × β)) (r : ρ) : Except ε β × List (κ × β) :=
  match table.lookup (key r) with
  | some b => (.ok b, table)
  | none => match f r with
    | .ok b => (.ok b, Dict.set table (key r) b)
    | .error e => (.error e, table)

def step (table : List (κ × β)) : Call ρ κ → List (κ × β)
  | .get r => (get key f table r).2
  | .drop stale => table.filter fun e => !stale e.1

/-- The table after the calls. -/
def table (calls : List (Call ρ κ)) : List (κ × β) := calls.foldl (step key f) []

/-- The argument whose result stands under each key, after one more call. -/
def source (known : κ → Option ρ) : Call ρ κ → κ → Option ρ
  | .get r, k => match known k with
    | some r₀ => some r₀
    | none => if key r = k ∧ (f r).isOk then some r else none
  | .drop stale, k => if stale k then none else known k

/-- The argument whose result stands under each key after the calls. -/
def sources (calls : List (Call ρ κ)) : κ → Option ρ :=
  calls.foldl (source key f) fun _ => none

end

variable {key : ρ → κ} {f : ρ → Except ε β}

/-- A table holds the results of the arguments `known`. -/
def Holds (f : ρ → Except ε β) (known : κ → Option ρ) (table : List (κ × β)) : Prop :=
  ∀ k, (table.lookup k).map Except.ok = (known k).map f

theorem step_holds {known : κ → Option ρ} {table : List (κ × β)} (h : Holds f known table)
    (call : Call ρ κ) : Holds f (source key f known call) (step key f table call) := by
  intro k
  have hk := h k
  cases call with
  | drop stale =>
    have hfilter := Dict.lookup_filter table (fun k => !stale k) k
    simp only [step, source, hfilter]
    cases stale k <;> simp [hk]
  | get r =>
    have hr := h (key r)
    simp only [step, source, get]
    cases htable : table.lookup (key r) with
    | some b =>
      obtain ⟨r₀, hknown⟩ : ∃ r₀, known (key r) = some r₀ := by
        cases hknown : known (key r) with
        | none => simp [htable, hknown] at hr
        | some r₀ => exact ⟨r₀, rfl⟩
      have hold : known k = none → key r ≠ k := by
        intro hnone heq
        rw [← heq, hknown] at hnone
        cases hnone
      cases hk₀ : known k with
      | some r₀ => simpa [hk₀] using hk
      | none => simpa [hk₀, hold hk₀] using hk
    | none =>
      have hknown : known (key r) = none := by simpa [htable] using hr
      cases hf : f r with
      | error e =>
        cases hk₀ : known k <;> simpa [hk₀, Except.isOk, Except.toBool] using hk
      | ok b =>
        by_cases heq : k = key r
        · subst heq
          simp [hknown, hf, Except.isOk, Except.toBool]
        · have hne : key r ≠ k := fun h => heq h.symm
          cases hk₀ : known k <;> simpa [hk₀, heq, hne] using hk

theorem table_holds (calls : List (Call ρ κ)) :
    Holds f (sources key f calls) (table key f calls) := by
  have hfold : ∀ (known : κ → Option ρ) (t : List (κ × β)), Holds f known t →
      Holds f (calls.foldl (source key f) known) (calls.foldl (step key f) t) := by
    induction calls with
    | nil => exact fun _ _ h => h
    | cons call calls ih => exact fun known t h => ih _ _ (step_holds h call)
  exact hfold _ _ fun k => rfl

/-- After the calls, a look-up answers with the result that stands under its key, if there is
one, else with its own. -/
theorem get_table (calls : List (Call ρ κ)) (r : ρ) : (get key f (table key f calls) r).1 =
    f ((sources key f calls (key r)).getD r) := by
  have hkey := @table_holds _ _ _ _ _ key f calls (key r)
  unfold get
  cases htable : (table key f calls).lookup (key r) with
  | some b =>
    cases hsource : sources key f calls (key r) with
    | none => simp [htable, hsource] at hkey
    | some r₀ => simpa [htable, hsource] using hkey
  | none =>
    have hnone : sources key f calls (key r) = none := by simpa [htable] using hkey
    cases hf : f r <;> simp [hnone, hf]

/-- When nothing is forgotten, the first argument of a key stands under it for good. -/
theorem sources_gets (key : ρ → κ) (f : ρ → Except ε β) (rs : List ρ) (k : κ) : sources key f (rs.map .get) k =
    rs.find? fun r => decide (key r = k) && (f r).isOk := by
  have hfold : ∀ known : κ → Option ρ, (rs.map Call.get).foldl (source key f) known k =
      (known k).or (rs.find? fun r => decide (key r = k) && (f r).isOk) := by
    induction rs with
    | nil => simp
    | cons r rs ih =>
      intro known
      rw [List.map_cons, List.foldl_cons, ih, source]
      cases known k with
      | some r₀ => rfl
      | none =>
        by_cases h : key r = k ∧ (f r).isOk = true
        · simp [h]
        · rw [if_neg h, List.find?_cons_of_neg (by simpa using h)]
  exact hfold _

end Memo
