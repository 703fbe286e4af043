import NitpickerDaemon.Data.Dict

/-!
Results that are remembered with the stamp of the version they were loaded from, and loaded again
when a look at the source shows another stamp.
-/

set_option autoImplicit false

namespace Stamped

variable {κ ρ σ β ε : Type} [DecidableEq κ] [DecidableEq σ]

/-- How a look `ρ` at the source is read: its stamp, `none` where what is remembered does not
count, and the result with the stamp to remember it by. -/
structure Source (ρ σ β ε : Type) where
  stamp : ρ → Except ε (Option σ)
  load : ρ → Except ε (β × σ)

/-- A use of the table: look a key up with a look at its source, or forget the key. -/
inductive Use (κ ρ : Type) where
  | get (k : κ) (r : ρ)
  | drop (k : κ)

namespace Source

variable (source : Source ρ σ β ε)

def store (table : List (κ × β × σ)) (k : κ) (r : ρ) : Except ε β × List (κ × β × σ) :=
  match source.load r with
  | .ok (b, s) => (.ok b, Dict.set table k (b, s))
  | .error e => (.error e, table)

def get (table : List (κ × β × σ)) (k : κ) (r : ρ) : Except ε β × List (κ × β × σ) :=
  match source.stamp r with
  | .error e => (.error e, table)
  | .ok none => source.store table k r
  | .ok (some s) => match table.lookup k with
    | some (b, s₀) => if s₀ = s then (.ok b, table) else source.store table k r
    | none => source.store table k r

def step (table : List (κ × β × σ)) : Use κ ρ → List (κ × β × σ)
  | .get k r => (source.get table k r).2
  | .drop k => table.filter fun e => !decide (e.1 = k)

/-- The table after the uses. -/
def table (uses : List (Use κ ρ)) : List (κ × β × σ) := uses.foldl source.step []

/-- What the look gives with nothing remembered. -/
def fresh (r : ρ) : Except ε β := source.stamp r >>= fun _ => Prod.fst <$> source.load r

/-- The look, when it is loaded, gives `b`, to be remembered by `s`. -/
def Loads (r : ρ) (b : β) (s : σ) : Prop :=
  (∃ stamp, source.stamp r = .ok stamp) ∧ source.load r = .ok (b, s)

/-- A result remembered from the look `r₀` answers the look `r`, whose own result is another. -/
def Confused (r₀ r : ρ) : Prop :=
  ∃ b s, source.Loads r₀ b s ∧ source.stamp r = .ok (some s) ∧ source.fresh r ≠ .ok b

end Source

variable {source : Source ρ σ β ε} {uses : List (Use κ ρ)}

theorem get_fst (table : List (κ × β × σ)) (k : κ) (r : ρ) :
    (source.get table k r).1 = source.fresh r ∨
      ∃ b s, table.lookup k = some (b, s) ∧ source.stamp r = .ok (some s) ∧
        (source.get table k r).1 = .ok b := by
  have hstore : ∀ stamp, source.stamp r = .ok stamp →
      (source.store table k r).1 = source.fresh r := by
    intro stamp hstamp
    simp only [Source.store, Source.fresh, hstamp]
    cases hload : source.load r <;> rfl
  cases hstamp : source.stamp r with
  | error e =>
    left
    simp only [Source.get, Source.fresh, hstamp]
    rfl
  | ok stamp =>
    cases stamp with
    | none =>
      left
      simpa only [Source.get, hstamp] using hstore none hstamp
    | some s =>
      simp only [Source.get, hstamp]
      cases hlookup : table.lookup k with
      | none =>
        left
        exact hstore (some s) hstamp
      | some entry =>
        obtain ⟨b, s₀⟩ := entry
        by_cases hs : s₀ = s
        · subst hs
          right
          exact ⟨b, s₀, rfl, rfl, by simp⟩
        · left
          simpa only [if_neg hs] using hstore (some s) hstamp

/-- A look-up leaves its table alone, or stores what the look loads. -/
theorem get_snd (table : List (κ × β × σ)) (k : κ) (r : ρ) :
    (source.get table k r).2 = table ∨
      ∃ b s, source.Loads r b s ∧ (source.get table k r).2 = Dict.set table k (b, s) := by
  have hstore : ∀ stamp, source.stamp r = .ok stamp → (source.store table k r).2 = table ∨
      ∃ b s, source.Loads r b s ∧ (source.store table k r).2 = Dict.set table k (b, s) := by
    intro stamp hstamp
    cases hload : source.load r with
    | error e => exact .inl (by simp only [Source.store, hload])
    | ok loaded =>
      obtain ⟨b, s⟩ := loaded
      exact .inr ⟨b, s, ⟨⟨stamp, hstamp⟩, hload⟩, by simp only [Source.store, hload]⟩
  cases hstamp : source.stamp r with
  | error e => exact .inl (by simp only [Source.get, hstamp])
  | ok stamp =>
    have hs := hstore stamp hstamp
    cases stamp with
    | none => simpa only [Source.get, hstamp] using hs
    | some s =>
      simp only [Source.get, hstamp]
      cases hlookup : table.lookup k with
      | none => exact hs
      | some entry =>
        obtain ⟨b, s₀⟩ := entry
        by_cases heq : s₀ = s
        · exact .inl (by simp [heq])
        · simpa only [if_neg heq] using hs

/-- What stands in a table was loaded from a look at its key. -/
def Loaded (source : Source ρ σ β ε) (looks : κ → ρ → Prop) (table : List (κ × β × σ)) : Prop :=
  ∀ k b s, table.lookup k = some (b, s) → ∃ r, looks k r ∧ source.Loads r b s

theorem step_loaded {looks : κ → ρ → Prop} {table : List (κ × β × σ)}
    (h : Loaded source looks table) (use : Use κ ρ)
    (hlook : ∀ k r, use = .get k r → looks k r) : Loaded source looks (source.step table use) := by
  intro k' b' s' hlookup
  cases use with
  | drop k =>
    have hfilter := Dict.lookup_filter table (fun k' => !decide (k' = k)) k'
    simp only [Source.step, hfilter] at hlookup
    split at hlookup
    · exact h k' b' s' hlookup
    · cases hlookup
  | get k r =>
    simp only [Source.step] at hlookup
    rcases @get_snd _ _ _ _ _ _ _ source table k r with hsame | ⟨b, s, hloads, hset⟩
    · rw [hsame] at hlookup
      exact h k' b' s' hlookup
    · rw [hset, Dict.lookup_set] at hlookup
      by_cases hk : k' = k
      · rw [if_pos hk] at hlookup
        cases hlookup
        subst hk
        exact ⟨r, hlook k' r rfl, hloads⟩
      · rw [if_neg hk] at hlookup
        exact h k' b' s' hlookup

theorem table_loaded (uses : List (Use κ ρ)) :
    Loaded source (fun k r => Use.get k r ∈ uses) (source.table uses) := by
  have hfold : ∀ table : List (κ × β × σ), ∀ looks : κ → ρ → Prop, Loaded source looks table →
      (∀ k r, Use.get k r ∈ uses → looks k r) →
      Loaded source looks (uses.foldl source.step table) := by
    induction uses with
    | nil => exact fun _ _ h _ => h
    | cons use uses ih =>
      intro table looks h hlooks
      refine ih _ looks (step_loaded h use fun k r heq => ?_) fun k r hmem => ?_
      · exact hlooks k r (heq ▸ List.mem_cons_self)
      · exact hlooks k r (List.mem_cons_of_mem _ hmem)
  exact hfold [] _ (fun k b s h => by simp at h) fun _ _ hmem => hmem

/-- A look that nothing remembered is confused with is answered as a fresh one. -/
theorem get_fresh {k : κ} {r : ρ} (h : ∀ r₀, Use.get k r₀ ∈ uses → ¬source.Confused r₀ r) :
    (source.get (source.table uses) k r).1 = source.fresh r := by
  rcases @get_fst _ _ _ _ _ _ _ source (source.table uses) k r with
    hfresh | ⟨b, s, hlookup, hstamp, hanswer⟩
  · exact hfresh
  · obtain ⟨r₀, hmem, hloads⟩ := table_loaded uses k b s hlookup
    by_contra hne
    refine h r₀ hmem ⟨b, s, hloads, hstamp, ?_⟩
    rw [← hanswer]
    exact fun heq => hne heq.symm

theorem get_confused {k : κ} {r₀ r : ρ} (h : source.Confused r₀ r) :
    (source.get (source.table [.get k r₀]) k r).1 ≠ source.fresh r := by
  obtain ⟨b, s, ⟨⟨stamp, hstamp₀⟩, hload⟩, hstamp, hne⟩ := h
  have htable : (source.table [.get k r₀]).lookup k = some (b, s) := by
    simp only [Source.table, List.foldl_cons, List.foldl_nil, Source.step, Source.get, hstamp₀]
    cases stamp <;> simp [Source.store, hload]
  intro hanswer
  rw [← hanswer, Source.get, hstamp] at hne
  simp [htable] at hne

end Stamped
