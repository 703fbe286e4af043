import NitpickerDaemon.Text.Regex

/-!
What a pattern reads, apart from the order in which its ways are tried, and the search for the
first place of a text at which a pattern matches.
-/

set_option autoImplicit false

namespace Text.Regex

variable {α : Type}

/-- The pattern can read `text` where it stands between `before`, last character first, and
`after`. -/
def Reads : Regex α → List α → List α → List α → Prop
  | .empty, _, text, _ => text = []
  | .char p, _, text, _ => ∃ c, text = [c] ∧ p c = true
  | .seq r s, before, text, after =>
    ∃ t u, text = t ++ u ∧ r.Reads before t (u ++ after) ∧ s.Reads (t.reverse ++ before) u after
  | .alt r s, before, text, after => r.Reads before text after ∨ s.Reads before text after
  | .run _ least most p, _, text, _ =>
    (∀ c ∈ text, p c = true) ∧ least ≤ text.length ∧ ∀ m, most = some m → text.length ≤ m
  | .group _ r, before, text, after => r.Reads before text after
  | .place f, before, text, after => text = [] ∧ f before.head? after.head? = true
  | .ahead found r, before, text, after =>
    text = [] ∧ (found = true ↔ ∃ t u, after = t ++ u ∧ r.Reads before t u)

section Reading

variable {p : α → Bool} {r : Regex α} {w w' : Way α}

/-- The place after `k` characters of a run. -/
theorem spans_getElem? (before rest : List α) (k : Nat) : (spans p before rest)[k]? =
    if k ≤ rest.length ∧ (rest.take k).all p = true then
      some ((rest.take k).reverse ++ before, rest.drop k)
    else none := by
  induction rest generalizing before k with
  | nil => cases k <;> simp [spans]
  | cons c rest ih =>
    cases k with
    | zero => simp [spans]
    | succ k =>
      by_cases hc : p c = true
      · simp [spans, hc, ih]
      · simp [spans, hc]

theorem mem_drop_iff {β : Type} {xs : List β} {least : Nat} {b : β} :
    b ∈ xs.drop least ↔ ∃ k, least ≤ k ∧ xs[k]? = some b := by
  rw [List.mem_iff_getElem?]
  constructor
  · intro ⟨i, hi⟩
    rw [List.getElem?_drop] at hi
    exact ⟨least + i, Nat.le_add_right least i, hi⟩
  · intro ⟨k, hk, hb⟩
    refine ⟨k - least, ?_⟩
    rwa [List.getElem?_drop, Nat.add_sub_cancel' hk]

theorem mem_drop_take_iff {β : Type} {xs : List β} {least most : Nat} {b : β} :
    b ∈ (xs.drop least).take (most + 1 - least) ↔ ∃ k, least ≤ k ∧ k ≤ most ∧ xs[k]? = some b := by
  rw [List.mem_iff_getElem?]
  constructor
  · intro ⟨i, hi⟩
    rw [List.getElem?_take] at hi
    split at hi
    · rw [List.getElem?_drop] at hi
      exact ⟨least + i, by omega, by omega, hi⟩
    · cases hi
  · intro ⟨k, hk, hmost, hb⟩
    refine ⟨k - least, ?_⟩
    rwa [List.getElem?_take, if_pos (by omega), List.getElem?_drop, Nat.add_sub_cancel' hk]

theorem mem_ways_places {greedy : Bool} {least : Nat} {most : Option Nat} :
    w' ∈ (run greedy least most p).ways w ↔ ∃ k, least ≤ k ∧ (∀ m, most = some m → k ≤ m) ∧
      ∃ b, (spans p w.before w.rest)[k]? = some b ∧ w' = ⟨b.1, b.2, w.groups⟩ := by
  cases most with
  | none =>
    cases greedy <;> simp only [ways, Bool.false_eq_true, if_false, if_true, List.mem_map,
      List.mem_reverse, mem_drop_iff] <;> grind
  | some most =>
    cases greedy <;> simp only [ways, Bool.false_eq_true, if_false, if_true, List.mem_map,
      List.mem_reverse, mem_drop_take_iff] <;> grind

/-- The ways of a run end after the texts that it reads. -/
theorem mem_ways_run {greedy : Bool} {least : Nat} {most : Option Nat} :
    w' ∈ (run greedy least most p).ways w ↔ ∃ text, w.rest = text ++ w'.rest ∧
      w' = ⟨text.reverse ++ w.before, w'.rest, w.groups⟩ ∧
      (run greedy least most p).Reads w.before text w'.rest := by
  rw [mem_ways_places]
  constructor
  · intro ⟨k, hk, hmost, b, hb, hw⟩
    rw [spans_getElem?] at hb
    split at hb
    · rename_i hall
      cases hb
      subst hw
      refine ⟨w.rest.take k, by simp, rfl, by simpa using hall.2, ?_, ?_⟩
      · rw [List.length_take, Nat.min_eq_left hall.1]
        exact hk
      · intro m hm
        rw [List.length_take, Nat.min_eq_left hall.1]
        exact hmost m hm
    · cases hb
  · intro ⟨text, hrest, hw, hall, hleast, hmost⟩
    refine ⟨text.length, hleast, hmost, (text.reverse ++ w.before, w'.rest), ?_, hw⟩
    rw [spans_getElem?, hrest, if_pos]
    · simp
    · exact ⟨by simp, by simpa using hall⟩

/-- A pattern has a way exactly where it reads a text, whatever groups were read before. -/
def Exact (r : Regex α) : Prop := ∀ before after groups text,
  (∃ groups', ⟨text.reverse ++ before, after, groups'⟩ ∈ r.ways ⟨before, text ++ after, groups⟩) ↔
    r.Reads before text after

/-- A way leaves the text where it is and reads on in it. -/
theorem way_text (h : w' ∈ r.ways w) :
    ∃ text, w.rest = text ++ w'.rest ∧ w'.before = text.reverse ++ w.before := by
  induction r generalizing w w' with
  | empty =>
    rw [ways_empty, List.mem_singleton] at h
    exact ⟨[], by simp [h]⟩
  | char p =>
    obtain ⟨before, rest, groups⟩ := w
    cases rest with
    | nil => cases h
    | cons c rest =>
      rw [ways_char] at h
      split at h
      · exact ⟨[c], by simp [List.mem_singleton.mp h]⟩
      · cases h
  | seq r s ihr ihs =>
    rw [ways_seq] at h
    obtain ⟨v, hv, hw⟩ := List.mem_flatMap.mp h
    obtain ⟨t, ht, htb⟩ := ihr hv
    obtain ⟨u, hu, hub⟩ := ihs hw
    exact ⟨t ++ u, by simp [ht, hu], by simp [htb, hub]⟩
  | alt r s ihr ihs =>
    rw [ways_alt] at h
    rcases List.mem_append.mp h with h | h
    · exact ihr h
    · exact ihs h
  | run greedy least most p =>
    obtain ⟨text, hrest, hw, -⟩ := mem_ways_run.mp h
    exact ⟨text, hrest, by rw [hw]⟩
  | group i r ih =>
    obtain ⟨v, hv, rfl⟩ := List.mem_map.mp h
    obtain ⟨text, hrest, hbefore⟩ := ih hv
    exact ⟨text, hrest, hbefore⟩
  | place f =>
    rw [ways_place] at h
    split at h
    · exact ⟨[], by simp [List.mem_singleton.mp h]⟩
    · cases h
  | ahead found r =>
    rw [ways_ahead] at h
    split at h
    · cases h
    · exact ⟨[], by simp [List.mem_singleton.mp h]⟩

/-- What a way has read, for a pattern that is exact. -/
theorem Exact.reads (hr : r.Exact) (h : w' ∈ r.ways w) :
    ∃ text, w.rest = text ++ w'.rest ∧ w'.before = text.reverse ++ w.before ∧
      r.Reads w.before text w'.rest := by
  obtain ⟨text, hrest, hbefore⟩ := way_text h
  refine ⟨text, hrest, hbefore, (hr w.before w'.rest w.groups text).mp ⟨w'.groups, ?_⟩⟩
  rwa [← hrest, ← hbefore]

theorem Exact.isEmpty (hr : r.Exact) : (r.ways w).isEmpty = false ↔
    ∃ t u, w.rest = t ++ u ∧ r.Reads w.before t u := by
  rw [List.isEmpty_eq_false_iff_exists_mem]
  constructor
  · intro ⟨w', hw⟩
    obtain ⟨t, hrest, -, ht⟩ := hr.reads hw
    exact ⟨t, w'.rest, hrest, ht⟩
  · intro ⟨t, u, hrest, ht⟩
    obtain ⟨groups, hway⟩ := (hr w.before u w.groups t).mpr ht
    rw [← hrest] at hway
    exact ⟨_, hway⟩

/-- Every pattern is exact. -/
theorem exact_ways (r : Regex α) : r.Exact := by
  induction r with
  | empty =>
    intro before after groups text
    simp [Reads]
  | char p =>
    intro before after groups text
    constructor
    · intro ⟨groups', h⟩
      cases text with
      | nil => cases after <;> simp [ways_char_nil, ways_char] at h
      | cons c text =>
        simp only [List.cons_append, ways_char] at h
        split at h
        · rename_i hc
          have hnil : text = [] := by simpa using congrArg Way.rest (List.mem_singleton.mp h)
          exact ⟨c, by rw [hnil], hc⟩
        · cases h
    · intro ⟨c, htext, hc⟩
      subst htext
      exact ⟨groups, by simp [ways_char, hc]⟩
  | seq r s ihr ihs =>
    intro before after groups text
    constructor
    · intro ⟨groups', h⟩
      rw [ways_seq] at h
      obtain ⟨v, hv, hw⟩ := List.mem_flatMap.mp h
      obtain ⟨t, ht, htb, htr⟩ := ihr.reads hv
      obtain ⟨u, hu, hub, hur⟩ := ihs.reads hw
      rw [hu] at ht htr
      rw [htb] at hur
      have htext : text = t ++ u := by
        rw [← List.append_assoc] at ht
        exact List.append_cancel_right ht
      exact ⟨t, u, htext, htr, hur⟩
    · intro ⟨t, u, htext, ht, hu⟩
      obtain ⟨groups₁, h₁⟩ := (ihr before (u ++ after) groups t).mpr ht
      obtain ⟨groups₂, h₂⟩ := (ihs (t.reverse ++ before) after groups₁ u).mpr hu
      refine ⟨groups₂, ?_⟩
      rw [ways_seq, htext, List.append_assoc]
      apply List.mem_flatMap.mpr
      exact ⟨_, h₁, by simpa using h₂⟩
  | alt r s ihr ihs =>
    intro before after groups text
    rw [Reads, ← ihr before after groups text, ← ihs before after groups text]
    simp [exists_or]
  | run greedy least most p =>
    intro before after groups text
    constructor
    · intro ⟨groups', h⟩
      obtain ⟨t, hrest, -, hreads⟩ := mem_ways_run.mp h
      have htext : text = t := by simpa using hrest
      rwa [htext]
    · intro h
      exact ⟨groups, mem_ways_run.mpr ⟨text, rfl, rfl, h⟩⟩
  | group i r ih =>
    intro before after groups text
    rw [Reads, ← ih before after groups text]
    constructor
    · intro ⟨groups', h⟩
      obtain ⟨v, hv, hw⟩ := List.mem_map.mp h
      injection hw with hbefore hrest
      subst hrest
      refine ⟨v.groups, ?_⟩
      rw [← hbefore]
      exact hv
    · intro ⟨groups', h⟩
      exact ⟨_, List.mem_map_of_mem h⟩
  | place f =>
    intro before after groups text
    rw [ways_place, Reads]
    constructor
    · intro ⟨groups', h⟩
      split at h
      · rename_i hf
        have hnil : text = [] := by simpa using congrArg Way.rest (List.mem_singleton.mp h)
        subst hnil
        exact ⟨rfl, hf⟩
      · cases h
    · intro ⟨htext, hf⟩
      subst htext
      exact ⟨groups, by simp [hf]⟩
  | ahead found r ih =>
    intro before after groups text
    rw [ways_ahead, Reads]
    have hahead := @Exact.isEmpty α r ⟨before, text ++ after, groups⟩ ih
    constructor
    · intro ⟨groups', h⟩
      split at h
      · cases h
      · rename_i hfound
        have hnil : text = [] := by simpa using congrArg Way.rest (List.mem_singleton.mp h)
        subst hnil
        refine ⟨rfl, ?_⟩
        rw [List.nil_append] at hahead hfound
        rw [← hahead]
        cases found <;> simpa using hfound
    · intro ⟨htext, hiff⟩
      subst htext
      rw [List.nil_append] at hahead
      rw [← hahead] at hiff
      refine ⟨groups, ?_⟩
      rw [if_neg (by cases found <;> simpa using hiff)]
      exact List.mem_singleton_self _

end Reading

/-- The first match, the empty one at the end of the text included. -/
def search (r : Regex α) : List α → List α → Option (Match α)
  | before, [] => r.first before []
  | before, c :: rest => match r.first before (c :: rest) with
    | some m => some m
    | none => search r (c :: before) rest

def found (r : Regex α) (text : List α) : Bool := (r.search [] text).isSome

variable {r : Regex α}

theorem search_isSome_iff {before text : List α} : (r.search before text).isSome = true ↔
    ∃ skipped rest, text = skipped ++ rest ∧
      (r.first (skipped.reverse ++ before) rest).isSome = true := by
  induction text generalizing before with
  | nil =>
    constructor
    · intro h
      exact ⟨[], [], rfl, h⟩
    · intro ⟨skipped, rest, heq, h⟩
      obtain ⟨rfl, rfl⟩ := List.append_eq_nil_iff.mp heq.symm
      exact h
  | cons c text ih =>
    cases hfirst : r.first before (c :: text) with
    | some m =>
      have hsome : (r.search before (c :: text)).isSome = true := by simp [search, hfirst]
      exact iff_of_true hsome ⟨[], c :: text, rfl, by simp [hfirst]⟩
    | none =>
      have hnext : r.search before (c :: text) = r.search (c :: before) text := by
        simp [search, hfirst]
      rw [hnext, ih]
      constructor
      · intro ⟨skipped, rest, heq, h⟩
        exact ⟨c :: skipped, rest, by simp [heq], by simpa using h⟩
      · intro ⟨skipped, rest, heq, h⟩
        cases skipped with
        | nil =>
          have hrest : rest = c :: text := heq.symm
          subst hrest
          simp [hfirst] at h
        | cons d skipped =>
          cases heq
          exact ⟨skipped, rest, rfl, by simpa using h⟩

theorem first_isSome_iff {before rest : List α} : (r.first before rest).isSome = true ↔
    ∃ text after, rest = text ++ after ∧ r.Reads before text after := by
  have hways := @Exact.isEmpty α r ⟨before, rest, []⟩ (exact_ways r)
  rw [← hways, first]
  cases r.ways ⟨before, rest, []⟩ <;> simp

/-- A pattern is found exactly in the texts with a part that it reads. -/
theorem found_iff {text : List α} : r.found text = true ↔
    ∃ before read after, text = before ++ (read ++ after) ∧ r.Reads before.reverse read after := by
  rw [found, search_isSome_iff]
  constructor
  · intro ⟨skipped, rest, heq, h⟩
    obtain ⟨read, after, hrest, hreads⟩ := first_isSome_iff.mp h
    exact ⟨skipped, read, after, by rw [heq, hrest], by simpa using hreads⟩
  · intro ⟨before, read, after, heq, hreads⟩
    have hfirst := first_isSome_iff.mpr ⟨read, after, rfl, hreads⟩
    exact ⟨before, read ++ after, heq, by simpa using hfirst⟩

section Rules

variable {before text after : List α} {s : Regex α} {p : α → Bool}

theorem reads_seq : (seq r s).Reads before text after ↔ ∃ t u, text = t ++ u ∧
    r.Reads before t (u ++ after) ∧ s.Reads (t.reverse ++ before) u after := Iff.rfl

theorem reads_alt : (alt r s).Reads before text after ↔
    r.Reads before text after ∨ s.Reads before text after := Iff.rfl

theorem reads_opt : (opt r).Reads before text after ↔ r.Reads before text after ∨ text = [] :=
  Iff.rfl

theorem reads_place {f : Option α → Option α → Bool} : (place f).Reads before text after ↔
    text = [] ∧ f before.head? after.head? = true := Iff.rfl

theorem reads_many {greedy : Bool} {least : Nat} : (run greedy least none p).Reads before text after ↔
    (∀ c ∈ text, p c = true) ∧ least ≤ text.length := by
  simp [Reads]

theorem reads_word [BEq α] [LawfulBEq α] {cs : List α} :
    (word cs).Reads before text after ↔ text = cs := by
  induction cs generalizing before text with
  | nil => exact Iff.rfl
  | cons c cs ih =>
    rw [word, reads_seq]
    constructor
    · rintro ⟨t, u, htext, ⟨d, ht, hd⟩, hu⟩
      rw [htext, ht, ih.mp hu, beq_iff_eq.mp hd]
      rfl
    · intro htext
      exact ⟨[c], cs, by simp [htext], ⟨c, rfl, by simp⟩, ih.mpr rfl⟩

end Rules

section Lazy

end Lazy

end Text.Regex
