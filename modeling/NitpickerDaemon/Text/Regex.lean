import NitpickerDaemon.Text.Lines

/-!
Regular expressions over any alphabet, read the way a backtracking matcher reads them: all the
ways a pattern matches at a place of a text, in the order in which the matcher tries them.
-/

set_option autoImplicit false

namespace Text

variable {α : Type}

/-- A place in a text, what stands before it last character first, and the groups read so far,
the last one first. -/
structure Way (α : Type) where
  before : List α
  rest : List α
  groups : List (Nat × List α)

inductive Regex (α : Type) where
  | empty : Regex α
  | char : (α → Bool) → Regex α
  | seq : Regex α → Regex α → Regex α
  | alt : Regex α → Regex α → Regex α
  /-- Between `least` and `most` characters, the longest run first when it is greedy. -/
  | run (greedy : Bool) (least : Nat) (most : Option Nat) : (α → Bool) → Regex α
  | group : Nat → Regex α → Regex α
  /-- A condition on the characters before and after the place. -/
  | place : (Option α → Option α → Bool) → Regex α
  | ahead (found : Bool) : Regex α → Regex α

/-- The places after a run of characters that satisfy `p`, the nearest first. -/
def spans (p : α → Bool) : List α → List α → List (List α × List α)
  | before, [] => [(before, [])]
  | before, c :: rest => (before, c :: rest) :: if p c then spans p (c :: before) rest else []

namespace Regex

def opt (r : Regex α) : Regex α := .alt r .empty

/-- The characters of `cs`, one after the other. -/
def word [BEq α] : List α → Regex α
  | [] => .empty
  | c :: cs => .seq (.char (· == c)) (word cs)

def ways : Regex α → Way α → List (Way α)
  | .empty, w => [w]
  | .char p, w => match w.rest with
    | [] => []
    | c :: rest => if p c then [{ w with before := c :: w.before, rest := rest }] else []
  | .seq r s, w => (r.ways w).flatMap s.ways
  | .alt r s, w => r.ways w ++ s.ways w
  | .run greedy least most p, w =>
    let from_least := (spans p w.before w.rest).drop least
    let places := match most with
      | some most => from_least.take (most + 1 - least)
      | none => from_least
    (if greedy then places.reverse else places).map fun b =>
      { w with before := b.1, rest := b.2 }
  | .group i r, w => (r.ways w).map fun w' =>
      { w' with groups := (i, w.rest.take (w.rest.length - w'.rest.length)) :: w'.groups }
  | .place p, w => if p w.before.head? w.rest.head? then [w] else []
  | .ahead found r, w => if (r.ways w).isEmpty = found then [] else [w]

/-- A match: the text it covers and its groups. -/
structure Match (α : Type) where
  text : List α
  groups : List (Nat × List α)

def Match.group (m : Match α) (i : Nat) : List α := (m.groups.lookup i).getD []

/-- The match at a place. -/
def first (r : Regex α) (before rest : List α) : Option (Match α) :=
  (r.ways ⟨before, rest, []⟩).head?.map fun w =>
    ⟨rest.take (rest.length - w.rest.length), w.groups⟩

/-- The matches of a pattern that matches no empty text, one after the other; the first `skip`
characters belong to a match already found. -/
def finditer (r : Regex α) : Nat → List α → List α → List (Match α)
  | _, _, [] => []
  | skip + 1, before, c :: rest => finditer r skip (c :: before) rest
  | 0, before, c :: rest => match r.first before (c :: rest) with
    | some m => m :: finditer r (m.text.length - 1) (c :: before) rest
    | none => finditer r 0 (c :: before) rest

/-- The text with every match replaced. -/
def sub (r : Regex α) (replacement : Match α → List α) : Nat → List α → List α → List α
  | _, _, [] => []
  | skip + 1, before, c :: rest => sub r replacement skip (c :: before) rest
  | 0, before, c :: rest => match r.first before (c :: rest) with
    | some m => replacement m ++ sub r replacement (m.text.length - 1) (c :: before) rest
    | none => c :: sub r replacement 0 (c :: before) rest

/-- A text without a match is left as it is. -/
theorem sub_unmatched {r : Regex α} {replacement : Match α → List α} {before rest : List α}
    (h : r.finditer 0 before rest = []) : r.sub replacement 0 before rest = rest := by
  induction rest generalizing before with
  | nil => rfl
  | cons c rest ih =>
    rw [finditer] at h
    rw [sub]
    cases hm : r.first before (c :: rest) with
    | some m => simp [hm] at h
    | none =>
      simp only [hm] at h ⊢
      rw [ih h]

variable {r s : Regex α} {p : α → Bool} {w w' w'' : Way α}

@[simp] theorem ways_empty : (empty : Regex α).ways w = [w] := rfl

@[simp] theorem ways_seq : (seq r s).ways w = (r.ways w).flatMap s.ways := rfl

@[simp] theorem ways_alt : (alt r s).ways w = r.ways w ++ s.ways w := rfl

theorem ways_char {before rest : List α} {c : α} {groups : List (Nat × List α)} :
    (char p).ways ⟨before, c :: rest, groups⟩ =
      if p c then [⟨c :: before, rest, groups⟩] else [] := rfl

theorem ways_char_nil {before : List α} {groups : List (Nat × List α)} :
    (char p).ways ⟨before, [], groups⟩ = [] := rfl

theorem ways_place {f : Option α → Option α → Bool} :
    (place f).ways w = if f w.before.head? w.rest.head? then [w] else [] := rfl

theorem ways_ahead {found : Bool} :
    (ahead found r).ways w = if (r.ways w).isEmpty = found then [] else [w] := rfl

/-- A word is read in one way, or not at all. -/
theorem ways_word [BEq α] [LawfulBEq α] {cs before rest : List α} {groups : List (Nat × List α)} :
    (word cs).ways ⟨before, cs ++ rest, groups⟩ = [⟨cs.reverse ++ before, rest, groups⟩] := by
  induction cs generalizing before with
  | nil => rfl
  | cons c cs ih =>
    rw [word, ways_seq, List.cons_append, ways_char, if_pos (by simp), List.flatMap_singleton, ih]
    simp

theorem ways_word_none [BEq α] [LawfulBEq α] {cs before rest : List α}
    {groups : List (Nat × List α)} (h : ¬cs <+: rest) :
    (word cs).ways ⟨before, rest, groups⟩ = [] := by
  induction cs generalizing before rest with
  | nil => exact absurd List.nil_prefix h
  | cons c cs ih =>
    cases rest with
    | nil => rfl
    | cons d rest =>
      rw [word, ways_seq, ways_char]
      split
      · rename_i heq
        rw [beq_iff_eq] at heq
        rw [List.flatMap_singleton, ih fun hp => h (List.cons_prefix_cons.mpr ⟨heq.symm, hp⟩)]
      · rfl

/-- The first way through two patterns, when the first way through the first goes on. -/
theorem head_seq (hr : (r.ways w).head? = some w') (hs : (s.ways w').head? = some w'') :
    ((seq r s).ways w).head? = some w'' := by
  rw [ways_seq]
  cases hways : r.ways w with
  | nil => simp [hways] at hr
  | cons v vs =>
    have hv : v = w' := by simpa [hways] using hr
    subst hv
    cases hnext : s.ways v with
    | nil => simp [hnext] at hs
    | cons u us =>
      have hu : u = w'' := by simpa [hnext] using hs
      simp [hnext, hu]

theorem spans_ne_nil {before rest : List α} : spans p before rest ≠ [] := by
  cases rest <;> simp [spans]

/-- The farthest place of a run is at the first character outside it. -/
theorem spans_last (before rest : List α) : (spans p before rest).getLast? =
    some ((rest.takeWhile p).reverse ++ before, rest.dropWhile p) := by
  induction rest generalizing before with
  | nil => rfl
  | cons c rest ih =>
    rw [spans]
    by_cases h : p c = true
    · rw [if_pos h, List.getLast?_cons_of_ne_nil spans_ne_nil, ih]
      simp [h]
    · simp [h]

/-- A greedy run takes all it can. -/
theorem head_run : ((run true 0 none p).ways w).head? = some
    ⟨(w.rest.takeWhile p).reverse ++ w.before, w.rest.dropWhile p, w.groups⟩ := by
  simp [ways, List.head?_reverse, spans_last]

theorem head_group {i : Nat} (h : (r.ways w).head? = some w') :
    ((group i r).ways w).head? = some { w' with
      groups := (i, w.rest.take (w.rest.length - w'.rest.length)) :: w'.groups } := by
  simp [ways, List.head?_map, h]

theorem spans_suffix {before rest : List α} {b : List α × List α}
    (h : b ∈ spans p before rest) : b.2 <:+ rest := by
  induction rest generalizing before with
  | nil =>
    simp only [spans, List.mem_singleton] at h
    simp [h]
  | cons c rest ih =>
    rw [spans] at h
    rcases List.mem_cons.mp h with rfl | h
    · exact List.suffix_refl _
    · split at h
      · exact (ih h).trans (List.suffix_cons c rest)
      · cases h

/-- Every way ends further on in the same text. -/
theorem ways_suffix (h : w' ∈ r.ways w) : w'.rest <:+ w.rest := by
  induction r generalizing w w' with
  | empty =>
    rw [ways_empty, List.mem_singleton] at h
    rw [h]
  | char p =>
    obtain ⟨before, rest, groups⟩ := w
    cases rest with
    | nil => cases h
    | cons c rest =>
      rw [ways_char] at h
      split at h
      · rw [List.mem_singleton.mp h]
        exact List.suffix_cons c rest
      · cases h
  | seq r s ihr ihs =>
    rw [ways_seq] at h
    obtain ⟨v, hv, hw⟩ := List.mem_flatMap.mp h
    exact (ihs hw).trans (ihr hv)
  | alt r s ihr ihs =>
    rw [ways_alt] at h
    rcases List.mem_append.mp h with h | h
    · exact ihr h
    · exact ihs h
  | run greedy least most p =>
    simp only [ways] at h
    obtain ⟨b, hb, rfl⟩ := List.mem_map.mp h
    have hplace : b ∈ (spans p w.before w.rest).drop least := by
      cases greedy <;> cases most <;> simp only [Bool.false_eq_true, if_false, if_true,
        List.mem_reverse] at hb
      · exact hb
      · exact List.mem_of_mem_take hb
      · exact hb
      · exact List.mem_of_mem_take hb
    exact spans_suffix (List.mem_of_mem_drop hplace)
  | group i r ih =>
    obtain ⟨v, hv, rfl⟩ := List.mem_map.mp h
    have hsuffix : v.rest <:+ w.rest := ih hv
    exact hsuffix
  | place f =>
    rw [ways_place] at h
    split at h
    · rw [List.mem_singleton.mp h]
    · cases h
  | ahead found r =>
    rw [ways_ahead] at h
    split at h
    · cases h
    · rw [List.mem_singleton.mp h]

/-- The place is at the start of a line. -/
def AtStart (nl : α) (before : List α) : Prop := ∀ c, before.head? = some c → c = nl

/-- A pattern that matches whole lines, those that `g` gives a match for. -/
structure Linewise (nl : α) (r : Regex α) (g : List α → Option (Match α)) : Prop where
  inside : ∀ {c : α} {before rest : List α}, c ≠ nl → r.first (c :: before) rest = none
  whole : ∀ {before line rest : List α}, AtStart nl before → nl ∉ line →
    (∀ c, rest.head? = some c → c = nl) → r.first before (line ++ rest) = g line
  covers : ∀ {line : List α} {m : Match α}, g line = some m → line ≠ [] ∧ m.text = line

section Linewise

variable {nl : α} {g : List α → Option (Match α)} {before line rest : List α}

theorem finditer_skip : r.finditer line.length before (line ++ rest) =
    r.finditer 0 (line.reverse ++ before) rest := by
  induction line generalizing before with
  | nil => rfl
  | cons c line ih =>
    rw [List.length_cons, List.cons_append, finditer, ih]
    simp

theorem Linewise.inside_line (h : Linewise nl r g) {c : α} (hc : c ≠ nl) (hline : nl ∉ line) :
    r.finditer 0 (c :: before) (line ++ rest) =
      r.finditer 0 (line.reverse ++ c :: before) rest := by
  induction line generalizing c before with
  | nil => rfl
  | cons d line ih =>
    have hd : d ≠ nl := fun heq => hline (by simp [heq])
    rw [List.cons_append, finditer, h.inside hc]
    simp only
    rw [ih hd fun hmem => hline (List.mem_cons_of_mem _ hmem)]
    simp

theorem Linewise.one_line (h : Linewise nl r g) (hbefore : AtStart nl before) (hline : nl ∉ line)
    (hrest : ∀ c, rest.head? = some c → c = nl) :
    r.finditer 0 before (line ++ rest) =
      (g line).toList ++ r.finditer 0 (line.reverse ++ before) rest := by
  have hfirst := h.whole hbefore hline hrest
  cases line with
  | nil =>
    have hnone : g [] = none := by
      cases hg : g [] with
      | none => rfl
      | some m => exact absurd rfl (h.covers hg).1
    simp [hnone]
  | cons c line =>
    have hc : c ≠ nl := fun heq => hline (by simp [heq])
    have htail : nl ∉ line := fun hmem => hline (List.mem_cons_of_mem _ hmem)
    rw [List.cons_append] at hfirst ⊢
    rw [finditer, hfirst]
    cases hg : g (c :: line) with
    | none =>
      simp only [Option.toList_none, List.nil_append]
      rw [h.inside_line hc htail]
      simp
    | some m =>
      have hskip : m.text.length - 1 = line.length := by simp [(h.covers hg).2]
      simp only [Option.toList_some, List.cons_append, List.nil_append, hskip]
      rw [finditer_skip]
      simp

/-- The matches in a text are those of its lines. -/
theorem Linewise.finditer_joined (h : Linewise nl r g) {lines : List (List α)}
    (hbefore : AtStart nl before) (hlines : ∀ line ∈ lines, nl ∉ line) :
    r.finditer 0 before (joined nl lines) = lines.filterMap g := by
  induction lines generalizing before with
  | nil => rfl
  | cons line lines ih =>
    have hline := hlines line List.mem_cons_self
    have htail := fun l hl => hlines l (List.mem_cons_of_mem _ hl)
    have hfilter : (line :: lines).filterMap g = (g line).toList ++ lines.filterMap g := by
      cases hg : g line <;> simp [hg]
    rw [hfilter]
    cases lines with
    | nil =>
      have hlast := @Linewise.one_line α r nl g before line [] h hbefore hline (by simp)
      simpa [joined, finditer] using hlast
    | cons line' lines =>
      rw [joined, h.one_line hbefore hline (by simp), finditer]
      have hnl : r.first (line.reverse ++ before) (nl :: joined nl (line' :: lines)) = none := by
        cases hrev : line.reverse with
        | nil =>
          have hempty := @Linewise.whole α nl r g h before [] (nl :: joined nl (line' :: lines))
            hbefore (by simp) (by simp)
          rw [List.nil_append] at hempty
          rw [List.nil_append, hempty]
          cases hg : g [] with
          | none => rfl
          | some m => exact absurd rfl (h.covers hg).1
        | cons d ds =>
          have hd : d ≠ nl := by
            intro heq
            have hmem : d ∈ line.reverse := by simp [hrev]
            exact hline (by simpa [heq] using hmem)
          exact h.inside hd
      simp only [hnl]
      rw [ih (by simp [AtStart]) htail]

end Linewise

end Regex

end Text
