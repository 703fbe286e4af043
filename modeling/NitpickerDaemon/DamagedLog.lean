import NitpickerDaemon.Data.Scan
import NitpickerDaemon.ReviewHistory

/-!
The two searches of the review log over its text, as it is found on the disk: lines that are cut
off, lines that hold no object, records whose fields are missing or of another type.
-/

set_option autoImplicit false

namespace Nitpicker

/-- The value of a line of the log; `none` for a line that is skipped. -/
def read_line {V : Type} (loads : String → Except PyExc V) (line : String) :
    Except PyExc (Option V) :=
  if strip line = "" then .ok none
  else match loads (strip line) with
    | .ok record => .ok (some record)
    | .error e => if e.isInstance .valueError then .ok none else .error e

/-- `read_text(encoding="utf-8").splitlines()`; a file that cannot be read has no lines. -/
def read_lines (file : Except PyExc String) : Except PyExc (List String) :=
  match file with
  | .ok text => .ok (splitlines text)
  | .error e => if e.isInstance .osError then .ok [] else .error e

namespace HistoryProvider

/-- The loop of `_search` at one line. `_matches_target` looks at the record only when there is a
target. -/
def judge (py : Python) (lower : Lower) (target_lower : String) (line : String) :
    Except PyExc (Option PyDict) :=
  match read_line py.loads line with
  | .error e => .error e
  | .ok none => .ok none
  | .ok (some record) =>
    if target_lower = "" then .ok none
    else match record with
      | .dict record =>
        .ok (if matches_target py lower record target_lower && meaningful record then some record
          else none)
      | value => .error (attributeError value "get")

/-- `_search` -/
def search_file (provider : HistoryProvider) (py : Python) (lower : Lower)
    (file : Except PyExc String) (target_file : String) : Except PyExc (List PyDict) := do
  let lines ← read_lines file
  Scan.scan (judge py lower (folded lower target_file)) provider.limit [] (recent lines)

/-- `collect` over the text of the log; `file` is `none` when there is no log file. -/
def collect_file (provider : HistoryProvider) (py : Python) (lower : Lower)
    (fixed : Rat → String) (file : Option (Except PyExc String)) (request : ReviewRequest) :
    Except PyExc ContextFragment :=
  match file with
  | none => .ok {
      tier := "tier4", entries := []
      metadata := [("source", .str "history"), ("reason", .str "no_log")] }
  | some file => do
    let found ← provider.search_file py lower file request.target_file
    report py fixed request.target_file found

end HistoryProvider

namespace StaticContextService

def SEARCHED : List String := ["request_id", "summary", "result_code", "status", "state"]

def searchable (py : Python) (lower : Lower) (record : PyDict) : String :=
  lower.lower (" ".intercalate
    (SEARCHED.map fun field => py.str (PyDict.getD record field (.str ""))))

/-- The query occurs in the record. -/
def mentioned (py : Python) (lower : Lower) (query : String) (record : PyDict) : Bool :=
  contains (searchable py lower record) (lower.lower query)

/-- `query_lower in searchable` of a value that a line holds. -/
def mentions (py : Python) (lower : Lower) (query : String) : PyVal → Except PyExc Bool
  | .dict record => .ok (mentioned py lower query record)
  | value => .error (attributeError value "get")

section Lookup

variable {V : Type} (loads : String → Except PyExc V) (mentions : V → Except PyExc Bool)

/-- The loop of `lookup_similar_reviews` at one line. -/
def judge (line : String) : Except PyExc (Option V) := do
  match ← read_line loads line with
  | none => return none
  | some record => return if ← mentions record then some record else none

/-- `json.loads` and the search for the query in a value are open here; `file` is `none` when
there is no log file. -/
def lookup_similar_reviews (file : Option (Except PyExc String)) (limit : Int) :
    Except PyExc (List V) :=
  match file with
  | none => .ok []
  | some file => do
    let lines ← read_lines file
    Scan.scan (judge loads mentions) limit [] lines.reverse

end Lookup

end StaticContextService

section Lines

variable {py : Python} {lower : Lower} {line : String}

def object_of_line (py : Python) (line : String) : Option PyDict :=
  match read_line py.loads line with
  | .ok (some (.dict record)) => some record
  | _ => none

/-- The objects of the lines. -/
def objects (py : Python) (lines : List String) : List PyDict :=
  lines.filterMap (object_of_line py)

/-- A line that a search gets over: it is skipped, or it holds a value, which has to be an object
where the search looks into it. -/
def Passable (py : Python) (looks : Prop) (line : String) : Prop :=
  ∃ record, read_line py.loads line = .ok record ∧ (looks → ∀ v ∈ record, ∃ d, v = .dict d)

/-- Each line is passable, down to the `n`-th record that `p` holds of. -/
def PassableTo (py : Python) (looks : Prop) (p : PyDict → Bool) (n : Nat) (lines : List String) :
    Prop :=
  ∀ before line after, lines = before ++ line :: after →
    ((objects py before).filter p).length < n → Passable py looks line

theorem HistoryProvider.judge_ok_iff {target_lower : String} :
    (∃ record, judge py lower target_lower line = .ok record) ↔
      Passable py (target_lower ≠ "") line := by
  unfold judge Passable
  cases read_line py.loads line with
  | error e => simp
  | ok record =>
    cases record with
    | none => simp
    | some record =>
      by_cases hempty : target_lower = ""
      · simp [hempty]
      · cases record <;> simp [hempty]

theorem HistoryProvider.pick_judge {target_lower : String} :
    Scan.pick (judge py lower target_lower) line =
      ((object_of_line py line).filter (kept py lower target_lower)).map id := by
  rw [Option.map_id, id]
  unfold Scan.pick judge object_of_line
  cases read_line py.loads line with
  | error e => rfl
  | ok record =>
    cases record with
    | none => rfl
    | some record =>
      by_cases hempty : target_lower = ""
      · cases record <;> simp [hempty, kept, matches_target, Option.filter]
      · cases record <;> simp [hempty, kept, Option.filter]

theorem StaticContextService.judge_ok_iff {query : String} :
    (∃ record, judge py.loads (mentions py lower query) line = .ok record) ↔
      Passable py True line := by
  unfold judge Passable
  cases read_line py.loads line with
  | error e => simp [bind, Except.bind]
  | ok record =>
    cases record with
    | none => simp [bind, Except.bind, pure, Except.pure]
    | some record => cases record <;> simp [mentions, bind, Except.bind, pure, Except.pure]

theorem StaticContextService.pick_judge {query : String} :
    Scan.pick (judge py.loads (mentions py lower query)) line =
      ((object_of_line py line).filter (mentioned py lower query)).map .dict := by
  unfold Scan.pick judge object_of_line
  cases read_line py.loads line with
  | error e => rfl
  | ok record =>
    cases record with
    | none => rfl
    | some record =>
      cases record with
      | dict record =>
        cases h : mentioned py lower query record <;>
          simp [mentions, h, Option.filter, bind, Except.bind, pure, Except.pure]
      | _ => rfl

end Lines

section Search

variable {provider : HistoryProvider} {py : Python} {lower : Lower} {fixed : Rat → String}
  {R : Type} {judge : String → Except PyExc (Option R)} {record_of : PyDict → R}
  {p : PyDict → Bool} {looks : Prop}

theorem HistoryProvider.search_file_text (text target_file : String) :
    provider.search_file py lower (.ok text) target_file =
      Scan.scan (HistoryProvider.judge py lower (folded lower target_file)) provider.limit []
        (recent (splitlines text)) := by
  simp only [search_file, read_lines, bind, Except.bind]

theorem picks_eq
    (h : ∀ line, Scan.pick judge line = ((object_of_line py line).filter p).map record_of)
    (lines : List String) :
    lines.filterMap (Scan.pick judge) = ((objects py lines).filter p).map record_of := by
  rw [objects, List.filter_filterMap, List.map_filterMap]
  exact List.filterMap_congr fun line _ => h line

theorem clear_iff
    (hpick : ∀ line, Scan.pick judge line = ((object_of_line py line).filter p).map record_of)
    (hok : ∀ line, (∃ record, judge line = .ok record) ↔ Passable py looks line) {n : Nat}
    {lines : List String} : Scan.Clear judge n lines ↔ PassableTo py looks p n lines := by
  simp only [Scan.Clear, PassableTo, hok, picks_eq hpick, List.length_map]

theorem HistoryProvider.search_file_iff {text target_file : String} {found : List PyDict} :
    provider.search_file py lower (.ok text) target_file = .ok found ↔
      found = ((objects py (recent (splitlines text))).filter
        (kept py lower (folded lower target_file))).take provider.limit ∧
      PassableTo py (folded lower target_file ≠ "") (kept py lower (folded lower target_file))
        provider.limit (recent (splitlines text)) := by
  have hlimit : max (provider.limit : Int).toNat 1 = provider.limit := by
    have hpos := provider.limit_pos
    omega
  have hscan := @Scan.scan_iff _ _ _ (HistoryProvider.judge py lower (folded lower target_file))
    provider.limit (recent (splitlines text)) found
  rw [hlimit, picks_eq fun line => pick_judge,
    clear_iff (fun line => pick_judge) fun line => judge_ok_iff, List.map_id] at hscan
  rw [search_file_text]
  exact hscan

theorem StaticContextService.lookup_iff {text query : String} {limit : Int}
    {found : List PyVal} :
    lookup_similar_reviews py.loads (mentions py lower query) (some (.ok text)) limit =
        .ok found ↔
      found = (((objects py (splitlines text).reverse).filter (mentioned py lower query)).take
        (max limit.toNat 1)).map .dict ∧
      PassableTo py True (mentioned py lower query) (max limit.toNat 1)
        (splitlines text).reverse := by
  have hscan := @Scan.scan_iff _ _ _ (StaticContextService.judge py.loads (mentions py lower query))
    limit (splitlines text).reverse found
  rw [picks_eq fun line => pick_judge, ← List.map_take,
    clear_iff (fun line => pick_judge) fun line => judge_ok_iff] at hscan
  exact hscan

/-- Over lines that are read back the search is the one over their records. -/
theorem HistoryProvider.search_file_records {text : String} {lines : List JsonText}
    {written : JsonText → String} (htext : splitlines text = lines.map written)
    (hread : ∀ line ∈ lines, read_line py.loads (written line) = .ok (some (.dict line.loads)))
    (target_file : String) : provider.search_file py lower (.ok text) target_file =
      .ok ((provider.search py lower JsonText.loads lines target_file).map JsonText.loads) := by
  have hrecent : ∀ line ∈ recent lines, line ∈ lines := by
    intro line hline
    exact List.mem_of_mem_drop (List.mem_reverse.mp hline)
  have hobjects : objects py (recent (splitlines text)) = (recent lines).map JsonText.loads := by
    rw [htext, ← map_recent, objects, List.filterMap_map, ← List.filterMap_eq_map]
    apply List.filterMap_congr
    intro line hline
    simp [object_of_line, hread line (hrecent line hline)]
  rw [search_file_iff, hobjects, search_eq, List.map_take, List.filter_map]
  refine ⟨rfl, ?_⟩
  intro before line after hsplit _
  have hmem : line ∈ recent (splitlines text) := by simp [hsplit]
  rw [htext, ← map_recent] at hmem
  obtain ⟨record, hrecord, rfl⟩ := List.mem_map.mp hmem
  exact ⟨_, hread record (hrecent record hrecord), by simp⟩

end Search

section Damage

variable (py : Python) (lower : Lower)

instance (v : PyVal) : Decidable (HistoryProvider.Sliceable v) := by
  unfold HistoryProvider.Sliceable
  cases v <;> infer_instance

instance (v : PyVal) : Decidable (HistoryProvider.Numeric v) := by
  unfold HistoryProvider.Numeric
  cases v <;> infer_instance

instance (v : PyVal) : Decidable (HistoryProvider.Showable v) := by
  unfold HistoryProvider.Showable
  cases v <;> infer_instance

instance (record : PyDict) : Decidable (HistoryProvider.Formattable record) :=
  decidable_of_iff (HistoryProvider.Sliceable (PyDict.getD record "timestamp" (.str "")) ∧
      HistoryProvider.Numeric (PyDict.getD record "confidence_score" (.int 0)) ∧
      HistoryProvider.Showable (PyDict.getD record "summary" (.str "(no summary)")))
    ⟨fun h => ⟨h.1, h.2.1, h.2.2⟩, fun h => ⟨h.timestamp, h.confidence, h.summary⟩⟩

/-- The newest records of the last lines that match the file and can be printed. -/
def HistoryProvider.well_formed (provider : HistoryProvider) (text target_file : String) :
    List PyDict :=
  ((objects py (recent (splitlines text))).filter fun record =>
    kept py lower (folded lower target_file) record && decide (Formattable record)).take
      provider.limit

/-- `collect` reports the newest matching records that are well formed. -/
def HistoryProvider.Survives (provider : HistoryProvider) (fixed : Rat → String) (text : String)
    (request : ReviewRequest) : Prop :=
  ∃ fragment, provider.collect_file py lower fixed (some (.ok text)) request = .ok fragment ∧
    report py fixed request.target_file (provider.well_formed py lower text request.target_file) =
      .ok fragment

/-- `lookup_similar_reviews` returns the newest records in which the query occurs. -/
def StaticContextService.Survives (text query : String) (limit : Int) : Prop :=
  lookup_similar_reviews py.loads (mentions py lower query) (some (.ok text)) limit =
    .ok ((((objects py (splitlines text).reverse).filter (mentioned py lower query)).take
      limit.toNat).map .dict)

variable {py lower}

theorem HistoryProvider.collect_survives_iff {provider : HistoryProvider} {fixed : Rat → String}
    {text : String} {request : ReviewRequest} : provider.Survives py lower fixed text request ↔
      PassableTo py (folded lower request.target_file ≠ "")
        (kept py lower (folded lower request.target_file)) provider.limit
        (recent (splitlines text)) ∧
      ∀ record ∈ ((objects py (recent (splitlines text))).filter
        (kept py lower (folded lower request.target_file))).take provider.limit,
        Formattable record := by
  simp only [Survives, collect_file, Traverse.bind_ok]
  constructor
  · rintro ⟨fragment, ⟨found, hfound, hreport⟩, -⟩
    rw [search_file_iff] at hfound
    rw [← hfound.1]
    exact ⟨hfound.2, report_ok_iff.mp ⟨fragment, hreport⟩⟩
  · rintro ⟨hpassable, hprint⟩
    obtain ⟨fragment, hreport⟩ := (@report_ok_iff py fixed request.target_file _).mpr hprint
    refine ⟨fragment, ⟨_, search_file_iff.mpr ⟨rfl, hpassable⟩, hreport⟩, ?_⟩
    -- all the records that were found are well formed, so no further one is taken
    rw [well_formed, Scan.take_filter_of_take (q := fun record => decide (Formattable record))
      (fun record hrecord => decide_eq_true (hprint record hrecord))]
    exact hreport

theorem StaticContextService.lookup_survives_iff {text query : String} {limit : Int} :
    Survives py lower text query limit ↔
      PassableTo py True (mentioned py lower query) (max limit.toNat 1) (splitlines text).reverse ∧
      (limit < 1 → (objects py (splitlines text).reverse).filter (mentioned py lower query) = []) := by
  rw [Survives, lookup_iff, and_comm]
  refine and_congr_right fun _ => ?_
  generalize (objects py (splitlines text).reverse).filter (mentioned py lower query) = found
  by_cases hlimit : limit < 1
  · have hzero : limit.toNat = 0 := by omega
    rw [hzero]
    cases found with
    | nil => simp
    | cons record found => simp [hlimit]
  · have hmax : max limit.toNat 1 = limit.toNat := by omega
    simp [hmax, hlimit]

/-- Both searches get over a damaged log just when each line down to the last record needed is
blank, does not parse, or holds an object, the records found have a time, a confidence and a
summary of the types that are printed, and a limit below one is not reached. -/
theorem damaged_log_iff (provider : HistoryProvider) (py : Python) (lower : Lower)
    (fixed : Rat → String) (text : String) (request : ReviewRequest) (query : String)
    (limit : Int) :
    (provider.Survives py lower fixed text request ↔
      PassableTo py (folded lower request.target_file ≠ "")
        (HistoryProvider.kept py lower (folded lower request.target_file)) provider.limit
        (HistoryProvider.recent (splitlines text)) ∧
      ∀ record ∈ ((objects py (HistoryProvider.recent (splitlines text))).filter
        (HistoryProvider.kept py lower (folded lower request.target_file))).take provider.limit,
        HistoryProvider.Formattable record) ∧
    (StaticContextService.Survives py lower text query limit ↔
      PassableTo py True (StaticContextService.mentioned py lower query) (max limit.toNat 1)
        (splitlines text).reverse ∧
      (limit < 1 → (objects py (splitlines text).reverse).filter
        (StaticContextService.mentioned py lower query) = [])) :=
  ⟨HistoryProvider.collect_survives_iff, StaticContextService.lookup_survives_iff⟩

end Damage

/-- A Python that is asked to load `null` and cut-off texts. -/
def null_python : Python where
  format := fun _ => "None"
  repr := fun _ => "None"
  float_of_text := fun s => .error (valueError s)
  loads := fun s =>
    if s = "null" then .ok .none else .error (jsonDecodeError "Expecting value: line 1 column 1")

/-- One line with `null` ends both searches. -/
theorem null_line_raises :
    (∀ request : ReviewRequest, request.target_file = "a.py" →
      HistoryProvider.collect_file {} null_python sampleLower (fun _ => "") (some (.ok "null\n"))
          request = .error (attributeError .none "get") ∧
        ¬HistoryProvider.Survives null_python sampleLower {} (fun _ => "") "null\n" request) ∧
    StaticContextService.lookup_similar_reviews null_python.loads
        (StaticContextService.mentions null_python sampleLower "a.py") (some (.ok "null\n")) 5 =
          .error (attributeError .none "get") ∧
      ¬StaticContextService.Survives null_python sampleLower "null\n" "a.py" 5 := by
  have hlookup : StaticContextService.lookup_similar_reviews null_python.loads
      (StaticContextService.mentions null_python sampleLower "a.py") (some (.ok "null\n")) 5 =
        .error (attributeError .none "get") := by rfl
  refine ⟨?_, hlookup, ?_⟩
  · intro request hrequest
    have hcollect : HistoryProvider.collect_file {} null_python sampleLower (fun _ => "")
        (some (.ok "null\n")) request = .error (attributeError .none "get") := by
      have hlines : HistoryProvider.recent (splitlines "null\n") = ["null"] := by decide +kernel
      have hsearch : HistoryProvider.search_file {} null_python sampleLower (.ok "null\n") "a.py" =
          .error (attributeError .none "get") := by
        rw [HistoryProvider.search_file_text, hlines]
        rfl
      simp only [HistoryProvider.collect_file, hrequest, hsearch, bind, Except.bind]
    refine ⟨hcollect, ?_⟩
    rintro ⟨fragment, hfragment, -⟩
    rw [hcollect] at hfragment
    cases hfragment
  · intro h
    rw [StaticContextService.Survives, hlookup] at h
    cases h

end Nitpicker
