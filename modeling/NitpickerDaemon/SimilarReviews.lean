import NitpickerDaemon.DamagedLog
import NitpickerDaemon.LocalConfig
import NitpickerDaemon.Text.JsonAscii
import NitpickerDaemon.ZmqRouter

/-!
The log as `JsonlReviewLogger` writes it, one JSON text in ASCII a line, and the search for similar
reviews in it. Strings are lists of code points, lone surrogates included.
-/

set_option autoImplicit false

namespace Nitpicker

open Text

/-- A dict that is logged, as `json.dumps` takes it: its items, or what it raises. -/
abbrev DumpedDict (floats : Floats) :=
  Except PyExc {members : Members // (Json.object members).Doubles floats}

/-- The fields of a `ReviewResult` that are logged. -/
structure ResultFields (floats : Floats) where
  request_id : List CodePoint
  state : ReviewState
  status : ReviewStatus
  result_code : Option (List CodePoint)
  summary : List CodePoint
  confidence_score : {q : Rat // floats.Double q}
  patch_hash : Option (List CodePoint)
  verification_result : Option (DumpedDict floats)

/-- A call of the logger at the time `now`. -/
inductive LogCall (floats : Floats) where
  | log_event (now request_id event_type : List CodePoint) (payload : DumpedDict floats)
  | log_result (now : List CodePoint) (result : ResultFields floats)

def json_text (text : Option (List CodePoint)) : Json :=
  match text with
  | some text => .str text
  | none => .null

variable {floats : Floats}

def json_dict : Option (DumpedDict floats) → Except PyExc Json
  | some dumped => dumped.map fun members => .object members
  | none => .ok .null

/-- The record of a call, when `json.dumps` does not raise. -/
def LogCall.record : LogCall floats → Except PyExc Members
  | .log_event now request_id event_type payload => do
    let payload ← payload
    return [(code_points "timestamp", .str now), (code_points "request_id", .str request_id),
      (code_points "event_type", .str event_type), (code_points "payload", .object payload)]
  | .log_result now result => do
    let verification_result ← json_dict result.verification_result
    return [(code_points "timestamp", .str now),
      (code_points "request_id", .str result.request_id),
      (code_points "state", .str (code_points result.state.value)),
      (code_points "status", .str (code_points result.status.value)),
      (code_points "result_code", json_text result.result_code),
      (code_points "summary", .str result.summary),
      (code_points "confidence_score", .float result.confidence_score),
      (code_points "patch_hash", json_text result.patch_hash),
      (code_points "verification_result", verification_result)]

/-- `json.dumps(record, ensure_ascii=True)` -/
def record_line (floats : Floats) (record : Members) : String :=
  text_of (Spelling.ascii.dumps floats.repr (.object record))

/-- `_append`: the file is opened, and so created, before anything is written. -/
def append_call (file : Option String) (call : LogCall floats) : Option String :=
  match call.record with
  | .ok record => some (file.getD "" ++ record_line floats record ++ "\n")
  | .error _ => some (file.getD "")

/-- The log file after some calls. -/
def log_file (calls : List (LogCall floats)) : Option (Except PyExc String) :=
  (calls.foldl append_call none).map .ok

/-- The records that were written. -/
def written_records (calls : List (LogCall floats)) : List Members :=
  calls.filterMap fun call => call.record.toOption

/-- `json.loads` -/
def json_loads (floats : Floats) (text : String) : Except PyExc Json :=
  match Text.loads floats.read (code_points text) with
  | some value => .ok value
  | none => .error (jsonDecodeError "Expecting value")

namespace SimilarReviews

section Query

-- `str.lower`, and `str` of a value that is no string
variable (lower : List CodePoint → List CodePoint) (format : Json → List CodePoint)

def json_str : Json → List CodePoint
  | .str s => s
  | value => format value

def searchable (record : Members) : List CodePoint :=
  lower ((code_points " ").intercalate (StaticContextService.SEARCHED.map fun field =>
    json_str format ((member record field).getD (.str []))))

/-- The query occurs in the record. -/
def mentioned (query : List CodePoint) (record : Members) : Bool :=
  decide (lower query <:+: searchable lower format record)

def mentions (query : List CodePoint) : Json → Except PyExc Bool
  | .object record => .ok (mentioned lower format query record)
  | value => .error ⟨"AttributeError", [],
      "'" ++ json_type_name value ++ "' object has no attribute 'get'"⟩

def lookup (calls : List (LogCall floats)) (query : List CodePoint) (limit : Int) :
    Except PyExc (List Json) :=
  StaticContextService.lookup_similar_reviews (json_loads floats) (mentions lower format query)
    (log_file calls) limit

/-- The newest records among `records` that the query occurs in. -/
def newest (records : List Members) (query : List CodePoint) (limit : Int) : List Json :=
  ((records.reverse.filter (mentioned lower format query)).take limit.toNat).map .object

end Query

/-- A record with its strings as JSON reads them back. -/
def reread (record : Members) : Members := Dict.of_pairs (Spelling.ascii.reread_members record)

section Line

theorem doubles_json_text (text : Option (List CodePoint)) : (json_text text).Doubles floats := by
  cases text <;> simp [json_text, Json.Doubles]

theorem record_doubles {call : LogCall floats} {record : Members} (h : call.record = .ok record) :
    (Json.object record).Doubles floats := by
  cases call with
  | log_event now request_id event_type payload =>
    cases payload with
    | error e => simp [LogCall.record, bind, Except.bind] at h
    | ok payload =>
      simp only [LogCall.record, bind, Except.bind, pure, Except.pure, Except.ok.injEq] at h
      rw [← h]
      simpa [Json.Doubles, Json.Doubles_members] using payload.2
  | log_result now result =>
    rw [LogCall.record, Traverse.bind_ok] at h
    obtain ⟨report, hreport, hrecord⟩ := h
    have hdoubles : report.Doubles floats := by
      cases hdict : result.verification_result with
      | none =>
        rw [hdict] at hreport
        cases hreport
        trivial
      | some dumped =>
        rw [hdict] at hreport
        cases dumped with
        | error e => cases hreport
        | ok members =>
          cases hreport
          exact members.2
    simp only [pure, Except.pure, Except.ok.injEq] at hrecord
    rw [← hrecord]
    have hconfidence := result.confidence_score.2
    simp only [Json.Doubles, Json.Doubles_members, doubles_json_text, and_true, true_and]
    exact ⟨hconfidence, hdoubles⟩

variable {record : Members}

theorem record_line_toList : (record_line floats record).toList =
    (Spelling.ascii.dumps floats.repr (.object record)).map fun c => Char.ofNat c.val := by
  rw [record_line, text_of, String.toList_ofList]

/-- A line is printable, from its brace to the last one. -/
theorem mem_record_line (h : (Json.object record).Doubles floats) {c : Char}
    (hc : c ∈ (record_line floats record).toList) : 0x20 ≤ c.toNat ∧ c.toNat ≤ 0x7E := by
  rw [record_line_toList] at hc
  obtain ⟨d, hd, rfl⟩ := List.mem_map.mp hc
  have hprintable := printable_dumps _ h d hd
  have hvalid : d.val.isValidChar := .inl (by have := hprintable.2; omega)
  rw [Char.toNat_ofNat, if_pos hvalid]
  exact hprintable

theorem record_line_boundary (h : (Json.object record).Doubles floats) {c : Char}
    (hc : c ∈ (record_line floats record).toList) : line_boundary c = false := by
  have hprintable := mem_record_line h hc
  simp only [line_boundary, Bool.or_eq_false_iff, Bool.and_eq_false_iff, decide_eq_false_iff_not,
    beq_eq_false_iff_ne]
  omega

theorem record_line_braces : ∃ inner, (record_line floats record).toList =
    '\x7b' :: (inner ++ ['\x7d']) := by
  rw [record_line_toList, Spelling.dumps, List.map_append, List.map_append]
  exact ⟨_, rfl⟩

theorem strip_record_line : strip (record_line floats record) = record_line floats record := by
  obtain ⟨inner, hinner⟩ := @record_line_braces floats record
  have hopen : isspace '\x7b' = false := by decide
  have hclose : isspace '\x7d' = false := by decide
  have hstrip : strip_chars ('\x7b' :: (inner ++ ['\x7d'])) = '\x7b' :: (inner ++ ['\x7d']) := by
    simp [strip_chars, hopen, hclose]
  rw [strip, hinner, hstrip, ← hinner, String.ofList_toList]

theorem code_points_record_line (h : (Json.object record).Doubles floats) :
    code_points (record_line floats record) =
      Spelling.ascii.dumps floats.repr (.object record) := by
  apply code_points_text_of
  intro c hc
  have hprintable := printable_dumps _ h c hc
  have hle := hprintable.2
  omega

/-- A line is read back as its record. -/
theorem read_record_line (h : (Json.object record).Doubles floats) :
    read_line (json_loads floats) (record_line floats record) =
      .ok (some (.object (reread record))) := by
  have hloads : json_loads floats (record_line floats record) = .ok (.object (reread record)) := by
    rw [json_loads, code_points_record_line h, Spelling.loads_dumps _ h]
    rfl
  have hne : record_line floats record ≠ "" := by
    intro hempty
    obtain ⟨inner, hinner⟩ := @record_line_braces floats record
    rw [hempty] at hinner
    cases hinner
  rw [read_line, strip_record_line, if_neg hne, hloads]

end Line

section File

/-- The text of the log with these records. -/
def log_text (floats : Floats) (records : List Members) : String :=
  String.ofList (Text.unlines '\n' (records.map fun record => (record_line floats record).toList))

theorem log_text_append (records : List Members) (record : Members) :
    log_text floats (records ++ [record]) =
      log_text floats records ++ record_line floats record ++ "\n" := by
  rw [← String.toList_inj]
  simp [log_text, Text.unlines_append, Text.unlines]

theorem log_file_eq (calls : List (LogCall floats)) :
    log_file calls =
      if calls = [] then none else some (.ok (log_text floats (written_records calls))) := by
  have hfold : ∀ calls : List (LogCall floats), calls.foldl append_call none =
      if calls = [] then none else some (log_text floats (written_records calls)) := by
    intro calls
    induction calls using List.reverseRecOn with
    | nil => rfl
    | append_singleton calls call ih =>
      have hbefore : (calls.foldl append_call none).getD "" =
          log_text floats (written_records calls) := by
        rw [ih]
        cases calls <;> rfl
      have hwritten : written_records (calls ++ [call]) =
          written_records calls ++ call.record.toOption.toList := by
        simp only [written_records, List.filterMap_append, List.filterMap_cons, List.filterMap_nil]
        cases call.record.toOption <;> rfl
      rw [List.foldl_append, List.foldl_cons, List.foldl_nil, append_call, hbefore, hwritten]
      cases hrecord : call.record with
      | error e => simp [Except.toOption]
      | ok record => simp [Except.toOption, log_text_append]
  rw [log_file, hfold]
  split
  next => rfl
  next => rfl

theorem splitlines_log_text {records : List Members}
    (h : ∀ record ∈ records, (Json.object record).Doubles floats) :
    splitlines (log_text floats records) = records.map (record_line floats) := by
  have hlines := @splitlines_unlines (records.map fun record => (record_line floats record).toList)
    (by
      intro line hline c hc
      obtain ⟨record, hrecord, rfl⟩ := List.mem_map.mp hline
      exact record_line_boundary (h record hrecord) hc)
  rw [splitlines, log_text, String.toList_ofList, hlines, List.map_map]
  apply List.map_congr_left
  intro record _
  exact String.ofList_toList

theorem written_doubles (calls : List (LogCall floats)) :
    ∀ record ∈ written_records calls, (Json.object record).Doubles floats := by
  intro record hrecord
  obtain ⟨call, -, hcall⟩ := List.mem_filterMap.mp hrecord
  cases hok : call.record with
  | error e => simp [hok, Except.toOption] at hcall
  | ok record' =>
    simp only [hok, Except.toOption, Option.some.injEq] at hcall
    rw [← hcall]
    exact record_doubles hok

end File

section Lookup

variable {lower : List CodePoint → List CodePoint} {format : Json → List CodePoint}
  {query : List CodePoint} {limit : Int}

theorem judge_record_line {record : Members} (h : (Json.object record).Doubles floats) :
    StaticContextService.judge (json_loads floats) (mentions lower format query)
        (record_line floats record) =
      .ok (if mentioned lower format query (reread record) then some (.object (reread record))
        else none) := by
  simp only [StaticContextService.judge, read_record_line h, mentions, bind, Except.bind, pure,
    Except.pure]

theorem picks_records {records : List Members}
    (h : ∀ record ∈ records, (Json.object record).Doubles floats) :
    (records.map (record_line floats)).filterMap
        (Scan.pick (StaticContextService.judge (json_loads floats) (mentions lower format query))) =
      ((records.map reread).filter (mentioned lower format query)).map .object := by
  induction records with
  | nil => rfl
  | cons record records ih =>
    have ih := ih fun r hr => h r (List.mem_cons_of_mem _ hr)
    have hjudge := @judge_record_line floats lower format query record (h record List.mem_cons_self)
    rw [List.map_cons, List.map_cons, List.filterMap_cons, ih, Scan.pick, hjudge]
    cases hm : mentioned lower format query (reread record) <;> simp [hm]

theorem lookup_eq (calls : List (LogCall floats)) (hlimit : 1 ≤ limit) :
    lookup lower format calls query limit =
      .ok (newest lower format ((written_records calls).map reread) query limit) := by
  have hmax : max limit.toNat 1 = limit.toNat := by omega
  rw [lookup, log_file_eq]
  split
  next hnil =>
    simp [hnil, StaticContextService.lookup_similar_reviews, newest, written_records]
  next =>
    have hdoubles := written_doubles calls
    have hlines : (splitlines (log_text floats (written_records calls))).reverse =
        (written_records calls).reverse.map (record_line floats) := by
      rw [splitlines_log_text hdoubles, List.map_reverse]
    have hreverse : ∀ record ∈ (written_records calls).reverse,
        (Json.object record).Doubles floats :=
      fun record hrecord => hdoubles record (List.mem_reverse.mp hrecord)
    have htotal : ∀ line ∈ (written_records calls).reverse.map (record_line floats), ∃ pick,
        StaticContextService.judge (json_loads floats) (mentions lower format query) line =
          .ok pick := by
      intro line hline
      obtain ⟨record, hrecord, rfl⟩ := List.mem_map.mp hline
      exact ⟨_, judge_record_line (hreverse record hrecord)⟩
    have hscan := @Scan.scan_total _ _ _ _ limit _ htotal
    rw [picks_records hreverse, hmax, ← hlines, List.map_reverse, ← List.map_take] at hscan
    exact hscan

/-- A log is searched exactly: the newest records with the query are found, newest first, each as
JSON reads it back, which is as it was logged unless a high surrogate is followed by a low one. -/
theorem similar_reviews_exact (lower : List CodePoint → List CodePoint)
    (format : Json → List CodePoint) (calls : List (LogCall floats)) (query : List CodePoint)
    (limit : Int) (hlimit : 1 ≤ limit) :
    lookup lower format calls query limit =
        .ok (newest lower format ((written_records calls).map reread) query limit) ∧
      ∀ record ∈ written_records calls, (Json.object record).Strings Unpaired →
        reread record = record := by
  refine ⟨lookup_eq calls hlimit, ?_⟩
  intro record _ hstrings
  have hread := Spelling.ascii.reread_strings (fun _ => join_unpaired) (.object record) hstrings
  exact Json.object.inj hread

end Lookup

/-- An event whose request has the two halves of a character as its name. -/
def pairedCalls : List (LogCall noFloats) :=
  [.log_event (code_points "2026-01-01T00:00:00+00:00") [⟨0xD83D, by decide⟩, ⟨0xDE00, by decide⟩]
    (code_points "queued") (.ok ⟨[], trivial⟩)]

theorem similar_reviews_exact_paired :
    lookup id (fun _ => []) pairedCalls (code_points "1") 1 =
        .ok (newest id (fun _ => []) ((written_records pairedCalls).map reread) (code_points "1") 1) ∧
      ∀ record ∈ written_records pairedCalls, (Json.object record).Strings Unpaired →
        reread record = record :=
  similar_reviews_exact id (fun _ => []) pairedCalls (code_points "1") 1 (by decide)

/-- The first half is in the name that was logged, and is not found. -/
theorem half_not_found :
    lookup id (fun _ => []) pairedCalls [⟨0xD83D, by decide⟩] 1 = .ok [] ∧
    (newest id (fun _ => []) (written_records pairedCalls) [⟨0xD83D, by decide⟩] 1).length = 1 ∧
    lookup id (fun _ => []) pairedCalls [⟨0xD83D, by decide⟩] 1 ≠
      .ok (newest id (fun _ => []) (written_records pairedCalls) [⟨0xD83D, by decide⟩] 1) := by
  have hlookup : lookup id (fun _ => []) pairedCalls [⟨0xD83D, by decide⟩] 1 = .ok [] := by
    rw [lookup_eq _ (by decide)]
    rfl
  have hlength : (newest id (fun _ => []) (written_records pairedCalls) [⟨0xD83D, by decide⟩]
      1).length = 1 := by rfl
  refine ⟨hlookup, hlength, ?_⟩
  intro heq
  rw [hlookup, Except.ok.injEq] at heq
  rw [← heq] at hlength
  cases hlength

end SimilarReviews

end Nitpicker
