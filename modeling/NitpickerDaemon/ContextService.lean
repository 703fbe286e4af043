import NitpickerDaemon.AddedLines
import NitpickerDaemon.ControllerRun
import NitpickerDaemon.Data.Memo
import NitpickerDaemon.Effect.Monitor

/-!
The context service: the context of a request is collected from the providers and kept under the
path of its file. What a later request for the same file gets, and who gets it in a run.
-/

set_option autoImplicit false

namespace Nitpicker

open Effect

structure ContextFragment where
  tier : String
  entries : List String
  metadata : PyDict := []

/-- `collect` of a provider whose output depends only on the request. -/
abbrev Provider := ReviewRequest → Except PyExc ContextFragment

abbrev Tiers := List (String × List String)

/-- `s.split()` -/
def words (s : String) : List String :=
  ((s.toList.splitOnP isspace).filter fun cs => !cs.isEmpty).map String.ofList

namespace DiffProvider

def entries (request : ReviewRequest) : List String :=
  if request.diff_text = "" then [] else [request.diff_text]

def collect (request : ReviewRequest) : ContextFragment :=
  let lines := splitlines request.diff_text
  { tier := "tier1"
    entries := entries request
    metadata := [
      ("source", .str "diff"),
      ("target_file", .str request.target_file),
      ("total_lines", .int lines.length),
      ("added_lines",
        .int (lines.countP fun line => startswith "+" line && !startswith "+++" line)),
      ("removed_lines",
        .int (lines.countP fun line => startswith "-" line && !startswith "---" line)),
      ("word_count", .int (words request.diff_text).length)] }

end DiffProvider

namespace CompositeContextProvider

/-- `tiers.setdefault(fragment.tier, []).extend(fragment.entries)` -/
def add (tiers : Tiers) (fragment : ContextFragment) : Tiers :=
  Dict.set tiers fragment.tier ((tiers.lookup fragment.tier).getD [] ++ fragment.entries)

def collect_from (request : ReviewRequest) : List Provider → Tiers → Except PyExc Tiers
  | [], tiers => .ok tiers
  | provider :: providers, tiers => do
    let fragment ← provider request
    collect_from request providers (add tiers fragment)

def collect (providers : List Provider) (request : ReviewRequest) : Except PyExc Tiers :=
  collect_from request providers []

end CompositeContextProvider

/-- The diff provider comes first; `others` are the providers registered after it. `sha256` is the
hexadecimal digest of a text. -/
structure StaticContextService where
  others : List Provider := []
  cache_enabled : Bool := true
  sha256 : String → String

abbrev ServiceCache := List (String × ContextBundle)

namespace StaticContextService

def providers (svc : StaticContextService) : List Provider :=
  (fun request => .ok (DiffProvider.collect request)) :: svc.others

/-- The tiers of the context of a request, with a slot for each of the four. -/
def tiers (svc : StaticContextService) (request : ReviewRequest) : Except PyExc Tiers :=
  (CompositeContextProvider.collect svc.providers request).map fun tiers =>
    ["tier1", "tier2", "tier3", "tier4"].foldl (fun tiers name => Dict.setdefault tiers name []) tiers

def bundle (svc : StaticContextService) (request : ReviewRequest) (tiers : Tiers) :
    ContextBundle :=
  let all_content := "\n".intercalate (tiers.flatMap (·.2))
  { request_id := request.request_id
    context_hash := svc.sha256 all_content
    token_estimate := max 1 (words all_content).length
    tiers := tiers
    metadata := [("source", .str "composite")] }

def collect_bundle (svc : StaticContextService) (request : ReviewRequest) :
    Except PyExc ContextBundle :=
  (svc.tiers request).map (svc.bundle request)

def build_context (svc : StaticContextService) (request : ReviewRequest) (cache : ServiceCache) :
    Except PyExc ContextBundle × ServiceCache :=
  match if svc.cache_enabled then cache.lookup request.target_file else none with
  | some cached => (.ok cached, cache)
  | none => match svc.collect_bundle request with
    | .ok bundle =>
      (.ok bundle, if svc.cache_enabled then Dict.set cache request.target_file bundle else cache)
    | .error e => (.error e, cache)

/-- `path.replace("\\", "/")` -/
def normalized (path : String) : String :=
  String.ofList (path.toList.map fun c => if c = '\\' then '/' else c)

/-- The cached key is the file, or lies under the directory. -/
def stale (file_path key : String) : Bool :=
  normalized key == normalized file_path || startswith (normalized file_path ++ "/") (normalized key)

/-- The number of entries removed, and what is left. -/
def invalidate_for_path (file_path : String) (cache : ServiceCache) : Nat × ServiceCache :=
  (cache.countP fun e => stale file_path e.1, cache.filter fun e => !stale file_path e.1)

def invalidate_all (cache : ServiceCache) : Nat × ServiceCache := (cache.length, [])

end StaticContextService

/-- The calls that read or change the cache of the service. -/
inductive ServiceCall where
  | build_context (request : ReviewRequest)
  | invalidate_for_path (file_path : String)
  | invalidate_all

/-- The same call of a table that remembers bundles under the paths of the files. -/
def ServiceCall.memo : ServiceCall → Memo.Call ReviewRequest String
  | .build_context request => .get request
  | .invalidate_for_path file_path => .drop (StaticContextService.stale file_path)
  | .invalidate_all => .drop fun _ => true

namespace StaticContextService

def perform (svc : StaticContextService) (cache : ServiceCache) : ServiceCall → ServiceCache
  | .build_context request => (svc.build_context request cache).2
  | .invalidate_for_path file_path => (invalidate_for_path file_path cache).2
  | .invalidate_all => (invalidate_all cache).2

/-- The cache after the calls, from an empty one. -/
def cache_after (svc : StaticContextService) (calls : List ServiceCall) : ServiceCache :=
  calls.foldl svc.perform []

/-- The same service with `cache_enabled`, and without. -/
def cached (svc : StaticContextService) : StaticContextService := { svc with cache_enabled := true }

def uncached (svc : StaticContextService) : StaticContextService :=
  { svc with cache_enabled := false }

/-- The request whose bundle stands under a path after the calls. -/
def remembered (svc : StaticContextService) (calls : List ServiceCall) : String → Option ReviewRequest :=
  Memo.sources (·.target_file) svc.collect_bundle (calls.map ServiceCall.memo)

section Cached

variable {svc : StaticContextService} {request : ReviewRequest} {cache : ServiceCache}
  {calls : List ServiceCall}

theorem build_context_memo : svc.cached.build_context request cache =
    Memo.get (·.target_file) svc.collect_bundle cache request := by
  have hcollect : svc.cached.collect_bundle request = svc.collect_bundle request := rfl
  simp only [build_context, Memo.get, cached, if_true] at hcollect ⊢
  cases cache.lookup request.target_file with
  | some bundle => rfl
  | none =>
    rw [hcollect]
    cases svc.collect_bundle request <;> rfl

theorem perform_memo (call : ServiceCall) : svc.cached.perform cache call =
    Memo.step (·.target_file) svc.collect_bundle cache call.memo := by
  cases call with
  | build_context request =>
    rw [perform, build_context_memo]
    rfl
  | invalidate_for_path file_path => rfl
  | invalidate_all => simp [perform, invalidate_all, ServiceCall.memo, Memo.step]

theorem cache_after_memo : svc.cached.cache_after calls =
    Memo.table (·.target_file) svc.collect_bundle (calls.map ServiceCall.memo) := by
  unfold cache_after Memo.table
  generalize ([] : ServiceCache) = cache
  induction calls generalizing cache with
  | nil => rfl
  | cons call calls ih => rw [List.foldl_cons, perform_memo, ih, List.map_cons, List.foldl_cons]

/-- With the cache, a request gets the bundle of the remembered one. -/
theorem build_context_cached :
    (svc.cached.build_context request (svc.cached.cache_after calls)).1 =
      svc.collect_bundle ((svc.remembered calls request.target_file).getD request) := by
  rw [cache_after_memo, build_context_memo, Memo.get_table]
  rfl

theorem build_context_uncached :
    (svc.uncached.build_context request cache).1 = svc.collect_bundle request := by
  have hcollect : svc.uncached.collect_bundle request = svc.collect_bundle request := rfl
  simp only [build_context, uncached, Bool.false_eq_true, if_false] at hcollect ⊢
  cases h : svc.collect_bundle request <;> simp [hcollect, h]

/-- Without an invalidation in between, the first request for a file is remembered for good. -/
theorem remembered_first (requests : List ReviewRequest) (path : String) :
    svc.remembered (requests.map .build_context) path = requests.find? fun request =>
      decide (request.target_file = path) && (svc.collect_bundle request).isOk := by
  have hmemo := Memo.sources_gets (·.target_file) svc.collect_bundle requests path
  rw [remembered, List.map_map]
  exact hmemo

end Cached

/-- What a caller sees of a bundle. -/
def content (r : Except PyExc ContextBundle) : Except PyExc (Tiers × String × Nat) :=
  r.map fun b => (b.tiers, b.context_hash, b.token_estimate)

/-- Every request of the calls gets from the cached service what it gets from the uncached one. -/
def Transparent (svc : StaticContextService) (calls : List ServiceCall) : Prop :=
  ∀ before request after, calls = before ++ .build_context request :: after →
    content (svc.cached.build_context request (svc.cached.cache_after before)).1 =
      content (svc.uncached.build_context request (svc.uncached.cache_after before)).1

/-- The providers collect the same for a request as for the one remembered for its file. -/
def Repeats (svc : StaticContextService) (before : List ServiceCall) (request : ReviewRequest) :
    Prop :=
  ∀ first, svc.remembered before request.target_file = some first →
    svc.tiers first = svc.tiers request

section Transparent

variable {svc : StaticContextService} {request : ReviewRequest} {calls : List ServiceCall}

/-- Bundles have the same content exactly if they have the same tiers. -/
theorem content_eq_iff {first : ReviewRequest} :
    content (svc.collect_bundle first) = content (svc.collect_bundle request) ↔
      svc.tiers first = svc.tiers request := by
  unfold content collect_bundle
  cases svc.tiers first with
  | error e => cases svc.tiers request <;> simp [Except.map]
  | ok tiers =>
    cases svc.tiers request with
    | error e => simp [Except.map]
    | ok tiers' =>
      simp only [Except.map, bundle, Except.ok.injEq, Prod.mk.injEq]
      constructor
      · exact fun h => h.1
      · intro h
        simp [h]

theorem content_cached_iff :
    content (svc.cached.build_context request (svc.cached.cache_after calls)).1 =
      content (svc.collect_bundle request) ↔ svc.Repeats calls request := by
  rw [build_context_cached, content_eq_iff, Repeats]
  cases svc.remembered calls request.target_file <;> simp

theorem transparent_iff : svc.Transparent calls ↔
    ∀ before request after, calls = before ++ .build_context request :: after →
      svc.Repeats before request := by
  unfold Transparent
  simp only [build_context_uncached, content_cached_iff]

/-- The entries under the first tier begin with `diff`. -/
def Opens (diff : List String) (tiers : Tiers) : Prop :=
  ∃ rest, tiers.lookup "tier1" = some (diff ++ rest)

theorem opens_add {diff : List String} {tiers : Tiers} {fragment : ContextFragment}
    (h : Opens diff tiers) : Opens diff (CompositeContextProvider.add tiers fragment) := by
  obtain ⟨rest, hrest⟩ := h
  unfold Opens CompositeContextProvider.add
  rw [Dict.lookup_set]
  split
  · rename_i htier
    rw [← htier, hrest]
    exact ⟨rest ++ fragment.entries, by simp⟩
  · exact ⟨rest, hrest⟩

theorem opens_collect {diff : List String} {providers : List Provider} {tiers tiers' : Tiers}
    (h : Opens diff tiers)
    (hc : CompositeContextProvider.collect_from request providers tiers = .ok tiers') :
    Opens diff tiers' := by
  induction providers generalizing tiers with
  | nil =>
    cases hc
    exact h
  | cons provider providers ih =>
    rw [CompositeContextProvider.collect_from] at hc
    cases hp : provider request with
    | error e => simp [hp, bind, Except.bind] at hc
    | ok fragment =>
      simp only [hp, bind, Except.bind] at hc
      exact ih (opens_add h) hc

/-- The first tier of a new bundle begins with the diff of its request. -/
theorem opens_tiers {tiers : Tiers} (h : svc.tiers request = .ok tiers) :
    Opens (DiffProvider.entries request) tiers := by
  have hslot : ∀ {name : String} {tiers : Tiers}, Opens (DiffProvider.entries request) tiers →
      Opens (DiffProvider.entries request) (Dict.setdefault tiers name []) := by
    intro name tiers h
    obtain ⟨rest, hrest⟩ := h
    exact ⟨rest, Dict.lookup_setdefault hrest⟩
  unfold StaticContextService.tiers at h
  cases hc : CompositeContextProvider.collect svc.providers request with
  | error e => simp [hc, Except.map] at h
  | ok collected =>
    simp only [hc, Except.map, Except.ok.injEq] at h
    subst h
    have hfirst : Opens (DiffProvider.entries request)
        (CompositeContextProvider.add [] (DiffProvider.collect request)) :=
      ⟨[], by simp [CompositeContextProvider.add, DiffProvider.collect]⟩
    exact hslot (hslot (hslot (hslot (opens_collect hfirst hc))))

end Transparent

end StaticContextService

/-- The context that an answer of the context service gives. -/
def built : (o : Op) → Ans o → Option ContextBundle
  | .build_context _, .ok context => some context
  | _, _ => none

/-- With the contexts `y` built so far, the question hands on the only one. -/
def Op.hands_on (request : ReviewRequest) (y : List ContextBundle) : Op → Prop
  | .build_context r => r = request
  | .agent_run _ _ context => y = [context]
  | .llm_review _ context _ => y = [context]
  | .should_offload _ size => ∃ context, y = [context] ∧ size = context.token_estimate
  | _ => True

/-- The questions that build no context and hand none on. -/
def Op.apart : Op → Prop
  | .build_context _ => False
  | .agent_run _ _ _ => False
  | .llm_review _ _ _ => False
  | .should_offload _ _ => False
  | _ => True

/-- The questions that hand on `context`, if any. -/
def Op.under (context : ContextBundle) : Op → Prop
  | .build_context _ => False
  | .agent_run _ _ c => c = context
  | .llm_review _ c _ => c = context
  | .should_offload _ size => size = context.token_estimate
  | _ => True

theorem Op.apart_under {context : ContextBundle} {o : Op} (h : o.apart) : o.under context := by
  cases o <;> trivial

theorem Op.apart_hands_on {request : ReviewRequest} {y : List ContextBundle} {o : Op}
    (h : o.apart) : o.hands_on request y := by
  cases o <;> trivial

theorem Op.under_hands_on {request : ReviewRequest} {context : ContextBundle} {o : Op}
    (h : o.under context) : o.hands_on request [context] := by
  cases o with
  | build_context r => exact h.elim
  | agent_run agent r c => simpa [hands_on] using h.symm
  | llm_review r c findings => simpa [hands_on] using h.symm
  | should_offload r size => exact ⟨context, rfl, h⟩
  | _ => trivial

theorem built_under {context : ContextBundle} {o : Op} {a : Ans o} (h : o.under context) :
    built o a = none := by
  cases o <;> first | rfl | exact h.elim

theorem built_apart {o : Op} {a : Ans o} (h : o.apart) : built o a = none := by
  cases o <;> first | rfl | exact h.elim

namespace Orchestrator

section Hands

variable {α β κ : Type} {orc : Orchestrator} {request : ReviewRequest} {context : ContextBundle}
  {f : Locals → κ} {x : List ContextBundle}

/-- A part of the pipeline with the contexts `x` built. -/
abbrev HandsOn (request : ReviewRequest) (x : List ContextBundle) (m : Review α) : Prop :=
  Proc.Monitors (collecting built) (fun y o => o.hands_on request y) x (fun _ _ => True)
    (fun _ _ => True) m

theorem hands_apart {m : Review β} {k : β → Review α}
    (hm : Proc.Within (fun _ _ => True) Op.apart f (fun _ => True) m)
    (hk : ∀ b, HandsOn request x (k b)) : HandsOn request x (m >>= k) :=
  hm.monitors_bind (fun _ => Op.apart_hands_on) (fun _ _ h => collecting_none (built_apart h))
    (fun _ _ => trivial) hk

theorem hands_end {m : Review α} (hm : Proc.Within (fun _ _ => True) Op.apart f (fun _ => True) m) :
    HandsOn request x m :=
  hm.monitors (fun _ => Op.apart_hands_on) (fun _ _ h => collecting_none (built_apart h))
    (fun _ => trivial) fun _ _ => trivial

theorem deliver_apart {decisions : List AgentDecision} {v : Verdict} :
    Proc.Within (fun _ _ => True) Op.apart id (fun _ => True) (orc.deliver request decisions v) :=
  .bind (mark_terminal_safe_asks trivial) fun _ => .bind (log_analytics_asks fun _ => trivial)
    fun _ => .bind (publish_diagnostics_asks trivial) fun _ =>
    .bind (publish_quick_fix_asks trivial fun _ _ _ => trivial) fun _ =>
    .bind (log_result_asks trivial) fun _ => .pure _

theorem conclude_under {decisions : List AgentDecision} :
    Proc.Within (fun _ _ => True) (Op.under context) (fun _ => ()) (fun _ => True)
      (orc.conclude request context decisions) := by
  have hdeliver : ∀ v, Proc.Within (fun _ _ => True) (Op.under context) (fun _ => ())
      (fun _ => True) (orc.deliver request decisions v) := fun v l =>
    (deliver_apart l).mono (fun _ _ h => h) (fun _ => Op.apart_under) fun _ h => ⟨rfl, h.2⟩
  exact .bind (transition_asks trivial) fun _ => .bind (.assign fun _ => rfl) fun _ =>
    .bind (.invoke trivial fun _ _ _ _ => trivial) fun _ =>
    .bind (l3_stage_asks (fun _ => trivial) trivial (fun _ => trivial) (fun _ => rfl)
      (fun _ _ _ => trivial) trivial) fun _ =>
    .bind (patch_stage_asks (fun _ => trivial) (fun _ => trivial) (fun _ => trivial)
      (fun _ _ _ => trivial) fun _ _ _ => trivial) fun _ =>
    .bind (autofix_stage_asks (fun _ => trivial) (fun _ => trivial) (fun _ _ _ => trivial) trivial)
      fun _ => hdeliver _

theorem analyze_under {decision : PolicyDecision} :
    Proc.Within (fun _ _ => True) (Op.under context) (fun _ => ()) (fun _ => True)
      (orc.analyze request decision context) :=
  .bind (transition_asks trivial) fun _ => .bind (.assign fun _ => rfl) fun _ =>
    .bind (monotonic_asks trivial) fun _ => .bind (run_agents_asks trivial
      (fun _ => trivial) (fun _ => rfl) fun _ _ _ _ => trivial) fun _ =>
    .bind (monotonic_asks trivial) fun _ => .bind (log_analytics_asks fun _ => trivial)
      fun _ => .pure _

theorem review_hands_on {decision : PolicyDecision} :
    HandsOn request [] (orc.review request decision) := by
  refine hands_apart (f := id) (transition_asks trivial) fun _ => hands_apart (f := fun _ => ())
    (.assign fun _ => rfl) fun _ => .bind (W := fun context y => y = [context])
    (.invoke rfl (fun a context ha => ?_) fun _ _ _ => trivial) fun context y hy => ?_
  · obtain rfl : a = .ok context := ha
    rfl
  · subst hy
    have hrest : Proc.Within (fun _ _ => True) (Op.under context) (fun _ => ()) (fun _ => True) (do
        orc.offload request context
        orc.context_cache request context
        let decisions ← orc.analyze request decision context
        orc.conclude request context decisions) :=
      .bind (offload_asks (fun _ => trivial) rfl (fun _ => trivial) fun _ _ => trivial) fun _ =>
        .bind (context_cache_asks (fun _ => trivial) (fun _ _ => trivial) trivial
          fun _ _ _ _ _ => trivial) fun _ =>
        .bind analyze_under fun _ => conclude_under
    exact hrest.monitors (fun _ => Op.under_hands_on) (fun _ _ h => collecting_none (built_under h))
      (fun _ => trivial) fun _ _ => trivial

theorem run_once_hands_on : HandsOn request [] (orc.run_once request) := by
  have hreject : ∀ {decision : PolicyDecision}, Proc.Within (fun _ _ => True) Op.apart (fun _ => ())
      (fun _ => True) (orc.reject_policy request decision) :=
    .bind (transition_asks trivial) fun _ => .bind (.assign fun _ => rfl) fun _ =>
      .bind (mark_terminal_safe_asks trivial) fun _ => .bind (publish_diagnostics_asks trivial)
      fun _ => .bind (log_result_asks trivial) fun _ => .pure _
  have hadmission : HandsOn request [] (orc.admission request) :=
    hands_apart (f := id) (.invoke trivial fun _ _ _ _ => trivial) fun _ =>
      .ite (fun _ => hands_apart (f := id) (.invoke trivial fun _ _ _ _ => trivial) fun _ =>
        hands_apart (f := id) (log_analytics_asks fun _ => trivial) fun _ =>
        .ite (fun _ => review_hands_on) fun _ => hands_end hreject)
        fun _ => hands_end (f := id) (.bind (mark_terminal_safe_asks trivial) fun _ =>
          .bind (log_result_asks trivial) fun _ => .pure _)
  have hassign : ∀ g : Locals → Locals, HandsOn request []
      (Proc.assign g >>= fun _ => orc.admission request) := fun g =>
    hands_apart (f := fun _ => ()) (.assign fun _ => rfl) fun _ => hadmission
  refine .attempt (E := fun _ _ => True) (hands_apart (f := id)
    (.invoke trivial fun _ _ _ _ => trivial) fun outcome => ?_) fun e y _ =>
    hands_end (handle_failure_asks (fun _ _ => trivial) (fun _ => trivial)
      (fun _ _ _ _ _ => trivial) fun _ _ _ _ => trivial)
  cases outcome with
  | none => exact hassign _
  | some outcome =>
    exact .ite (fun _ => hands_end (f := id) (.bind (log_analytics_asks fun _ => trivial) fun _ =>
      .bind (publish_diagnostics_asks trivial) fun _ => .bind (log_result_asks trivial)
        fun _ => .pure _)) fun _ => hassign _

end Hands

end Orchestrator

/-- The agents, the L3 gate and the offload decision of a run all get the context that was built
for its request. -/
structure HandsBuilt (request : ReviewRequest) (t : Trace) : Prop where
  agents : ∀ agent r context a, Answered t (.agent_run agent r context) a →
    Answered t (.build_context request) (.ok context)
  review : ∀ r context findings a, Answered t (.llm_review r context findings) a →
    Answered t (.build_context request) (.ok context)
  offload : ∀ r size a, Answered t (.should_offload r size) a →
    ∃ context, Answered t (.build_context request) (.ok context) ∧ size = context.token_estimate

section Run

variable {orc : Orchestrator} {request : ReviewRequest} {t : Trace} {p : Running}

theorem run_hands_on (hp : Path (orc.run_once request {}) t p) {o : Op} {a : Ans o}
    (ha : Answered t o a) : ∃ y, o.hands_on request y ∧
      ∀ context ∈ y, ∃ r, Answered t (.build_context r) (.ok context) := by
  obtain ⟨s, s', hev⟩ := ha
  obtain ⟨before, after, rfl⟩ := List.append_of_mem hev
  have hat := hp.monitored_at (Orchestrator.run_once_hands_on {}) rfl
  rw [watch_collecting, List.nil_append] at hat
  refine ⟨_, hat, fun context hc => ?_⟩
  obtain ⟨⟨s₁, o₁, a₁, s₁'⟩, hev₁, hbuilt⟩ := List.mem_filterMap.mp hc
  cases o₁ with
  | build_context r =>
    cases a₁ with
    | error e => cases hbuilt
    | ok built =>
      cases hbuilt
      exact ⟨r, s₁, s₁', List.mem_append_left _ hev₁⟩
  | _ => cases hbuilt

theorem run_hands_built (hp : Path (orc.run_once request {}) t p) : HandsBuilt request t := by
  have hbuilt : ∀ {y : List ContextBundle} {context : ContextBundle}, y = [context] →
      (∀ c ∈ y, ∃ r, Answered t (.build_context r) (.ok c)) →
      Answered t (.build_context request) (.ok context) := by
    intro y context hy h
    obtain ⟨r, hr⟩ := h context (by simp [hy])
    obtain ⟨y', hask, -⟩ := run_hands_on hp hr
    obtain rfl : r = request := hask
    exact hr
  constructor
  · intro agent r context a ha
    obtain ⟨y, hask, hy⟩ := run_hands_on hp ha
    exact hbuilt hask hy
  · intro r context findings a ha
    obtain ⟨y, hask, hy⟩ := run_hands_on hp ha
    exact hbuilt hask hy
  · intro r size a ha
    obtain ⟨y, ⟨context, hcontext, hsize⟩, hy⟩ := run_hands_on hp ha
    exact ⟨context, hbuilt hcontext hy, hsize⟩

end Run

/-- The contexts of a run come from the cached service, after the calls of earlier runs. -/
def StaticContextService.Serves (svc : StaticContextService) (calls : List ServiceCall) (t : Trace) :
    Prop :=
  ∀ request a, Answered t (.build_context request) a →
    a = (svc.cached.build_context request (svc.cached.cache_after calls)).1

open StaticContextService in
/-- The cache is transparent exactly for the calls whose providers collect for each request what
they collected for the request remembered for its file; and the context of a run, which all its
consumers get, begins with the diff of the remembered request. -/
theorem cache_transparent_iff {svc : StaticContextService} {calls : List ServiceCall} {env : Env}
    {orc : Orchestrator} {request : ReviewRequest} {db db' : Db} {t : Trace} {p : Running}
    (hr : Steps env.step db (orc.run_once request {}) t db' p) (hserves : svc.Serves calls t) :
    (svc.Transparent calls ↔ ∀ before r after, calls = before ++ .build_context r :: after →
      svc.Repeats before r) ∧
    HandsBuilt request t ∧
    ∀ context, Answered t (.build_context request) (.ok context) →
      (content (.ok context) = content (svc.uncached.build_context request []).1 ↔
        svc.Repeats calls request) ∧
      Opens (DiffProvider.entries ((svc.remembered calls request.target_file).getD request))
        context.tiers := by
  refine ⟨transparent_iff, run_hands_built hr.path, fun context hcontext => ?_⟩
  have hanswer := hserves request _ hcontext
  constructor
  · rw [hanswer, build_context_uncached, content_cached_iff]
  · rw [build_context_cached, collect_bundle] at hanswer
    cases htiers : svc.tiers ((svc.remembered calls request.target_file).getD request) with
    | error e => simp [htiers, Except.map] at hanswer
    | ok tiers =>
      simp only [htiers, Except.map, Except.ok.injEq] at hanswer
      rw [hanswer]
      exact opens_tiers htiers

def firstReview : ReviewRequest :=
  { sampleRequest "req_1" "key_1" with target_file := "a.py", diff_text := "+x = 1" }

def secondReview : ReviewRequest :=
  { sampleRequest "req_2" "key_2" with target_file := "a.py", diff_text := "+x = 2" }

/-- The digests are those of the two diffs. -/
def sampleService : StaticContextService where
  sha256 text := if text = "+x = 1" then
    "2ca3fa653db238df5f9aded15105546587a9660db95709ec0cb822ae6b313916"
  else "765a001af9d5a759304044a2606688330be776ece10b0a3e6baccad6b55bf192"

def gate_only : Orchestrator := { llm_review_gate := true }

/-- The contexts come from the service after the calls. -/
def serving (svc : StaticContextService) (calls : List ServiceCall) : (o : Op) → Ans o
  | .build_context request =>
    (svc.cached.build_context request (svc.cached.cache_after calls)).1
  | o => agreeable o

theorem serving_serves {svc : StaticContextService} {calls : List ServiceCall} {orc : Orchestrator}
    {request : ReviewRequest} {db : Db} {t : Trace} {p : Running}
    (hr : Steps (scripting (serving svc calls)).step {} (orc.run_once request {}) t db p) :
    svc.Serves calls t := by
  intro r a ha
  obtain ⟨s, s', hev⟩ := ha
  exact (hr.event _ hev).1

theorem first_remembered : sampleService.remembered [.build_context firstReview] "a.py" =
    some firstReview := by
  have hfirst := @StaticContextService.remembered_first sampleService [firstReview] "a.py"
  have hfile : firstReview.target_file = "a.py" := rfl
  have hok : (sampleService.collect_bundle firstReview).isOk = true := rfl
  simpa [hfile, hok] using hfirst

/-- A file is reviewed three times with one diff. -/
theorem cache_transparent_sample : ∃ t db result l,
    Steps (scripting (serving sampleService [.build_context firstReview, .build_context firstReview])
      ).step {} (gate_only.run_once firstReview {}) t db
      (.ret (.ok result, l)) ∧
    sampleService.Transparent [.build_context firstReview, .build_context firstReview] := by
  have hr := @play_steps (scripting (serving sampleService
      [.build_context firstReview, .build_context firstReview])) (serving sampleService
      [.build_context firstReview, .build_context firstReview]) (fun _ => rfl)
    gate_only firstReview {} 60
  refine ⟨_, _, _, _, hr, (cache_transparent_iff hr (serving_serves hr)).1.mpr ?_⟩
  intro before r after h first hfirst
  cases before with
  | nil => cases hfirst
  | cons call before =>
    cases before with
    | cons call' before => simp at h
    | nil =>
      simp only [List.cons_append, List.nil_append, List.cons.injEq, ServiceCall.build_context.injEq]
        at h
      obtain ⟨rfl, rfl, -⟩ := h
      have hfile : firstReview.target_file = "a.py" := rfl
      rw [hfile, first_remembered, Option.some.injEq] at hfirst
      rw [hfirst]

/-- The L3 gate reviews the second change of a file with the diff of the first. -/
theorem stale_diff_reviewed :
    ¬sampleService.Transparent [.build_context firstReview, .build_context secondReview] ∧
    ∃ t db result l context findings a,
      Steps (scripting (serving sampleService [.build_context firstReview])).step {}
        (gate_only.run_once secondReview {}) t db
        (.ret (.ok result, l)) ∧
      Answered t (.llm_review secondReview context findings) a ∧
      context.tiers.lookup "tier1" = some ["+x = 1"] ∧ secondReview.diff_text = "+x = 2" := by
  constructor
  · intro h
    have hrepeats := StaticContextService.transparent_iff.mp h [.build_context firstReview] secondReview
      [] rfl firstReview first_remembered
    have hfirst : sampleService.tiers firstReview =
        .ok [("tier1", ["+x = 1"]), ("tier2", []), ("tier3", []), ("tier4", [])] := rfl
    have hsecond : sampleService.tiers secondReview =
        .ok [("tier1", ["+x = 2"]), ("tier2", []), ("tier3", []), ("tier4", [])] := rfl
    rw [hfirst, hsecond] at hrepeats
    simp at hrepeats
  · have hr := @play_steps (scripting (serving sampleService [.build_context firstReview]))
      (serving sampleService [.build_context firstReview]) (fun _ => rfl)
      gate_only secondReview {} 60
    have hev : ∃ s s' context findings a,
        (gate_only.play (serving sampleService
          [.build_context firstReview]) secondReview {} 60).1[12]? =
          some ⟨s, .llm_review secondReview context findings, a, s'⟩ ∧
        context.tiers.lookup "tier1" = some ["+x = 1"] := ⟨_, _, _, _, _, rfl, rfl⟩
    obtain ⟨s, s', context, findings, a, hev, htier⟩ := hev
    exact ⟨_, _, _, _, context, findings, a, hr, ⟨s, s', List.mem_of_getElem? hev⟩, htier, rfl⟩

end Nitpicker
