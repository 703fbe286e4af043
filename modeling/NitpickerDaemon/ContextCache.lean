import NitpickerDaemon.Data.Dict
import NitpickerDaemon.Effect.Monitor
import NitpickerDaemon.Models

/-!
The context cache manager: which of its calls make the provider create a remote cache.
-/

set_option autoImplicit false

namespace Nitpicker

open Effect

/-- What the manager remembers of a remote cache. -/
structure CacheEntry where
  cache_id : String
  context_hash : String
  provider_name : String
  expires_at : Rat

structure CacheStats where
  hits : Nat := 0
  misses : Nat := 0
  evictions : Nat := 0

/-- The attributes of the manager that its calls change. -/
structure CacheState where
  store : List (String × CacheEntry) := []
  stats : CacheStats := {}

/-- What the manager asks of the clock and of its provider. -/
inductive CacheOp where
  | time
  | create_context_cache (system_prompt : PyVal) (static_context : String) (ttl_seconds : Int)
  | delete_context_cache (cache_id : String)

abbrev CacheAns : CacheOp → Type
  | .time => Rat
  | .create_context_cache _ _ _ => Except PyExc String
  | .delete_context_cache _ => Except PyExc Unit

abbrev Caching (α : Type) := Proc PyExc CacheState CacheOp CacheAns α

/-- The calls of the manager and their answers. -/
abbrev CacheCalls := List (Event Unit CacheOp CacheAns)

/-- `sha256` is the hexadecimal digest of a text, `format` what an f-string makes of a value that
is no string. -/
structure ContextCacheManager where
  provider_name : String
  ttl : Int := 3600
  max_entries : Nat := 64
  sha256 : String → String
  format : PyVal → String

namespace ContextCacheManager

def hash (manager : ContextCacheManager) (system_prompt : PyVal) (static_context : String) :
    String :=
  let prompt := match system_prompt with
    | .str s => s
    | value => manager.format value
  manager.sha256 (prompt ++ "\x00" ++ static_context)

def count (f : CacheStats → CacheStats) : Caching Unit :=
  Proc.assign fun self => { self with stats := f self.stats }

def evicted : Caching Unit := count fun stats => { stats with evictions := stats.evictions + 1 }

/-- `_delete_safe` -/
def delete_safe (cache_id : String) : Caching Unit :=
  Proc.attempt (Proc.invoke (.delete_context_cache cache_id) id) fun _ => pure ()

/-- `_evict_oldest`: the first of the entries that expire soonest. -/
def evict_oldest : Caching Unit := do
  let self ← Proc.locals
  match self.store.argmin fun e => e.2.expires_at with
  | none => pure ()
  | some (oldest_key, entry) => do
    Proc.assign fun self => { self with store := self.store.filter fun e => e.1 ≠ oldest_key }
    delete_safe entry.cache_id
    evicted

def make_room (manager : ContextCacheManager) : Caching Unit := do
  let self ← Proc.locals
  if self.store.length ≥ manager.max_entries then evict_oldest else pure ()

/-- The part of `get_or_create` that is left when there is no entry to reuse. -/
def create (manager : ContextCacheManager) (system_prompt : PyVal) (static_context : String)
    (ctx_hash : String) : Caching String := do
  manager.make_room
  count fun stats => { stats with misses := stats.misses + 1 }
  let cache_id ← Proc.invoke (.create_context_cache system_prompt static_context manager.ttl) id
  let now ← Proc.invoke .time .ok
  Proc.assign fun self => { self with
    store := Dict.set self.store ctx_hash {
      cache_id := cache_id
      context_hash := ctx_hash
      provider_name := manager.provider_name
      expires_at := now + manager.ttl } }
  pure cache_id

/-- The part of `get_or_create` after the entry of the context was found and the clock read. -/
def reuse (manager : ContextCacheManager) (system_prompt : PyVal) (static_context : String)
    (ctx_hash : String) (entry : CacheEntry) (now : Rat) : Caching String :=
  if now < entry.expires_at then do
    count fun stats => { stats with hits := stats.hits + 1 }
    pure entry.cache_id
  else do
    evicted
    delete_safe entry.cache_id
    manager.create system_prompt static_context ctx_hash

def get_or_create (manager : ContextCacheManager) (system_prompt : PyVal)
    (static_context : String) : Caching String := do
  let ctx_hash := manager.hash system_prompt static_context
  let self ← Proc.locals
  match self.store.lookup ctx_hash with
  | none => manager.create system_prompt static_context ctx_hash
  | some entry => do
    let now ← Proc.invoke .time .ok
    manager.reuse system_prompt static_context ctx_hash entry now

/-- The provider was asked to create a remote cache. -/
def creates_cache : (o : CacheOp) → CacheAns o → Bool
  | .create_context_cache _ _ _, _ => true
  | _, _ => false

def Creates (calls : CacheCalls) : Prop := calls.any (fun ev => creates_cache ev.op ev.ans) = true

/-- There is an entry for the context, and it has not expired at the time that is read first. -/
def Live (manager : ContextCacheManager) (self : CacheState) (system_prompt : PyVal)
    (static_context : String) (calls : CacheCalls) : Prop :=
  ∃ entry now rest, self.store.lookup (manager.hash system_prompt static_context) = some entry ∧
    calls = ⟨(), .time, now, ()⟩ :: rest ∧ now < entry.expires_at

section Creates

variable {α κ : Type} {manager : ContextCacheManager} {self : CacheState} {system_prompt : PyVal}
  {static_context ctx_hash : String} {f : CacheState → κ} {R : PyExc → Prop} {x : Bool}

/-- A question other than the creation of a cache. -/
def Local (o : CacheOp) : Prop := ∀ a, creates_cache o a = false

theorem delete_safe_local {cache_id : String} :
    Proc.Within (fun _ _ => True) Local f R (delete_safe cache_id) :=
  .attempt (.invoke (fun _ => rfl) fun _ _ _ _ => trivial) fun _ _ => .pure ()

theorem count_local {g : CacheStats → CacheStats} :
    Proc.Within (fun _ _ => True) Local (fun _ => ()) R (count g) :=
  .assign fun _ => rfl

theorem evict_oldest_local :
    Proc.Within (fun _ _ => True) Local (fun _ => ()) R evict_oldest := by
  refine .bind .locals fun self => ?_
  cases self.store.argmin fun e => e.2.expires_at with
  | none => exact .pure ()
  | some oldest =>
    exact .bind (.assign fun _ => rfl) fun _ => .bind delete_safe_local fun _ => count_local

/-- A part of the manager from the flag `x` on, which ends with a cache created. -/
abbrev Flags (x : Bool) (m : Caching α) : Prop :=
  Proc.Monitors (flagging creates_cache) (fun _ _ => True) x (fun _ y => y = true)
    (fun _ y => y = true) m

theorem flags_local {β : Type} {m : Caching β} {k : β → Caching α}
    (hm : Proc.Within (fun _ _ => True) Local f (fun _ => False) m) (hk : ∀ b, Flags x (k b)) :
    Flags x (m >>= k) :=
  hm.monitors_bind (fun _ _ => trivial) (fun _ a h => flagging_false (h a)) (fun _ h => h.elim) hk

theorem create_flags : Flags x (manager.create system_prompt static_context ctx_hash) := by
  have hroom : Proc.Within (fun _ _ => True) Local (fun _ => ()) (fun _ => False)
      manager.make_room :=
    .bind .locals fun _ => .ite (fun _ => evict_oldest_local) fun _ => .pure ()
  refine flags_local hroom fun _ => flags_local count_local fun _ =>
    .bind (W := fun _ y => y = true) ?_ fun cache_id y hy => ?_
  · exact .invoke trivial (fun _ _ _ => Bool.or_true x) fun _ _ _ => Bool.or_true x
  · subst hy
    exact flags_local (f := id) (.invoke (fun _ => rfl) fun _ _ _ h => by cases h) fun now =>
      flags_local (f := fun _ => ()) (.assign fun _ => rfl) fun _ => .pure rfl

theorem creates_nil : ¬Creates [] := by
  simp [Creates]

theorem creates_time {s s' : Unit} {now : Rat} {calls : CacheCalls} :
    Creates (⟨s, .time, now, s'⟩ :: calls) ↔ Creates calls := by
  simp only [Creates, List.any_cons, creates_cache, Bool.false_or]

/-- A part that ends with a cache created has created it when it ends. -/
theorem creates_of_flags {m : Caching α} (hm : Flags false m) {calls : CacheCalls}
    {r : Except PyExc α × CacheState} (h : Path (m self) calls (.ret r)) : Creates calls := by
  have hend := h.monitored (hm self)
  rw [watch_flagging, Bool.false_or] at hend
  obtain ⟨e | a, l⟩ := r
  · exact hend
  · exact hend

/-- A call creates a remote cache unless it finds a live entry. -/
theorem get_or_create_creates_iff {calls : CacheCalls} {r : Except PyExc String × CacheState}
    (h : Path (manager.get_or_create system_prompt static_context self) calls (.ret r)) :
    Creates calls ↔ ¬manager.Live self system_prompt static_context calls := by
  generalize hhash : manager.hash system_prompt static_context = ctx_hash
  have hcall : manager.get_or_create system_prompt static_context self =
      (match self.store.lookup ctx_hash with
        | none => manager.create system_prompt static_context ctx_hash self
        | some entry => .call .time fun now =>
          manager.reuse system_prompt static_context ctx_hash entry now self) := by
    subst hhash
    unfold get_or_create
    cases hentry : self.store.lookup (manager.hash system_prompt static_context) <;>
      simp only [bind, Proc.locals, Prog.bind, hentry, Proc.invoke]
  rw [hcall] at h
  unfold Live
  rw [hhash]
  cases hentry : self.store.lookup ctx_hash with
  | none =>
    rw [hentry] at h
    simp [creates_of_flags create_flags h]
  | some entry =>
    rw [hentry] at h
    cases h with
    | @call _ _ _ _ now rest _ hrest =>
      have hreuse : Path (manager.reuse system_prompt static_context ctx_hash entry now self) rest
        (.ret r) := hrest
      by_cases hnow : now < entry.expires_at
      · simp only [reuse, if_pos hnow] at hreuse
        obtain ⟨rfl, -⟩ := hreuse.ret_inv
        simp [creates_time, creates_nil, hnow]
      · simp only [reuse, if_neg hnow] at hreuse
        have hflags : Flags false (do
            evicted
            delete_safe entry.cache_id
            manager.create system_prompt static_context ctx_hash) :=
          flags_local count_local fun _ => flags_local (f := id) delete_safe_local fun _ =>
            create_flags
        have hcreates := creates_of_flags hflags hreuse
        simp [creates_time, hcreates, hnow]

end Creates

end ContextCacheManager

end Nitpicker
