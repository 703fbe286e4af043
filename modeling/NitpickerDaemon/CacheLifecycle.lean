import NitpickerDaemon.ContextCache

/-!
Runs of the context cache manager against a provider that never gives an id twice: which ids are
handed out, and which are deleted.
-/

set_option autoImplicit false

namespace Nitpicker

open Effect

/-- The last reading of the clock, the remote caches with the texts they were created for, and
the ids that were passed to `delete_context_cache`. -/
structure Remote where
  clock : Rat
  created : List (String × PyVal × String) := []
  deleted : List String := []

/-- The clock does not go back; a new cache has a fresh id; creating and deleting may fail. -/
def Remote.step : Surroundings Remote CacheOp CacheAns := fun remote o a remote' =>
  match o, a with
  | .time, now => remote.clock ≤ now ∧ remote' = { remote with clock := now }
  | .create_context_cache system_prompt static_context _, .ok id =>
    id ∉ remote.created.map Prod.fst ∧ remote' = { remote with
      created := remote.created ++ [(id, system_prompt, static_context)] }
  | .create_context_cache _ _ _, .error _ => remote' = remote
  | .delete_context_cache id, _ => remote' = { remote with deleted := remote.deleted ++ [id] }

namespace ContextCacheManager

variable (manager : ContextCacheManager)

/-- `f"{system_prompt}\x00{static_context}"` -/
def combined (system_prompt : PyVal) (static_context : String) : String :=
  (match system_prompt with
    | .str s => s
    | value => manager.format value) ++ "\x00" ++ static_context

theorem hash_combined (system_prompt : PyVal) (static_context : String) :
    manager.hash system_prompt static_context =
      manager.sha256 (manager.combined system_prompt static_context) := rfl

/-- The loop that deletes the entries taken out of the store. -/
def retire : List CacheEntry → Caching Unit
  | [] => pure ()
  | entry :: entries => do
    delete_safe entry.cache_id
    evicted
    retire entries

def invalidate (system_prompt : PyVal) (static_context : String) : Caching Bool := do
  let ctx_hash := manager.hash system_prompt static_context
  let self ← Proc.locals
  Proc.assign fun self => { self with store := self.store.filter fun e => e.1 ≠ ctx_hash }
  match self.store.lookup ctx_hash with
  | none => pure false
  | some entry => do
    retire [entry]
    pure true

def cleanup_expired : Caching Nat := do
  let now ← Proc.invoke .time .ok
  let self ← Proc.locals
  let expired := (self.store.filter fun e => e.2.expires_at ≤ now).map Prod.snd
  Proc.assign fun self => { self with
    store := self.store.filter fun e => ¬e.2.expires_at ≤ now }
  retire expired
  pure expired.length

def clear_all : Caching Nat := do
  let self ← Proc.locals
  let all_entries := self.store.map Prod.snd
  Proc.assign fun self => { self with store := [] }
  retire all_entries
  pure all_entries.length

end ContextCacheManager

inductive CacheCall where
  | get_or_create (system_prompt : PyVal) (static_context : String)
  | invalidate (system_prompt : PyVal) (static_context : String)
  | cleanup_expired
  | clear_all

inductive CacheResult where
  | cache_id (id : String)
  | removed (any : Bool)
  | count (n : Nat)

def ContextCacheManager.perform (manager : ContextCacheManager) : CacheCall → Caching CacheResult
  | .get_or_create system_prompt static_context => do
    let id ← manager.get_or_create system_prompt static_context
    pure (.cache_id id)
  | .invalidate system_prompt static_context => do
    let any ← manager.invalidate system_prompt static_context
    pure (.removed any)
  | .cleanup_expired => do
    let n ← ContextCacheManager.cleanup_expired
    pure (.count n)
  | .clear_all => do
    let n ← ContextCacheManager.clear_all
    pure (.count n)

/-- One call of a run: the state it started from, what it asked, and how it ended. -/
structure CacheStep where
  call : CacheCall
  self : CacheState
  remote : Remote
  asked : List (Event Remote CacheOp CacheAns)
  result : Except PyExc CacheResult

/-- The calls of a manager, one after the other. -/
inductive CacheRun (manager : ContextCacheManager) : List CacheStep → CacheState → Remote → Prop where
  | start (clock : Rat) : CacheRun manager [] {} { clock := clock }
  | call {steps : List CacheStep} {self self' : CacheState} {remote remote' : Remote}
      {c : CacheCall} {asked : List (Event Remote CacheOp CacheAns)}
      {result : Except PyExc CacheResult} : CacheRun manager steps self remote →
      Steps Remote.step remote (manager.perform c self) asked remote' (.ret (result, self')) →
      CacheRun manager (steps ++ [⟨c, self, remote, asked, result⟩]) self' remote'

namespace ContextCacheManager

variable (manager : ContextCacheManager)

/-- The entry that `_evict_oldest` takes out. -/
def oldest (store : List (String × CacheEntry)) : Option (String × CacheEntry) :=
  store.argmin fun e => e.2.expires_at

/-- What a miss takes out of the store to make room. -/
def surplus (store : List (String × CacheEntry)) : Option (String × CacheEntry) :=
  if store.length ≥ manager.max_entries then oldest store else none

/-- The entries that a miss deletes: the expired one of the key, and the oldest of a full store. -/
def victims (store : List (String × CacheEntry)) (ctx_hash : String) : List CacheEntry :=
  (store.lookup ctx_hash).toList ++ ((manager.surplus store).map Prod.snd).toList

/-- The store that a miss leaves. -/
def kept (store : List (String × CacheEntry)) : List (String × CacheEntry) :=
  match manager.surplus store with
  | none => store
  | some (oldest_key, _) => store.filter fun e => e.1 ≠ oldest_key

end ContextCacheManager

def CacheState.evicting (self : CacheState) (n : Nat) : CacheState :=
  { self with stats := { self.stats with evictions := self.stats.evictions + n } }

def Remote.deleting (remote : Remote) (entries : List CacheEntry) : Remote :=
  { remote with deleted := remote.deleted ++ entries.map CacheEntry.cache_id }

/-- What a call asked of the clock and of the provider, with the answers. -/
abbrev RemoteCalls := List (Event Remote CacheOp CacheAns)

def clock_reading (ev : Event Remote CacheOp CacheAns) : Option Rat :=
  match ev.op, ev.ans with
  | .time, now => some now
  | _, _ => none

def first_reading (asked : RemoteCalls) : Option Rat := asked.findSome? clock_reading

def refusal (ev : Event Remote CacheOp CacheAns) : Bool :=
  match ev.op, ev.ans with
  | .create_context_cache _ _ _, .error _ => true
  | _, _ => false

/-- The provider failed to create a cache. -/
def refused (asked : RemoteCalls) : Bool := asked.any refusal

section Ends

variable {α β : Type}

/-- However `m` ends, `Q` holds of what it asked, of its result and of what it leaves. -/
def Ends (m : Caching α) (self : CacheState) (remote : Remote)
    (Q : RemoteCalls → Except PyExc α → CacheState → Remote → Prop) : Prop :=
  Proc.wp Remote.step m (fun a self remote asked => Q asked (.ok a) self remote)
    (fun e self remote asked => Q asked (.error e) self remote) self remote []

variable {self : CacheState} {remote : Remote}
  {Q Q' : RemoteCalls → Except PyExc α → CacheState → Remote → Prop}

theorem Ends.sound {m : Caching α} (h : Ends m self remote Q) {self' : CacheState}
    {remote' : Remote} {asked : RemoteCalls} {r : Except PyExc α}
    (hr : Steps Remote.step remote (m self) asked remote' (.ret (r, self'))) :
    Q asked r self' remote' := by
  have hend := Proc.wp_sound h hr
  cases r <;> exact hend

theorem Ends.mono {m : Caching α} (h : Ends m self remote Q)
    (hQ : ∀ asked r self remote, Q asked r self remote → Q' asked r self remote) :
    Ends m self remote Q' :=
  Proc.wp_mono (fun _ _ _ _ h => hQ _ _ _ _ h) (fun _ _ _ _ h => hQ _ _ _ _ h) h

theorem Ends.bind {m : Caching β} {k : β → Caching α}
    (h : Ends m self remote fun asked r self remote => match r with
      | .ok b => Ends (k b) self remote fun rest => Q (asked ++ rest)
      | .error e => Q asked (.error e) self remote) : Ends (m >>= k) self remote Q := by
  unfold Ends
  rw [Proc.wp_bind]
  refine Proc.wp_mono (fun b self remote asked hk => ?_) (fun _ _ _ _ h => h) h
  have hrest := (@Proc.wp_trace _ _ _ _ _ _ Remote.step
    (fun a self remote asked => Q asked (.ok a) self remote)
    (fun e self remote asked => Q asked (.error e) self remote) self remote asked (k b) []).mpr hk
  rwa [List.append_nil] at hrest

theorem Ends.pure {a : α} (h : Q [] (.ok a) self remote) :
    Ends (Pure.pure a : Caching α) self remote Q :=
  h

/-- The state as the rest of a part sees it. -/
theorem Ends.read {k : CacheState → Caching α} (h : Ends (k self) self remote Q) :
    Ends (Proc.locals >>= k) self remote Q :=
  .bind h

theorem Ends.assign {f : CacheState → CacheState} {k : Unit → Caching α}
    (h : Ends (k ()) (f self) remote Q) : Ends (Proc.assign f >>= k) self remote Q :=
  .bind h

/-- A reading of the clock. -/
theorem Ends.time {k : Rat → Caching α}
    (h : ∀ now, remote.clock ≤ now → Ends (k now) self { remote with clock := now } fun rest =>
      Q (⟨remote, .time, now, { remote with clock := now }⟩ :: rest)) :
    Ends (Proc.invoke .time .ok >>= k) self remote Q := by
  refine .bind ((Proc.wp_invoke _ _).mpr ?_)
  rintro now remote' ⟨hnow, rfl⟩
  exact h now hnow

theorem Ends.delete {cache_id : String} {k : Unit → Caching α}
    (h : ∀ a, Ends (k ()) self { remote with deleted := remote.deleted ++ [cache_id] } fun rest =>
      Q (⟨remote, .delete_context_cache cache_id, a,
        { remote with deleted := remote.deleted ++ [cache_id] }⟩ :: rest)) :
    Ends (ContextCacheManager.delete_safe cache_id >>= k) self remote Q := by
  refine .bind ((Proc.wp_attempt _ _).mpr ((Proc.wp_invoke _ _).mpr ?_))
  rintro a remote' rfl
  cases a with
  | ok u => exact h (.ok u)
  | error e => exact h (.error e)

/-- The entries are deleted in order, and each is counted. -/
theorem Ends.retire {entries : List CacheEntry}
    {Q : RemoteCalls → Except PyExc Unit → CacheState → Remote → Prop}
    (h : ∀ asked, Q asked (.ok ()) (self.evicting entries.length) (remote.deleting entries)) :
    Ends (ContextCacheManager.retire entries) self remote Q := by
  induction entries generalizing self remote Q with
  | nil =>
    refine .pure ?_
    simpa [CacheState.evicting, Remote.deleting] using h []
  | cons entry entries ih =>
    refine .delete fun a => .assign (ih fun asked => ?_)
    have hself : { self with stats := { self.stats with
        evictions := self.stats.evictions + 1 } : CacheState }.evicting entries.length =
        self.evicting (entries.length + 1) := by
      simp only [CacheState.evicting]
      rw [Nat.add_assoc, Nat.add_comm 1]
    have hall := h (⟨remote, .delete_context_cache entry.cache_id, a,
      { remote with deleted := remote.deleted ++ [entry.cache_id] }⟩ :: asked)
    simpa [hself, Remote.deleting] using hall

end Ends

section Cases

variable {manager : ContextCacheManager} {self self' : CacheState} {remote remote' : Remote}
  {system_prompt : PyVal} {static_context ctx_hash : String}

namespace ContextCacheManager

/-- The state after a hit. -/
def hit (self : CacheState) : CacheState :=
  { self with stats := { self.stats with hits := self.stats.hits + 1 } }

/-- The state after the first section of a miss. -/
def missed (manager : ContextCacheManager) (self : CacheState) (ctx_hash : String) : CacheState where
  store := manager.kept self.store
  stats := { self.stats with
    misses := self.stats.misses + 1
    evictions := self.stats.evictions + (manager.victims self.store ctx_hash).length }

/-- The entry for a cache created with the given id. -/
def new_entry (manager : ContextCacheManager) (ctx_hash cache_id : String) (now : Rat) :
    CacheEntry where
  cache_id := cache_id
  context_hash := ctx_hash
  provider_name := manager.provider_name
  expires_at := now + manager.ttl

theorem make_room_ends {Q : RemoteCalls → Except PyExc Unit → CacheState → Remote → Prop}
    (h : ∀ asked, refused asked = false →
      Q asked (.ok ()) ({ self with store := manager.kept self.store }.evicting
        ((manager.surplus self.store).map Prod.snd).toList.length)
        (remote.deleting ((manager.surplus self.store).map Prod.snd).toList)) :
    Ends manager.make_room self remote Q := by
  have hnone : manager.surplus self.store = none → Q [] (.ok ()) self remote := by
    intro hs
    simpa [kept, hs, CacheState.evicting, Remote.deleting] using h [] rfl
  refine .read ?_
  split
  · rename_i hfull
    have hs : manager.surplus self.store = oldest self.store := if_pos hfull
    refine .read ?_
    cases ho : self.store.argmin fun e => e.2.expires_at with
    | none => exact .pure (hnone (hs.trans ho))
    | some e =>
      obtain ⟨oldest_key, entry⟩ := e
      refine .assign (.delete fun a => ?_)
      rw [oldest, ho] at hs
      simp only [kept, hs, CacheState.evicting, Remote.deleting] at h
      exact h _ rfl
  · rename_i hroom
    exact .pure (hnone (if_neg hroom))

/-- What is left of the locked section of `get_or_create` without an entry to reuse. -/
def turn_away (manager : ContextCacheManager) : Caching (Option String) := do
  manager.make_room
  count fun stats => { stats with misses := stats.misses + 1 }
  pure none

/-- The part of the locked section after the entry of the context was found and the clock read. -/
def admit_entry (manager : ContextCacheManager) (entry : CacheEntry) (now : Rat) :
    Caching (Option String) :=
  if now < entry.expires_at then do
    count fun stats => { stats with hits := stats.hits + 1 }
    pure (some entry.cache_id)
  else do
    evicted
    delete_safe entry.cache_id
    manager.turn_away

/-- The first locked section of `get_or_create`, with the id it returns if there is one. -/
def consult (manager : ContextCacheManager) (system_prompt : PyVal) (static_context : String) :
    Caching (Option String) := do
  let self ← Proc.locals
  match self.store.lookup (manager.hash system_prompt static_context) with
  | none => manager.turn_away
  | some entry => do
    let now ← Proc.invoke .time .ok
    manager.admit_entry entry now

/-- The part of `get_or_create` outside the lock. -/
def fetch (manager : ContextCacheManager) (system_prompt : PyVal) (static_context : String) :
    Caching CacheEntry := do
  let cache_id ← Proc.invoke (.create_context_cache system_prompt static_context manager.ttl) id
  let now ← Proc.invoke .time .ok
  pure (manager.new_entry (manager.hash system_prompt static_context) cache_id now)

/-- The second locked section of `get_or_create`. -/
def insert (ctx_hash : String) (entry : CacheEntry) : Caching Unit :=
  Proc.assign fun self => { self with store := Dict.set self.store ctx_hash entry }

/-- What `get_or_create` does after its first section. -/
def after_admission (manager : ContextCacheManager) (system_prompt : PyVal)
    (static_context : String) : Option String → Caching String
  | some cache_id => pure cache_id
  | none => do
    let entry ← manager.fetch system_prompt static_context
    insert (manager.hash system_prompt static_context) entry
    pure entry.cache_id

theorem create_sections : manager.create system_prompt static_context
    (manager.hash system_prompt static_context) =
      manager.turn_away >>= manager.after_admission system_prompt static_context := by
  have hafter : (pure none : Caching (Option String)) >>=
      manager.after_admission system_prompt static_context =
      manager.after_admission system_prompt static_context none := rfl
  simp only [create, turn_away, Proc.bind_assoc, hafter]
  simp only [after_admission, fetch, Proc.bind_assoc]
  rfl

theorem reuse_sections (entry : CacheEntry) (now : Rat) :
    manager.reuse system_prompt static_context (manager.hash system_prompt static_context)
      entry now =
      manager.admit_entry entry now >>= manager.after_admission system_prompt static_context := by
  unfold reuse admit_entry
  split
  · rfl
  · simp only [create_sections, Proc.bind_assoc]

theorem get_or_create_sections : manager.get_or_create system_prompt static_context =
    manager.consult system_prompt static_context >>=
      manager.after_admission system_prompt static_context := by
  unfold get_or_create consult
  rw [Proc.bind_assoc]
  refine congrArg (Proc.locals >>= ·) (funext fun self => ?_)
  cases self.store.lookup (manager.hash system_prompt static_context) with
  | none => exact create_sections
  | some entry => simp only [reuse_sections, Proc.bind_assoc]

theorem turn_away_ends {Q : RemoteCalls → Except PyExc (Option String) → CacheState → Remote → Prop}
    (h : ∀ asked, refused asked = false →
      Q asked (.ok none) { store := manager.kept self.store, stats := { self.stats with
          misses := self.stats.misses + 1
          evictions := self.stats.evictions +
            ((manager.surplus self.store).map Prod.snd).toList.length } }
        (remote.deleting ((manager.surplus self.store).map Prod.snd).toList)) :
    Ends manager.turn_away self remote Q :=
  .bind (make_room_ends fun asked hasked => .assign (.pure (by
    rw [List.append_nil]
    exact h asked hasked)))

end ContextCacheManager

open ContextCacheManager in
/-- How the first section of `get_or_create` can end. -/
inductive Admitted (manager : ContextCacheManager) (ctx_hash : String) (self : CacheState)
    (remote : Remote) :
    RemoteCalls → Except PyExc (Option String) → CacheState → Remote → Prop where
  | hit {entry : CacheEntry} {now : Rat} {asked : RemoteCalls} :
      self.store.lookup ctx_hash = some entry → remote.clock ≤ now → now < entry.expires_at →
      first_reading asked = some now → refused asked = false →
      Admitted manager ctx_hash self remote asked (.ok (some entry.cache_id)) (hit self)
        { remote with clock := now }
  | miss {now : Rat} {asked : RemoteCalls} : remote.clock ≤ now →
      (∀ entry, self.store.lookup ctx_hash = some entry →
        entry.expires_at ≤ now ∧ first_reading asked = some now) → refused asked = false →
      Admitted manager ctx_hash self remote asked (.ok none) (manager.missed self ctx_hash)
        ({ remote with clock := now }.deleting (manager.victims self.store ctx_hash))

namespace ContextCacheManager

theorem consult_ends : Ends (manager.consult system_prompt static_context) self remote
    (Admitted manager (manager.hash system_prompt static_context) self remote) := by
  refine .read ?_
  cases hentry : self.store.lookup (manager.hash system_prompt static_context) with
  | none =>
    refine turn_away_ends fun asked hasked => ?_
    have hmiss := @Admitted.miss manager (manager.hash system_prompt static_context) self remote
      remote.clock asked le_rfl (by simp [hentry]) hasked
    simpa [missed, victims, hentry, CacheState.evicting, Remote.deleting] using hmiss
  | some entry =>
    refine .time fun now hnow => ?_
    unfold admit_entry
    split
    · rename_i hlive
      exact .assign (.pure (.hit hentry hnow hlive rfl rfl))
    · rename_i hexpired
      refine .assign (.delete fun a => turn_away_ends fun asked hasked => ?_)
      have hmiss := @Admitted.miss manager (manager.hash system_prompt static_context) self remote
        now (⟨remote, .time, now, { remote with clock := now }⟩ ::
          ⟨{ remote with clock := now }, .delete_context_cache entry.cache_id, a,
            { remote with clock := now, deleted := remote.deleted ++ [entry.cache_id] }⟩ :: asked)
        hnow (fun e he => by
          obtain rfl : entry = e := Option.some.inj (hentry.symm.trans he)
          exact ⟨not_lt.mp hexpired, rfl⟩) hasked
      simpa [missed, victims, hentry, CacheState.evicting, Remote.deleting, Nat.add_assoc,
        Nat.add_comm] using hmiss

end ContextCacheManager

open ContextCacheManager in
/-- What a call can do to the store and to the remote caches. -/
inductive Performed (manager : ContextCacheManager) (self : CacheState) (remote : Remote) :
    CacheCall → RemoteCalls → Except PyExc CacheResult → CacheState → Remote → Prop where
  | hit {p : PyVal} {c : String} {entry : CacheEntry} {now : Rat} {asked : RemoteCalls} :
      self.store.lookup (manager.hash p c) = some entry → remote.clock ≤ now →
      now < entry.expires_at → first_reading asked = some now → refused asked = false →
      Performed manager self remote (.get_or_create p c) asked (.ok (.cache_id entry.cache_id))
        (hit self) { remote with clock := now }
  | failed {p : PyVal} {c : String} {now : Rat} {asked : RemoteCalls} {e : PyExc} :
      remote.clock ≤ now →
      (∀ entry, self.store.lookup (manager.hash p c) = some entry →
        entry.expires_at ≤ now ∧ first_reading asked = some now) → refused asked = true →
      Performed manager self remote (.get_or_create p c) asked (.error e)
        (manager.missed self (manager.hash p c))
        ({ remote with clock := now }.deleting (manager.victims self.store (manager.hash p c)))
  | made {p : PyVal} {c id : String} {now later : Rat} {asked : RemoteCalls} :
      remote.clock ≤ now → now ≤ later →
      (∀ entry, self.store.lookup (manager.hash p c) = some entry →
        entry.expires_at ≤ now ∧ first_reading asked = some now) → refused asked = false →
      id ∉ remote.created.map Prod.fst →
      Performed manager self remote (.get_or_create p c) asked (.ok (.cache_id id))
        { manager.missed self (manager.hash p c) with
          store := Dict.set (manager.kept self.store) (manager.hash p c)
            (manager.new_entry (manager.hash p c) id later) }
        ({ remote with clock := later, created := remote.created ++ [(id, p, c)] }.deleting
          (manager.victims self.store (manager.hash p c)))
  | purge {call : CacheCall} {now : Rat} {asked : RemoteCalls} {result : CacheResult}
      {out : String × CacheEntry → Bool} :
      (∀ p c, call ≠ .get_or_create p c) → (call = .clear_all → ∀ e, out e = true) →
      remote.clock ≤ now →
      Performed manager self remote call asked (.ok result)
        ({ self with store := self.store.filter fun e => !out e }.evicting
          ((self.store.filter out).map Prod.snd).length)
        ({ remote with clock := now }.deleting ((self.store.filter out).map Prod.snd))

namespace ContextCacheManager

theorem first_reading_append {now : Rat} {asked rest : RemoteCalls}
    (h : first_reading asked = some now) : first_reading (asked ++ rest) = some now := by
  unfold first_reading at h ⊢
  rw [List.findSome?_append, h, Option.some_or]

theorem refused_append {asked rest : RemoteCalls} (h : refused asked = false) :
    refused (asked ++ rest) = refused rest := by
  unfold refused at h ⊢
  rw [List.any_append, h, Bool.false_or]

theorem get_or_create_ends : Ends (manager.get_or_create system_prompt static_context) self remote
    fun asked r => Performed manager self remote (.get_or_create system_prompt static_context) asked
      (r.map .cache_id) := by
  rw [get_or_create_sections]
  refine .bind (consult_ends.mono fun asked r self' remote' h => ?_)
  cases h with
  | @hit entry now _ hentry hnow hlive hread hrefused =>
    refine .pure ?_
    simp only [List.append_nil]
    exact .hit hentry hnow hlive hread hrefused
  | @miss now _ hnow hexpired hrefused =>
    have hexpired' : ∀ rest entry, self.store.lookup
        (manager.hash system_prompt static_context) = some entry →
        entry.expires_at ≤ now ∧ first_reading (asked ++ rest) = some now := fun rest entry he =>
      ⟨(hexpired entry he).1, first_reading_append (hexpired entry he).2⟩
    refine .bind (.bind ((Proc.wp_invoke _ _).mpr ?_))
    rintro (e | id) remote₁ hstep
    · obtain rfl := hstep
      refine .failed hnow (hexpired' _) ?_
      rw [refused_append hrefused]
      rfl
    · obtain ⟨hfresh, rfl⟩ := hstep
      refine .time fun later hlater => .pure (.assign (.pure ?_))
      refine .made hnow hlater ?_ ?_ hfresh
      · simp only [List.append_nil]
        exact hexpired' _
      · simp only [List.append_nil]
        rw [refused_append hrefused]
        rfl

/-- The entries for which `out` holds are taken out and deleted. -/
theorem purge_ends {call : CacheCall} {result : CacheResult} {now : Rat} {asked : RemoteCalls}
    {store : List (String × CacheEntry)} {entries : List CacheEntry}
    (out : String × CacheEntry → Bool) (hcall : ∀ p c, call ≠ .get_or_create p c)
    (hclear : call = .clear_all → ∀ e, out e = true) (hnow : remote.clock ≤ now)
    (hstore : store = self.store.filter fun e => !out e)
    (hentries : entries = (self.store.filter out).map Prod.snd) :
    Ends (retire entries >>= fun _ => pure result) { self with store := store }
      { remote with clock := now } fun rest => Performed manager self remote call (asked ++ rest) := by
  subst hstore
  subst hentries
  exact .bind (.retire fun _ => .pure (.purge hcall hclear hnow))

theorem invalidate_ends (hk : Dict.Keyed self.store) :
    Ends (manager.perform (.invalidate system_prompt static_context)) self remote
      (Performed manager self remote (.invalidate system_prompt static_context)) := by
  simp only [perform, invalidate, Proc.bind_assoc]
  have hpurge := fun result => @purge_ends manager self remote
    (.invalidate system_prompt static_context) (.removed result) remote.clock []
    (self.store.filter fun e => e.1 ≠ manager.hash system_prompt static_context)
    (self.store.lookup (manager.hash system_prompt static_context)).toList
    (fun e => e.1 = manager.hash system_prompt static_context)
    (fun _ _ h => by cases h) (fun h => by cases h) le_rfl (by simp) (hk.filter_key _).symm
  refine .read (.assign ?_)
  cases hentry : self.store.lookup (manager.hash system_prompt static_context) with
  | none =>
    rw [hentry] at hpurge
    exact hpurge false
  | some entry =>
    rw [hentry] at hpurge
    simp only [Proc.bind_assoc]
    exact hpurge true

theorem perform_ends (hk : Dict.Keyed self.store) (call : CacheCall) :
    Ends (manager.perform call) self remote (Performed manager self remote call) := by
  cases call with
  | get_or_create p c =>
    refine .bind (get_or_create_ends.mono fun asked r self' remote' h => ?_)
    cases r with
    | ok id =>
      refine .pure ?_
      rw [List.append_nil]
      exact h
    | error e => exact h
  | invalidate p c => exact invalidate_ends hk
  | cleanup_expired =>
    simp only [perform, cleanup_expired, Proc.bind_assoc]
    refine .time fun now hnow => .read (.assign ?_)
    exact @purge_ends manager self remote .cleanup_expired _ now
      [⟨remote, .time, now, { remote with clock := now }⟩] _ _ (fun e => e.2.expires_at ≤ now)
      (fun _ _ h => by cases h) (fun h => by cases h) hnow (List.filter_congr fun e _ => decide_not)
      rfl
  | clear_all =>
    simp only [perform, clear_all, Proc.bind_assoc]
    refine .read (.assign ?_)
    exact @purge_ends manager self remote .clear_all _ remote.clock [] _ _ (fun _ => true)
      (fun _ _ h => by cases h) (fun _ _ => rfl) le_rfl (by simp) (by simp)

theorem surplus_mem {store : List (String × CacheEntry)} {e : String × CacheEntry}
    (h : manager.surplus store = some e) : e ∈ store := by
  unfold surplus at h
  split at h
  · exact List.argmin_mem h
  · cases h

theorem kept_sublist (store : List (String × CacheEntry)) : (manager.kept store).Sublist store := by
  unfold kept
  split
  · exact .refl store
  · exact List.filter_sublist

theorem kept_keyed {store : List (String × CacheEntry)} (h : Dict.Keyed store) :
    Dict.Keyed (manager.kept store) :=
  h.sublist ((kept_sublist store).map Prod.fst)

theorem victims_mem {store : List (String × CacheEntry)} {entry : CacheEntry}
    (h : entry ∈ manager.victims store ctx_hash) : ∃ k, (k, entry) ∈ store := by
  rcases List.mem_append.mp h with h | h
  · rw [Option.mem_toList] at h
    exact ⟨ctx_hash, Dict.mem_of_lookup h⟩
  · rw [Option.mem_toList, Option.map_eq_some_iff] at h
    obtain ⟨⟨k, v⟩, hs, rfl⟩ := h
    exact ⟨k, surplus_mem hs⟩

/-- An entry stays or is deleted. -/
theorem mem_kept {store : List (String × CacheEntry)} (hk : Dict.Keyed store)
    {e : String × CacheEntry} (h : e ∈ store) :
    e ∈ manager.kept store ∨ manager.surplus store = some e := by
  unfold kept
  cases hs : manager.surplus store with
  | none => exact .inl h
  | some e₀ =>
    obtain ⟨k, v⟩ := e
    obtain ⟨k₀, v₀⟩ := e₀
    by_cases hkey : k = k₀
    · subst hkey
      have hv := (hk.lookup h).symm.trans (hk.lookup (surplus_mem hs))
      rw [Option.some.inj hv]
      exact .inr rfl
    · exact .inl (List.mem_filter.mpr ⟨h, by simpa using hkey⟩)

/-- A miss finds or makes room for one more entry. -/
theorem kept_length {store : List (String × CacheEntry)} (hpos : 1 ≤ manager.max_entries)
    (hlen : store.length ≤ manager.max_entries) :
    (manager.kept store).length < manager.max_entries := by
  have hle := (@kept_sublist manager store).length_le
  by_cases hfull : store.length ≥ manager.max_entries
  · have hs : manager.surplus store = oldest store := if_pos hfull
    cases ho : oldest store with
    | none =>
      rw [oldest, List.argmin_eq_none] at ho
      subst ho
      simp only [List.length_nil] at hfull
      omega
    | some e =>
      have hmem := surplus_mem (hs.trans ho)
      have hlt : (store.filter fun x => x.1 ≠ e.1).length < store.length := by
        refine List.length_filter_lt_length_iff_exists.mpr ⟨e, hmem, by simp⟩
      simp only [kept, hs, ho]
      omega
  · omega

end ContextCacheManager

/-- What holds between two calls. -/
structure CacheInvariant (manager : ContextCacheManager) (state : CacheState) (remote : Remote) :
    Prop where
  keyed : Dict.Keyed state.store
  bound : state.store.length ≤ manager.max_entries
  distinct : ∀ e ∈ state.store, ∀ e' ∈ state.store, e.2.cache_id = e'.2.cache_id → e = e'
  made : ∀ e ∈ state.store, ∃ p c, (e.2.cache_id, p, c) ∈ remote.created ∧ e.1 = manager.hash p c
  deleted : ∀ id ∈ remote.deleted, id ∈ remote.created.map Prod.fst
  stale : ∀ e ∈ state.store, e.2.cache_id ∈ remote.deleted → e.2.expires_at ≤ remote.clock

open ContextCacheManager

namespace CacheInvariant

theorem start (clock : Rat) : CacheInvariant manager {} { clock := clock } where
  keyed := Dict.keyed_nil
  bound := Nat.zero_le _
  distinct := by simp
  made := by simp
  deleted := by simp
  stale := by simp

/-- Entries leave the store and are deleted; one that is deleted and stays has expired. -/
theorem shrink (h : CacheInvariant manager self remote) {store : List (String × CacheEntry)}
    {entries : List CacheEntry} {now : Rat} (stats : CacheStats) (hsub : store.Sublist self.store)
    (hnow : remote.clock ≤ now) (hmem : ∀ entry ∈ entries, ∃ k, (k, entry) ∈ self.store)
    (hleft : ∀ e ∈ store, e.2 ∈ entries → e.2.expires_at ≤ now) :
    CacheInvariant manager ⟨store, stats⟩ ({ remote with clock := now }.deleting entries) where
  keyed := h.keyed.sublist (hsub.map Prod.fst)
  bound := hsub.length_le.trans h.bound
  distinct e he e' he' := h.distinct e (hsub.subset he) e' (hsub.subset he')
  made e he := h.made e (hsub.subset he)
  deleted id hid := by
    rcases List.mem_append.mp hid with hid | hid
    · exact h.deleted id hid
    · obtain ⟨entry, hentry, rfl⟩ := List.mem_map.mp hid
      obtain ⟨k, hk⟩ := hmem entry hentry
      obtain ⟨p, c, hcreated, -⟩ := h.made _ hk
      exact List.mem_map.mpr ⟨_, hcreated, rfl⟩
  stale e he hid := by
    rcases List.mem_append.mp hid with hid | hid
    · exact (h.stale e (hsub.subset he) hid).trans hnow
    · obtain ⟨entry, hentry, hsame⟩ := List.mem_map.mp hid
      obtain ⟨k, hk⟩ := hmem entry hentry
      have heq := h.distinct _ hk e (hsub.subset he) hsame
      subst heq
      exact hleft _ he hentry

/-- An entry for a fresh id takes the place of its key. -/
theorem insert (h : CacheInvariant manager self remote) {p : PyVal} {c id : String} {later : Rat}
    (hroom : self.store.length < manager.max_entries) (hlater : remote.clock ≤ later)
    (hfresh : id ∉ remote.created.map Prod.fst) :
    CacheInvariant manager { self with
        store := Dict.set self.store (manager.hash p c)
          (manager.new_entry (manager.hash p c) id later) }
      { remote with clock := later, created := remote.created ++ [(id, p, c)] } where
  keyed := h.keyed.set _ _
  bound := by
    rw [Dict.length_set]
    split <;> omega
  distinct e he e' he' hid := by
    have hold : ∀ x ∈ self.store, x.2.cache_id ≠ id := by
      intro x hx heq
      obtain ⟨p', c', hcreated, -⟩ := h.made x hx
      exact hfresh (List.mem_map.mpr ⟨_, hcreated, heq⟩)
    rcases h.keyed.mem_set.mp he with rfl | ⟨he, -⟩ <;>
      rcases h.keyed.mem_set.mp he' with rfl | ⟨he', -⟩
    · rfl
    · exact absurd hid.symm (hold e' he')
    · exact absurd hid (hold e he)
    · exact h.distinct e he e' he' hid
  made e he := by
    rcases h.keyed.mem_set.mp he with rfl | ⟨he, -⟩
    · exact ⟨p, c, List.mem_append_right _ (List.mem_singleton.mpr rfl), rfl⟩
    · obtain ⟨p', c', hcreated, hkey⟩ := h.made e he
      exact ⟨p', c', List.mem_append_left _ hcreated, hkey⟩
  deleted id' hid := by
    rw [List.map_append]
    exact List.mem_append_left _ (h.deleted id' hid)
  stale e he hid := by
    rcases h.keyed.mem_set.mp he with rfl | ⟨he, -⟩
    · exact absurd (h.deleted _ hid) hfresh
    · exact (h.stale e he hid).trans hlater

/-- What a miss leaves, before a cache is created. -/
theorem missed (h : CacheInvariant manager self remote) {now : Rat} (hnow : remote.clock ≤ now)
    (hexpired : ∀ entry, self.store.lookup ctx_hash = some entry → entry.expires_at ≤ now) :
    CacheInvariant manager (manager.missed self ctx_hash)
      ({ remote with clock := now }.deleting (manager.victims self.store ctx_hash)) := by
  refine h.shrink _ (kept_sublist _) hnow (fun entry he => victims_mem he) fun e he hv => ?_
  rcases List.mem_append.mp hv with hv | hv
  · exact hexpired _ (Option.mem_toList.mp hv)
  · rw [Option.mem_toList, Option.map_eq_some_iff] at hv
    obtain ⟨e₀, hs, heq⟩ := hv
    have hsame := h.distinct e₀ (surplus_mem hs) e ((kept_sublist _).subset he) (by rw [heq])
    subst hsame
    simp [kept, hs] at he

/-- Every call keeps the invariant. -/
theorem performed (h : CacheInvariant manager self remote) (hpos : 1 ≤ manager.max_entries)
    {call : CacheCall} {asked : RemoteCalls} {result : Except PyExc CacheResult}
    (hp : Performed manager self remote call asked result self' remote') :
    CacheInvariant manager self' remote' := by
  cases hp with
  | @hit _ _ _ now _ hentry hnow hlive hread hrefused =>
    have hkeep : CacheInvariant manager (hit self)
        ({ remote with clock := now }.deleting []) :=
      h.shrink _ (.refl _) hnow (by simp) (by simp)
    simpa [Remote.deleting] using hkeep
  | failed hnow hexpired hrefused => exact h.missed hnow fun entry he => (hexpired entry he).1
  | made hnow hlater hexpired hrefused hfresh =>
    have hmiss := h.missed hnow fun entry he => (hexpired entry he).1
    exact hmiss.insert (kept_length hpos h.bound) hlater hfresh
  | @purge _ now _ _ out hcall hclear hnow =>
    refine h.shrink _ List.filter_sublist hnow (fun entry he => ?_) fun e he hout => ?_
    · obtain ⟨x, hx, rfl⟩ := List.mem_map.mp he
      exact ⟨x.1, List.mem_of_mem_filter hx⟩
    · obtain ⟨x, hx, hsame⟩ := List.mem_map.mp hout
      obtain ⟨hx, hxout⟩ := List.mem_filter.mp hx
      obtain ⟨he, heout⟩ := List.mem_filter.mp he
      rw [h.distinct x hx e he (by rw [hsame])] at hxout
      simp [hxout] at heout

end CacheInvariant

theorem CacheRun.invariant {steps : List CacheStep} (h : CacheRun manager steps self remote)
    (hpos : 1 ≤ manager.max_entries) : CacheInvariant manager self remote := by
  induction h with
  | start clock => exact .start clock
  | call _ hr ih => exact ih.performed hpos ((perform_ends ih.keyed _).sound hr)

/-- After any run, the id that the next call returns was not deleted, has not expired at the last
reading of the clock, and was created for the same text; the store is never too large. -/
theorem handed_out_usable {steps : List CacheStep} (hpos : 1 ≤ manager.max_entries)
    (httl : 0 < manager.ttl) (hsha : Function.Injective manager.sha256)
    (h : CacheRun manager steps self remote) :
    self.store.length ≤ manager.max_entries ∧
    ∀ p c asked id self' remote',
      Steps Remote.step remote (manager.get_or_create p c self) asked remote'
        (.ret (.ok id, self')) →
      id ∉ remote'.deleted ∧
      (∃ entry, self'.store.lookup (manager.hash p c) = some entry ∧ entry.cache_id = id ∧
        remote'.clock < entry.expires_at) ∧
      (∃ p' c', (id, p', c') ∈ remote'.created ∧ manager.combined p' c' = manager.combined p c) ∧
      self'.store.length ≤ manager.max_entries := by
  have hinv := h.invariant hpos
  refine ⟨hinv.bound, fun p c asked id self' remote' hr => ?_⟩
  have hp := get_or_create_ends.sound hr
  have hinv' := hinv.performed hpos hp
  cases hp with
  | @hit _ _ entry now _ hentry hnow hlive hread hrefused =>
    have hmem := Dict.mem_of_lookup hentry
    refine ⟨fun hdeleted => ?_, ⟨entry, hentry, rfl, hlive⟩, ?_, hinv'.bound⟩
    · have hstale := hinv'.stale _ hmem hdeleted
      exact absurd hlive (not_lt.mpr hstale)
    · obtain ⟨p', c', hcreated, hkey⟩ := hinv.made _ hmem
      exact ⟨p', c', hcreated, hsha hkey.symm⟩
  | @made _ _ _ now later _ hnow hlater hexpired hrefused hfresh =>
    have hset : (Dict.set (manager.kept self.store) (manager.hash p c)
        (manager.new_entry (manager.hash p c) id later)).lookup (manager.hash p c) =
        some (manager.new_entry (manager.hash p c) id later) := by simp
    have hlive : later < later + (manager.ttl : Rat) := by
      have hpos : (0 : Rat) < manager.ttl := by exact_mod_cast httl
      linarith
    refine ⟨fun hdeleted => ?_, ⟨_, hset, rfl, hlive⟩,
      ⟨p, c, List.mem_append_right _ (List.mem_singleton.mpr rfl), rfl⟩, hinv'.bound⟩
    have hstale := hinv'.stale _ (Dict.mem_of_lookup hset) hdeleted
    exact absurd hlive (not_lt.mpr hstale)
  | purge hcall => exact absurd rfl (hcall p c)

/-- Nothing was deleted twice, and nothing in the store was deleted. -/
structure Clean (store : List (String × CacheEntry)) (deleted : List String) : Prop where
  once : deleted.Nodup
  present : ∀ e ∈ store, e.2.cache_id ∉ deleted

/-- The call finds an expired entry, and evicts it once more to make room or fails to create
another. -/
def CacheStep.Stumbles (manager : ContextCacheManager) (step : CacheStep) : Prop :=
  ∃ p c entry now, step.call = .get_or_create p c ∧
    step.self.store.lookup (manager.hash p c) = some entry ∧
    first_reading step.asked = some now ∧ entry.expires_at ≤ now ∧
    (manager.surplus step.self.store = some (manager.hash p c, entry) ∨ refused step.asked = true)

namespace CacheInvariant

variable {store : List (String × CacheEntry)} {entries : List CacheEntry} {deleted : List String}

theorem same_key (h : CacheInvariant manager self remote) {k k' : String} {entry entry' : CacheEntry}
    (he : (k, entry) ∈ self.store) (he' : (k', entry') ∈ self.store)
    (hid : entry.cache_id = entry'.cache_id) : k = k' ∧ entry = entry' :=
  Prod.mk.inj (h.distinct _ he _ he' hid)

theorem remove (h : CacheInvariant manager self remote) (hc : Clean self.store deleted)
    (hmem : ∀ entry ∈ entries, ∃ k, (k, entry) ∈ self.store) (hnodup : entries.Nodup)
    (hsub : store.Sublist self.store) (hgone : ∀ e ∈ store, e.2 ∉ entries) :
    Clean store (deleted ++ entries.map CacheEntry.cache_id) where
  once := by
    refine List.Nodup.append hc.once (hnodup.map_on fun a ha b hb hid => ?_) fun id hid hid' => ?_
    · obtain ⟨k, hk⟩ := hmem a ha
      obtain ⟨k', hk'⟩ := hmem b hb
      exact (h.same_key hk hk' hid).2
    · obtain ⟨entry, hentry, rfl⟩ := List.mem_map.mp hid'
      obtain ⟨k, hk⟩ := hmem entry hentry
      exact hc.present _ hk hid
  present e he hid := by
    rcases List.mem_append.mp hid with hid | hid
    · exact hc.present e (hsub.subset he) hid
    · obtain ⟨entry, hentry, hsame⟩ := List.mem_map.mp hid
      obtain ⟨k, hk⟩ := hmem entry hentry
      have heq := h.distinct _ hk e (hsub.subset he) hsame
      subst heq
      exact hgone _ he hentry

/-- What was not clean stays so when every entry that leaves is deleted. -/
theorem unclean (hleft : ∀ e ∈ self.store, e ∈ store ∨ e.2 ∈ entries)
    (hc : Clean store (deleted ++ entries.map CacheEntry.cache_id)) : Clean self.store deleted where
  once := (List.nodup_append.mp hc.once).1
  present e he hid := by
    rcases hleft e he with hstay | hgone
    · exact hc.present e hstay (List.mem_append_left _ hid)
    · exact (List.nodup_append.mp hc.once).2.2 _ hid _ (List.mem_map.mpr ⟨_, hgone, rfl⟩) rfl

theorem victims_twice {entry : CacheEntry}
    (hentry : self.store.lookup ctx_hash = some entry)
    (hs : manager.surplus self.store = some (ctx_hash, entry)) :
    ¬(deleted ++ (manager.victims self.store ctx_hash).map CacheEntry.cache_id).Nodup := by
  intro hnodup
  have hvictims := (List.nodup_append.mp hnodup).2.1
  simp [victims, hentry, hs] at hvictims

theorem victims_nodup (h : CacheInvariant manager self remote)
    (hs : ∀ entry, self.store.lookup ctx_hash = some entry →
      manager.surplus self.store ≠ some (ctx_hash, entry)) :
    (manager.victims self.store ctx_hash).Nodup := by
  unfold victims
  cases hentry : self.store.lookup ctx_hash with
  | none => cases manager.surplus self.store <;> simp
  | some entry =>
    cases hsurplus : manager.surplus self.store with
    | none => simp
    | some e =>
      have hne : entry ≠ e.2 := by
        intro heq
        obtain ⟨k, v⟩ := e
        obtain rfl : entry = v := heq
        have hkey := (h.same_key (Dict.mem_of_lookup hentry) (surplus_mem hsurplus) rfl).1
        rw [← hkey] at hsurplus
        exact hs entry hentry hsurplus
      simpa using hne

/-- Every entry that a miss takes out, or finds under its key, is deleted. -/
theorem missed_leaves (h : CacheInvariant manager self remote) (e : String × CacheEntry)
    (he : e ∈ self.store) : (e ∈ manager.kept self.store ∧ e.1 ≠ ctx_hash) ∨
      e.2 ∈ manager.victims self.store ctx_hash := by
  by_cases hkey : e.1 = ctx_hash
  · obtain ⟨k, v⟩ := e
    subst hkey
    exact .inr (List.mem_append_left _ (Option.mem_toList.mpr (h.keyed.lookup he)))
  · rcases mem_kept h.keyed he with hkept | hs
    · exact .inl ⟨hkept, hkey⟩
    · exact .inr (List.mem_append_right _ (by simp [hs]))

theorem kept_not_victim (h : CacheInvariant manager self remote) {e : String × CacheEntry}
    (he : e ∈ manager.kept self.store) (hkey : e.1 ≠ ctx_hash) :
    e.2 ∉ manager.victims self.store ctx_hash := by
  have hmem := (kept_sublist self.store).subset he
  intro hv
  rcases List.mem_append.mp hv with hv | hv
  · have hentry := Dict.mem_of_lookup (Option.mem_toList.mp hv)
    exact hkey (h.same_key hmem hentry rfl).1
  · rw [Option.mem_toList, Option.map_eq_some_iff] at hv
    obtain ⟨e₀, hs, heq⟩ := hv
    have hsame := h.distinct e₀ (surplus_mem hs) e hmem (by rw [heq])
    subst hsame
    simp [kept, hs] at he

/-- A call leaves things clean exactly if they were so and it does not stumble. -/
theorem clean_iff (h : CacheInvariant manager self remote) {call : CacheCall} {asked : RemoteCalls}
    {result : Except PyExc CacheResult}
    (hp : Performed manager self remote call asked result self' remote') :
    Clean self'.store remote'.deleted ↔ Clean self.store remote.deleted ∧
      ¬CacheStep.Stumbles manager ⟨call, self, remote, asked, result⟩ := by
  cases hp with
  | hit hentry hnow hlive hread hrefused =>
    constructor
    · intro hc
      refine ⟨hc, ?_⟩
      rintro ⟨p, c, entry, now, hcall, hentry', hread', hexpired, -⟩
      cases hcall
      rw [hentry] at hentry'
      cases hentry'
      rw [hread] at hread'
      cases hread'
      exact absurd hlive (not_lt.mpr hexpired)
    · intro hc
      exact hc.1
  | @failed p c now _ e hnow hexpired hrefused =>
    constructor
    · intro hc
      refine ⟨unclean (fun x hx => (h.missed_leaves x hx).imp_left And.left) hc, ?_⟩
      rintro ⟨p', c', entry, now', hcall, hentry, -⟩
      cases hcall
      have hdeleted : entry.cache_id ∈ remote.deleted ++
          (manager.victims self.store (manager.hash p c)).map CacheEntry.cache_id := by
        simp [victims, hentry]
      rcases mem_kept h.keyed (Dict.mem_of_lookup hentry) with hkept | hs
      · exact hc.present _ hkept hdeleted
      · exact victims_twice hentry hs hc.once
    · rintro ⟨hc, hsteady⟩
      have hnone : self.store.lookup (manager.hash p c) = none := by
        by_contra hsome
        obtain ⟨entry, hentry⟩ := Option.ne_none_iff_exists'.mp hsome
        exact hsteady ⟨p, c, entry, now, rfl, hentry, (hexpired entry hentry).2,
          (hexpired entry hentry).1, .inr hrefused⟩
      refine h.remove hc (fun entry he => victims_mem he) (h.victims_nodup (by simp [hnone]))
        (kept_sublist _) fun x hx => h.kept_not_victim hx fun hkey => ?_
      rw [List.lookup_eq_none_iff] at hnone
      simpa [hkey] using hnone x ((kept_sublist _).subset hx)
  | @made p c id now later _ hnow hlater hexpired hrefused hfresh =>
    have hkeyed : Dict.Keyed (manager.kept _) := kept_keyed h.keyed
    constructor
    · intro hc
      refine ⟨unclean (fun x hx => (h.missed_leaves x hx).imp_left fun hx =>
        hkeyed.mem_set.mpr (.inr hx)) hc, ?_⟩
      rintro ⟨p', c', entry, now', hcall, hentry, -, -, hs | hs⟩
      · cases hcall
        exact victims_twice hentry hs hc.once
      · rw [hrefused] at hs
        cases hs
    · rintro ⟨hc, hsteady⟩
      have hrest : Clean ((manager.kept self.store).filter fun e => e.1 ≠ manager.hash p c)
          (remote.deleted ++
            (manager.victims self.store (manager.hash p c)).map CacheEntry.cache_id) := by
        refine h.remove hc (fun entry he => victims_mem he) (h.victims_nodup fun entry hentry hs =>
          hsteady ⟨p, c, entry, now, rfl, hentry, (hexpired entry hentry).2,
            (hexpired entry hentry).1, .inl hs⟩)
          (List.filter_sublist.trans (kept_sublist _)) fun x hx => ?_
        obtain ⟨hx, hkey⟩ := List.mem_filter.mp hx
        exact h.kept_not_victim hx (by simpa using hkey)
      have hmiss := h.missed hnow fun entry he => (hexpired entry he).1
      refine ⟨hrest.once, fun x hx hid => ?_⟩
      rcases hkeyed.mem_set.mp hx with rfl | ⟨hx, hkey⟩
      · exact hfresh (hmiss.deleted _ hid)
      · exact hrest.present x (List.mem_filter.mpr ⟨hx, by simpa using hkey⟩) hid
  | @purge _ now _ _ out hcall hclear hnow =>
    constructor
    · intro hc
      refine ⟨unclean (fun x hx => ?_) hc, ?_⟩
      · cases hout : out x with
        | false => exact .inl (List.mem_filter.mpr ⟨hx, by simp [hout]⟩)
        | true => exact .inr (List.mem_map.mpr ⟨x, List.mem_filter.mpr ⟨hx, hout⟩, rfl⟩)
      · rintro ⟨p, c, -, -, hget, -⟩
        exact hcall p c hget
    · rintro ⟨hc, -⟩
      have hstore : self.store.Nodup := .of_map _ h.keyed
      refine h.remove hc (fun entry he => ?_) (.map_on (fun x hx y hy hxy => ?_)
        (hstore.filter _)) List.filter_sublist fun x hx hentry => ?_
      · obtain ⟨x, hx, rfl⟩ := List.mem_map.mp he
        exact ⟨x.1, List.mem_of_mem_filter hx⟩
      · exact h.distinct x (List.mem_of_mem_filter hx) y (List.mem_of_mem_filter hy) (by rw [hxy])
      · obtain ⟨y, hy, hxy⟩ := List.mem_map.mp hentry
        obtain ⟨hx, hin⟩ := List.mem_filter.mp hx
        obtain ⟨hy, hout⟩ := List.mem_filter.mp hy
        rw [h.distinct y hy x hx (by rw [hxy])] at hout
        simp [hout] at hin

end CacheInvariant

def CacheCall.gets : CacheCall → Bool
  | .get_or_create _ _ => true
  | _ => false

/-- The books of a run: its calls are counted, and so are its deletions, and a cache that was
created is in the store unless it was deleted. -/
structure Booked (steps : List CacheStep) (state : CacheState) (remote : Remote) : Prop where
  calls : state.stats.hits + state.stats.misses = steps.countP fun step => step.call.gets
  evictions : state.stats.evictions = remote.deleted.length
  present : ∀ id ∈ remote.created.map Prod.fst,
    id ∈ remote.deleted ∨ ∃ e ∈ state.store, e.2.cache_id = id

namespace Booked

variable {steps : List CacheStep} {call : CacheCall} {asked : RemoteCalls}
  {result : Except PyExc CacheResult}

theorem gets_snoc (steps : List CacheStep) {step : CacheStep} {b : Bool}
    (h : step.call.gets = b) : (steps ++ [step]).countP (fun s => s.call.gets) =
      steps.countP (fun s => s.call.gets) + b.toNat := by
  cases b <;> simp [List.countP_append, h]

/-- What was there before is still there, or deleted. -/
theorem keeps (h : Booked steps self remote) {store : List (String × CacheEntry)}
    {entries : List CacheEntry} (hleft : ∀ e ∈ self.store, e ∈ store ∨ e.2 ∈ entries) (id : String)
    (hid : id ∈ remote.created.map Prod.fst) :
    id ∈ remote.deleted ++ entries.map CacheEntry.cache_id ∨ ∃ e ∈ store, e.2.cache_id = id := by
  rcases h.present id hid with hdeleted | ⟨e, he, heq⟩
  · exact .inl (List.mem_append_left _ hdeleted)
  · rcases hleft e he with hstay | hgone
    · exact .inr ⟨e, hstay, heq⟩
    · exact .inl (List.mem_append_right _ (List.mem_map.mpr ⟨_, hgone, heq⟩))

theorem performed (h : Booked steps self remote) (hinv : CacheInvariant manager self remote)
    (hp : Performed manager self remote call asked result self' remote') :
    Booked (steps ++ [⟨call, self, remote, asked, result⟩]) self' remote' := by
  have hcalls := h.calls
  have hevictions := h.evictions
  cases hp with
  | hit hentry hnow hlive hread hrefused =>
    refine ⟨?_, hevictions, h.present⟩
    rw [gets_snoc (b := true) steps rfl, Bool.toNat_true]
    simp only [hit]
    omega
  | failed hnow hexpired hrefused =>
    refine ⟨?_, ?_, h.keeps fun e he => (hinv.missed_leaves e he).imp_left And.left⟩
    · rw [gets_snoc (b := true) steps rfl, Bool.toNat_true]
      simp only [missed]
      omega
    · simp only [missed, Remote.deleting, List.length_append, List.length_map]
      omega
  | @made p c id now later _ hnow hlater hexpired hrefused hfresh =>
    have hkeyed : Dict.Keyed (manager.kept _) := kept_keyed hinv.keyed
    refine ⟨?_, ?_, fun id' hid => ?_⟩
    · rw [gets_snoc (b := true) steps rfl, Bool.toNat_true]
      simp only [missed]
      omega
    · simp only [missed, Remote.deleting, List.length_append, List.length_map]
      omega
    · simp only [Remote.deleting, List.map_append, List.map_cons, List.map_nil, List.mem_append,
        List.mem_singleton] at hid
      rcases hid with hid | rfl
      · exact h.keeps (fun e he => (hinv.missed_leaves e he).imp_left fun he =>
          hkeyed.mem_set.mpr (.inr he)) id' hid
      · exact .inr ⟨_, hkeyed.mem_set.mpr (.inl rfl), rfl⟩
  | @purge _ now _ _ out hcall hclear hnow =>
    have hgets : call.gets = false := by
      cases call with
      | get_or_create p c => exact absurd rfl (hcall p c)
      | _ => rfl
    refine ⟨?_, ?_, h.keeps fun e he => ?_⟩
    · rw [gets_snoc steps hgets]
      exact hcalls
    · simp only [CacheState.evicting, Remote.deleting, List.length_append, List.length_map]
      omega
    · cases hout : out e with
      | false => exact .inl (List.mem_filter.mpr ⟨he, by simp [hout]⟩)
      | true => exact .inr (List.mem_map.mpr ⟨e, List.mem_filter.mpr ⟨he, hout⟩, rfl⟩)

end Booked

theorem CacheRun.booked {steps : List CacheStep} (h : CacheRun manager steps self remote)
    (hpos : 1 ≤ manager.max_entries) : Booked steps self remote := by
  induction h with
  | start clock => exact ⟨rfl, rfl, by simp⟩
  | call h hr ih =>
    have hinv := h.invariant hpos
    exact ih.performed hinv ((perform_ends hinv.keyed _).sound hr)

theorem CacheRun.clean_iff {steps : List CacheStep} (h : CacheRun manager steps self remote)
    (hpos : 1 ≤ manager.max_entries) : Clean self.store remote.deleted ↔
      ∀ step ∈ steps, ¬step.Stumbles manager := by
  induction h with
  | start clock => simp [Clean.mk]
  | call h hr ih =>
    have hinv := h.invariant hpos
    rw [hinv.clean_iff ((perform_ends hinv.keyed _).sound hr), ih]
    simp [or_imp, forall_and]

/-- The accounts of a run are exact. -/
structure Exact (steps : List CacheStep) (state : CacheState) (remote : Remote) : Prop where
  calls : state.stats.hits + state.stats.misses = steps.countP fun step => step.call.gets
  once : ∀ id, remote.deleted.count id ≤ 1
  evictions : state.stats.evictions = remote.deleted.toFinset.card
  cleared : ∀ before step, steps = before ++ [step] → step.call = .clear_all →
    ∀ id ∈ remote.created.map Prod.fst, id ∈ remote.deleted

theorem CacheRun.cleared {before : List CacheStep} {step : CacheStep}
    (h : CacheRun manager (before ++ [step]) self remote) (hpos : 1 ≤ manager.max_entries)
    (hclear : step.call = .clear_all) : self.store = [] := by
  generalize hsteps : before ++ [step] = steps at h
  cases h with
  | start clock => simp at hsteps
  | call h hr =>
    obtain ⟨-, heq⟩ := List.append_inj' hsteps rfl
    cases heq
    obtain rfl := hclear
    have hp := (perform_ends (h.invariant hpos).keyed _).sound hr
    cases hp with
    | purge hcall hall hnow =>
      have hout := hall rfl
      simp [CacheState.evicting, hout]

theorem CacheRun.exact_iff {steps : List CacheStep} (h : CacheRun manager steps self remote)
    (hpos : 1 ≤ manager.max_entries) : Exact steps self remote ↔ remote.deleted.Nodup := by
  have hbooked := h.booked hpos
  constructor
  · intro hexact
    exact List.nodup_iff_count_le_one.mpr hexact.once
  · intro hnodup
    refine ⟨hbooked.calls, List.nodup_iff_count_le_one.mp hnodup, ?_, ?_⟩
    · rw [hbooked.evictions, List.toFinset_card_of_nodup hnodup]
    · rintro before step rfl hclear id hid
      rcases hbooked.present id hid with hdeleted | ⟨e, he, -⟩
      · exact hdeleted
      · rw [h.cleared hpos hclear] at he
        cases he

/-- The accounts are exact in every run of which no call stumbles, and in no other once everything
is cleared. -/
theorem accounting_exact_iff {steps : List CacheStep} (hpos : 1 ≤ manager.max_entries)
    (h : CacheRun manager steps self remote) :
    ((∀ step ∈ steps, ¬step.Stumbles manager) → Exact steps self remote) ∧
    ∀ before step, steps = before ++ [step] → step.call = .clear_all →
      (Exact steps self remote ↔ ∀ step ∈ steps, ¬step.Stumbles manager) := by
  have hclean := h.clean_iff hpos
  have hexact := h.exact_iff hpos
  refine ⟨fun hsteady => hexact.mpr (hclean.mpr hsteady).once, ?_⟩
  rintro before step rfl hclear
  have hempty := h.cleared hpos hclear
  rw [hexact, ← hclean]
  exact ⟨fun hnodup => ⟨hnodup, by simp [hempty]⟩, fun hc => hc.once⟩

end Cases

section Samples

def next_id (remote : Remote) : String :=
  if remote.created = [] then "mock-cache-0123456789ab" else "mock-cache-ba9876543210"

/-- A provider whose clock goes on by `tick` at every reading. -/
def mock_answer (tick : Nat) (remote : Remote) : (o : CacheOp) → CacheAns o × Remote
  | .time => (remote.clock + tick, { remote with clock := remote.clock + tick })
  | .create_context_cache system_prompt static_context _ =>
    if next_id remote ∈ remote.created.map Prod.fst then
      (.error ⟨"RuntimeError", [], "quota"⟩, remote)
    else (.ok (next_id remote), { remote with
      created := remote.created ++ [(next_id remote, system_prompt, static_context)] })
  | .delete_context_cache id => (.ok (), { remote with deleted := remote.deleted ++ [id] })

theorem mock_answer_step (tick : Nat) (remote : Remote) (o : CacheOp) :
    Remote.step remote o (mock_answer tick remote o).1 (mock_answer tick remote o).2 := by
  cases o with
  | time =>
    refine ⟨?_, rfl⟩
    have hle : remote.clock ≤ remote.clock + tick := by simp
    exact hle
  | create_context_cache p c ttl =>
    simp only [mock_answer]
    split
    · rfl
    · rename_i hfresh
      exact ⟨hfresh, rfl⟩
  | delete_context_cache id => rfl

def ContextCacheManager.play {α : Type} (m : Caching α) (tick : Nat) (self : CacheState)
    (remote : Remote) : RemoteCalls × Remote × Prog CacheOp CacheAns (Except PyExc α × CacheState) :=
  (m self).run_for (mock_answer tick) 8 remote

theorem ContextCacheManager.play_steps {α : Type} (m : Caching α) (tick : Nat)
    {self self' : CacheState} {remote : Remote} {r : Except PyExc α}
    (h : (ContextCacheManager.play m tick self remote).2.2 = .ret (r, self')) :
    Steps Remote.step remote (m self) (ContextCacheManager.play m tick self remote).1
      (ContextCacheManager.play m tick self remote).2.1 (.ret (r, self')) := by
  rw [← h]
  exact Prog.run_for_steps (mock_answer_step tick) 8 _ remote

def contextDigest : String := "437bae2cd141b1fc991a3450412496a653b5ba70693cc7cc1403c9536e7e0af2"

/-- `contextDigest` is the digest of the text of `contextCall`. -/
def mockManager (ttl : Int) : ContextCacheManager where
  provider_name := "mock"
  ttl := ttl
  max_entries := 1
  sha256 := Equiv.swap "sys\x00ctx" contextDigest
  format _ := ""

def contextCall : CacheCall := .get_or_create (.str "sys") "ctx"

def firstId : String := "mock-cache-0123456789ab"

def firstState (ttl : Int) : CacheState where
  store := [(contextDigest, (mockManager ttl).new_entry contextDigest firstId 10)]
  stats := { misses := 1 }

def firstRemote : Remote := ⟨10, [(firstId, .str "sys", "ctx")], []⟩

theorem first_call (ttl : Int) : ∃ asked, CacheRun (mockManager ttl)
    [⟨contextCall, {}, ⟨0, [], []⟩, asked, .ok (.cache_id firstId)⟩] (firstState ttl)
    firstRemote := by
  have hend : (ContextCacheManager.play ((mockManager ttl).perform contextCall) 10 {}
      ⟨0, [], []⟩).2.2 = .ret (.ok (.cache_id firstId), firstState ttl) := by
    with_unfolding_all rfl
  have hremote : (ContextCacheManager.play ((mockManager ttl).perform contextCall) 10 {}
      ⟨0, [], []⟩).2.1 = firstRemote := by with_unfolding_all rfl
  have hplay := ContextCacheManager.play_steps _ 10 hend
  rw [hremote] at hplay
  exact ⟨_, (CacheRun.start 0).call hplay⟩

/-- The second call for the same text is handed the id of the first. -/
theorem handed_out_sample : ∃ steps asked self' remote',
    CacheRun (mockManager 3600) steps (firstState 3600) firstRemote ∧ steps.length = 1 ∧
    Steps Remote.step firstRemote
      ((mockManager 3600).get_or_create (.str "sys") "ctx" (firstState 3600)) asked remote'
      (.ret (.ok firstId, self')) ∧
    self'.stats.hits = 1 ∧ firstId ∉ remote'.deleted := by
  obtain ⟨asked, hrun⟩ := first_call 3600
  have hend : ∃ self', (ContextCacheManager.play ((mockManager 3600).get_or_create (.str "sys")
      "ctx") 10 (firstState 3600) firstRemote).2.2 = .ret (.ok firstId, self') ∧
      self'.stats.hits = 1 := ⟨_, by with_unfolding_all rfl, rfl⟩
  obtain ⟨self', hend, hhits⟩ := hend
  have hnext := ContextCacheManager.play_steps _ 10 hend
  have husable := (handed_out_usable (by decide) (by decide) (Equiv.injective _) hrun).2 _ _ _ _ _ _
    hnext
  exact ⟨_, _, _, _, hrun, rfl, hnext, hhits, husable.1⟩

/-- A cache is created and cleared. -/
theorem accounting_sample : ∃ steps self remote, CacheRun (mockManager 3600) steps self remote ∧
    steps.map CacheStep.call = [contextCall, .clear_all] ∧ Exact steps self remote := by
  obtain ⟨asked, hfirst⟩ := first_call 3600
  have hrun := hfirst.call (ContextCacheManager.play_steps
    ((mockManager 3600).perform .clear_all) 10 rfl)
  refine ⟨_, _, _, hrun, rfl, (accounting_exact_iff (by decide) hrun).1 ?_⟩
  intro step hstep
  simp only [List.cons_append, List.nil_append, List.mem_cons, List.not_mem_nil, or_false] at hstep
  rintro ⟨p, c, entry, now, hcall, hentry, -⟩
  rcases hstep with rfl | rfl
  · cases hentry
  · cases hcall

/-- The second call finds the entry of the first expired, and deletes its cache twice. -/
theorem deleted_twice : ∃ steps self remote, CacheRun (mockManager 5) steps self remote ∧
    steps.map CacheStep.call = [contextCall, contextCall] ∧
    remote.deleted = [firstId, firstId] ∧ self.stats.evictions = 2 ∧
    ¬Exact steps self remote := by
  obtain ⟨asked, hfirst⟩ := first_call 5
  have hend : ∃ self', (ContextCacheManager.play ((mockManager 5).perform contextCall) 10
      (firstState 5) firstRemote).2.2 = .ret (.ok (.cache_id "mock-cache-ba9876543210"), self') ∧
      self'.stats.evictions = 2 := ⟨_, by with_unfolding_all rfl, rfl⟩
  have hdeleted : (ContextCacheManager.play ((mockManager 5).perform contextCall) 10
      (firstState 5) firstRemote).2.1.deleted = [firstId, firstId] := by with_unfolding_all rfl
  obtain ⟨self', hend, hevictions⟩ := hend
  have hrun := hfirst.call (ContextCacheManager.play_steps _ 10 hend)
  refine ⟨_, _, _, hrun, rfl, hdeleted, hevictions, fun hexact => ?_⟩
  have hcount := hexact.once firstId
  rw [hdeleted] at hcount
  simp at hcount

end Samples

end Nitpicker
