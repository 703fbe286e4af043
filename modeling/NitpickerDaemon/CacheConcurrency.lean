import NitpickerDaemon.CacheLifecycle

/-!
Calls of `get_or_create` that overlap: each runs its locked sections alone, and asks the provider
between them.
-/

set_option autoImplicit false

namespace Nitpicker

open Effect

/-- A call that missed: it has no cache yet, it has one, or it has an entry for the store. -/
inductive Flight where
  | missed (system_prompt : PyVal) (static_context : String)
  | created (system_prompt : PyVal) (static_context : String) (cache_id : String)
  | ready (system_prompt : PyVal) (static_context : String) (entry : CacheEntry)

def Flight.key (manager : ContextCacheManager) : Flight → String
  | .missed p c => manager.hash p c
  | .created p c _ => manager.hash p c
  | .ready p c _ => manager.hash p c

def Flight.cache_id : Flight → Option String
  | .missed _ _ => none
  | .created _ _ id => some id
  | .ready _ _ entry => some entry.cache_id

/-- The manager, its provider, and the calls between their two sections. -/
structure CacheWorld where
  self : CacheState
  remote : Remote
  flights : List Flight

namespace CacheWorld

def start (clock : Rat) : CacheWorld := ⟨{}, { clock := clock }, []⟩

/-- One step of one call. -/
inductive Step (manager : ContextCacheManager) : CacheWorld → CacheWorld → Prop where
  | hit {self self' : CacheState} {remote remote' : Remote} {flights : List Flight} {p : PyVal}
      {c id : String} {asked : RemoteCalls} :
      Steps Remote.step remote (manager.consult p c self) asked remote' (.ret (.ok (some id), self')) →
      Step manager ⟨self, remote, flights⟩ ⟨self', remote', flights⟩
  | miss {self self' : CacheState} {remote remote' : Remote} {flights : List Flight} {p : PyVal}
      {c : String} {asked : RemoteCalls} :
      Steps Remote.step remote (manager.consult p c self) asked remote' (.ret (.ok none, self')) →
      Step manager ⟨self, remote, flights⟩ ⟨self', remote', flights ++ [.missed p c]⟩
  | create {self : CacheState} {remote remote' : Remote} {before after : List Flight} {p : PyVal}
      {c id : String} :
      Remote.step remote (.create_context_cache p c manager.ttl) (.ok id) remote' →
      Step manager ⟨self, remote, before ++ .missed p c :: after⟩
        ⟨self, remote', before ++ .created p c id :: after⟩
  | fail {self : CacheState} {remote remote' : Remote} {before after : List Flight} {p : PyVal}
      {c : String} {e : PyExc} :
      Remote.step remote (.create_context_cache p c manager.ttl) (.error e) remote' →
      Step manager ⟨self, remote, before ++ .missed p c :: after⟩ ⟨self, remote', before ++ after⟩
  | read {self : CacheState} {remote remote' : Remote} {before after : List Flight} {p : PyVal}
      {c id : String} {now : Rat} : Remote.step remote .time now remote' →
      Step manager ⟨self, remote, before ++ .created p c id :: after⟩
        ⟨self, remote', before ++ .ready p c (manager.new_entry (manager.hash p c) id now) :: after⟩
  | insert {self self' : CacheState} {remote remote' : Remote} {before after : List Flight}
      {p : PyVal} {c : String} {entry : CacheEntry} {asked : RemoteCalls} :
      Steps Remote.step remote (ContextCacheManager.insert (manager.hash p c) entry self) asked
        remote' (.ret (.ok (), self')) →
      Step manager ⟨self, remote, before ++ .ready p c entry :: after⟩
        ⟨self', remote', before ++ after⟩

/-- Any number of calls, with their steps in any order. -/
inductive Reachable (manager : ContextCacheManager) : CacheWorld → Prop where
  | start (clock : Rat) : Reachable manager (start clock)
  | step {w w' : CacheWorld} : Reachable manager w → Step manager w w' → Reachable manager w'

/-- The contexts that have an entry once room was made, or a call in flight. -/
def contexts (manager : ContextCacheManager) (w : CacheWorld) : List String :=
  (manager.kept w.self.store).map Prod.fst ++ w.flights.map (Flight.key manager)

/-- No call for the context is in flight, and there is room for it beside the others. -/
def Room (manager : ContextCacheManager) (w : CacheWorld) (ctx_hash : String) : Prop :=
  ctx_hash ∉ w.flights.map (Flight.key manager) ∧
    (ctx_hash :: w.contexts manager).toFinset.card ≤ manager.max_entries

/-- Runs in which a call misses only while there is room for its context. -/
inductive Orderly (manager : ContextCacheManager) : CacheWorld → Prop where
  | start (clock : Rat) : Orderly manager (start clock)
  | step {w w' : CacheWorld} : Orderly manager w → Step manager w w' →
      (∀ p c, w'.flights = w.flights ++ [.missed p c] → w.Room manager (manager.hash p c)) →
      Orderly manager w'

/-- What holds in an orderly run. -/
structure Invariant (manager : ContextCacheManager) (w : CacheWorld) : Prop where
  keyed : Dict.Keyed w.self.store
  alone : (w.flights.map (Flight.key manager)).Nodup
  room : (w.self.store.map Prod.fst ++ w.flights.map (Flight.key manager)).toFinset.card ≤
    manager.max_entries
  expired : ∀ f ∈ w.flights, ∀ entry, w.self.store.lookup (f.key manager) = some entry →
    entry.cache_id ∈ w.remote.deleted
  present : ∀ id ∈ w.remote.created.map Prod.fst, id ∈ w.remote.deleted ∨
    (∃ e ∈ w.self.store, e.2.cache_id = id) ∨ ∃ f ∈ w.flights, f.cache_id = some id

section Orderly

open ContextCacheManager

variable {manager : ContextCacheManager} {self self' : CacheState} {remote remote' : Remote}
  {flights before after : List Flight} {p : PyVal} {c id : String} {entry : CacheEntry}
  {asked : RemoteCalls}

namespace Invariant

theorem start (clock : Rat) : Invariant manager (start clock) where
  keyed := Dict.keyed_nil
  alone := List.nodup_nil
  room := Nat.zero_le _
  expired := by simp [CacheWorld.start]
  present := by simp [CacheWorld.start]

theorem hit (h : Invariant manager ⟨self, remote, flights⟩)
    (ha : Admitted manager (manager.hash p c) self remote asked (.ok (some id)) self' remote') :
    Invariant manager ⟨self', remote', flights⟩ := by
  cases ha with
  | hit hentry hnow hlive hread hrefused => exact ⟨h.keyed, h.alone, h.room, h.expired, h.present⟩

theorem miss (h : Invariant manager ⟨self, remote, flights⟩)
    (ha : Admitted manager (manager.hash p c) self remote asked (.ok none) self' remote')
    (hroom : Room manager ⟨self, remote, flights⟩ (manager.hash p c)) :
    Invariant manager ⟨self', remote', flights ++ [.missed p c]⟩ := by
  obtain ⟨halone, hcard⟩ := hroom
  have hkeyed := h.keyed
  cases ha with
  | @miss now _ hnow hexpired hrefused =>
    have hlookup : ∀ k entry, (manager.kept self.store).lookup k = some entry →
        self.store.lookup k = some entry := fun k entry he =>
      hkeyed.lookup ((kept_sublist _).subset (Dict.mem_of_lookup he))
    refine ⟨kept_keyed hkeyed, ?_, ?_, fun f hf entry he => ?_, fun id hid => ?_⟩
    · rw [List.map_append]
      exact List.Nodup.append h.alone (List.nodup_singleton _)
        (List.disjoint_singleton.mpr halone)
    · refine le_trans (Finset.card_le_card fun k hk => ?_) hcard
      simp only [contexts, Flight.key, missed, List.map_append, List.map_cons, List.map_nil,
        List.mem_toFinset, List.mem_append, List.mem_cons, List.not_mem_nil, or_false] at hk ⊢
      tauto
    · rcases List.mem_append.mp hf with hf | hf
      · exact List.mem_append_left _ (h.expired f hf entry (hlookup _ _ he))
      · obtain rfl := List.mem_singleton.mp hf
        have hfound := hlookup _ _ he
        exact List.mem_append_right _ (List.mem_map.mpr
          ⟨entry, List.mem_append_left _ (Option.mem_toList.mpr hfound), rfl⟩)
    · rcases h.present id hid with hdeleted | ⟨e, he, hsame⟩ | ⟨f, hf, hsame⟩
      · exact .inl (List.mem_append_left _ hdeleted)
      · rcases mem_kept hkeyed he with hkept | hs
        · exact .inr (.inl ⟨e, hkept, hsame⟩)
        · refine .inl (List.mem_append_right _ (List.mem_map.mpr ⟨e.2, ?_, hsame⟩))
          simp [victims, hs]
      · exact .inr (.inr ⟨f, List.mem_append_left _ hf, hsame⟩)

/-- A flight goes on; what the provider created for it is with it. -/
theorem fly {f f' : Flight} (h : Invariant manager ⟨self, remote, before ++ f :: after⟩)
    (hkey : f'.key manager = f.key manager) (hdeleted : remote'.deleted = remote.deleted)
    (hcreated : ∀ id ∈ remote'.created.map Prod.fst,
      id ∈ remote.created.map Prod.fst ∨ f'.cache_id = some id)
    (hid : ∀ id, f.cache_id = some id → f'.cache_id = some id) :
    Invariant manager ⟨self, remote', before ++ f' :: after⟩ := by
  have hkeys : (before ++ f' :: after).map (Flight.key manager) =
      (before ++ f :: after).map (Flight.key manager) := by simp [hkey]
  refine ⟨h.keyed, ?_, ?_, fun g hg entry he => ?_, fun id hid' => ?_⟩
  · rw [hkeys]
    exact h.alone
  · rw [hkeys]
    exact h.room
  · rw [hdeleted]
    rcases List.mem_append.mp hg with hg | hg
    · exact h.expired g (List.mem_append_left _ hg) entry he
    · rcases List.mem_cons.mp hg with rfl | hg
      · rw [hkey] at he
        exact h.expired f (by simp) entry he
      · exact h.expired g (by simp [hg]) entry he
  · rw [hdeleted]
    rcases hcreated id hid' with hold | hnew
    · rcases h.present id hold with hdel | hstored | ⟨g, hg, hsame⟩
      · exact .inl hdel
      · exact .inr (.inl hstored)
      · rcases List.mem_append.mp hg with hg | hg
        · exact .inr (.inr ⟨g, List.mem_append_left _ hg, hsame⟩)
        · rcases List.mem_cons.mp hg with rfl | hg
          · exact .inr (.inr ⟨f', by simp, hid id hsame⟩)
          · exact .inr (.inr ⟨g, by simp [hg], hsame⟩)
    · exact .inr (.inr ⟨f', by simp, hnew⟩)

theorem sublist_flights {f : Flight} : (before ++ after).Sublist (before ++ f :: after) :=
  (List.Sublist.refl before).append (List.sublist_cons_self f after)

/-- A flight without a cache is given up. -/
theorem drop {f : Flight} (h : Invariant manager ⟨self, remote, before ++ f :: after⟩)
    (hnone : f.cache_id = none) : Invariant manager ⟨self, remote, before ++ after⟩ where
  keyed := h.keyed
  alone := h.alone.sublist (sublist_flights.map _)
  room := by
    refine le_trans (Finset.card_le_card fun k hk => ?_) h.room
    rw [List.mem_toFinset] at hk ⊢
    exact ((List.Sublist.refl _).append (sublist_flights.map _)).subset hk
  expired g hg := h.expired g (sublist_flights.subset hg)
  present id hid := by
    rcases h.present id hid with hdel | hstored | ⟨g, hg, hsame⟩
    · exact .inl hdel
    · exact .inr (.inl hstored)
    · rcases List.mem_append.mp hg with hg | hg
      · exact .inr (.inr ⟨g, List.mem_append_left _ hg, hsame⟩)
      · rcases List.mem_cons.mp hg with rfl | hg
        · rw [hnone] at hsame
          cases hsame
        · exact .inr (.inr ⟨g, List.mem_append_right _ hg, hsame⟩)

/-- The entry of a flight takes the place of a deleted one, or the room that was left for it. -/
theorem land (h : Invariant manager ⟨self, remote, before ++ .ready p c entry :: after⟩) :
    Invariant manager ⟨{ self with store := Dict.set self.store (manager.hash p c) entry }, remote,
      before ++ after⟩ := by
  have hkeyed := h.keyed
  have halone : ∀ g ∈ before ++ after, g.key manager ≠ manager.hash p c := by
    have hnodup := h.alone
    simp only [List.map_append, List.map_cons] at hnodup
    rw [List.nodup_middle, List.nodup_cons] at hnodup
    intro g hg heq
    refine hnodup.1 ?_
    rw [← List.map_append]
    exact List.mem_map.mpr ⟨g, hg, heq⟩
  refine ⟨hkeyed.set _ _, h.alone.sublist (sublist_flights.map _), ?_, fun g hg e he => ?_,
    fun id hid => ?_⟩
  · refine le_trans (Finset.card_le_card fun k hk => ?_) h.room
    rw [List.mem_toFinset] at hk ⊢
    rcases List.mem_append.mp hk with hk | hk
    · rw [Dict.keys_set] at hk
      split at hk
      · exact List.mem_append_left _ hk
      · rcases List.mem_append.mp hk with hk | hk
        · exact List.mem_append_left _ hk
        · obtain rfl := List.mem_singleton.mp hk
          exact List.mem_append_right _ (List.mem_map.mpr ⟨.ready p c entry, by simp, rfl⟩)
    · exact List.mem_append_right _ ((sublist_flights.map _).subset hk)
  · rw [Dict.lookup_set, if_neg (halone g hg)] at he
    exact h.expired g (sublist_flights.subset hg) e he
  · rcases h.present id hid with hdel | ⟨e, he, hsame⟩ | ⟨g, hg, hsame⟩
    · exact .inl hdel
    · by_cases hkey : e.1 = manager.hash p c
      · have hfound : self.store.lookup (manager.hash p c) = some e.2 := by
          rw [← hkey]
          exact hkeyed.lookup he
        have hdel := h.expired (.ready p c entry) (by simp) e.2 hfound
        rw [hsame] at hdel
        exact .inl hdel
      · exact .inr (.inl ⟨e, hkeyed.mem_set.mpr (.inr ⟨he, hkey⟩), hsame⟩)
    · rcases List.mem_append.mp hg with hg | hg
      · exact .inr (.inr ⟨g, List.mem_append_left _ hg, hsame⟩)
      · rcases List.mem_cons.mp hg with rfl | hg
        · exact .inr (.inl ⟨_, hkeyed.mem_set.mpr (.inl rfl), Option.some.inj hsame⟩)
        · exact .inr (.inr ⟨g, List.mem_append_right _ hg, hsame⟩)

theorem step {w w' : CacheWorld} (h : Invariant manager w) (hs : Step manager w w')
    (hroom : ∀ p c, w'.flights = w.flights ++ [.missed p c] →
      w.Room manager (manager.hash p c)) : Invariant manager w' := by
  cases hs with
  | hit hr => exact h.hit (consult_ends.sound hr)
  | @miss _ _ _ _ flights p c _ hr => exact h.miss (consult_ends.sound hr) (hroom p c rfl)
  | create hr =>
    obtain ⟨-, rfl⟩ := hr
    refine h.fly rfl rfl (fun id hid => ?_) fun id hid => by cases hid
    simp only [List.map_append, List.map_cons, List.map_nil, List.mem_append,
      List.mem_singleton] at hid
    exact hid.imp_right fun hid => by rw [hid]; rfl
  | fail hr =>
    obtain rfl := hr
    exact h.drop rfl
  | read hr =>
    obtain ⟨-, rfl⟩ := hr
    exact h.fly rfl rfl (fun id hid => .inl hid) fun id hid => hid
  | insert hr =>
    unfold ContextCacheManager.insert Proc.assign at hr
    cases hr
    exact h.land

end Invariant

end Orderly

section Samples

end Samples

end CacheWorld

end Nitpicker
