import PxxlEdge.Lib.Map
import PxxlEdge.Lib.Run
import PxxlEdge.Lib.Text

/-!
The cache of query results.  A map holds the results, and a list the keys in the order in which
they came in, from the front of which keys are evicted.  Reading a result that has expired takes it
out of the map, but leaves its key in the list.
-/

namespace PxxlEdge

open RustStd Run List

def clickhouseReadCacheTtl : ℕ := 30 * 1000000000

def clickhouseReadCacheMaxEntries : ℕ := 256

structure QueryCacheEntry (ρ : Type) where
  createdAt : ℕ
  rows : List ρ

structure QueryCache (ρ : Type) where
  entries : Map Text (QueryCacheEntry ρ) := ∅
  order : List Text := []

namespace QueryCache

variable {ρ : Type}

def Expired (now : ℕ) (entry : QueryCacheEntry ρ) : Prop :=
  clickhouseReadCacheTtl < now - entry.createdAt

instance (now : ℕ) (entry : QueryCacheEntry ρ) : Decidable (Expired now entry) :=
  inferInstanceAs (Decidable (_ < _))

def get (cache : QueryCache ρ) (now : ℕ) (key : Text) : Option (List ρ) × QueryCache ρ :=
  match cache.entries.lookup key with
  | none => (none, cache)
  | some entry =>
    if Expired now entry then (none, { cache with entries := cache.entries.erase key })
    else (some entry.rows, cache)

def evict (entries : Map Text (QueryCacheEntry ρ)) : List Text → QueryCache ρ
  | [] => ⟨entries, []⟩
  | oldest :: order =>
    if clickhouseReadCacheMaxEntries < entries.entries.length then
      evict (entries.erase oldest) order
    else ⟨entries, oldest :: order⟩

def extended (cache : QueryCache ρ) (key : Text) : List Text :=
  if key ∈ cache.entries then cache.order else cache.order ++ [key]

def insert (cache : QueryCache ρ) (now : ℕ) (key : Text) (rows : List ρ) : QueryCache ρ :=
  evict (cache.entries.insert key ⟨now, rows⟩) (cache.extended key)

def clear (_ : QueryCache ρ) : QueryCache ρ := {}

end QueryCache

inductive CacheCall (ρ : Type) where
  | get (now : ℕ) (key : Text)
  | insert (now : ℕ) (key : Text) (rows : List ρ)
  | clear

structure Presence where
  calls : ℕ := 0
  since : Text → ℕ := fun _ => 0

section Runs

variable {ρ : Type}

def QueryCache.step (cache : QueryCache ρ) : CacheCall ρ → QueryCache ρ
  | .get now key => (cache.get now key).2
  | .insert now key rows => cache.insert now key rows
  | .clear => cache.clear

def Presence.note (cache : QueryCache ρ) (presence : Presence) (_ : CacheCall ρ) : Presence where
  calls := presence.calls + 1
  since := fun key => if key ∈ cache.entries then presence.since key else presence.calls

def EvictsOldest (p : QueryCache ρ × Presence) (call : CacheCall ρ) : Prop :=
  match call with
  | .insert now key rows => ∀ evicted kept,
      (evicted = key ∨ evicted ∈ p.1.entries) → evicted ∉ (p.1.insert now key rows).entries →
      kept ∈ (p.1.insert now key rows).entries →
        (p.2.note p.1 call).since evicted < (p.2.note p.1 call).since kept
  | _ => True

structure QueryCache.Listed (cache : QueryCache ρ) : Prop where
  nodup : cache.order.Nodup
  mem_iff : ∀ key, key ∈ cache.order ↔ key ∈ cache.entries
  entries_le : cache.entries.entries.length ≤ clickhouseReadCacheMaxEntries
  order_le : cache.order.length ≤ clickhouseReadCacheMaxEntries

def NoExpiredRead (cache : QueryCache ρ) : CacheCall ρ → Prop
  | .get now key => ∀ entry, cache.entries.lookup key = some entry → ¬ QueryCache.Expired now entry
  | _ => True

/-! ### The listing -/

lemma length_eq_of_listing {entries : Map Text (QueryCacheEntry ρ)} {order : List Text}
    (hnodup : order.Nodup) (hmem : ∀ key, key ∈ order ↔ key ∈ entries) :
    entries.entries.length = order.length := by
  rw [Map.length_eq_card, ← toFinset_card_of_nodup hnodup]
  congr 1
  ext key
  rw [mem_toFinset, mem_toFinset, hmem, AList.mem_keys]

lemma evict_spec {entries : Map Text (QueryCacheEntry ρ)} {order : List Text}
    (hnodup : order.Nodup) (hmem : ∀ key, key ∈ order ↔ key ∈ entries) :
    (QueryCache.evict entries order).Listed ∧ (QueryCache.evict entries order).order =
      order.drop (order.length - clickhouseReadCacheMaxEntries) := by
  have hlength := length_eq_of_listing hnodup hmem
  induction order generalizing entries with
  | nil => exact ⟨⟨hnodup, hmem, by simp [QueryCache.evict, hlength], Nat.zero_le _⟩, rfl⟩
  | cons oldest order ih =>
    rw [QueryCache.evict]
    split
    · next hfull =>
      obtain ⟨hnew, hrest⟩ := nodup_cons.mp hnodup
      have hrest' : ∀ key, key ∈ order ↔ key ∈ entries.erase oldest := by
        intro key
        rw [AList.mem_erase, ← hmem, mem_cons]
        constructor
        · exact fun hkey => ⟨fun heq => hnew (heq ▸ hkey), .inr hkey⟩
        · exact fun ⟨hne, hkey⟩ => hkey.resolve_left hne
      obtain ⟨hlisted, horder⟩ := ih hrest hrest' (length_eq_of_listing hrest hrest')
      rw [hlength, length_cons] at hfull
      refine ⟨hlisted, horder.trans ?_⟩
      rw [length_cons, Nat.sub_add_comm (by omega), drop_succ_cons]
    · next hroom =>
      have hle := Nat.le_of_not_lt hroom
      refine ⟨⟨hnodup, hmem, hle, hlength ▸ hle⟩, ?_⟩
      rw [Nat.sub_eq_zero_of_le (hlength ▸ hle), drop_zero]

namespace QueryCache.Listed

variable {cache : QueryCache ρ} {key : Text}

lemma empty : ({} : QueryCache ρ).Listed :=
  ⟨nodup_nil, fun key => iff_of_false not_mem_nil (AList.notMem_empty key), Nat.zero_le _,
    Nat.zero_le _⟩

lemma mem_extended (h : cache.Listed) (k : Text) :
    k ∈ cache.extended key ↔ k = key ∨ k ∈ cache.entries := by
  rw [extended]
  split
  · next hkey =>
    rw [h.mem_iff]
    exact ⟨.inr, fun hk => hk.elim (fun heq => heq ▸ hkey) id⟩
  · rw [mem_append, h.mem_iff, mem_singleton, or_comm]

lemma nodup_extended (h : cache.Listed) : (cache.extended key).Nodup := by
  rw [extended]
  split
  · exact h.nodup
  · next hkey =>
    rw [← concat_eq_append]
    exact h.nodup.concat fun hmem => hkey ((h.mem_iff key).mp hmem)

lemma insert_spec (h : cache.Listed) (key : Text) (now : ℕ) (rows : List ρ) :
    (cache.insert now key rows).Listed ∧ (cache.insert now key rows).order =
      (cache.extended key).drop ((cache.extended key).length - clickhouseReadCacheMaxEntries) :=
  evict_spec h.nodup_extended fun k => by rw [h.mem_extended, AList.mem_insert]

lemma step_iff (h : cache.Listed) (call : CacheCall ρ) :
    (cache.step call).Listed ↔ NoExpiredRead cache call := by
  cases call with
  | clear => exact iff_of_true empty trivial
  | insert now key rows => exact iff_of_true (h.insert_spec key now rows).1 trivial
  | get now key =>
    rw [QueryCache.step, QueryCache.get, NoExpiredRead]
    cases hentry : cache.entries.lookup key with
    | none => exact iff_of_true h nofun
    | some entry =>
      dsimp only
      by_cases hexpired : Expired now entry
      · rw [if_pos hexpired]
        refine iff_of_false (fun h' => ?_) fun hnone => hnone entry rfl hexpired
        have hkey : key ∈ cache.entries := AList.lookup_isSome.mp (by rw [hentry]; rfl)
        exact ((AList.mem_erase ..).mp ((h'.mem_iff key).mp ((h.mem_iff key).mpr hkey))).1 rfl
      · rw [if_neg hexpired]
        exact iff_of_true h fun _ heq => Option.some.inj heq ▸ hexpired

end QueryCache.Listed

/-! ### The oldest key -/

structure InSequence (p : QueryCache ρ × Presence) : Prop where
  listed : p.1.Listed
  sorted : p.1.order.Pairwise fun key key' => p.2.since key < p.2.since key'
  since_lt : ∀ key ∈ p.1.order, p.2.since key < p.2.calls

namespace InSequence

variable {p : QueryCache ρ × Presence} {call : CacheCall ρ}

lemma note_since (h : InSequence p) {key : Text} (hkey : key ∈ p.1.order) :
    (p.2.note p.1 call).since key = p.2.since key :=
  if_pos ((h.listed.mem_iff key).mp hkey)

lemma note_since_lt (h : InSequence p) (call : CacheCall ρ) (key : Text) :
    (p.2.note p.1 call).since key < (p.2.note p.1 call).calls := by
  refine Nat.lt_succ_of_le ?_
  rw [Presence.note]
  dsimp only
  split
  · next hkey => exact (h.since_lt key ((h.listed.mem_iff key).mpr hkey)).le
  · exact le_rfl

lemma sorted_note (h : InSequence p) :
    p.1.order.Pairwise fun k k' => (p.2.note p.1 call).since k < (p.2.note p.1 call).since k' :=
  h.sorted.imp_of_mem fun hk hk' hlt => by rwa [h.note_since hk, h.note_since hk']

lemma sorted_extended (h : InSequence p) (call : CacheCall ρ) (key : Text) :
    (p.1.extended key).Pairwise
    fun k k' => (p.2.note p.1 call).since k < (p.2.note p.1 call).since k' := by
  rw [QueryCache.extended]
  split
  · exact h.sorted_note
  · next hkey =>
    refine pairwise_append.mpr ⟨h.sorted_note, pairwise_singleton _ _, fun k hk k' hk' => ?_⟩
    rw [mem_singleton.mp hk', h.note_since hk]
    exact (h.since_lt k hk).trans_eq (if_neg hkey).symm

lemma sorted_step (h : InSequence p) : (p.1.step call).order.Pairwise
    fun k k' => (p.2.note p.1 call).since k < (p.2.note p.1 call).since k' := by
  cases call with
  | clear => exact Pairwise.nil
  | insert now key rows =>
    rw [QueryCache.step, (h.listed.insert_spec key now rows).2]
    exact (h.sorted_extended _ key).sublist (drop_sublist _ _)
  | get now key =>
    have horder : (p.1.step (.get now key)).order = p.1.order := by
      rw [QueryCache.step, QueryCache.get]
      repeat' split
      all_goals rfl
    rw [horder]
    exact h.sorted_note

lemma step (h : InSequence p) (hcall : NoExpiredRead p.1 call) :
    InSequence (tracked QueryCache.step Presence.note p call) :=
  ⟨(h.listed.step_iff call).mpr hcall, h.sorted_step, fun _ _ => h.note_since_lt call _⟩

lemma evictsOldest (h : InSequence p) (call : CacheCall ρ) : EvictsOldest p call := by
  cases call with
  | clear | get => trivial
  | insert now key rows =>
    intro evicted kept hthere hout hin
    obtain ⟨hlisted, horder⟩ := h.listed.insert_spec key now rows
    have hsorted := h.sorted_extended (.insert now key rows) key
    rw [← hlisted.mem_iff, horder] at hout hin
    rw [← h.listed.mem_extended] at hthere
    rw [← take_append_drop ((p.1.extended key).length - clickhouseReadCacheMaxEntries)
      (p.1.extended key)] at hsorted hthere
    have hfront := (mem_append.mp hthere).resolve_right hout
    exact (pairwise_append.mp hsorted).2.2 _ hfront _ hin

end InSequence

/-- **Order of the cache.**  Along a run the order lists the entries without duplicates, neither
is longer than allowed and evictions take the oldest presence, exactly if no read of the run
finds an expired result. -/
theorem query_cache_exact_iff (calls : List (CacheCall ρ)) :
    (∀ n, (run QueryCache.step {} (calls.take n)).Listed) ∧
      Along (tracked QueryCache.step Presence.note) EvictsOldest ({}, {}) calls ↔
    Along QueryCache.step NoExpiredRead {} calls := by
  have htrue : Along QueryCache.step (fun (_ : QueryCache ρ) _ => True) {} calls :=
    along_of_forall fun _ _ => trivial
  rw [forall_take_iff_along QueryCache.Listed htrue .empty fun _ call h _ => h.step_iff call,
    and_iff_left_iff_imp]
  intro h
  exact (along_tracked_iff.mpr h).imp_of_invariant InSequence ⟨.empty, .nil, nofun⟩
    (fun _ _ hp => hp.step) fun _ call hp _ => hp.evictsOldest call

/-- An expired result is read, and its query inserted again: the query is listed twice. -/
theorem query_cache_lists_twice :
    (run QueryCache.step ({} : QueryCache Text) [.insert 0 "q" [], .get (31 * 1000000000) "q",
      .insert (31 * 1000000000) "q" []]).order = ["q", "q"] ∧
    ¬ (run QueryCache.step ({} : QueryCache Text) [.insert 0 "q" [], .get (31 * 1000000000) "q",
      .insert (31 * 1000000000) "q" []]).Listed := by
  refine ⟨by decide, fun h => ?_⟩
  exact absurd h.nodup (by decide)

/-! ### Hits -/

def lastInserted (key : Text) (last : Option (QueryCacheEntry ρ)) :
    CacheCall ρ → Option (QueryCacheEntry ρ)
  | .insert now key' rows => if key' = key then some ⟨now, rows⟩ else last
  | .get _ _ => last
  | .clear => none

variable {key : Text} {entry : QueryCacheEntry ρ}

lemma lookup_of_evict {entries : Map Text (QueryCacheEntry ρ)} {order : List Text}
    (h : (QueryCache.evict entries order).entries.lookup key = some entry) :
    entries.lookup key = some entry := by
  induction order generalizing entries with
  | nil => exact h
  | cons oldest order ih =>
    rw [QueryCache.evict] at h
    split at h
    · exact (Map.drops_erase _ _).lookup_eq (ih h)
    · exact h

lemma lastInserted_step {cache : QueryCache ρ} {last : Option (QueryCacheEntry ρ)}
    (hlast : ∀ entry ∈ cache.entries.lookup key, last = some entry) (call : CacheCall ρ)
    (h : (cache.step call).entries.lookup key = some entry) :
    lastInserted key last call = some entry := by
  cases call with
  | clear => cases h
  | insert now key' rows =>
    have hinsert := lookup_of_evict h
    rw [lastInserted]
    split
    · next heq => rwa [heq, AList.lookup_insert] at hinsert
    · next hne => exact hlast _ (by rwa [AList.lookup_insert_ne (Ne.symm hne)] at hinsert)
  | get now key' =>
    rw [QueryCache.step, QueryCache.get] at h
    repeat' split at h
    · exact hlast _ h
    · exact hlast _ ((Map.drops_erase _ _).lookup_eq h)
    · exact hlast _ h

end Runs

end PxxlEdge
