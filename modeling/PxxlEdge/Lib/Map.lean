import PxxlEdge.Lib.Text
import Mathlib.Data.List.AList
import Mathlib.Data.Finset.Card

/-!
Hash maps, as association lists with distinct keys in their iteration order.
Lookup, insertion and removal are those of `AList`.  Two maps are equal in
Rust's sense (`==`) when they bind the same keys to equal values, in whatever
order they iterate.
-/

namespace RustStd

open List

abbrev Map (κ ν : Type) := AList (fun _ : κ => ν)

namespace Map

variable {κ ν : Type} [DecidableEq κ]

def eqv [BEq ν] (s t : Map κ ν) : Bool :=
  s.entries.length == t.entries.length && s.entries.all fun e => t.lookup e.1 == some e.2

instance (priority := high) [BEq ν] : BEq (Map κ ν) := ⟨eqv⟩

def get (m : Map κ ν) (k : κ) : Option ν := m.lookup k

def ofList (l : List (κ × ν)) : Map κ ν := l.foldl (fun m p => m.insert p.1 p.2) ∅

def retain (p : κ → ν → Bool) (m : Map κ ν) : Map κ ν where
  entries := m.entries.filter fun e => p e.1 e.2
  nodupKeys := List.NodupKeys.sublist filter_sublist m.nodupKeys

omit [DecidableEq κ] in
lemma keys_map_value (f : ν → ν) (l : List (Σ _ : κ, ν)) :
    (l.map fun e => (⟨e.1, f e.2⟩ : Σ _ : κ, ν)).keys = l.keys := by
  rw [List.keys, map_map]
  rfl

lemma lookup_ofList_singleton (k a : κ) (v : ν) :
    (ofList [(k, v)]).lookup a = if a = k then some v else none := by
  show ((∅ : Map κ ν).insert k v).lookup a = _
  split
  · next h => rw [h, AList.lookup_insert]
  · next h => rw [AList.lookup_insert_ne h, AList.lookup_empty]

lemma ofList_concat (l : List (κ × ν)) (p : κ × ν) :
    ofList (l ++ [p]) = (ofList l).insert p.1 p.2 := by
  rw [ofList, foldl_append]
  rfl

lemma lookup_ofList_of_nodup {l : List (κ × ν)} (hnodup : (l.map Prod.fst).Nodup) {k : κ} {v : ν}
    (hmem : (k, v) ∈ l) : (ofList l).lookup k = some v := by
  induction l using List.reverseRecOn with
  | nil => cases hmem
  | append_singleton l p ih =>
    rw [map_append, nodup_append] at hnodup
    rw [ofList_concat]
    rcases mem_append.mp hmem with hl | hp
    · have hne : k ≠ p.1 := hnodup.2.2 k (mem_map_of_mem hl) p.1 (by simp)
      rw [AList.lookup_insert_ne hne, ih hnodup.1 hl]
    · obtain rfl := mem_singleton.mp hp
      exact AList.lookup_insert _

lemma mem_of_lookup_ofList {l : List (κ × ν)} {k : κ} {v : ν}
    (h : (ofList l).lookup k = some v) : (k, v) ∈ l := by
  induction l using List.reverseRecOn with
  | nil =>
    rw [ofList, foldl_nil, AList.lookup_empty] at h
    cases h
  | append_singleton l p ih =>
    rw [ofList_concat] at h
    by_cases hk : k = p.1
    · subst hk
      rw [AList.lookup_insert] at h
      cases h
      exact mem_append_right l (mem_singleton_self p)
    · rw [AList.lookup_insert_ne hk] at h
      exact mem_append_left [p] (ih h)

lemma lookup_retain (p : κ → ν → Bool) (m : Map κ ν) (k : κ) :
    (m.retain p).lookup k = (m.lookup k).filter (p k) := by
  ext v
  rw [← Option.mem_def, ← Option.mem_def, AList.mem_lookup_iff, retain, mem_filter,
    ← AList.mem_lookup_iff, Option.mem_filter_iff]

lemma length_eq_card (m : Map κ ν) : m.entries.length = m.keys.toFinset.card := by
  rw [toFinset_card_of_nodup m.keys_nodup]
  exact (length_map _).symm

lemma length_le_card {m : Map κ ν} {keys : Finset κ} (h : ∀ k ∈ m, k ∈ keys) :
    m.entries.length ≤ keys.card := by
  rw [length_eq_card]
  refine Finset.card_le_card fun k hk => ?_
  exact h k (AList.mem_keys.mpr (mem_toFinset.mp hk))

lemma length_insert_le (m : Map κ ν) (k : κ) (v : ν) :
    (m.insert k v).entries.length ≤
      if k ∈ m then m.entries.length else m.entries.length + 1 := by
  have hkeys : ∀ k' ∈ m.insert k v, k' ∈ insert k m.keys.toFinset := by
    intro k' hk'
    rcases (AList.mem_insert _).mp hk' with rfl | hk'
    · exact Finset.mem_insert_self _ _
    · exact Finset.mem_insert_of_mem (mem_toFinset.mpr (AList.mem_keys.mp hk'))
  have hcard := length_le_card hkeys
  rw [length_eq_card m]
  split
  · next hk =>
    rwa [Finset.insert_eq_of_mem (mem_toFinset.mpr (AList.mem_keys.mp hk))] at hcard
  · exact hcard.trans (Finset.card_insert_le _ _)

/-! ### Sums -/

def total (f : ν → ℕ) (m : Map κ ν) : ℕ := (m.entries.map fun e => f e.2).sum

lemma total_eq_add_erase (f : ν → ℕ) (m : Map κ ν) (k : κ) :
    m.total f = ((m.lookup k).map f).getD 0 + Map.total f (m.erase k) := by
  cases hk : m.lookup k with
  | none =>
    have herase : (m.erase k).entries = m.entries :=
      kerase_of_notMem_keys (AList.lookup_eq_none.mp hk)
    rw [total, total, herase, Option.map_none, Option.getD_none, zero_add]
  | some v =>
    have hperm : m.entries ~ ⟨k, v⟩ :: (m.erase k).entries := by
      refine lookup_ext m.nodupKeys (m.insert k v).nodupKeys fun k' w => ?_
      change w ∈ m.lookup k' ↔ w ∈ (m.insert k v).lookup k'
      by_cases heq : k' = k
      · subst heq
        rw [hk, AList.lookup_insert]
      · rw [AList.lookup_insert_ne heq]
    rw [total, (hperm.map _).sum_eq, map_cons, sum_cons, Option.map_some, Option.getD_some, total]

lemma total_insert_succ {f : ν → ℕ} {m : Map κ ν} {k : κ} {v : ν}
    (h : f v = ((m.lookup k).map f).getD 0 + 1) : Map.total f (m.insert k v) = m.total f + 1 := by
  rw [total_eq_add_erase f m k, total, AList.entries_insert, map_cons, sum_cons, h]
  change _ + 1 + Map.total f (m.erase k) = _
  omega

/-! ### Dropped bindings -/

def Drops (m m' : Map κ ν) : Prop := ∀ k, m'.lookup k = m.lookup k ∨ m'.lookup k = none

lemma Drops.refl (m : Map κ ν) : m.Drops m := fun _ => .inl rfl

lemma Drops.trans {m m' m'' : Map κ ν} (h : m.Drops m') (h' : m'.Drops m'') : m.Drops m'' := by
  intro k
  rcases h' k with heq | hnone
  · rw [heq]
    exact h k
  · exact .inr hnone

lemma drops_retain (p : κ → ν → Bool) (m : Map κ ν) : m.Drops (m.retain p) := by
  intro k
  rw [lookup_retain]
  cases m.lookup k with
  | none => exact .inl rfl
  | some v =>
    rw [Option.filter_some]
    split
    · exact .inl rfl
    · exact .inr rfl

lemma drops_erase (k : κ) (m : Map κ ν) : m.Drops (m.erase k) := by
  intro k'
  by_cases h : k' = k
  · subst h
    exact .inr (AList.lookup_erase k' m)
  · exact .inl (AList.lookup_erase_ne h)

lemma Drops.lookup_eq {m m' : Map κ ν} (h : m.Drops m') {k : κ} {v : ν}
    (hk : m'.lookup k = some v) : m.lookup k = some v := by
  rcases h k with heq | hnone
  · rw [← heq, hk]
  · rw [hnone] at hk
    cases hk

lemma Drops.mem {m m' : Map κ ν} (h : m.Drops m') {k : κ} (hk : k ∈ m') : k ∈ m := by
  rw [← AList.lookup_isSome] at hk ⊢
  obtain ⟨v, hv⟩ := Option.isSome_iff_exists.mp hk
  exact Option.isSome_iff_exists.mpr ⟨v, h.lookup_eq hv⟩

lemma Drops.length_le {m m' : Map κ ν} (h : m.Drops m') :
    m'.entries.length ≤ m.entries.length := by
  rw [length_eq_card m]
  exact length_le_card fun k hk => mem_toFinset.mpr (AList.mem_keys.mp (h.mem hk))

/-! ### Loading -/

def insertAll (keep : ν → Bool) (key : ν → κ) (m : Map κ ν) (values : List ν) : Map κ ν :=
  values.foldl (fun m v => if keep v then m.insert (key v) v else m) m

section InsertAll

variable {keep : ν → Bool} {key : ν → κ} {m : Map κ ν} {values : List ν} {k : κ}

lemma mem_of_mem_insertAll (h : k ∈ m.insertAll keep key values) :
    k ∈ m ∨ ∃ v ∈ values, keep v = true ∧ key v = k := by
  induction values generalizing m with
  | nil => exact .inl h
  | cons v values ih =>
    rcases ih h with hmem | ⟨v', hv', hkeep⟩
    · dsimp only at hmem
      split at hmem
      · next hkeep =>
        rcases (AList.mem_insert _).mp hmem with rfl | hmem
        · exact .inr ⟨v, by simp, hkeep, rfl⟩
        · exact .inl hmem
      · exact .inl hmem
    · exact .inr ⟨v', by simp [hv'], hkeep⟩

lemma lookup_insertAll_empty (hnodup : (values.map key).Nodup) {v : ν} :
    ((∅ : Map κ ν).insertAll keep key values).lookup k = some v ↔
      v ∈ values ∧ keep v = true ∧ key v = k := by
  induction values using List.reverseRecOn with
  | nil => simp [insertAll]
  | append_singleton values x ih =>
    rw [map_append, map_singleton, nodup_append] at hnodup
    obtain ⟨hvalues, -, hdisjoint⟩ := hnodup
    have hx : ∀ v ∈ values, key v ≠ key x := fun v hv =>
      hdisjoint _ (mem_map_of_mem hv) _ (mem_singleton_self _)
    have hconcat : (∅ : Map κ ν).insertAll keep key (values ++ [x]) =
        if keep x then ((∅ : Map κ ν).insertAll keep key values).insert (key x) x
        else (∅ : Map κ ν).insertAll keep key values := by
      rw [insertAll, foldl_append, foldl_cons, foldl_nil, ← insertAll]
    rw [hconcat, mem_append, mem_singleton]
    split
    · next hkeep =>
      by_cases hk : k = key x
      · rw [hk, AList.lookup_insert, Option.some.injEq]
        constructor
        · rintro rfl
          exact ⟨.inr rfl, hkeep, rfl⟩
        · rintro ⟨hv | rfl, -, hkey⟩
          · exact absurd hkey (hx v hv)
          · rfl
      · rw [AList.lookup_insert_ne hk, ih hvalues]
        constructor
        · rintro ⟨hv, h⟩
          exact ⟨.inl hv, h⟩
        · rintro ⟨hv | rfl, h⟩
          · exact ⟨hv, h⟩
          · exact absurd h.2.symm hk
    · next hkeep =>
      rw [ih hvalues]
      constructor
      · rintro ⟨hv, h⟩
        exact ⟨.inl hv, h⟩
      · rintro ⟨hv | rfl, h⟩
        · exact ⟨hv, h⟩
        · exact absurd h.1 hkeep

end InsertAll

def mapValues (f : ν → ν) (m : Map κ ν) : Map κ ν where
  entries := m.entries.map fun e => ⟨e.1, f e.2⟩
  nodupKeys := by
    rw [List.NodupKeys, keys_map_value]
    exact m.nodupKeys

def mapEntries (f : κ → ν → ν) (m : Map κ ν) : Map κ ν where
  entries := m.entries.map fun e => ⟨e.1, f e.1 e.2⟩
  nodupKeys := by
    have hkeys : (m.entries.map fun e => (⟨e.1, f e.1 e.2⟩ : Σ _ : κ, ν)).keys =
        m.entries.keys := by
      rw [List.keys, map_map]
      rfl
    rw [List.NodupKeys, hkeys]
    exact m.nodupKeys

lemma lookup_mapEntries (f : κ → ν → ν) (m : Map κ ν) (k : κ) :
    (m.mapEntries f).lookup k = (m.lookup k).map (f k) := by
  ext v
  rw [← Option.mem_def, AList.mem_lookup_iff, mapEntries, mem_map, Option.map_eq_some_iff]
  constructor
  · rintro ⟨⟨k', w⟩, hmem, heq⟩
    obtain ⟨rfl, hv⟩ := Sigma.mk.inj_iff.mp heq
    exact ⟨w, AList.mem_lookup_iff.mpr hmem, eq_of_heq hv⟩
  · rintro ⟨w, hw, rfl⟩
    exact ⟨⟨k, w⟩, AList.mem_lookup_iff.mp hw, rfl⟩

/-! ### Maps that correspond -/

def Rel (R : κ → ν → ν → Prop) (s t : Map κ ν) : Prop :=
  ∀ k, Option.Rel (R k) (s.lookup k) (t.lookup k)

lemma rel_empty {R : κ → ν → ν → Prop} : Rel R ∅ ∅ := by
  intro k
  rw [AList.lookup_empty]
  exact .none

lemma Rel.mapEntries {R R' : κ → ν → ν → Prop} {s t : Map κ ν} {f : κ → ν → ν} (h : Rel R s t)
    (himp : ∀ k v w, R k v w → R' k (f k v) (f k w)) :
    Rel R' (s.mapEntries f) (t.mapEntries f) := by
  intro k
  have hk := h k
  rw [lookup_mapEntries, lookup_mapEntries]
  generalize s.lookup k = v at hk ⊢
  generalize t.lookup k = w at hk ⊢
  cases hk with
  | some hvw => exact .some (himp k _ _ hvw)
  | none => exact .none

lemma Rel.mem_iff {R : κ → ν → ν → Prop} {s t : Map κ ν} (h : Rel R s t) (k : κ) :
    k ∈ s ↔ k ∈ t := by
  have hk := h k
  rw [← AList.lookup_isSome, ← AList.lookup_isSome]
  generalize s.lookup k = v at hk ⊢
  generalize t.lookup k = w at hk ⊢
  cases hk <;> simp

lemma length_eq_of_mem_iff {s t : Map κ ν} (h : ∀ k, k ∈ s ↔ k ∈ t) :
    s.entries.length = t.entries.length := by
  rw [length_eq_card s, length_eq_card t]
  congr 1
  ext k
  rw [mem_toFinset, mem_toFinset, ← AList.mem_keys, ← AList.mem_keys]
  exact h k

lemma mem_of_length_eq {s t : Map κ ν} (hlen : s.entries.length = t.entries.length)
    (hsub : ∀ k ∈ s, k ∈ t) {k : κ} (hk : k ∈ t) : k ∈ s := by
  have hsubset : s.keys.toFinset ⊆ t.keys.toFinset := fun k' hk' =>
    mem_toFinset.mpr (AList.mem_keys.mp
      (hsub k' (AList.mem_keys.mpr (mem_toFinset.mp hk'))))
  have hcard : t.keys.toFinset.card ≤ s.keys.toFinset.card := by
    rw [← length_eq_card, ← length_eq_card, hlen]
  have heq := Finset.eq_of_subset_of_card_le hsubset hcard
  rw [AList.mem_keys, ← mem_toFinset, heq, mem_toFinset, ← AList.mem_keys]
  exact hk

theorem eqv_iff_rel [BEq ν] {s t : Map κ ν} :
    (s == t) = true ↔ Rel (fun _ v w => (w == v) = true) s t := by
  show (s.entries.length == t.entries.length && s.entries.all _) = true ↔ _
  rw [Bool.and_eq_true, beq_iff_eq, all_eq_true]
  constructor
  · rintro ⟨hlen, hall⟩ k
    have hbound : ∀ {k v}, s.lookup k = some v →
        ∃ w, t.lookup k = some w ∧ (w == v) = true := by
      intro k v hv
      have hkv := hall ⟨k, v⟩ (AList.mem_lookup_iff.mp hv)
      cases ht : t.lookup k with
      | none => simp [ht] at hkv
      | some w => exact ⟨w, rfl, by simpa [ht] using hkv⟩
    have hsub : ∀ k ∈ s, k ∈ t := by
      intro k hk
      obtain ⟨v, hv⟩ := Option.isSome_iff_exists.mp (AList.lookup_isSome.mpr hk)
      obtain ⟨w, hw, -⟩ := hbound hv
      exact AList.lookup_isSome.mp (by rw [hw]; rfl)
    cases hs : s.lookup k with
    | some v =>
      obtain ⟨w, hw, hwv⟩ := hbound hs
      rw [hw]
      exact .some hwv
    | none =>
      cases ht : t.lookup k with
      | none => exact .none
      | some w =>
        have hk := mem_of_length_eq hlen hsub (AList.lookup_isSome.mp (by rw [ht]; rfl))
        rw [← AList.lookup_isSome, hs] at hk
        cases hk
  · intro h
    refine ⟨length_eq_of_mem_iff h.mem_iff, fun e he => ?_⟩
    have hrel := h e.1
    rw [show s.lookup e.1 = some e.2 from AList.mem_lookup_iff.mpr he] at hrel
    generalize t.lookup e.1 = w at hrel ⊢
    cases hrel with
    | some hvw => simpa using hvw

end Map

end RustStd
