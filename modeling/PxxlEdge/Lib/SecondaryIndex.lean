import PxxlEdge.Lib.LastByKey
import PxxlEdge.Lib.Run

/-!
Tables whose entries may name an index, with a map from the indices to values
that is kept beside the table.

An entry that names an index writes its value there; an entry that is dropped
clears the index it names.  Neither looks at the other entries.
-/

namespace SecondaryIndex

open Function RustStd

structure Entry (ι υ : Type) where
  index : Option ι
  value : υ
deriving DecidableEq, Repr

@[ext]
structure Table (κ ι υ : Type) where
  entries : κ → Option (Entry ι υ)
  byIndex : ι → Option υ

variable {κ ι υ : Type} [DecidableEq κ] [DecidableEq ι]

namespace Table

def empty : Table κ ι υ := ⟨fun _ => none, fun _ => none⟩

def indexEntry (byIndex : ι → Option υ) (e : Entry ι υ) : ι → Option υ :=
  match e.index with
  | some i => update byIndex i (some e.value)
  | none => byIndex

def clearEntry (byIndex : ι → Option υ) (e : Option (Entry ι υ)) : ι → Option υ :=
  match e.bind Entry.index with
  | some i => update byIndex i none
  | none => byIndex

def put (t : Table κ ι υ) (k : κ) (e : Entry ι υ) : Table κ ι υ :=
  ⟨update t.entries k (some e), indexEntry t.byIndex e⟩

def drop (t : Table κ ι υ) (k : κ) : Table κ ι υ :=
  ⟨update t.entries k none, clearEntry t.byIndex (t.entries k)⟩

structure Consistent (t : Table κ ι υ) : Prop where
  sound : ∀ i v, t.byIndex i = some v → ∃ k, t.entries k = some ⟨some i, v⟩
  complete : ∀ i, t.byIndex i = none → ∀ k v, t.entries k ≠ some ⟨some i, v⟩

def PutKeeps (t : Table κ ι υ) (k : κ) (e : Entry ι υ) : Prop :=
  ∀ i v, t.entries k = some ⟨some i, v⟩ → e.index ≠ some i →
    ∃ k' w, k' ≠ k ∧ t.entries k' = some ⟨some i, w⟩ ∧ t.byIndex i = some w

def DropKeeps (t : Table κ ι υ) (k : κ) : Prop :=
  ∀ i v, t.entries k = some ⟨some i, v⟩ → ∀ k' w, k' ≠ k → t.entries k' ≠ some ⟨some i, w⟩

variable {t : Table κ ι υ} {k k' : κ} {e : Entry ι υ} {i : ι} {v : υ}

omit [DecidableEq κ] [DecidableEq ι] in
lemma consistent_empty : (empty : Table κ ι υ).Consistent := by
  refine ⟨fun i v h => ?_, fun i _ k v h => ?_⟩
  · cases h
  · cases h

@[simp] lemma entries_put_self : (t.put k e).entries k = some e := update_self ..

lemma entries_put_ne (h : k' ≠ k) : (t.put k e).entries k' = t.entries k' := update_of_ne h ..

@[simp] lemma entries_drop_self : (t.drop k).entries k = none := update_self ..

lemma entries_drop_ne (h : k' ≠ k) : (t.drop k).entries k' = t.entries k' := update_of_ne h ..

lemma byIndex_put_self (h : e.index = some i) : (t.put k e).byIndex i = some e.value := by
  show indexEntry t.byIndex e i = _
  rw [indexEntry, h]
  exact update_self ..

lemma byIndex_put_ne (h : e.index ≠ some i) : (t.put k e).byIndex i = t.byIndex i := by
  show indexEntry t.byIndex e i = _
  rw [indexEntry]
  cases he : e.index with
  | none => rfl
  | some j => exact update_of_ne (fun hij => h (by rw [he, hij])) ..

lemma byIndex_drop_self (h : t.entries k = some ⟨some i, v⟩) : (t.drop k).byIndex i = none := by
  show clearEntry t.byIndex (t.entries k) i = _
  rw [clearEntry, h]
  exact update_self ..

lemma byIndex_drop_ne (h : ∀ v, t.entries k ≠ some ⟨some i, v⟩) :
    (t.drop k).byIndex i = t.byIndex i := by
  show clearEntry t.byIndex (t.entries k) i = _
  rw [clearEntry]
  cases he : t.entries k with
  | none => rfl
  | some e =>
    obtain ⟨_ | j, w⟩ := e
    · rfl
    · refine update_of_ne ?_ ..
      rintro rfl
      exact h w he

lemma drop_of_none (h : t.entries k = none) : t.drop k = t := by
  rw [drop, h]
  ext1
  · rw [← h]
    exact update_eq_self ..
  · rfl

/-! ### The updates that keep the index -/

theorem consistent_put_iff (ht : t.Consistent) : (t.put k e).Consistent ↔ t.PutKeeps k e := by
  constructor
  · -- the index of the old entry still leads to a value, which is that of another entry
    intro h i v hold hne
    cases hi : t.byIndex i with
    | none => exact absurd hold (ht.complete i hi k v)
    | some w =>
      obtain ⟨k', hk'⟩ := h.sound i w (by rw [byIndex_put_ne hne, hi])
      have hkk' : k' ≠ k := by
        rintro rfl
        rw [entries_put_self, Option.some_inj] at hk'
        exact hne (by rw [hk'])
      rw [entries_put_ne hkk'] at hk'
      exact ⟨k', w, hkk', hk', rfl⟩
  · intro h
    refine ⟨fun i v hi => ?_, fun i hi k' v hk' => ?_⟩
    · by_cases he : e.index = some i
      · rw [byIndex_put_self he, Option.some_inj] at hi
        exact ⟨k, by rw [entries_put_self, ← he, ← hi]⟩
      · rw [byIndex_put_ne he] at hi
        obtain ⟨k', hk'⟩ := ht.sound i v hi
        by_cases hkk' : k' = k
        · -- the entry that is overwritten held the value
          subst hkk'
          obtain ⟨k'', w, hne, hk'', hw⟩ := h i v hk' he
          rw [hi, Option.some_inj] at hw
          exact ⟨k'', by rw [entries_put_ne hne, hk'', hw]⟩
        · exact ⟨k', by rw [entries_put_ne hkk', hk']⟩
    · have he : e.index ≠ some i := by
        intro he
        rw [byIndex_put_self he] at hi
        cases hi
      rw [byIndex_put_ne he] at hi
      by_cases hkk' : k' = k
      · subst hkk'
        rw [entries_put_self, Option.some_inj] at hk'
        exact he (by rw [hk'])
      · rw [entries_put_ne hkk'] at hk'
        exact ht.complete i hi k' v hk'

theorem consistent_drop_iff (ht : t.Consistent) : (t.drop k).Consistent ↔ t.DropKeeps k := by
  constructor
  · intro h i v hold k' w hne hk'
    exact h.complete i (byIndex_drop_self hold) k' w (by rw [entries_drop_ne hne, hk'])
  · intro h
    refine ⟨fun i v hi => ?_, fun i hi k' v hk' => ?_⟩
    · have hold : ∀ w, t.entries k ≠ some ⟨some i, w⟩ := by
        intro w hw
        rw [byIndex_drop_self hw] at hi
        cases hi
      rw [byIndex_drop_ne hold] at hi
      obtain ⟨k', hk'⟩ := ht.sound i v hi
      have hne : k' ≠ k := by
        rintro rfl
        exact hold v hk'
      exact ⟨k', by rw [entries_drop_ne hne, hk']⟩
    · have hne : k' ≠ k := by
        rintro rfl
        rw [entries_drop_self] at hk'
        cases hk'
      rw [entries_drop_ne hne] at hk'
      by_cases hold : ∃ w, t.entries k = some ⟨some i, w⟩
      · obtain ⟨w, hw⟩ := hold
        exact h i w hw k' v hne hk'
      · push Not at hold
        rw [byIndex_drop_ne hold] at hi
        exact ht.complete i hi k' v hk'

/-! ### A table filled from a list -/

def putAll (t : Table κ ι υ) (l : List (κ × Entry ι υ)) : Table κ ι υ :=
  l.foldl (fun t p => t.put p.1 p.2) t

lemma putAll_concat (l : List (κ × Entry ι υ)) (p : κ × Entry ι υ) :
    t.putAll (l ++ [p]) = (t.putAll l).put p.1 p.2 := by
  rw [putAll, List.foldl_append]
  rfl

theorem byIndex_putAll (l : List (κ × Entry ι υ)) (i : ι) :
    ((empty : Table κ ι υ).putAll l).byIndex i =
      (lastWith (fun p => p.2.index) l (some i)).map fun p => p.2.value := by
  induction l using List.reverseRecOn with
  | nil => rfl
  | append_singleton l p ih =>
    rw [putAll_concat, lastWith_concat]
    by_cases hp : p.2.index = some i
    · rw [byIndex_put_self hp, if_pos hp]
      rfl
    · rw [byIndex_put_ne hp, ih, if_neg hp]

theorem entries_putAll {l : List (κ × Entry ι υ)} (h : (l.map Prod.fst).Nodup) (k : κ)
    (e : Entry ι υ) :
    ((empty : Table κ ι υ).putAll l).entries k = some e ↔ (k, e) ∈ l := by
  induction l using List.reverseRecOn with
  | nil => simp [putAll, empty]
  | append_singleton l p ih =>
    rw [List.map_append, List.map_singleton] at h
    have hp : p.1 ∉ l.map Prod.fst := fun hp => List.disjoint_of_nodup_append h hp (by simp)
    rw [putAll_concat, List.mem_append, List.mem_singleton]
    by_cases hk : k = p.1
    · subst hk
      rw [entries_put_self, Option.some_inj]
      constructor
      · rintro rfl
        exact .inr rfl
      · rintro (hmem | heq)
        · exact absurd (List.mem_map_of_mem hmem) hp
        · rw [← heq]
    · rw [entries_put_ne hk, ih (List.Nodup.of_append_left h)]
      refine ⟨.inl, fun hmem => hmem.resolve_right ?_⟩
      rintro rfl
      exact hk rfl

end Table

end SecondaryIndex
