import PxxlEdge.Lib.Map

/-!
Lists in which a later item takes the place of an earlier one with the same key.

`lastByKey` walks over a list with a map from each key to the position of its
item, as a program does that merges entries by key.
-/

namespace RustStd

open List

variable {α κ κ' : Type} [DecidableEq κ] [DecidableEq κ']

def lastByKeyStep (key : α → κ) (acc : List α × Map κ ℕ) (x : α) : List α × Map κ ℕ :=
  match acc.2.lookup (key x) with
  | some index => (acc.1.set index x, acc.2)
  | none => (acc.1 ++ [x], acc.2.insert (key x) acc.1.length)

def lastByKey (key : α → κ) (l : List α) : List α := (l.foldl (lastByKeyStep key) ([], ∅)).1

def lastWith (key : α → κ) (l : List α) (k : κ) : Option α :=
  (l.filter fun x => key x = k).getLast?

structure KeepsLast (key : α → κ) (l kept : List α) : Prop where
  keys : kept.map key = (l.map key).eraseDups
  last : ∀ x ∈ kept, lastWith key l (key x) = some x

/-! ### The loop -/

def Indexed (key : α → κ) (acc : List α × Map κ ℕ) : Prop :=
  ∀ k i, acc.2.lookup k = some i ↔ (acc.1.map key)[i]? = some k

def putByKey (key : α → κ) (kept : List α) (x : α) : List α :=
  if key x ∈ kept.map key then kept.map fun y => if key y = key x then x else y else kept ++ [x]

variable {key : α → κ} {acc : List α × Map κ ℕ}

lemma Indexed.nodup (h : Indexed key acc) : (acc.1.map key).Nodup := by
  rw [nodup_iff_injective_getElem]
  rintro ⟨i, hi⟩ ⟨j, hj⟩ hij
  have hi' := (h _ i).mpr (getElem?_eq_getElem hi)
  have hj' := (h _ j).mpr (getElem?_eq_getElem hj)
  simp only at hij
  rw [hij, hj'] at hi'
  simpa using hi'.symm

lemma Indexed.lookup_eq_none (h : Indexed key acc) {k : κ} :
    acc.2.lookup k = none ↔ k ∉ acc.1.map key := by
  constructor
  · rintro hnone hk
    obtain ⟨i, hi⟩ := mem_iff_getElem?.mp hk
    rw [(h k i).mpr hi] at hnone
    cases hnone
  · intro hk
    cases hlookup : acc.2.lookup k with
    | none => rfl
    | some i => exact absurd (mem_of_getElem? ((h k i).mp hlookup)) hk

lemma set_eq_map_of_nodup {l : List α} {i : ℕ} {x : α} (hnodup : (l.map key).Nodup)
    (hi : (l.map key)[i]? = some (key x)) :
    l.set i x = l.map fun y => if key y = key x then x else y := by
  induction l generalizing i with
  | nil => rfl
  | cons y l ih =>
    rw [map_cons, nodup_cons] at hnodup
    cases i with
    | zero =>
      have hy : key y = key x := by simpa using hi
      have hrest : l.map (fun z => if key z = key x then x else z) = l := by
        refine (map_congr_left fun z hz => if_neg ?_).trans (map_id' l)
        rintro hzx
        exact hnodup.1 (hy.trans hzx.symm ▸ mem_map_of_mem hz)
      simp [hy, hrest]
    | succ i =>
      have hi' : (l.map key)[i]? = some (key x) := by simpa using hi
      have hy : key y ≠ key x := fun hyx => hnodup.1 (hyx ▸ mem_of_getElem? hi')
      simp [hy, ih hnodup.2 hi']

omit [DecidableEq κ] in
lemma getElem?_concat_eq_some {ks : List κ} {k k' : κ} {j : ℕ} :
    (ks ++ [k])[j]? = some k' ↔ ks[j]? = some k' ∨ (j = ks.length ∧ k = k') := by
  rcases lt_trichotomy j ks.length with hlt | rfl | hgt
  · rw [getElem?_append_left hlt]
    exact ⟨.inl, fun h => h.resolve_right fun h => hlt.ne h.1⟩
  · simp
  · rw [getElem?_eq_none (by simp; omega), getElem?_eq_none (by omega)]
    simp [hgt.ne']

lemma Indexed.step (h : Indexed key acc) (x : α) :
    Indexed key (lastByKeyStep key acc x) ∧
      (lastByKeyStep key acc x).1 = putByKey key acc.1 x := by
  rw [lastByKeyStep, putByKey]
  cases hlookup : acc.2.lookup (key x) with
  | some i =>
    have hi := (h _ i).mp hlookup
    refine ⟨fun k j => ?_, ?_⟩
    · -- the keys do not change
      have hkeys : (acc.1.set i x).map key = acc.1.map key := by
        obtain ⟨hlt, hget⟩ := List.getElem?_eq_some_iff.mp hi
        rw [map_set, ← hget, set_getElem_self]
      change acc.2.lookup k = some j ↔ ((acc.1.set i x).map key)[j]? = some k
      rw [hkeys]
      exact h k j
    · rw [if_pos (mem_of_getElem? hi)]
      exact set_eq_map_of_nodup h.nodup hi
  | none =>
    have hnew := h.lookup_eq_none.mp hlookup
    refine ⟨fun k j => ?_, by rw [if_neg hnew]⟩
    change (acc.2.insert (key x) acc.1.length).lookup k = some j ↔ _
    rw [map_append, map_singleton, getElem?_concat_eq_some, length_map]
    by_cases hk : k = key x
    · subst hk
      rw [AList.lookup_insert, Option.some_inj]
      constructor
      · rintro rfl
        exact .inr ⟨rfl, rfl⟩
      · rintro (hj | ⟨rfl, -⟩)
        · exact absurd (mem_of_getElem? hj) hnew
        · rfl
    · rw [AList.lookup_insert_ne hk, h k j]
      exact ⟨.inl, fun h => h.resolve_right fun h => hk h.2.symm⟩

lemma indexed_foldl (h : Indexed key acc) (l : List α) :
    Indexed key (l.foldl (lastByKeyStep key) acc) := by
  induction l generalizing acc with
  | nil => exact h
  | cons x l ih => exact ih (h.step x).1

variable (key) in
lemma indexed_empty : Indexed key (([], ∅) : List α × Map κ ℕ) := by
  intro k i
  simp

variable (key) in
lemma lastByKey_concat (l : List α) (x : α) :
    lastByKey key (l ++ [x]) = putByKey key (lastByKey key l) x := by
  rw [lastByKey, foldl_append]
  exact ((indexed_foldl (indexed_empty key) l).step x).2

/-! ### What is kept -/

variable (key) in
lemma nodup_lastByKey (l : List α) : ((lastByKey key l).map key).Nodup :=
  (indexed_foldl (indexed_empty key) l).nodup

lemma map_putByKey (kept : List α) (x : α) :
    (putByKey key kept x).map key =
      if key x ∈ kept.map key then kept.map key else kept.map key ++ [key x] := by
  rw [putByKey]
  split
  · rw [map_map]
    refine map_congr_left fun y _ => ?_
    by_cases hy : key y = key x <;> simp [hy]
  · rw [map_append, map_singleton]

lemma mem_putByKey {kept : List α} {x y : α} (h : y ∈ putByKey key kept x) :
    y = x ∨ (y ∈ kept ∧ key y ≠ key x) := by
  rw [putByKey] at h
  split at h
  · obtain ⟨z, hz, rfl⟩ := mem_map.mp h
    by_cases hzx : key z = key x
    · exact .inl (if_pos hzx)
    · exact .inr ⟨by rwa [if_neg hzx], by rwa [if_neg hzx]⟩
  · next hnew =>
    rcases mem_append.mp h with hy | hy
    · exact .inr ⟨hy, fun hyx => hnew (hyx ▸ mem_map_of_mem hy)⟩
    · exact .inl (mem_singleton.mp hy)

variable (key) in
lemma lastWith_concat (l : List α) (x : α) (k : κ) :
    lastWith key (l ++ [x]) k = if key x = k then some x else lastWith key l k := by
  rw [lastWith, filter_append]
  by_cases hk : key x = k
  · simp [hk]
  · simp [hk, lastWith]

variable (key) in
theorem keepsLast_lastByKey (l : List α) : KeepsLast key l (lastByKey key l) := by
  induction l using List.reverseRecOn with
  | nil => exact ⟨rfl, by simp [lastByKey]⟩
  | append_singleton l x ih =>
    rw [lastByKey_concat]
    refine ⟨?_, fun y hy => ?_⟩
    · rw [map_putByKey, ih.keys, map_append, map_singleton, eraseDups_append]
      by_cases hx : key x ∈ l.map key
      · rw [if_pos (mem_eraseDups.mpr hx)]
        simp [List.removeAll, mem_map.mp hx]
      · rw [if_neg (fun h => hx (mem_eraseDups.mp h))]
        rw [List.removeAll, filter_cons_of_pos (by simpa using hx), filter_nil]
        rfl
    · rw [lastWith_concat]
      rcases mem_putByKey hy with rfl | ⟨hmem, hne⟩
      · rw [if_pos rfl]
      · rw [if_neg hne.symm, ih.last y hmem]

lemma mem_of_mem_lastByKey {l : List α} {x : α} (h : x ∈ lastByKey key l) : x ∈ l := by
  have hlast := (keepsLast_lastByKey key l).last x h
  exact (mem_filter.mp (mem_of_getLast? hlast)).1

variable (key) in
lemma exists_mem_lastByKey {l : List α} {x : α} (h : x ∈ l) :
    ∃ y ∈ lastByKey key l, key y = key x := by
  have hkey : key x ∈ (lastByKey key l).map key := by
    rw [(keepsLast_lastByKey key l).keys, mem_eraseDups]
    exact mem_map_of_mem h
  exact mem_map.mp hkey

lemma mem_lastByKey_iff {l : List α} {x : α} :
    x ∈ lastByKey key l ↔ lastWith key l (key x) = some x := by
  have hkept := keepsLast_lastByKey key l
  refine ⟨hkept.last x, fun h => ?_⟩
  have hx : x ∈ l := (mem_filter.mp (mem_of_getLast? h)).1
  obtain ⟨y, hy, hyx⟩ := exists_mem_lastByKey key hx
  have hlast := hkept.last y hy
  rw [hyx, h] at hlast
  exact Option.some.inj hlast ▸ hy

variable (key) in
lemma lastWith_append (l l' : List α) (k : κ) :
    lastWith key (l ++ l') k = (lastWith key l' k).or (lastWith key l k) := by
  rw [lastWith, filter_append, getLast?_append, lastWith, lastWith]

lemma lastWith_eq_none {l : List α} {k : κ} :
    lastWith key l k = none ↔ ∀ x ∈ l, key x ≠ k := by
  rw [lastWith, getLast?_eq_none_iff, filter_eq_nil_iff]
  simp

lemma forall_lastWith_iff {l : List α} :
    (∀ x ∈ l, lastWith key l (key x) = some x) ↔
      ∀ x ∈ l, ∀ y ∈ l, key x = key y → x = y := by
  constructor
  · intro h x hx y hy hxy
    have hlast := h x hx
    rw [hxy, h y hy] at hlast
    exact (Option.some.inj hlast).symm
  · intro h x hx
    cases hlast : lastWith key l (key x) with
    | none => exact absurd rfl (lastWith_eq_none.mp hlast x hx)
    | some y =>
      obtain ⟨hy, hkey⟩ := mem_filter.mp (mem_of_getLast? hlast)
      rw [h x hx y hy (of_decide_eq_true hkey).symm]

lemma lastByKey_of_nodup {l : List α} (h : (l.map key).Nodup) : lastByKey key l = l := by
  induction l using List.reverseRecOn with
  | nil => rfl
  | append_singleton l x ih =>
    rw [map_append, map_singleton] at h
    have hl := List.Nodup.of_append_left h
    have hx : key x ∉ l.map key := fun hx => disjoint_of_nodup_append h hx (by simp)
    rw [lastByKey_concat, ih hl, putByKey, if_neg hx]

lemma lastByKey_congr {key' : α → κ'} {l : List α}
    (h : ∀ a ∈ l, ∀ b ∈ l, key a = key b ↔ key' a = key' b) :
    lastByKey key l = lastByKey key' l := by
  induction l using List.reverseRecOn with
  | nil => rfl
  | append_singleton l x ih =>
    have hl : ∀ a ∈ l, ∀ b ∈ l, key a = key b ↔ key' a = key' b :=
      fun a ha b hb => h a (by simp [ha]) b (by simp [hb])
    have hx : ∀ y ∈ lastByKey key' l, key y = key x ↔ key' y = key' x :=
      fun y hy => h y (by simp [mem_of_mem_lastByKey hy]) x (by simp)
    rw [lastByKey_concat, lastByKey_concat, ih hl, putByKey, putByKey]
    have hmem : key x ∈ (lastByKey key' l).map key ↔ key' x ∈ (lastByKey key' l).map key' := by
      simp only [mem_map]
      exact exists_congr fun y => and_congr_right fun hy => hx y hy
    refine if_congr hmem (map_congr_left fun y hy => ?_) rfl
    exact if_congr (hx y hy) rfl rfl

end RustStd
