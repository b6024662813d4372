import Mathlib.Tactic

/-!
Ordered maps whose values are ordered maps, read through pairs of keys.
-/

namespace RustStd

abbrev BTreeMap (κ ν : Type) [Ord κ] := Std.ExtTreeMap κ ν compare

namespace BTreeMap

variable {κ κ' ν : Type} [Ord κ] [Ord κ']

section Operations

variable [Std.TransOrd κ] [Std.TransOrd κ']

def get2 (m : BTreeMap κ (BTreeMap κ' ν)) (k : κ × κ') : Option ν := m[k.1]?.bind fun n => n[k.2]?

def insert2 (m : BTreeMap κ (BTreeMap κ' ν)) (k : κ × κ') (v : ν) : BTreeMap κ (BTreeMap κ' ν) :=
  m.insert k.1 ((m[k.1]?.getD ∅).insert k.2 v)

def erase2 (m : BTreeMap κ (BTreeMap κ' ν)) (k : κ × κ') : BTreeMap κ (BTreeMap κ' ν) :=
  match m[k.1]? with
  | some n => m.insert k.1 (n.erase k.2)
  | none => m

def prune (m : BTreeMap κ (BTreeMap κ' ν)) (a : κ) : BTreeMap κ (BTreeMap κ' ν) :=
  match m[a]? with
  | some n => if n.isEmpty then m.erase a else m
  | none => m

def NoEmpty (m : BTreeMap κ (BTreeMap κ' ν)) : Prop := ∀ a : κ, m[a]? ≠ some ∅

def values2 (m : BTreeMap κ (BTreeMap κ' ν)) : List ν :=
  m.toList.flatMap fun e => e.2.toList.map Prod.snd

def toList2 (m : BTreeMap κ (BTreeMap κ' ν)) : List ((κ × κ') × ν) :=
  m.toList.flatMap fun e => e.2.toList.map fun f => ((e.1, f.1), f.2)

end Operations

section Lookup

variable [Std.TransOrd κ] [Std.TransOrd κ'] [Std.LawfulEqOrd κ] [Std.LawfulEqOrd κ']
variable {m m' : BTreeMap κ (BTreeMap κ' ν)} {k k' : κ × κ'} {a : κ} {v : ν}

omit [Std.LawfulEqOrd κ] [Std.LawfulEqOrd κ'] in
@[simp] lemma get2_empty : get2 (∅ : BTreeMap κ (BTreeMap κ' ν)) k = none := by
  simp [get2]

@[simp] lemma get2_insert2_self : (insert2 m k v).get2 k = some v := by
  simp [get2, insert2]

lemma get2_insert2_ne (h : k' ≠ k) : (insert2 m k v).get2 k' = m.get2 k' := by
  obtain ⟨a, b⟩ := k
  obtain ⟨a', b'⟩ := k'
  simp only [get2, insert2, Std.ExtTreeMap.getElem?_insert]
  by_cases ha : a = a'
  · subst ha
    have hb : b ≠ b' := fun hb => h (by rw [hb])
    cases hm : m[a]? with
    | none => simp [hb]
    | some n => simp [Std.ExtTreeMap.getElem?_insert, hb]
  · simp [ha]

@[simp] lemma get2_erase2_self : (erase2 m k).get2 k = none := by
  rw [erase2]
  cases hm : m[k.1]? with
  | none => simp [get2, hm]
  | some n => simp [get2]

lemma get2_erase2_ne (h : k' ≠ k) : (erase2 m k).get2 k' = m.get2 k' := by
  obtain ⟨a, b⟩ := k
  obtain ⟨a', b'⟩ := k'
  rw [erase2]
  cases hm : m[a]? with
  | none => rfl
  | some n =>
    simp only [get2, Std.ExtTreeMap.getElem?_insert]
    by_cases ha : a = a'
    · subst ha
      have hb : b ≠ b' := fun hb => h (by rw [hb])
      simp [Std.ExtTreeMap.getElem?_erase, hb, hm]
    · simp [ha]

omit [Std.LawfulEqOrd κ'] in
@[simp] lemma get2_prune : (prune m a).get2 k = m.get2 k := by
  rw [prune]
  cases hm : m[a]? with
  | none => rfl
  | some n =>
    dsimp only
    split
    · next hn =>
      rw [Std.ExtTreeMap.isEmpty_iff] at hn
      by_cases ha : a = k.1
      · simp [get2, ← ha, hm, hn]
      · simp [get2, Std.ExtTreeMap.getElem?_erase, ha]
    · rfl

/-! ### Inner maps that are not empty -/

omit [Std.TransOrd κ'] [Std.LawfulEqOrd κ] [Std.LawfulEqOrd κ'] in
lemma noEmpty_empty : NoEmpty (∅ : BTreeMap κ (BTreeMap κ' ν)) := by
  intro a
  simp

omit [Std.LawfulEqOrd κ] in
lemma NoEmpty.insert2 (h : NoEmpty m) : NoEmpty (insert2 m k v) := by
  intro a
  rw [BTreeMap.insert2, Std.ExtTreeMap.getElem?_insert]
  split
  · intro hempty
    have hget := congrArg (fun n => n[k.2]?) (Option.some_inj.mp hempty)
    simp at hget
  · exact h a

omit [Std.LawfulEqOrd κ] [Std.LawfulEqOrd κ'] in
lemma NoEmpty.prune_erase2 (h : NoEmpty m) : NoEmpty (prune (erase2 m k) k.1) := by
  intro a
  rw [prune, erase2]
  cases hm : m[k.1]? with
  | none =>
    simp only [hm]
    exact h a
  | some n =>
    simp only [Std.ExtTreeMap.getElem?_insert_self]
    split
    · next hn =>
      rw [Std.ExtTreeMap.getElem?_erase]
      split
      · simp
      · next ha =>
        rw [Std.ExtTreeMap.getElem?_insert, if_neg ha]
        exact h a
    · next hn =>
      rw [Std.ExtTreeMap.getElem?_insert]
      split
      · rw [Std.ExtTreeMap.isEmpty_iff] at hn
        simpa using hn
      · exact h a

omit [Std.LawfulEqOrd κ] in
lemma NoEmpty.exists_get2 (h : NoEmpty m) {n : BTreeMap κ' ν} (ha : m[a]? = some n) :
    ∃ b v, m.get2 (a, b) = some v := by
  have hn : n ≠ ∅ := by
    rintro rfl
    exact h a ha
  obtain ⟨b, hb⟩ : ∃ b : κ', n[b]? ≠ none := by
    by_contra hnone
    push Not at hnone
    exact hn (Std.ExtTreeMap.ext_getElem? fun b => by rw [hnone b, Std.ExtTreeMap.getElem?_empty])
  obtain ⟨v, hv⟩ := Option.ne_none_iff_exists'.mp hb
  exact ⟨b, v, by simp [get2, ha, hv]⟩

omit [Std.LawfulEqOrd κ] in
lemma getElem?_eq_of_get2 (hm : NoEmpty m) (hm' : NoEmpty m')
    (h : ∀ b, m.get2 (a, b) = m'.get2 (a, b)) : m[a]? = m'[a]? := by
  cases ha : m[a]? with
  | none =>
    cases ha' : m'[a]? with
    | none => rfl
    | some n' =>
      obtain ⟨b, v, hv⟩ := hm'.exists_get2 ha'
      rw [← h] at hv
      simp [get2, ha] at hv
  | some n =>
    cases ha' : m'[a]? with
    | none =>
      obtain ⟨b, v, hv⟩ := hm.exists_get2 ha
      rw [h] at hv
      simp [get2, ha'] at hv
    | some n' =>
      refine congrArg some (Std.ExtTreeMap.ext_getElem? fun b => ?_)
      simpa [get2, ha, ha'] using h b

theorem ext2 (hm : NoEmpty m) (hm' : NoEmpty m') (h : ∀ k, m.get2 k = m'.get2 k) : m = m' :=
  Std.ExtTreeMap.ext_getElem? fun a => getElem?_eq_of_get2 hm hm' fun b => h (a, b)

/-! ### The order of the pairs -/

omit [Std.LawfulEqOrd κ] [Std.LawfulEqOrd κ'] in
lemma values2_eq (m : BTreeMap κ (BTreeMap κ' ν)) : m.values2 = m.toList2.map Prod.snd := by
  simp only [values2, toList2, List.map_flatMap, List.map_map, Function.comp_def]

lemma mem_toList2 : (k, v) ∈ m.toList2 ↔ m.get2 k = some v := by
  obtain ⟨a, b⟩ := k
  simp only [toList2, List.mem_flatMap, List.mem_map, Prod.exists, Prod.mk.injEq,
    Std.ExtTreeMap.mem_toList_iff_getElem?_eq_some, get2, Option.bind_eq_some_iff]
  constructor
  · rintro ⟨a', n, hn, b', v', hv, ⟨rfl, rfl⟩, rfl⟩
    exact ⟨n, hn, hv⟩
  · rintro ⟨n, hn, hv⟩
    exact ⟨a, n, hn, b, v, hv, ⟨rfl, rfl⟩, rfl⟩

omit [Std.LawfulEqOrd κ'] in
lemma ordered_toList2 (m : BTreeMap κ (BTreeMap κ' ν)) :
    m.toList2.Pairwise fun e f => ((compare e.1.1 f.1.1).then (compare e.1.2 f.1.2)) = .lt := by
  rw [toList2, List.pairwise_flatMap]
  refine ⟨fun e _ => ?_, ?_⟩
  · rw [List.pairwise_map]
    refine e.2.ordered_keys_toList.imp fun h => ?_
    simpa using h
  · refine m.ordered_keys_toList.imp fun h => ?_
    simp only [List.mem_map]
    rintro _ ⟨f, -, rfl⟩ _ ⟨f', -, rfl⟩
    rw [h]
    rfl

lemma nodup_keys_toList2 (m : BTreeMap κ (BTreeMap κ' ν)) : (m.toList2.map Prod.fst).Nodup := by
  rw [List.nodup_iff_pairwise_ne, List.pairwise_map]
  refine m.ordered_toList2.imp fun h heq => ?_
  simp [heq] at h

end Lookup

end BTreeMap

end RustStd
