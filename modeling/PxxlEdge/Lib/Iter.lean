import Mathlib.Tactic
import Mathlib.Data.List.Basic

/-!
Selection from a list by a key, as Rust's iterators do it (`Iterator::max` is
`List.max?`).
-/

namespace RustStd

open List

variable {α : Type*}

def keepLarger (key : α → ℕ) (best : Option α) (x : α) : Option α :=
  match best with
  | none => some x
  | some b => if key b ≤ key x then some x else some b

def maxByKey (key : α → ℕ) (l : List α) : Option α := l.foldl (keepLarger key) none

def minByKey (key : α → ℕ) (l : List α) : Option α :=
  l.foldl
    (fun best x =>
      match best with
      | none => some x
      | some b => if key x < key b then some x else some b)
    none

lemma maxByKey_concat (key : α → ℕ) (l : List α) (x : α) :
    maxByKey key (l ++ [x]) = keepLarger key (maxByKey key l) x := by
  rw [maxByKey, foldl_append]
  rfl

@[simp] lemma maxByKey_eq_none {key : α → ℕ} {l : List α} : maxByKey key l = none ↔ l = [] := by
  cases l using List.reverseRecOn with
  | nil => exact iff_of_true rfl rfl
  | append_singleton l x =>
    refine iff_of_false ?_ (concat_ne_nil x l)
    rw [maxByKey_concat]
    cases maxByKey key l with
    | none => exact Option.some_ne_none x
    | some b =>
      rw [keepLarger]
      split <;> exact Option.some_ne_none _

lemma maxByKey_eq_some {key : α → ℕ} {l : List α} {m : α} (h : maxByKey key l = some m) :
    m ∈ l ∧ ∀ x ∈ l, key x ≤ key m := by
  induction l using List.reverseRecOn generalizing m with
  | nil => cases h
  | append_singleton l x ih =>
    rw [maxByKey_concat] at h
    rw [mem_append, forall_mem_append, forall_mem_singleton]
    cases hmax : maxByKey key l with
    | none =>
      rw [hmax] at h
      cases h
      rw [maxByKey_eq_none.mp hmax]
      simp
    | some b =>
      obtain ⟨hb, hle⟩ := ih hmax
      rw [hmax, keepLarger] at h
      split at h
      · next hbx =>
        cases h
        exact ⟨.inr mem_cons_self, fun y hy => (hle y hy).trans hbx, le_rfl⟩
      · next hbx =>
        cases h
        exact ⟨.inl hb, hle, (Nat.lt_of_not_le hbx).le⟩

structure Chooses (l : List α) (choice : Option α) : Prop where
  mem : ∀ a, choice = some a → a ∈ l
  isSome : l ≠ [] → choice.isSome = true

lemma chooses_maxByKey (key : α → ℕ) (l : List α) : Chooses l (maxByKey key l) where
  mem := fun _ h => (maxByKey_eq_some h).1
  isSome := by
    intro hne
    rw [Option.isSome_iff_ne_none]
    exact mt maxByKey_eq_none.mp hne

lemma chooses_minByKey (key : α → ℕ) (l : List α) : Chooses l (minByKey key l) := by
  induction l using List.reverseRecOn with
  | nil => exact ⟨by simp [minByKey], by simp⟩
  | append_singleton l x ih =>
    rw [minByKey, foldl_append, ← minByKey, foldl_cons, foldl_nil]
    split
    · exact ⟨by simp, by simp⟩
    · next b hb =>
      split
      · exact ⟨by simp, by simp⟩
      · exact ⟨by simp [ih.mem b hb], by simp⟩

lemma chooses_getElem?_mod (l : List α) (n : ℕ) : Chooses l l[n % l.length]? where
  mem := fun _ h => mem_of_getElem? h
  isSome := by
    intro hne
    rw [getElem?_eq_getElem (Nat.mod_lt n (length_pos_iff.mpr hne))]
    rfl

lemma exists_largest (key : α → ℕ) {l : List α} (hne : l ≠ []) :
    ∃ m ∈ l, ∀ x ∈ l, key x ≤ key m := by
  cases hmax : maxByKey key l with
  | none => exact absurd (maxByKey_eq_none.mp hmax) hne
  | some m => exact ⟨m, maxByKey_eq_some hmax⟩

lemma maxByKey_map {β : Type*} (key : β → ℕ) (f : α → β) (l : List α) :
    maxByKey key (l.map f) = (maxByKey (key ∘ f) l).map f := by
  suffices h : ∀ best, (l.map f).foldl (keepLarger key) (best.map f) =
      (l.foldl (keepLarger (key ∘ f)) best).map f from h none
  induction l with
  | nil => exact fun best => rfl
  | cons x l ih =>
    intro best
    rw [map_cons, foldl_cons, foldl_cons, ← ih]
    congr 1
    cases best with
    | none => rfl
    | some b =>
      simp only [keepLarger, Option.map_some, Function.comp_apply]
      split <;> rfl

/-! ### Other lists of candidates -/

section Candidates

variable {key : α → ℕ} {l : List α}

lemma maxByKey_concat_of_forall_le {x : α} (h : ∀ y ∈ l, key y ≤ key x) :
    maxByKey key (l ++ [x]) = some x := by
  rw [maxByKey_concat]
  cases hmax : maxByKey key l with
  | none => rfl
  | some b => exact if_pos (h b (maxByKey_eq_some hmax).1)

lemma maxByKey_insert (key : α → ℕ) (l₁ l₂ : List α) (x : α) :
    maxByKey key (l₁ ++ x :: l₂) = maxByKey key (l₁ ++ l₂) ∨
      maxByKey key (l₁ ++ x :: l₂) = some x := by
  -- by induction on what stands behind the candidate, from its end
  induction l₂ using List.reverseRecOn with
  | nil =>
    rw [maxByKey_concat, append_nil]
    cases hmax : maxByKey key l₁ with
    | none => exact .inr rfl
    | some b =>
      rw [keepLarger]
      split
      · exact .inr rfl
      · exact .inl rfl
  | append_singleton l₂ y ih =>
    rw [← cons_append, ← append_assoc, ← append_assoc, maxByKey_concat,
      maxByKey_concat]
    rcases ih with heq | hx
    · exact .inl (by rw [heq])
    · by_cases hle : key x ≤ key y
      · -- the last one beats the candidate, and so all that the candidate beats
        refine .inl ?_
        rw [← maxByKey_concat key (l₁ ++ l₂), maxByKey_concat_of_forall_le, hx, keepLarger,
          if_pos hle]
        intro z hz
        refine ((maxByKey_eq_some hx).2 z ?_).trans hle
        rw [mem_append, mem_cons]
        exact (mem_append.mp hz).imp_right .inr
      · exact .inr (by rw [hx, keepLarger, if_neg hle])

def OneLargest (key : α → ℕ) (l : List α) : Prop :=
  ∀ a ∈ l, ∀ b ∈ l, (∀ x ∈ l, key x ≤ key a) → (∀ x ∈ l, key x ≤ key b) → a = b

lemma OneLargest.maxByKey_eq_some (h : OneLargest key l) {l' : List α} (hl : l'.Perm l) {a : α}
    (ha : a ∈ l) (hlargest : ∀ x ∈ l, key x ≤ key a) : maxByKey key l' = some a := by
  cases hmax : maxByKey key l' with
  | none =>
    rw [maxByKey_eq_none] at hmax
    rw [hmax, nil_perm] at hl
    rw [hl] at ha
    cases ha
  | some b =>
    obtain ⟨hb, hb'⟩ := RustStd.maxByKey_eq_some hmax
    rw [h a ha b (hl.mem_iff.mp hb) hlargest fun x hx => hb' x (hl.mem_iff.mpr hx)]

lemma forall_perm_maxByKey_iff [DecidableEq α] {β : Type*} {g : α → β}
    (hg : Set.InjOn g {a | a ∈ l}) :
    (∀ l', l'.Perm l → (maxByKey key l').map g = (maxByKey key l).map g) ↔ OneLargest key l := by
  constructor
  · -- each element with the largest key is chosen where it stands last
    intro h
    have hlast : ∀ a ∈ l, (∀ x ∈ l, key x ≤ key a) → some (g a) = (maxByKey key l).map g := by
      intro a ha hlargest
      have hperm : (l.erase a ++ [a]).Perm l :=
        (perm_append_singleton a (l.erase a)).trans (perm_cons_erase ha).symm
      have hrest : ∀ y ∈ l.erase a, key y ≤ key a := fun y hy =>
        hlargest y (mem_of_mem_erase hy)
      rw [← h _ hperm, maxByKey_concat_of_forall_le hrest]
      rfl
    intro a ha b hb hlargest hlargest'
    exact hg ha hb (Option.some.inj ((hlast a ha hlargest).trans (hlast b hb hlargest').symm))
  · intro h l' hl
    cases hmax : maxByKey key l with
    | none =>
      rw [maxByKey_eq_none] at hmax
      rw [hmax, perm_nil] at hl
      rw [hl]
      rfl
    | some a =>
      obtain ⟨ha, hlargest⟩ := RustStd.maxByKey_eq_some hmax
      rw [h.maxByKey_eq_some hl ha hlargest]

end Candidates

lemma max?_congr {l l' : List ℕ} (h : ∀ n, n ∈ l ↔ n ∈ l') : l.max? = l'.max? := by
  cases hmax : l'.max? with
  | none =>
    obtain rfl := max?_eq_none_iff.mp hmax
    obtain rfl : l = [] :=
      eq_nil_iff_forall_not_mem.mpr fun n hn => by simpa using (h n).mp hn
    rfl
  | some m =>
    obtain ⟨hmem, hle⟩ := max?_eq_some_iff.mp hmax
    exact max?_eq_some_iff.mpr ⟨(h m).mpr hmem, fun n hn => hle n ((h n).mp hn)⟩

/-! ### Stable partitions -/

lemma eq_singleton_of_mem {l : List α} {a : α} (ha : a ∈ l) (hlen : l.length ≤ 1) : l = [a] := by
  obtain ⟨b, rfl⟩ := length_eq_one_iff.mp (le_antisymm hlen (length_pos_of_mem ha))
  rw [mem_singleton.mp ha]

lemma filter_append_filter {p : α → Bool} {l : List α}
    (h : l.Pairwise fun a b => p a = true → p b = true) :
    (l.filter fun a => !p a) ++ l.filter p = l := by
  induction l with
  | nil => rfl
  | cons a l ih =>
    obtain ⟨ha, hl⟩ := pairwise_cons.mp h
    by_cases hpa : p a = true
    · have hall : ∀ b ∈ l, p b = true := fun b hb => ha b hb hpa
      have hnone : (l.filter fun b => !p b) = [] :=
        filter_eq_nil_iff.mpr fun b hb => by simp [hall b hb]
      rw [filter_cons_of_neg (by simp [hpa]), filter_cons_of_pos hpa, hnone,
        filter_eq_self.mpr hall, nil_append]
    · rw [filter_cons_of_pos (by simp [hpa]), filter_cons_of_neg hpa,
        cons_append, ih hl]

/-! ### Partial maps with an inverse -/

lemma map_filterMap_of_inverse {β : Type*} {g : α → Option β} {k : β → α}
    (hk : ∀ a b, g a = some b → k b = a) (l : List α) :
    (l.filterMap g).map k = l.filter fun a => (g a).isSome := by
  induction l with
  | nil => rfl
  | cons a l ih =>
    cases hg : g a with
    | none => simp [hg, ih]
    | some b => simp [hg, ih, hk a b hg]

/-! ### Appending without repetition -/

variable {κ : Type*} [BEq κ]

def extendUniqueBy (key : α → κ) (target items : List α) : List α :=
  items.foldl
    (fun target x => if target.any fun e => key e == key x then target else target ++ [x]) target

lemma mem_map_extendUniqueBy [LawfulBEq κ] {key : α → κ} {target items : List α} {k : κ} :
    k ∈ (extendUniqueBy key target items).map key ↔ k ∈ target.map key ∨ k ∈ items.map key := by
  induction items generalizing target with
  | nil => simp [extendUniqueBy]
  | cons x items ih =>
    rw [extendUniqueBy, foldl_cons, ← extendUniqueBy, ih]
    split
    · next hany =>
      -- the key of a skipped item is there already
      obtain ⟨e, he, hkey⟩ := any_eq_true.mp hany
      have hx : key x ∈ target.map key := (eq_of_beq hkey) ▸ mem_map_of_mem he
      rw [map_cons, mem_cons]
      constructor
      · rintro (h | h)
        · exact .inl h
        · exact .inr (.inr h)
      · rintro (h | rfl | h)
        · exact .inl h
        · exact .inl hx
        · exact .inr h
    · simp [or_assoc]

lemma mem_of_mem_extendUniqueBy {key : α → κ} {target items : List α} {x : α}
    (h : x ∈ extendUniqueBy key target items) : x ∈ target ∨ x ∈ items := by
  induction items generalizing target with
  | nil => exact .inl h
  | cons y items ih =>
    rw [extendUniqueBy, foldl_cons, ← extendUniqueBy] at h
    rcases ih h with hx | hx
    · split at hx
      · exact .inl hx
      · rcases mem_append.mp hx with hx | hx
        · exact .inl hx
        · exact .inr (mem_singleton.mp hx ▸ mem_cons_self)
    · exact .inr (mem_cons_of_mem y hx)

lemma extendUniqueBy_map (key : α → κ) (f : α → α) (hf : ∀ a, key (f a) = key a)
    (target items : List α) :
    extendUniqueBy key (target.map f) (items.map f) = (extendUniqueBy key target items).map f := by
  induction items generalizing target with
  | nil => rfl
  | cons x items ih =>
    have hany : ((target.map f).any fun e => key e == key (f x)) =
        target.any fun e => key e == key x := by
      simp [any_map, Function.comp_def, hf]
    rw [map_cons, extendUniqueBy, extendUniqueBy, foldl_cons, foldl_cons, hany,
      ← extendUniqueBy, ← extendUniqueBy, ← ih]
    congr 1
    split
    · rfl
    · rw [map_append, map_singleton]

/-! ### Loops that stop at the first error -/

section MapM

variable {α β ε : Type} {f : α → Except ε β}

lemma ok_bind (a : α) (f : α → Except ε β) : (.ok a >>= f) = f a := rfl

lemma bind_eq_ok {x : Except ε α} {b : β} :
    (x >>= f) = .ok b ↔ ∃ a, x = .ok a ∧ f a = .ok b := by
  cases x with
  | error e => simp [bind, Except.bind]
  | ok a => simp [bind, Except.bind]

lemma check_eq_ok {c : Prop} [Decidable c] {e : ε} {rest : Unit → Except ε β} {b : β} :
    (if c then Except.error e >>= rest else rest ()) = .ok b ↔ ¬ c ∧ rest () = .ok b := by
  by_cases hc : c
  · simp [hc, bind, Except.bind]
  · simp [hc]

lemma mapM_eq_ok_cons {a : α} {l : List α} {bs : List β} :
    (a :: l).mapM f = .ok bs ↔
      ∃ b bs', f a = .ok b ∧ l.mapM f = .ok bs' ∧ bs = b :: bs' := by
  rw [mapM_cons]
  cases hfa : f a with
  | error e => simp [bind, Except.bind]
  | ok b =>
    cases hl : l.mapM f with
    | error e => simp [bind, Except.bind]
    | ok bs' =>
      simp only [bind, Except.bind, pure, Except.pure, Except.ok.injEq]
      constructor
      · rintro rfl
        exact ⟨b, bs', rfl, rfl, rfl⟩
      · rintro ⟨_, _, rfl, rfl, rfl⟩
        rfl

lemma mem_iff_of_mapM_eq_ok {l : List α} {bs : List β} (h : l.mapM f = .ok bs) {b : β} :
    b ∈ bs ↔ ∃ a ∈ l, f a = .ok b := by
  induction l generalizing bs with
  | nil =>
    obtain rfl : [] = bs := Except.ok.inj h
    simp
  | cons a l ih =>
    obtain ⟨b', bs', hb', hbs', rfl⟩ := mapM_eq_ok_cons.mp h
    rw [mem_cons, ih hbs']
    simp [hb', eq_comm]

lemma exists_mapM_eq_ok {l : List α} :
    (∃ bs, l.mapM f = .ok bs) ↔ ∀ a ∈ l, ∃ b, f a = .ok b := by
  induction l with
  | nil => exact iff_of_true ⟨[], rfl⟩ (by simp)
  | cons a l ih =>
    rw [forall_mem_cons, ← ih]
    constructor
    · rintro ⟨bs, h⟩
      obtain ⟨b, bs', hb, hbs', -⟩ := mapM_eq_ok_cons.mp h
      exact ⟨⟨b, hb⟩, bs', hbs'⟩
    · rintro ⟨⟨b, hb⟩, bs', hbs'⟩
      exact ⟨b :: bs', mapM_eq_ok_cons.mpr ⟨b, bs', hb, hbs', rfl⟩⟩

lemma foldlM_eq_ok_cons {f : β → α → Except ε β} {a : α} {l : List α} {b c : β} :
    (a :: l).foldlM f b = .ok c ↔ ∃ b', f b a = .ok b' ∧ l.foldlM f b' = .ok c := by
  rw [foldlM_cons]
  cases hfa : f b a with
  | error e => simp [bind, Except.bind]
  | ok b' =>
    rw [ok_bind]
    simp

lemma exists_foldlM_eq_ok {f : β → α → Except ε β} {good : α → Prop}
    (hgood : ∀ b a, (∃ b', f b a = .ok b') ↔ good a) {l : List α} {b : β} :
    (∃ c, l.foldlM f b = .ok c) ↔ ∀ a ∈ l, good a := by
  induction l generalizing b with
  | nil => exact iff_of_true ⟨b, rfl⟩ (by simp)
  | cons a l ih =>
    rw [forall_mem_cons, ← hgood b a]
    constructor
    · rintro ⟨c, h⟩
      obtain ⟨b', hb', hrest⟩ := foldlM_eq_ok_cons.mp h
      exact ⟨⟨b', hb'⟩, ih.mp ⟨c, hrest⟩⟩
    · rintro ⟨⟨b', hb'⟩, hl⟩
      obtain ⟨c, hc⟩ := ih.mpr hl
      exact ⟨c, foldlM_eq_ok_cons.mpr ⟨b', hb', hc⟩⟩

end MapM

end RustStd
