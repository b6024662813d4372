import Mathlib.Tactic
import Mathlib.Algebra.BigOperators.Group.List.Basic

/-!
Sliding windows made of slots.

An event is put into the slot of its start, and slots that have become too old are
dropped from the front of the window, until the first one that has not.  The contents
are those of any commutative monoid.
-/

namespace SlidingWindow

open List

structure Slot (M : Type*) where
  start : ℕ
  content : M

section Slots

variable {M : Type*} [AddCommMonoid M]

def trim (oldest : ℕ) (slots : List (Slot M)) : List (Slot M) :=
  slots.dropWhile fun s => decide (s.start < oldest)

def deposit (start : ℕ) (x : M) : List (Slot M) → List (Slot M)
  | [] => [⟨start, x⟩]
  | s :: slots => if s.start = start then ⟨s.start, s.content + x⟩ :: slots
      else s :: deposit start x slots

def total (slots : List (Slot M)) : M := (slots.map Slot.content).sum

variable {oldest start σ : ℕ} {x : M} {slots : List (Slot M)} {s : Slot M}

omit [AddCommMonoid M] in
lemma mem_of_mem_trim (h : s ∈ trim oldest slots) : s ∈ slots :=
  (dropWhile_sublist _).subset h

omit [AddCommMonoid M] in
lemma mem_trim (hs : s ∈ slots) (hstart : oldest ≤ s.start) : s ∈ trim oldest slots := by
  induction slots with
  | nil => cases hs
  | cons a slots ih =>
    rw [trim, dropWhile_cons]
    split
    · next hdrop =>
      rcases mem_cons.mp hs with rfl | hs
      · exact absurd (of_decide_eq_true hdrop) (by omega)
      · exact ih hs
    · exact hs

omit [AddCommMonoid M] in
lemma mem_starts_of_mem_trim (h : σ ∈ (trim oldest slots).map Slot.start) :
    σ ∈ slots.map Slot.start := by
  obtain ⟨s, hs, rfl⟩ := mem_map.mp h
  exact mem_map_of_mem (mem_of_mem_trim hs)

omit [AddCommMonoid M] in
lemma mem_starts_trim (h : σ ∈ slots.map Slot.start) (hσ : oldest ≤ σ) :
    σ ∈ (trim oldest slots).map Slot.start := by
  obtain ⟨s, hs, rfl⟩ := mem_map.mp h
  exact mem_map_of_mem (mem_trim hs hσ)

lemma mem_starts_deposit :
    σ ∈ (deposit start x slots).map Slot.start ↔ σ = start ∨ σ ∈ slots.map Slot.start := by
  induction slots with
  | nil => simp [deposit]
  | cons s slots ih =>
    rw [deposit]
    split
    · next h =>
      subst h
      simp
    · rw [map_cons, mem_cons, ih, map_cons, mem_cons]
      tauto

lemma nodup_starts_deposit (h : (slots.map Slot.start).Nodup) :
    ((deposit start x slots).map Slot.start).Nodup := by
  induction slots with
  | nil => simp [deposit]
  | cons s slots ih =>
    obtain ⟨hs, hslots⟩ := nodup_cons.mp h
    rw [deposit]
    split
    · exact h
    · next hne =>
      refine nodup_cons.mpr ⟨fun hmem => ?_, ih hslots⟩
      rcases mem_starts_deposit.mp hmem with heq | hmem
      · exact hne heq
      · exact hs hmem

lemma mem_deposit (hnodup : (slots.map Slot.start).Nodup) (h : s ∈ deposit start x slots) :
    (s ∈ slots ∧ s.start ≠ start) ∨
      (∃ s₀ ∈ slots, s₀.start = start ∧ s = ⟨start, s₀.content + x⟩) ∨
      (start ∉ slots.map Slot.start ∧ s = ⟨start, x⟩) := by
  induction slots with
  | nil => exact .inr (.inr ⟨by simp, mem_singleton.mp h⟩)
  | cons a slots ih =>
    obtain ⟨ha, hslots⟩ := nodup_cons.mp hnodup
    rw [deposit] at h
    split at h
    · next heq =>
      rcases mem_cons.mp h with rfl | hs
      · exact .inr (.inl ⟨a, mem_cons_self, heq, by rw [heq]⟩)
      · refine .inl ⟨mem_cons_of_mem a hs, fun hstart => ha ?_⟩
        rw [heq, ← hstart]
        exact mem_map_of_mem hs
    · next hne =>
      rcases mem_cons.mp h with rfl | hs
      · exact .inl ⟨mem_cons_self, hne⟩
      · rcases ih hslots hs with ⟨hmem, hstart⟩ | ⟨s₀, hs₀, hstart, heq⟩ | ⟨hnot, heq⟩
        · exact .inl ⟨mem_cons_of_mem a hmem, hstart⟩
        · exact .inr (.inl ⟨s₀, mem_cons_of_mem a hs₀, hstart, heq⟩)
        · refine .inr (.inr ⟨fun hmem => ?_, heq⟩)
          rcases mem_cons.mp hmem with hstart | hmem
          · exact hne hstart.symm
          · exact hnot hmem

lemma total_deposit : total (deposit start x slots) = total slots + x := by
  induction slots with
  | nil => simp [deposit, total]
  | cons s slots ih =>
    rw [deposit]
    split
    · exact add_right_comm s.content x (total slots)
    · calc total (s :: deposit start x slots)
          = s.content + total (deposit start x slots) := rfl
        _ = s.content + (total slots + x) := by rw [ih]
        _ = total (s :: slots) + x := (add_assoc _ _ _).symm

lemma exists_total_trim_add (oldest : ℕ) (slots : List (Slot M)) :
    ∃ dropped, total (trim oldest slots) + dropped = total slots := by
  set old := slots.takeWhile fun s => decide (s.start < oldest) with hold
  refine ⟨total old, ?_⟩
  calc total (trim oldest slots) + total old
      = total (old ++ trim oldest slots) := by
        rw [add_comm, total, total, total, map_append, sum_append]
    _ = total slots := by rw [hold, trim, takeWhile_append_dropWhile]

end Slots

/-! ### Events -/

structure Scale (E M : Type*) where
  width : ℕ
  time : E → ℕ
  start : E → ℕ
  value : E → M
  fits : ∀ e, time e - width ≤ start e

namespace Scale

variable {E M : Type*} [AddCommMonoid M] (W : Scale E M)

def observe (slots : List (Slot M)) (e : E) : List (Slot M) :=
  deposit (W.start e) (W.value e) (trim (W.time e - W.width) slots)

def latest (events : List E) : ℕ := (events.map W.time).foldr max 0

def oldest (events : List E) : ℕ := W.latest events - W.width

def contentAt (events : List E) (σ : ℕ) : M :=
  ((events.filter fun e => decide (W.start e = σ)).map W.value).sum

structure Exact (events : List E) (slots : List (Slot M)) : Prop where
  nodup : (slots.map Slot.start).Nodup
  mem_iff : ∀ σ, σ ∈ slots.map Slot.start ↔ W.oldest events ≤ σ ∧ ∃ e ∈ events, W.start e = σ
  content : ∀ s ∈ slots, s.content = W.contentAt events s.start

structure Fits (events : List E) (slots : List (Slot M)) (e : E) : Prop where
  fresh : W.oldest events ≤ W.start e
  front : ∀ s ∈ trim (W.time e - W.width) slots, W.time e - W.width ≤ s.start

instance (events : List E) (slots : List (Slot M)) (e : E) : Decidable (W.Fits events slots e) :=
  decidable_of_iff (W.oldest events ≤ W.start e ∧
      ∀ s ∈ trim (W.time e - W.width) slots, W.time e - W.width ≤ s.start)
    ⟨fun h => ⟨h.1, h.2⟩, fun h => ⟨h.fresh, h.front⟩⟩

variable {W} {events : List E} {slots : List (Slot M)} {e : E}

lemma exact_nil : W.Exact [] [] :=
  ⟨nodup_nil, by simp, by simp⟩

omit [AddCommMonoid M] in
lemma oldest_concat (events : List E) (e : E) :
    W.oldest (events ++ [e]) = max (W.oldest events) (W.time e - W.width) := by
  have hlatest : W.latest (events ++ [e]) = max (W.latest events) (W.time e) := by
    induction events with
    | nil => simp [latest]
    | cons a events ih =>
      have hcons : ∀ l : List E, W.latest (a :: l) = max (W.time a) (W.latest l) := fun _ => rfl
      rw [cons_append, hcons, ih, hcons, max_assoc]
  rw [oldest, oldest, hlatest]
  omega

lemma contentAt_concat (events : List E) (e : E) (σ : ℕ) :
    W.contentAt (events ++ [e]) σ =
      W.contentAt events σ + if W.start e = σ then W.value e else 0 := by
  rw [contentAt, contentAt, filter_append, map_append, sum_append]
  congr 1
  by_cases h : W.start e = σ <;> simp [h]

lemma contentAt_eq_zero {σ : ℕ} (h : ∀ e ∈ events, W.start e ≠ σ) : W.contentAt events σ = 0 := by
  have hnil : (events.filter fun e => decide (W.start e = σ)) = [] :=
    filter_eq_nil_iff.mpr fun e he => by simpa using h e he
  rw [contentAt, hnil, map_nil, sum_nil]

theorem exact_observe_iff (h : W.Exact events slots) :
    W.Exact (events ++ [e]) (W.observe slots e) ↔ W.Fits events slots e := by
  have hfits := W.fits e
  constructor
  · intro hexact
    have holdest : ∀ σ ∈ (W.observe slots e).map Slot.start,
        W.oldest events ≤ σ ∧ W.time e - W.width ≤ σ := by
      intro σ hσ
      have hσ := ((hexact.mem_iff σ).mp hσ).1
      rw [oldest_concat] at hσ
      omega
    refine ⟨(holdest _ (mem_starts_deposit.mpr (.inl rfl))).1, fun s hs => ?_⟩
    exact (holdest _ (mem_starts_deposit.mpr (.inr (mem_map_of_mem hs)))).2
  · rintro ⟨hfresh, hfront⟩
    have hnodup : ((trim (W.time e - W.width) slots).map Slot.start).Nodup :=
      h.nodup.sublist ((dropWhile_sublist _).map _)
    refine ⟨nodup_starts_deposit hnodup, fun σ => ?_, fun s hs => ?_⟩
    · rw [observe, mem_starts_deposit, oldest_concat]
      constructor
      · rintro (rfl | hσ)
        · exact ⟨by omega, e, by simp, rfl⟩
        · obtain ⟨s, hs, rfl⟩ := mem_map.mp hσ
          obtain ⟨hold, e', he', hstart⟩ := (h.mem_iff _).mp (mem_starts_of_mem_trim hσ)
          have hs := hfront s hs
          exact ⟨by omega, e', by simp [he'], hstart⟩
      · rintro ⟨hold, e', he', rfl⟩
        rcases mem_append.mp he' with he' | he'
        · have hmem := (h.mem_iff (W.start e')).mpr ⟨by omega, e', he', rfl⟩
          exact .inr (mem_starts_trim hmem (by omega))
        · rw [mem_singleton.mp he']
          exact .inl rfl
    · rw [contentAt_concat]
      rcases mem_deposit hnodup hs with ⟨hmem, hne⟩ | ⟨s₀, hs₀, hstart, rfl⟩ | ⟨hnot, rfl⟩
      · rw [if_neg (Ne.symm hne), add_zero]
        exact h.content s (mem_of_mem_trim hmem)
      · rw [if_pos rfl, ← hstart, ← h.content s₀ (mem_of_mem_trim hs₀)]
      · -- no earlier event has this start, or its slot would still be there
        have hnone : W.contentAt events (W.start e) = 0 := by
          refine contentAt_eq_zero fun e' he' hstart => hnot ?_
          exact mem_starts_trim ((h.mem_iff _).mpr ⟨hfresh, e', he', hstart⟩) hfits
        rw [if_pos rfl, hnone, zero_add]

lemma sum_map_indicator {keys : List ℕ} (hkeys : keys.Nodup) (σ : ℕ) (x : M) :
    (keys.map fun k => if σ = k then x else 0).sum = if σ ∈ keys then x else 0 := by
  induction keys with
  | nil => simp
  | cons k keys ih =>
    obtain ⟨hk, hkeys⟩ := nodup_cons.mp hkeys
    rw [map_cons, sum_cons, ih hkeys]
    by_cases h : σ = k
    · subst h
      simp [hk]
    · simp [h]

lemma sum_map_contentAt {keys : List ℕ} (hkeys : keys.Nodup) (events : List E) :
    (keys.map (W.contentAt events)).sum =
      ((events.filter fun e => decide (W.start e ∈ keys)).map W.value).sum := by
  induction events using List.reverseRecOn with
  | nil =>
    have hnil : W.contentAt [] = fun _ => 0 := rfl
    simp [hnil]
  | append_singleton events e ih =>
    have hconcat : W.contentAt (events ++ [e]) = fun k =>
        W.contentAt events k + if W.start e = k then W.value e else 0 :=
      funext fun k => contentAt_concat events e k
    rw [hconcat, sum_map_add, ih, sum_map_indicator hkeys, filter_append,
      map_append, sum_append]
    congr 1
    by_cases h : W.start e ∈ keys <;> simp [h]

theorem Exact.total_eq (h : W.Exact events slots) :
    total slots =
      ((events.filter fun e => decide (W.oldest events ≤ W.start e)).map W.value).sum := by
  have hslots : slots.map Slot.content = (slots.map Slot.start).map (W.contentAt events) := by
    rw [map_map]
    exact map_congr_left fun s hs => h.content s hs
  have hevents : events.filter (fun e => decide (W.start e ∈ slots.map Slot.start)) =
      events.filter fun e => decide (W.oldest events ≤ W.start e) := by
    refine filter_congr fun e he => ?_
    rw [decide_eq_decide, h.mem_iff]
    exact ⟨fun hmem => hmem.1, fun hold => ⟨hold, e, he, rfl⟩⟩
  calc total slots = ((slots.map Slot.start).map (W.contentAt events)).sum := by
        rw [total, hslots]
    _ = ((events.filter fun e => decide (W.start e ∈ slots.map Slot.start)).map W.value).sum :=
        sum_map_contentAt h.nodup events
    _ = ((events.filter fun e => decide (W.oldest events ≤ W.start e)).map W.value).sum := by
        rw [hevents]

lemma exists_total_observe_add (slots : List (Slot M)) (e : E) :
    ∃ dropped, total (W.observe slots e) + dropped = total slots + W.value e := by
  obtain ⟨dropped, hdropped⟩ := exists_total_trim_add (W.time e - W.width) slots
  refine ⟨dropped, ?_⟩
  calc total (W.observe slots e) + dropped
      = total (trim (W.time e - W.width) slots) + W.value e + dropped := by
        rw [observe, total_deposit]
    _ = total (trim (W.time e - W.width) slots) + dropped + W.value e := add_right_comm _ _ _
    _ = total slots + W.value e := by rw [hdropped]

end Scale

end SlidingWindow
