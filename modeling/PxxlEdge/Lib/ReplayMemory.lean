import PxxlEdge.Lib.Map
import PxxlEdge.Lib.Run

/-!
A memory of used keys that makes every key good for one use.

A key can be used up to a deadline.  Each use is remembered for some time; when
the memory has grown to its capacity, what has run out by then is forgotten
before the next use is looked up.
-/

namespace ReplayMemory

open RustStd Run List

structure Attempt (κ : Type) where
  key : κ
  deadline : ℕ
  checked : ℕ
  pruned : ℕ
  stored : ℕ

structure State (κ : Type) where
  memory : Map κ ℕ := ∅
  accepted : List (Attempt κ) := []

variable {κ : Type} [DecidableEq κ] (capacity life : ℕ)

def live (memory : Map κ ℕ) (now : ℕ) : Map κ ℕ :=
  if memory.entries.length < capacity then memory
  else memory.retain fun _ expiresAt => now < expiresAt

def step (s : State κ) (a : Attempt κ) : State κ where
  memory := (live capacity s.memory a.pruned).insert a.key (a.stored + life)
  accepted :=
    if ((live capacity s.memory a.pruned).get a.key).isNone then s.accepted ++ [a] else s.accepted

def Attempt.readings {κ : Type} (a : Attempt κ) : List ℕ := [a.checked, a.pruned, a.stored]

def KeepsLive (s : State κ) (a : Attempt κ) : Prop :=
  capacity ≤ s.memory.entries.length →
    ∀ b ∈ s.accepted, b.deadline < a.checked ∨ a.pruned < b.stored + life

structure Remembered (now : ℕ) (s : State κ) : Prop where
  nodup : (s.accepted.map fun a => (a.key, a.deadline)).Nodup
  past : ∀ a ∈ s.accepted, a.stored ≤ now
  known : ∀ a ∈ s.accepted,
    a.deadline < now ∨ ∃ expiresAt, s.memory.lookup a.key = some expiresAt ∧
      a.stored + life ≤ expiresAt

variable {capacity life} {s : State κ} {a : Attempt κ} {now : ℕ}

lemma remembered_empty : Remembered life now ({} : State κ) where
  nodup := nodup_nil
  past a ha := by cases ha
  known a ha := by cases ha

lemma lookup_live {memory : Map κ ℕ} {k : κ} {expiresAt : ℕ}
    (h : memory.lookup k = some expiresAt)
    (hkeep : capacity ≤ memory.entries.length → now < expiresAt) :
    (live capacity memory now).lookup k = some expiresAt := by
  rw [live]
  split
  · exact h
  · next hlen =>
    rw [Map.lookup_retain, h, Option.filter_some, if_pos]
    exact decide_eq_true (hkeep (not_lt.mp hlen))

lemma Remembered.live (h : Remembered life now s) (hclock : now ≤ a.checked)
    (hkeep : KeepsLive capacity life s a) {b : Attempt κ} (hb : b ∈ s.accepted) :
    b.deadline < a.checked ∨ ∃ expiresAt,
      (live capacity s.memory a.pruned).lookup b.key = some expiresAt ∧
        b.stored + life ≤ expiresAt := by
  rcases h.known b hb with hover | ⟨expiresAt, hlookup, hlong⟩
  · exact .inl (by omega)
  · by_cases hover : b.deadline < a.checked
    · exact .inl hover
    · refine .inr ⟨expiresAt, lookup_live hlookup fun hfull => ?_, hlong⟩
      have hpruned := (hkeep hfull b hb).resolve_left hover
      omega

lemma Remembered.step (h : Remembered life now s)
    (hclock : now ≤ a.checked ∧ a.checked ≤ a.pruned ∧ a.pruned ≤ a.stored)
    (hgood : a.checked ≤ a.deadline) (hkeep : KeepsLive capacity life s a) :
    Remembered life a.stored (step capacity life s a) := by
  have hlive := fun b hb => h.live (b := b) hclock.1 hkeep hb
  -- where a use stands after the attempt's own use is stored
  have hknown : ∀ b ∈ s.accepted, b.deadline < a.stored ∨ ∃ expiresAt,
      (ReplayMemory.step capacity life s a).memory.lookup b.key = some expiresAt ∧
        b.stored + life ≤ expiresAt := by
    intro b hb
    rcases hlive b hb with hover | ⟨expiresAt, hlookup, hlong⟩
    · exact .inl (by omega)
    · refine .inr ?_
      by_cases hkey : b.key = a.key
      · have hpast := h.past b hb
        exact ⟨a.stored + life, by rw [hkey]; exact AList.lookup_insert _, by omega⟩
      · exact ⟨expiresAt, by rw [← hlookup]; exact AList.lookup_insert_ne hkey, hlong⟩
  have hpast : ∀ b ∈ s.accepted, b.stored ≤ a.stored := by
    intro b hb
    have := h.past b hb
    omega
  by_cases hnew : ((ReplayMemory.live capacity s.memory a.pruned).get a.key).isNone
  · have haccepted : (ReplayMemory.step capacity life s a).accepted = s.accepted ++ [a] :=
      if_pos hnew
    refine ⟨?_, ?_, ?_⟩
    · -- an earlier use of the key would be remembered, since the deadline is not over
      rw [haccepted, map_append, map_singleton, nodup_append]
      refine ⟨h.nodup, nodup_singleton _, ?_⟩
      rintro _ hb _ ha rfl
      obtain ⟨b, hb, heq⟩ := mem_map.mp hb
      rw [mem_singleton] at ha
      rw [ha] at heq
      obtain ⟨hkey, hdeadline⟩ := Prod.mk.inj heq
      rcases hlive b hb with hover | ⟨expiresAt, hlookup, -⟩
      · omega
      · rw [Map.get, ← hkey, hlookup] at hnew
        cases hnew
    · rw [haccepted]
      intro b hb
      rcases mem_append.mp hb with hb | hb
      · exact hpast b hb
      · rw [mem_singleton.mp hb]
    · rw [haccepted]
      intro b hb
      rcases mem_append.mp hb with hb | hb
      · exact hknown b hb
      · rw [mem_singleton.mp hb]
        exact .inr ⟨a.stored + life, AList.lookup_insert _, le_rfl⟩
  · have haccepted : (ReplayMemory.step capacity life s a).accepted = s.accepted := if_neg hnew
    exact ⟨haccepted ▸ h.nodup, haccepted ▸ hpast, haccepted ▸ hknown⟩

theorem nodup_accepted {attempts : List (Attempt κ)}
    (hclock : (attempts.flatMap Attempt.readings).Pairwise (· ≤ ·))
    (hgood : ∀ a ∈ attempts, a.checked ≤ a.deadline)
    (hkeep : Along (step capacity life) (KeepsLive capacity life) {} attempts) :
    ((run (step capacity life) {} attempts).accepted.map fun a => (a.key, a.deadline)).Nodup := by
  suffices hrun : ∀ (attempts : List (Attempt κ)) (s : State κ) (now : ℕ),
      Remembered life now s → (now :: attempts.flatMap Attempt.readings).Pairwise (· ≤ ·) →
      (∀ a ∈ attempts, a.checked ≤ a.deadline) →
      Along (step capacity life) (KeepsLive capacity life) s attempts →
      ∃ now', Remembered life now' (run (step capacity life) s attempts) by
    obtain ⟨now', h⟩ := hrun attempts {} 0 remembered_empty
      (pairwise_cons.mpr ⟨fun _ _ => Nat.zero_le _, hclock⟩) hgood hkeep
    exact h.nodup
  intro attempts
  induction attempts with
  | nil => exact fun s now h _ _ _ => ⟨now, h⟩
  | cons a attempts ih =>
    intro s now h hclock hgood hkeep
    simp only [flatMap_cons, Attempt.readings, cons_append, nil_append,
      pairwise_cons, mem_cons, forall_eq_or_imp] at hclock
    obtain ⟨⟨hchecked, -⟩, ⟨hpruned, -⟩, ⟨hstored, -⟩, hrest⟩ := hclock
    exact ih _ a.stored (h.step ⟨hchecked, hpruned, hstored⟩ (hgood a (by simp)) hkeep.1)
      (pairwise_cons.mpr hrest) (fun b hb => hgood b (by simp [hb])) hkeep.2

/-! ### A full memory -/

variable (capacity life) in
lemma run_of_distinct {attempts : List (Attempt κ)} (hkeys : (attempts.map Attempt.key).Nodup)
    (hlen : attempts.length ≤ capacity) :
    (run (step capacity life) {} attempts).accepted = attempts ∧
      (run (step capacity life) {} attempts).memory.entries.length = attempts.length ∧
      ∀ k expiresAt, (run (step capacity life) {} attempts).memory.lookup k = some expiresAt →
        ∃ a ∈ attempts, a.key = k ∧ a.stored + life = expiresAt := by
  induction attempts using List.reverseRecOn with
  | nil => exact ⟨rfl, rfl, fun k expiresAt h => by cases h⟩
  | append_singleton attempts a ih =>
    rw [map_append, map_singleton] at hkeys
    rw [length_append, length_singleton] at hlen
    obtain ⟨haccepted, hlength, hknown⟩ := ih (List.Nodup.of_append_left hkeys) (by omega)
    rw [run_append, run_cons, run_nil]
    generalize run (step capacity life) {} attempts = s at haccepted hlength hknown
    have hlive : live capacity s.memory a.pruned = s.memory := if_pos (by omega)
    have hnew : s.memory.lookup a.key = none := by
      cases hlookup : s.memory.lookup a.key with
      | none => rfl
      | some expiresAt =>
        obtain ⟨b, hb, hkey, -⟩ := hknown _ _ hlookup
        have hmem : a.key ∈ attempts.map Attempt.key := mem_map.mpr ⟨b, hb, hkey⟩
        exact absurd (mem_singleton_self _) (disjoint_of_nodup_append hkeys hmem)
    refine ⟨?_, ?_, fun k expiresAt h => ?_⟩
    · simp [step, hlive, Map.get, hnew, haccepted]
    · have hnotMem : a.key ∉ s.memory := fun hmem => by
        rw [← AList.lookup_isSome, hnew] at hmem
        cases hmem
      simp only [step, hlive, AList.entries_insert_of_notMem hnotMem, length_cons,
        length_append, length_nil, hlength]
    · simp only [step, hlive] at h
      by_cases hk : k = a.key
      · subst hk
        rw [AList.lookup_insert, Option.some_inj] at h
        exact ⟨a, by simp, rfl, h⟩
      · rw [AList.lookup_insert_ne hk] at h
        obtain ⟨b, hb, hkey, hexpires⟩ := hknown k expiresAt h
        exact ⟨b, by simp [hb], hkey, hexpires⟩

lemma accepted_step_of_expired (hfull : capacity ≤ s.memory.entries.length)
    (hexpired : ∀ k expiresAt, s.memory.lookup k = some expiresAt → expiresAt ≤ a.pruned) :
    (step capacity life s a).accepted = s.accepted ++ [a] := by
  refine if_pos ?_
  rw [live, if_neg (by omega), Map.get, Map.lookup_retain]
  cases hlookup : s.memory.lookup a.key with
  | none => rfl
  | some expiresAt =>
    have := hexpired _ _ hlookup
    rw [Option.filter_some, if_neg (by simpa using this)]
    rfl

end ReplayMemory
