import PxxlEdge.Lib.Run

/-!
Calls that run at the same time on a shared store, one atomic command at a time.

A call is the state it is in between two commands.  Any call may be the next to
move, and new calls may start at any time; the calls of a system are kept in the
order in which they were started, those that have returned included.
-/

namespace Calls

open Run List

structure System (σ γ : Type) where
  store : σ
  calls : List γ := []

inductive Label (ο ε : Type) where
  | start (op : ο)
  | advance (position : ℕ) (event : ε)
deriving DecidableEq, Repr

section Step

variable {σ γ ο ε : Type} (init : ο → γ) (next : ε → σ → γ → σ × γ)

def step (s : System σ γ) : Label ο ε → System σ γ
  | .start op => { s with calls := s.calls ++ [init op] }
  | .advance i event =>
    match s.calls[i]? with
    | some call =>
      { store := (next event s.store call).1
        calls := s.calls.set i (next event s.store call).2 }
    | none => s

variable {init next} {s : System σ γ} {i j : ℕ} {call : γ} {op : ο} {event : ε}

lemma step_advance (h : s.calls[i]? = some call) :
    step init next s (.advance i event) =
      { store := (next event s.store call).1
        calls := s.calls.set i (next event s.store call).2 } := by
  rw [step, h]

lemma step_advance_none (h : s.calls[i]? = none) :
    step init next s (.advance i event) = s := by
  rw [step, h]

lemma getElem?_step_start (h : (step init next s (.start op)).calls[j]? = some call) :
    s.calls[j]? = some call ∨ (j = s.calls.length ∧ call = init op) := by
  rw [step] at h
  rcases lt_trichotomy j s.calls.length with hlt | rfl | hgt
  · rw [getElem?_append_left hlt] at h
    exact .inl h
  · rw [getElem?_append_right le_rfl, Nat.sub_self] at h
    exact .inr ⟨rfl, (Option.some_inj.mp h).symm⟩
  · rw [getElem?_eq_none (by simp; omega)] at h
    cases h

lemma getElem?_set_cases {calls : List γ} {moved : γ} (h : (calls.set i moved)[j]? = some call) :
    (j = i ∧ call = moved) ∨ (j ≠ i ∧ calls[j]? = some call) := by
  by_cases hij : j = i
  · subst hij
    by_cases hlt : j < calls.length
    · rw [getElem?_set_self hlt] at h
      exact .inl ⟨rfl, (Option.some_inj.mp h).symm⟩
    · rw [getElem?_eq_none (by simpa using hlt)] at h
      cases h
  · rw [getElem?_set_ne (Ne.symm hij)] at h
    exact .inr ⟨hij, h⟩

lemma countP_set_add (p : γ → Bool) {calls : List γ} (h : calls[i]? = some call) (moved : γ) :
    (calls.set i moved).countP p + (p call).toNat = calls.countP p + (p moved).toNat := by
  induction calls generalizing i with
  | nil => cases h
  | cons c calls ih =>
    cases i with
    | zero =>
      obtain rfl : c = call := Option.some_inj.mp h
      rw [set_cons_zero, countP_cons, countP_cons]
      cases p c <;> cases p moved <;> simp
    | succ i =>
      have hrest := ih h
      rw [set_cons_succ, countP_cons, countP_cons]
      omega

lemma toNat_le_countP (p : γ → Bool) {calls : List γ} (h : calls[i]? = some call) :
    (p call).toNat ≤ calls.countP p := by
  cases hp : p call with
  | false => exact Nat.zero_le _
  | true => exact countP_pos_iff.mpr ⟨call, mem_of_getElem? h, hp⟩

structure Holds (I : σ → Prop) (J : σ → ℕ → γ → Prop) (s : System σ γ) : Prop where
  store : I s.store
  calls : ∀ i call, s.calls[i]? = some call → J s.store i call

theorem step_invariant {I : σ → Prop} {J : σ → ℕ → γ → Prop} (h : Holds I J s)
    {label : Label ο ε}
    (hmove : ∀ i call event, label = .advance i event → s.calls[i]? = some call →
      I (next event s.store call).1 ∧
        J (next event s.store call).1 i (next event s.store call).2)
    (hothers : ∀ i call event j other, s.calls[i]? = some call → s.calls[j]? = some other →
      j ≠ i → J (next event s.store call).1 j other)
    (hstart : ∀ op, label = .start op → J s.store s.calls.length (init op)) :
    Holds I J (step init next s label) := by
  cases label with
  | start op =>
    refine ⟨h.store, fun j call hj => ?_⟩
    rcases getElem?_step_start hj with hj | ⟨rfl, rfl⟩
    · exact h.calls j call hj
    · exact hstart op rfl
  | advance i event =>
    cases hi : s.calls[i]? with
    | none =>
      rw [step_advance_none hi]
      exact h
    | some call =>
      rw [step_advance hi]
      refine ⟨(hmove i call event rfl hi).1, fun j other hj => ?_⟩
      rcases getElem?_set_cases hj with ⟨rfl, rfl⟩ | ⟨hne, hj⟩
      · exact (hmove j call event rfl hi).2
      · exact hothers i call event j other hi hj hne

def Label.Moves (i : ℕ) : Label ο ε → Bool
  | .start _ => false
  | .advance j _ => j == i

/-- **Progress.**  The moves of other calls do not hold a call up. -/
theorem exists_call_run (left : σ → γ → ℕ) {n : ℕ}
    (hnext : ∀ event store store' call, left store' (next event store call).2 ≤ left store call - 1)
    (hcall : s.calls[i]? = some call) (hn : ∀ store, left store call ≤ n)
    (labels : List (Label ο ε)) :
    ∃ call', (run (step init next) s labels).calls[i]? = some call' ∧
      ∀ store, left store call' ≤ n - labels.countP (Label.Moves i) := by
  induction labels generalizing s call n with
  | nil => exact ⟨call, hcall, hn⟩
  | cons label labels ih =>
    have hlt := (List.getElem?_eq_some_iff.mp hcall).1
    cases label with
    | start op => exact ih (by rw [step, getElem?_append_left hlt, hcall]) hn
    | advance j event =>
      by_cases hj : j = i
      · subst hj
        have hless store := (hnext event s.store store call).trans (Nat.sub_le_sub_right (hn _) 1)
        have hmoved : (step init next s (.advance j event)).calls[j]? =
            some (next event s.store call).2 := by
          rw [step_advance hcall, getElem?_set_self hlt]
        obtain ⟨call', hcall', hleft⟩ := ih hmoved hless
        refine ⟨call', hcall', fun store => (hleft store).trans ?_⟩
        rw [countP_cons_of_pos (by simp [Label.Moves])]
        omega
      · rw [countP_cons_of_neg (by simpa [Label.Moves] using hj)]
        refine ih ?_ hn
        rw [step]
        split
        · rw [getElem?_set_ne hj, hcall]
        · exact hcall

end Step

end Calls
