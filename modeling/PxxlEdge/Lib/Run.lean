import Mathlib.Tactic

/-!
Runs of a system that takes one labelled step after the other.

* `map_run`, `along_trace_iff`: a system that simulates another, step by step.
-/

namespace Run

variable {S Λ : Type*}

def run (step : S → Λ → S) (s : S) (steps : List Λ) : S := steps.foldl step s

def Along (step : S → Λ → S) (cond : S → Λ → Prop) : S → List Λ → Prop
  | _, [] => True
  | s, l :: steps => cond s l ∧ Along step cond (step s l) steps

instance decidableAlong (step : S → Λ → S) (cond : S → Λ → Prop) [∀ s l, Decidable (cond s l)] :
    (s : S) → (steps : List Λ) → Decidable (Along step cond s steps)
  | _, [] => inferInstanceAs (Decidable True)
  | s, l :: steps =>
    have := decidableAlong step cond (step s l) steps
    inferInstanceAs (Decidable (cond s l ∧ Along step cond (step s l) steps))

variable {step : S → Λ → S} {cond : S → Λ → Prop} {s : S}

@[simp] lemma run_nil : run step s [] = s := rfl

@[simp] lemma run_cons (l : Λ) (steps : List Λ) :
    run step s (l :: steps) = run step (step s l) steps := rfl

lemma run_append (steps steps' : List Λ) :
    run step s (steps ++ steps') = run step (run step s steps) steps' :=
  List.foldl_append

lemma along_append {steps steps' : List Λ} :
    Along step cond s (steps ++ steps') ↔
      Along step cond s steps ∧ Along step cond (run step s steps) steps' := by
  induction steps generalizing s with
  | nil => simp [Along]
  | cons l steps ih =>
    rw [List.cons_append, Along, ih, Along, run_cons, and_assoc]

lemma along_concat {steps : List Λ} {l : Λ} :
    Along step cond s (steps ++ [l]) ↔
      Along step cond s steps ∧ cond (run step s steps) l := by
  rw [along_append]
  simp [Along]

lemma along_of_forall {cond : Λ → Prop} {steps : List Λ} (h : ∀ l ∈ steps, cond l) :
    Along step (fun _ l => cond l) s steps := by
  induction steps generalizing s with
  | nil => trivial
  | cons l steps ih => exact ⟨h l (by simp), ih fun l' hl' => h l' (by simp [hl'])⟩

lemma Along.mono {cond' : S → Λ → Prop} {steps : List Λ} (h : Along step cond s steps)
    (himp : ∀ s l, cond s l → cond' s l) : Along step cond' s steps := by
  induction steps generalizing s with
  | nil => trivial
  | cons l steps ih => exact ⟨himp s l h.1, ih h.2⟩

lemma Along.imp_of_invariant {cond' : S → Λ → Prop} {steps : List Λ} (h : Along step cond s steps)
    (Inv : S → Prop) (hs : Inv s) (hstep : ∀ s l, Inv s → cond s l → Inv (step s l))
    (himp : ∀ s l, Inv s → cond s l → cond' s l) : Along step cond' s steps := by
  induction steps generalizing s with
  | nil => trivial
  | cons l steps ih => exact ⟨himp s l hs h.1, ih h.2 (hstep s l hs h.1)⟩

lemma Along.and {cond' : S → Λ → Prop} {steps : List Λ} (h : Along step cond s steps)
    (h' : Along step cond' s steps) : Along step (fun s l => cond s l ∧ cond' s l) s steps := by
  induction steps generalizing s with
  | nil => trivial
  | cons l steps ih => exact ⟨⟨h.1, h'.1⟩, ih h.2 h'.2⟩

theorem run_invariant (Inv : S → Prop) (hstep : ∀ s l, Inv s → Inv (step s l)) (hs : Inv s)
    (steps : List Λ) : Inv (run step s steps) := by
  induction steps generalizing s with
  | nil => exact hs
  | cons l steps ih => exact ih (hstep s l hs)

theorem Along.invariant {steps : List Λ} (h : Along step cond s steps) (Inv : S → Prop)
    (hstep : ∀ s l, Inv s → cond s l → Inv (step s l)) (hs : Inv s) : Inv (run step s steps) := by
  induction steps generalizing s with
  | nil => exact hs
  | cons l steps ih => exact ih h.2 (hstep s l hs h.1)

theorem forall_take_iff_along_of_invariant {steps : List Λ} (Inv Good : S → Prop)
    {side : S → Λ → Prop} (hside : Along step side s steps) (hs : Inv s)
    (hgood : ∀ s, Inv s → Good s)
    (hstep : ∀ s l, Inv s → side s l → (Good (step s l) ↔ cond s l))
    (hkeep : ∀ s l, Inv s → side s l → cond s l → Inv (step s l)) :
    (∀ n, Good (run step s (steps.take n))) ↔ Along step cond s steps := by
  induction steps generalizing s with
  | nil => simpa [Along] using hgood s hs
  | cons l steps ih =>
    have hnext := hstep s l hs hside.1
    constructor
    · intro h
      have hcond : cond s l := hnext.1 (by simpa using h 1)
      have hl := hkeep s l hs hside.1 hcond
      exact ⟨hcond, (ih hside.2 hl).1 fun n => by simpa using h (n + 1)⟩
    · rintro ⟨hcond, hrest⟩ n
      cases n with
      | zero => exact hgood s hs
      | succ n => exact (ih hside.2 (hkeep s l hs hside.1 hcond)).2 hrest n

theorem forall_take_iff_along {steps : List Λ} (Inv : S → Prop) {side : S → Λ → Prop}
    (hside : Along step side s steps) (hs : Inv s)
    (hstep : ∀ s l, Inv s → side s l → (Inv (step s l) ↔ cond s l)) :
    (∀ n, Inv (run step s (steps.take n))) ↔ Along step cond s steps :=
  forall_take_iff_along_of_invariant Inv Inv hside hs (fun _ h => h) hstep
    fun s l h hl => (hstep s l h hl).2

section Trace

variable {T M : Type*} {step' : T → M → T} {cond' : T → M → Prop} {f : S → T} {g : S → Λ → M}

def trace (step : S → Λ → S) (g : S → Λ → M) : S → List Λ → List M
  | _, [] => []
  | s, l :: steps => g s l :: trace step g (step s l) steps

lemma trace_label (steps : List Λ) : trace step (fun _ l => l) s steps = steps := by
  induction steps generalizing s with
  | nil => rfl
  | cons l steps ih => rw [trace, ih]

lemma trace_append (steps steps' : List Λ) :
    trace step g s (steps ++ steps') =
      trace step g s steps ++ trace step g (run step s steps) steps' := by
  induction steps generalizing s with
  | nil => rfl
  | cons l steps ih => rw [List.cons_append, trace, ih, trace, run_cons, List.cons_append]

lemma map_run (hf : ∀ s l, f (step s l) = step' (f s) (g s l)) (steps : List Λ) :
    f (run step s steps) = run step' (f s) (trace step g s steps) := by
  induction steps generalizing s with
  | nil => rfl
  | cons l steps ih => rw [run_cons, ih, hf, trace, run_cons]

lemma along_trace_iff (hf : ∀ s l, f (step s l) = step' (f s) (g s l)) {steps : List Λ} :
    Along step' cond' (f s) (trace step g s steps) ↔
      Along step (fun s l => cond' (f s) (g s l)) s steps := by
  induction steps generalizing s with
  | nil => exact Iff.rfl
  | cons l steps ih => rw [trace, Along, Along, ← hf, ih]

lemma exists_of_mem_trace {steps : List Λ} {m : M} (h : m ∈ trace step g s steps) :
    ∃ s l, g s l = m := by
  induction steps generalizing s with
  | nil => cases h
  | cons l steps ih =>
    rcases List.mem_cons.mp h with rfl | h
    · exact ⟨s, l, rfl⟩
    · exact ih h

lemma forall_mem_trace_iff {P : M → Prop} {steps : List Λ} :
    (∀ m ∈ trace step g s steps, P m) ↔ Along step (fun s l => P (g s l)) s steps := by
  induction steps generalizing s with
  | nil => exact iff_of_true (fun _ hm => by cases hm) trivial
  | cons l steps ih => rw [trace, List.forall_mem_cons, ih, Along]

end Trace

section Tracked

variable {T : Type*} {note : S → T → Λ → T} {t : T} {steps : List Λ}

def tracked (step : S → Λ → S) (note : S → T → Λ → T) (p : S × T) (l : Λ) : S × T :=
  (step p.1 l, note p.1 p.2 l)

lemma fst_run_tracked : (run (tracked step note) (s, t) steps).1 = run step s steps := by
  have hfst : ∀ (p : S × T) l, (tracked step note p l).1 = step p.1 l := fun _ _ => rfl
  rw [map_run hfst, trace_label]

lemma along_tracked_iff : Along (tracked step note) (fun p l => cond p.1 l) (s, t) steps ↔
    Along step cond s steps := by
  have hfst : ∀ (p : S × T) l, (tracked step note p l).1 = step p.1 l := fun _ _ => rfl
  rw [← along_trace_iff hfst, trace_label]

theorem forall_take_tracked_iff (Inv : S × T → Prop) (hs : Inv (s, t))
    (hstep : ∀ p l, Inv p → (Inv (tracked step note p l) ↔ cond p.1 l)) :
    (∀ n, Inv (run (tracked step note) (s, t) (steps.take n))) ↔ Along step cond s steps := by
  have htrue : Along (tracked step note) (fun _ _ => True) (s, t) steps :=
    along_of_forall fun _ _ => trivial
  rw [forall_take_iff_along Inv htrue hs fun p l h _ => hstep p l h, along_tracked_iff]

end Tracked

end Run
