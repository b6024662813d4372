import Mathlib.Tactic
import Mathlib.Data.Fintype.Basic

/-!
Concurrent calls on one shared cell that is only read and written as a whole.

A call reads the cell any number of times and then returns, or writes it once
and returns.  Each read and each write is one atomic step; a schedule says
which call takes the next step.

The proof carries `Serialized` along the run: the cell holds the effect of the
calls that have returned, and every call under way would still do to it what
the whole call does.
-/

namespace Atomic

variable {σ : Type*}

inductive Prog (σ : Type*) where
  | done
  | load (k : σ → Prog σ)
  | store (s : σ)

namespace Prog

def exec : Prog σ → σ → σ
  | done, s => s
  | load k, s => (k s).exec s
  | store s', _ => s'

def step : Prog σ → σ → Prog σ × σ
  | done, s => (done, s)
  | load k, s => (k s, s)
  | store s', _ => (done, s')

def isStore : Prog σ → Bool
  | store _ => true
  | _ => false

def isDone : Prog σ → Bool
  | done => true
  | _ => false

lemma eq_done_of_isDone {p : Prog σ} (h : p.isDone = true) : p = done := by
  cases p with
  | done => rfl
  | load k => simp [isDone] at h
  | store s => simp [isDone] at h

lemma step_snd_of_not_isStore {p : Prog σ} (h : p.isStore = false) (s : σ) :
    (p.step s).2 = s := by
  cases p with
  | done => rfl
  | load k => rfl
  | store s' => simp [isStore] at h

lemma exec_step (p : Prog σ) (s : σ) : (p.step s).1.exec (p.step s).2 = p.exec s := by
  cases p <;> rfl

lemma isDone_step_of_isStore {p : Prog σ} (h : p.isStore = true) (s : σ) :
    (p.step s).1.isDone = true := by
  cases p with
  | done => simp [isStore] at h
  | load k => simp [isStore] at h
  | store s' => rfl

end Prog

/-! ### Systems of calls -/

variable {ι : Type*} [DecidableEq ι]

structure Sys (ι σ : Type*) where
  cell : σ
  started : ι → Option (Prog σ)

def Sys.init (s : σ) : Sys ι σ := ⟨s, fun _ => none⟩

variable (calls : ι → Prog σ)

namespace Sys

def current (sys : Sys ι σ) (i : ι) : Prog σ := (sys.started i).getD (calls i)

def underway (sys : Sys ι σ) (i : ι) : Bool :=
  match sys.started i with
  | some p => !p.isDone
  | none => false

def step (sys : Sys ι σ) (i : ι) : Sys ι σ :=
  let next := (sys.current calls i).step sys.cell
  ⟨next.2, Function.update sys.started i (some next.1)⟩

variable {calls} in
lemma step_started_of_ne {sys : Sys ι σ} {i j : ι} (h : j ≠ i) :
    (sys.step calls i).started j = sys.started j := by
  simp [step, Function.update_of_ne h]

variable {calls} in
lemma step_started_self {sys : Sys ι σ} {i : ι} :
    (sys.step calls i).started i = some ((sys.current calls i).step sys.cell).1 := by
  simp [step]

variable {calls} in
lemma step_cell_of_not_isStore {sys : Sys ι σ} {i : ι}
    (h : (sys.current calls i).isStore = false) : (sys.step calls i).cell = sys.cell :=
  Prog.step_snd_of_not_isStore h sys.cell

def run (sys : Sys ι σ) (schedule : List ι) : Sys ι σ := schedule.foldl (step calls) sys

def Finished (sys : Sys ι σ) : Prop := ∀ i, (sys.current calls i).isDone = true

end Sys

/-! ### What every write establishes -/

def Prog.Keeps (P : σ → Prop) : Prog σ → Prop
  | .done => True
  | .load k => ∀ s, P s → (k s).Keeps P
  | .store s => P s

lemma Prog.Keeps.step {P : σ → Prop} {p : Prog σ} (h : p.Keeps P) {s : σ} (hs : P s) :
    (p.step s).1.Keeps P ∧ P (p.step s).2 := by
  cases p with
  | done => exact ⟨trivial, hs⟩
  | load k => exact ⟨h s hs, hs⟩
  | store s' => exact ⟨trivial, h⟩

lemma Prog.Keeps.exec {P : σ → Prop} {p : Prog σ} (h : p.Keeps P) {s : σ} (hs : P s) :
    P (p.exec s) := by
  induction p with
  | done => exact hs
  | load k ih => exact ih s (h s hs)
  | store s' => exact h

variable {calls} in
lemma Sys.step_keeps {P : σ → Prop} {sys : Sys ι σ} (hcell : P sys.cell)
    (hcurrent : ∀ i, (sys.current calls i).Keeps P) (i : ι) :
    P (sys.step calls i).cell ∧ ∀ j, ((sys.step calls i).current calls j).Keeps P := by
  have hstep := (hcurrent i).step hcell
  refine ⟨hstep.2, fun j => ?_⟩
  by_cases hj : j = i
  · subst hj
    rw [Sys.current, Sys.step_started_self]
    exact hstep.1
  · rw [Sys.current, Sys.step_started_of_ne hj]
    exact hcurrent j

variable {calls} in
theorem run_keeps {P : σ → Prop} {s₀ : σ} (h₀ : P s₀) (hcalls : ∀ i, (calls i).Keeps P)
    (schedule : List ι) : P ((Sys.init s₀).run calls schedule).cell := by
  suffices h : ∀ sys : Sys ι σ, P sys.cell → (∀ i, (sys.current calls i).Keeps P) →
      P (sys.run calls schedule).cell from h _ h₀ hcalls
  induction schedule with
  | nil => exact fun sys hcell _ => hcell
  | cons i schedule ih =>
    intro sys hcell hcurrent
    obtain ⟨hcell', hcurrent'⟩ := Sys.step_keeps hcell hcurrent i
    exact ih _ hcell' hcurrent'

/-! ### Writes that fall into no other call -/

def Exclusive (sys : Sys ι σ) : List ι → Prop
  | [] => True
  | i :: schedule =>
    ((sys.current calls i).isStore = true → ∀ j, j ≠ i → sys.underway j = false) ∧
      Exclusive (sys.step calls i) schedule

def serial (order : List ι) (s : σ) : σ := order.foldl (fun s i => (calls i).exec s) s

omit [DecidableEq ι] in
lemma serial_concat (order : List ι) (i : ι) (s : σ) :
    serial calls (order ++ [i]) s = (calls i).exec (serial calls order s) := by
  simp [serial]

/-! ### Runs without intruding writes are serial -/

structure Serialized (s₀ : σ) (sys : Sys ι σ) (order : List ι) : Prop where
  cell : sys.cell = serial calls order s₀
  nodup : order.Nodup
  returned : ∀ i, i ∈ order ↔ ∃ p, sys.started i = some p ∧ p.isDone = true
  rest : ∀ i, i ∉ order → (sys.current calls i).exec sys.cell = (calls i).exec sys.cell

variable {calls} {s₀ : σ} {sys : Sys ι σ} {order : List ι}

omit [DecidableEq ι] in
lemma Serialized.init : Serialized calls s₀ (Sys.init s₀) [] where
  cell := rfl
  nodup := .nil
  returned := by simp [Sys.init]
  rest := fun i _ => rfl

lemma Serialized.step_returned (h : Serialized calls s₀ sys order) {i : ι} (hi : i ∈ order) :
    sys.step calls i = sys := by
  obtain ⟨p, hp, hdone⟩ := (h.returned i).mp hi
  obtain rfl := Prog.eq_done_of_isDone hdone
  have hcur : sys.current calls i = .done := by simp [Sys.current, hp]
  rw [Sys.step, hcur]
  simp only [Prog.step]
  rw [← hp, Function.update_eq_self]

lemma Serialized.step_other (h : Serialized calls s₀ sys order) {i j : ι}
    (hx : (sys.current calls i).isStore = true → ∀ j, j ≠ i → sys.underway j = false)
    (hj : j ≠ i) (hjo : j ∉ order) :
    ((sys.step calls i).current calls j).exec (sys.step calls i).cell =
      (calls j).exec (sys.step calls i).cell := by
  have hcur : (sys.step calls i).current calls j = sys.current calls j := by
    rw [Sys.current, Sys.current, Sys.step_started_of_ne hj]
  rw [hcur]
  cases hstore : (sys.current calls i).isStore with
  | false => rw [Sys.step_cell_of_not_isStore hstore, h.rest j hjo]
  | true =>
    have hidle : sys.started j = none := by
      have hunder := hx hstore j hj
      rw [Sys.underway] at hunder
      cases hs : sys.started j with
      | none => rfl
      | some q =>
        rw [hs] at hunder
        have hq : q.isDone = true := by simpa using hunder
        exact absurd ((h.returned j).mpr ⟨q, hs, hq⟩) hjo
    rw [Sys.current, hidle, Option.getD_none]

lemma Serialized.step_returns (h : Serialized calls s₀ sys order) {i : ι} (hi : i ∉ order)
    (hx : (sys.current calls i).isStore = true → ∀ j, j ≠ i → sys.underway j = false)
    (hdone : ((sys.current calls i).step sys.cell).1.isDone = true) :
    Serialized calls s₀ (sys.step calls i) (order ++ [i]) where
  cell := by
    have hexec := Prog.exec_step (sys.current calls i) sys.cell
    rw [Prog.eq_done_of_isDone hdone, Prog.exec, h.rest i hi] at hexec
    rw [serial_concat, ← h.cell, ← hexec]
    rfl
  nodup := List.concat_eq_append ▸ h.nodup.concat hi
  returned := by
    intro j
    by_cases hj : j = i
    · subst hj
      simp [Sys.step_started_self, hdone]
    · rw [Sys.step_started_of_ne hj, ← h.returned j]
      simp [hj]
  rest := by
    intro j hj
    rw [List.mem_append, List.mem_singleton, not_or] at hj
    exact h.step_other hx hj.2 hj.1

lemma Serialized.step_continues (h : Serialized calls s₀ sys order) {i : ι} (hi : i ∉ order)
    (hx : (sys.current calls i).isStore = true → ∀ j, j ≠ i → sys.underway j = false)
    (hdone : ((sys.current calls i).step sys.cell).1.isDone = false) :
    Serialized calls s₀ (sys.step calls i) order := by
  have hstore : (sys.current calls i).isStore = false := by
    cases hs : (sys.current calls i).isStore with
    | false => rfl
    | true => simp [Prog.isDone_step_of_isStore hs] at hdone
  have hsame := Sys.step_cell_of_not_isStore hstore
  refine ⟨hsame.trans h.cell, h.nodup, fun j => ?_, fun j hj => ?_⟩
  · by_cases hj : j = i
    · subst hj
      simp [Sys.step_started_self, hdone, hi]
    · rw [Sys.step_started_of_ne hj, ← h.returned j]
  · by_cases hji : j = i
    · subst hji
      have hexec := Prog.exec_step (sys.current calls j) sys.cell
      rw [Prog.step_snd_of_not_isStore hstore, h.rest j hi] at hexec
      rw [Sys.current, Sys.step_started_self, Option.getD_some, hsame, hexec]
    · exact h.step_other hx hji hj

lemma Serialized.step (h : Serialized calls s₀ sys order) {i : ι}
    (hx : (sys.current calls i).isStore = true → ∀ j, j ≠ i → sys.underway j = false) :
    ∃ order', Serialized calls s₀ (sys.step calls i) order' := by
  by_cases hi : i ∈ order
  · exact ⟨order, (h.step_returned hi).symm ▸ h⟩
  · cases hdone : ((sys.current calls i).step sys.cell).1.isDone with
    | true => exact ⟨order ++ [i], h.step_returns hi hx hdone⟩
    | false => exact ⟨order, h.step_continues hi hx hdone⟩

lemma Serialized.run (h : Serialized calls s₀ sys order) {schedule : List ι}
    (hx : Exclusive calls sys schedule) :
    ∃ order', Serialized calls s₀ (sys.run calls schedule) order' := by
  induction schedule generalizing sys order with
  | nil => exact ⟨order, h⟩
  | cons i schedule ih =>
    obtain ⟨order', h'⟩ := h.step hx.1
    exact ih h' hx.2

theorem serializable_of_exclusive [Fintype ι] {schedule : List ι}
    (hx : Exclusive calls (Sys.init s₀) schedule)
    (hfin : ((Sys.init s₀).run calls schedule).Finished calls) :
    ∃ order : List ι, order.Nodup ∧ (∀ i, i ∈ order) ∧
      ((Sys.init s₀).run calls schedule).cell = serial calls order s₀ := by
  classical
  obtain ⟨order, h⟩ := Serialized.init.run hx
  -- calls that take no step at all go to the end
  set idle := Finset.univ.toList.filter fun i => i ∉ order with hidle
  have hnoop : ∀ l : List ι, (∀ i ∈ l, i ∉ order) → ∀ s, serial calls l s = s := by
    intro l hl
    induction l with
    | nil => exact fun s => rfl
    | cons i l ih =>
      intro s
      have hdone : calls i = .done := by
        have hcur := hfin i
        rw [Sys.current] at hcur
        cases hs : ((Sys.init s₀).run calls schedule).started i with
        | none => rw [hs] at hcur; exact Prog.eq_done_of_isDone hcur
        | some p =>
          exact absurd ((h.returned i).mpr ⟨p, hs, by rwa [hs] at hcur⟩) (hl i (by simp))
      rw [serial, List.foldl_cons, ← serial, hdone]
      exact ih (fun j hj => hl j (by simp [hj])) s
  refine ⟨order ++ idle, ?_, fun i => ?_, ?_⟩
  · refine List.nodup_append.mpr ⟨h.nodup, (Finset.nodup_toList _).filter _, ?_⟩
    rintro a ha b hb rfl
    simp [hidle, ha] at hb
  · by_cases hi : i ∈ order <;> simp [hidle, hi]
  · rw [h.cell]
    conv_rhs => rw [serial, List.foldl_append, ← serial, ← serial]
    rw [hnoop idle (fun i hi => by simpa [hidle] using hi)]

end Atomic
