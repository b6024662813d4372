import PxxlEdge.Lib.Run

/-!
Failures that are counted late.

Whoever is admitted may fail, and a failure is recorded some time after it has
happened; the admission can only look at what is recorded.

* `Tally`: how many failures are recorded, how many of the admitted are still
  trying, and how many have failed without a record yet.
* `Tally.step`: what may happen.
-/

namespace LateCount

open Run

structure Tally where
  recorded : ℕ
  trying : ℕ
  failed : ℕ
deriving DecidableEq, Repr

inductive Event where
  | enter
  | fail
  | record
  /-- One that was trying goes away without a failure. -/
  | leave
  /-- One that has failed goes away before the record. -/
  | drop
  | clear
  | idle
deriving DecidableEq, Repr

namespace Tally

def step (t : Tally) : Event → Tally
  | .enter => { t with trying := t.trying + 1 }
  | .fail => { t with trying := t.trying - 1, failed := t.failed + 1 }
  | .record => { t with recorded := t.recorded + 1, failed := t.failed - 1 }
  | .leave => { t with trying := t.trying - 1 }
  | .drop => { t with failed := t.failed - 1 }
  | .clear => { t with recorded := 0 }
  | .idle => t

def Possible (t : Tally) : Event → Prop
  | .fail => 0 < t.trying
  | .leave => 0 < t.trying
  | .record => 0 < t.failed
  | .drop => 0 < t.failed
  | _ => True

def total (t : Tally) : ℕ := t.recorded + t.trying + t.failed

def Within (limit : ℕ) (t : Tally) : Event → Prop
  | .enter => t.total < limit
  | .drop => False
  | _ => True

instance (limit : ℕ) (t : Tally) : (event : Event) → Decidable (t.Within limit event)
  | .enter => inferInstanceAs (Decidable (t.total < limit))
  | .drop => inferInstanceAs (Decidable False)
  | .fail => inferInstanceAs (Decidable True)
  | .record => inferInstanceAs (Decidable True)
  | .leave => inferInstanceAs (Decidable True)
  | .clear => inferInstanceAs (Decidable True)
  | .idle => inferInstanceAs (Decidable True)

end Tally

variable {limit : ℕ} {t : Tally} {event : Event} {events : List Event}

lemma total_step_le (h : t.total ≤ limit) (hpossible : t.Possible event)
    (hwithin : t.Within limit event) : (t.step event).total ≤ limit := by
  cases event <;> simp only [Tally.total, Tally.step, Tally.Possible, Tally.Within] at * <;> omega

lemma total_run_le (h : t.total ≤ limit)
    (hevents : Along Tally.step (fun t event => t.Possible event ∧ t.Within limit event) t events) :
    (run Tally.step t events).total ≤ limit :=
  hevents.invariant (fun t => t.total ≤ limit)
    (fun _ _ h hevent => total_step_le h hevent.1 hevent.2) h

lemma recorded_add_failed_step (hpossible : t.Possible event) (hwithin : t.Within limit event)
    (hclear : event ≠ .clear) :
    (t.step event).recorded + (t.step event).failed =
      t.recorded + t.failed + if event == .fail then 1 else 0 := by
  cases event with
  | clear => exact absurd rfl hclear
  | drop => exact hwithin.elim
  | record =>
    have hfailed : 0 < t.failed := hpossible
    show t.recorded + 1 + (t.failed - 1) = t.recorded + t.failed
    omega
  | fail => exact (Nat.add_assoc _ _ _).symm
  | enter => rfl
  | leave => rfl
  | idle => rfl

lemma count_fail_add
    (hevents : Along Tally.step (fun t event => t.Possible event ∧ t.Within limit event) t events)
    (hclear : .clear ∉ events) :
    t.recorded + t.failed + events.count .fail =
      (run Tally.step t events).recorded + (run Tally.step t events).failed := by
  induction events generalizing t with
  | nil => rfl
  | cons event events ih =>
    obtain ⟨⟨hpossible, hwithin⟩, hrest⟩ := hevents
    rw [List.mem_cons, not_or] at hclear
    have hstep := recorded_add_failed_step hpossible hwithin (Ne.symm hclear.1)
    rw [run_cons, ← ih hrest hclear.2, List.count_cons, hstep]
    omega

theorem count_fail_le (h : t.total ≤ limit)
    (hevents : Along Tally.step (fun t event => t.Possible event ∧ t.Within limit event) t events)
    (hclear : .clear ∉ events) : events.count .fail ≤ limit := by
  have hcount := count_fail_add hevents hclear
  have htotal := total_run_le h hevents
  rw [Tally.total] at htotal
  omega

end LateCount
