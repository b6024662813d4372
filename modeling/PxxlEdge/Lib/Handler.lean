import Mathlib.Tactic

/-!
Request handlers: programs over a state that log what they do to the outside
and can answer early.

A handler returns a value or leaves with an answer; in both cases there is a
state and the list of events it caused.  Results about what a handler may do
are statements about its events.

* `AllEvents φ x s`: every event of `x`, started in `s`, satisfies `φ`.
* `Returns P x s`: what holds of the value and the state when `x` returns, with
  the rule `Returns.bind` for sequences.
* `Passes x s a s'`: `x` returns `a` and leaves `s'`; `Passes.result_bind` goes on from
  there.
* `Logs P x s`: what holds of the value and the events when `x` returns.
* `Answers Q x s`: what holds of the answer when `x` leaves with one.
* `Notes note answered returned x s`: what is noted of the events, if `x` answers and
  if it returns.
-/

namespace Handlers

structure Run (σ ε ρ α : Type) where
  result : Except ρ α
  state : σ
  log : List ε

def Handler (σ ε ρ α : Type) := σ → Run σ ε ρ α

variable {σ ε ρ α β : Type}

namespace Handler

def ret (a : α) : Handler σ ε ρ α := fun s => ⟨.ok a, s, []⟩

def bind (x : Handler σ ε ρ α) (f : α → Handler σ ε ρ β) : Handler σ ε ρ β := fun s =>
  match (x s).result with
  | .error r => ⟨.error r, (x s).state, (x s).log⟩
  | .ok a =>
    let y := f a (x s).state
    ⟨y.result, y.state, (x s).log ++ y.log⟩

instance : Monad (Handler σ ε ρ) where
  pure := ret
  bind := bind

def exit (r : ρ) : Handler σ ε ρ α := fun s => ⟨.error r, s, []⟩

def emit (e : ε) : Handler σ ε ρ Unit := fun s => ⟨.ok (), s, [e]⟩

def get : Handler σ ε ρ σ := fun s => ⟨.ok s, s, []⟩

def update (f : σ → α × σ) : Handler σ ε ρ α := fun s => ⟨.ok (f s).1, (f s).2, []⟩

def each (f : α → Handler σ ε ρ Unit) : List α → Handler σ ε ρ Unit
  | [] => ret ()
  | a :: l => bind (f a) fun _ => each f l

end Handler

open Handler

lemma exists_ok_of_any {result : Except ρ α} {p : α → Bool}
    (h : result.toOption.any p = true) : ∃ a, result = .ok a ∧ p a = true := by
  cases result with
  | error r => cases h
  | ok a => exact ⟨a, rfl, h⟩

/-! ### Rules for events -/

def AllEvents (φ : ε → Prop) (x : Handler σ ε ρ α) (s : σ) : Prop := ∀ e ∈ (x s).log, φ e

section Events

variable {φ : ε → Prop} {s : σ} {x : Handler σ ε ρ α} {f : α → Handler σ ε ρ β}

lemma AllEvents.bind (hx : AllEvents φ x s)
    (hf : ∀ a, (x s).result = .ok a → AllEvents φ (f a) (x s).state) :
    AllEvents φ (x >>= f) s := by
  intro e he
  change e ∈ (Handler.bind x f s).log at he
  rw [Handler.bind] at he
  cases hr : (x s).result with
  | error r =>
    rw [hr] at he
    exact hx e he
  | ok a =>
    rw [hr] at he
    rcases List.mem_append.mp he with he | he
    · exact hx e he
    · exact hf a hr e he

lemma AllEvents.ret (a : α) : AllEvents φ (Handler.ret a : Handler σ ε ρ α) s := by
  intro e he
  simp [Handler.ret] at he

lemma AllEvents.pure (a : α) : AllEvents φ (Pure.pure a : Handler σ ε ρ α) s := .ret a

lemma AllEvents.exit (r : ρ) : AllEvents φ (Handler.exit r : Handler σ ε ρ α) s := by
  intro e he
  simp [Handler.exit] at he

lemma AllEvents.emit {e : ε} (h : φ e) : AllEvents φ (Handler.emit e : Handler σ ε ρ Unit) s := by
  intro e' he
  obtain rfl : e' = e := by simpa [Handler.emit] using he
  exact h

lemma AllEvents.get : AllEvents φ (Handler.get : Handler σ ε ρ σ) s := by
  intro e he
  simp [Handler.get] at he

lemma AllEvents.update (g : σ → α × σ) : AllEvents φ (Handler.update g : Handler σ ε ρ α) s := by
  intro e he
  simp [Handler.update] at he

end Events

/-! ### Rules for returned values -/

def Returns (P : α → σ → Prop) (x : Handler σ ε ρ α) (s : σ) : Prop :=
  ∀ a, (x s).result = .ok a → P a (x s).state

section Returns

variable {P : α → σ → Prop} {Q : β → σ → Prop} {s : σ} {x : Handler σ ε ρ α}
  {f : α → Handler σ ε ρ β}

lemma Returns.bind (hx : Returns P x s) (hf : ∀ a s', P a s' → Returns Q (f a) s') :
    Returns Q (x >>= f) s := by
  intro b hb
  change (Handler.bind x f s).result = .ok b at hb
  change Q b (Handler.bind x f s).state
  rw [Handler.bind] at hb ⊢
  cases hr : (x s).result with
  | error r => simp [hr] at hb
  | ok a =>
    rw [hr] at hb
    exact hf a _ (hx a hr) b hb

lemma Returns.skip (hf : ∀ a s', Returns Q (f a) s') : Returns Q (x >>= f) s :=
  .bind (P := fun _ _ => True) (fun _ _ => trivial) fun a s' _ => hf a s'

lemma Returns.ret {a : α} (h : P a s) : Returns P (Handler.ret a : Handler σ ε ρ α) s := by
  rintro _ ⟨⟩
  exact h

lemma Returns.pure {a : α} (h : P a s) : Returns P (Pure.pure a : Handler σ ε ρ α) s := .ret h

lemma Returns.exit (r : ρ) : Returns P (Handler.exit r : Handler σ ε ρ α) s := by
  rintro _ ⟨⟩

lemma Returns.emit {P : Unit → σ → Prop} {e : ε} (h : P () s) :
    Returns P (Handler.emit e : Handler σ ε ρ Unit) s := by
  rintro _ ⟨⟩
  exact h

lemma Returns.get {P : σ → σ → Prop} (h : P s s) :
    Returns P (Handler.get : Handler σ ε ρ σ) s := by
  rintro _ ⟨⟩
  exact h

lemma Returns.update {g : σ → α × σ} (h : P (g s).1 (g s).2) :
    Returns P (Handler.update g : Handler σ ε ρ α) s := by
  rintro _ ⟨⟩
  exact h

lemma AllEvents.bindReturns {φ : ε → Prop} (hx : AllEvents φ x s) (hret : Returns P x s)
    (hf : ∀ a s', P a s' → AllEvents φ (f a) s') : AllEvents φ (x >>= f) s :=
  .bind hx fun a ha => hf a _ (hret a ha)

end Returns

/-! ### Rules for one run -/

structure Passes (x : Handler σ ε ρ α) (s : σ) (a : α) (s' : σ) : Prop where
  result : (x s).result = .ok a
  state : (x s).state = s'

section Passes

variable {x : Handler σ ε ρ α} {f : α → Handler σ ε ρ β} {s s' s'' : σ} {a : α} {b : β}

lemma Passes.pure (a : α) (s : σ) : Passes (Pure.pure a : Handler σ ε ρ α) s a s := ⟨rfl, rfl⟩

lemma Passes.get (s : σ) : Passes (Handler.get : Handler σ ε ρ σ) s s s := ⟨rfl, rfl⟩

lemma Passes.update (g : σ → α × σ) (s : σ) :
    Passes (Handler.update g : Handler σ ε ρ α) s (g s).1 (g s).2 := ⟨rfl, rfl⟩

lemma Passes.result_bind (h : Passes x s a s') (f : α → Handler σ ε ρ β) :
    ((x >>= f) s).result = (f a s').result := by
  change (Handler.bind x f s).result = _
  rw [Handler.bind, h.result]
  dsimp only
  rw [h.state]

lemma Passes.bind (h : Passes x s a s') (hf : Passes (f a) s' b s'') :
    Passes (x >>= f) s b s'' where
  result := (h.result_bind f).trans hf.result
  state := by
    change (Handler.bind x f s).state = _
    rw [Handler.bind, h.result]
    dsimp only
    rw [h.state, hf.state]

lemma result_bind_of_error {r : ρ} (h : (x s).result = .error r) (f : α → Handler σ ε ρ β) :
    ((x >>= f) s).result = .error r := by
  change (Handler.bind x f s).result = _
  rw [Handler.bind, h]

end Passes

/-! ### Rules for the log of a run that returns -/

def Logs (P : α → List ε → Prop) (x : Handler σ ε ρ α) (s : σ) : Prop :=
  ∀ a, (x s).result = .ok a → P a (x s).log

section Logs

variable {P : α → List ε → Prop} {Q : β → List ε → Prop} {s : σ} {x : Handler σ ε ρ α}
  {f : α → Handler σ ε ρ β}

lemma Logs.bind (hx : Logs P x s)
    (hf : ∀ a l s', P a l → Logs (fun b l' => Q b (l ++ l')) (f a) s') :
    Logs Q (x >>= f) s := by
  intro b hb
  change (Handler.bind x f s).result = .ok b at hb
  change Q b (Handler.bind x f s).log
  rw [Handler.bind] at hb ⊢
  cases hr : (x s).result with
  | error r => simp [hr] at hb
  | ok a =>
    rw [hr] at hb
    exact hf a _ _ (hx a hr) b hb

lemma Logs.skip (hf : ∀ a l s', Logs (fun b l' => Q b (l ++ l')) (f a) s') : Logs Q (x >>= f) s :=
  .bind (P := fun _ _ => True) (fun _ _ => trivial) fun a l s' _ => hf a l s'

lemma Logs.pure {a : α} (h : P a []) : Logs P (Pure.pure a : Handler σ ε ρ α) s := by
  rintro _ ⟨⟩
  exact h

lemma Logs.emit {P : Unit → List ε → Prop} {e : ε} (h : P () [e]) :
    Logs P (Handler.emit e : Handler σ ε ρ Unit) s := by
  rintro _ ⟨⟩
  exact h

lemma Logs.of_returns (h : Returns (fun a _ => ∀ l, P a l) x s) : Logs P x s :=
  fun a ha => h a ha _

end Logs

/-! ### Rules for answers -/

def Answers (Q : ρ → Prop) (x : Handler σ ε ρ α) (s : σ) : Prop :=
  ∀ r, (x s).result = .error r → Q r

section Answers

variable {Q : ρ → Prop} {s : σ} {x : Handler σ ε ρ α} {f : α → Handler σ ε ρ β}

lemma Answers.bind (hx : Answers Q x s)
    (hf : ∀ a, (x s).result = .ok a → Answers Q (f a) (x s).state) : Answers Q (x >>= f) s := by
  intro r hr
  change (Handler.bind x f s).result = .error r at hr
  rw [Handler.bind] at hr
  cases hx' : (x s).result with
  | error r' =>
    rw [hx'] at hr
    obtain rfl := Except.error.inj hr
    exact hx r' hx'
  | ok a =>
    rw [hx'] at hr
    exact hf a hx' r hr

lemma Answers.bindReturns {P : α → σ → Prop} (hx : Answers Q x s) (hret : Returns P x s)
    (hf : ∀ a s', P a s' → Answers Q (f a) s') : Answers Q (x >>= f) s :=
  .bind hx fun a ha => hf a _ (hret a ha)

lemma Answers.pure (a : α) : Answers Q (Pure.pure a : Handler σ ε ρ α) s := by
  rintro _ ⟨⟩

lemma Answers.exit {r : ρ} (h : Q r) : Answers Q (Handler.exit r : Handler σ ε ρ α) s := by
  rintro _ ⟨⟩
  exact h

lemma Answers.emit (e : ε) : Answers Q (Handler.emit e : Handler σ ε ρ Unit) s := by
  rintro _ ⟨⟩

lemma Answers.get : Answers Q (Handler.get : Handler σ ε ρ σ) s := by
  rintro _ ⟨⟩

lemma Answers.update (g : σ → α × σ) : Answers Q (Handler.update g : Handler σ ε ρ α) s := by
  rintro _ ⟨⟩

end Answers

/-! ### Rules for what is noted -/

def notedFor {γ : Type} (answered returned : List γ) : Except ρ α → List γ
  | .error _ => answered
  | .ok _ => returned

structure Notes {γ : Type} (note : ε → Option γ) (answered returned : List γ)
    (x : Handler σ ε ρ α) (s : σ) : Prop where
  log_eq : (x s).log.filterMap note = notedFor answered returned (x s).result

section Notes

variable {γ : Type} {note : ε → Option γ} {answered returned : List γ} {s : σ}
  {x : Handler σ ε ρ α} {f : α → Handler σ ε ρ β}

lemma Notes.bind (hx : Notes note answered [] x s)
    (hf : ∀ a, (x s).result = .ok a → Notes note answered returned (f a) (x s).state) :
    Notes note answered returned (x >>= f) s := by
  have hlog := hx.log_eq
  constructor
  change (Handler.bind x f s).log.filterMap note =
    notedFor answered returned (Handler.bind x f s).result
  rw [Handler.bind]
  cases hr : (x s).result with
  | error r =>
    rw [hr] at hlog
    exact hlog
  | ok a =>
    rw [hr, notedFor] at hlog
    dsimp only
    rw [List.filterMap_append, hlog, List.nil_append]
    exact (hf a hr).log_eq

lemma Notes.pure (a : α) : Notes note answered [] (Pure.pure a : Handler σ ε ρ α) s := ⟨rfl⟩

lemma Notes.get : Notes note answered [] (Handler.get : Handler σ ε ρ σ) s := ⟨rfl⟩

lemma Notes.update (g : σ → α × σ) :
    Notes note answered [] (Handler.update g : Handler σ ε ρ α) s := ⟨rfl⟩

lemma Notes.exit (r : ρ) : Notes note [] returned (Handler.exit r : Handler σ ε ρ α) s := ⟨rfl⟩

lemma Notes.emit {e : ε} (h : note e = none) :
    Notes note answered [] (Handler.emit e : Handler σ ε ρ Unit) s := by
  constructor
  change [e].filterMap note = []
  rw [List.filterMap_cons_none h, List.filterMap_nil]

lemma Notes.emitBind {e : ε} {c : γ} (h : note e = some c) {f : Unit → Handler σ ε ρ β}
    (hf : Notes note [] [] (f ()) s) : Notes note [c] [c] (Handler.emit e >>= f) s := by
  constructor
  change ([e] ++ (f () s).log).filterMap note = notedFor [c] [c] (f () s).result
  rw [List.filterMap_append, List.filterMap_cons_some h, List.filterMap_nil, hf.log_eq]
  cases (f () s).result <;> rfl

lemma Notes.of_answers (hx : Notes note answered answered x s)
    (hret : Returns (fun _ _ => False) x s) : Notes note answered returned x s := by
  have hlog := hx.log_eq
  constructor
  cases hr : (x s).result with
  | error r =>
    rw [hr] at hlog
    exact hlog
  | ok a => exact (hret a hr).elim

end Notes

/-! ### Properties of the parts of a handler -/

structure Composes (allowed : σ → σ → Prop) (Φ : (α : Type) → Handler σ ε ρ α → σ → Prop) :
    Prop where
  bind : ∀ {α β : Type} {x : Handler σ ε ρ α} {f : α → Handler σ ε ρ β} {s : σ}, Φ α x s →
    (∀ a, (x s).result = .ok a → Φ β (f a) (x s).state) → Φ β (x >>= f) s
  pure : ∀ {α : Type} (a : α) (s : σ), Φ α (Pure.pure a) s
  get : ∀ s : σ, Φ σ Handler.get s
  update : ∀ {α : Type} (g : σ → α × σ) (s : σ), allowed s (g s).2 → Φ α (Handler.update g) s

section Composes

variable {allowed : σ → σ → Prop} {Φ : (α : Type) → Handler σ ε ρ α → σ → Prop}

lemma Composes.each (h : Composes allowed Φ) {f : α → Handler σ ε ρ Unit}
    (hf : ∀ a s, Φ Unit (f a) s) (l : List α) (s : σ) : Φ Unit (Handler.each f l) s := by
  induction l generalizing s with
  | nil => exact h.pure () s
  | cons a l ih => exact h.bind (hf a s) fun _ _ => ih _

lemma AllEvents.composes {φ : ε → Prop} :
    Composes (fun _ _ : σ => True) fun α (x : Handler σ ε ρ α) s => AllEvents φ x s :=
  ⟨.bind, fun a _ => .pure a, fun _ => .get, fun g _ _ => .update g⟩

lemma Answers.composes {Q : ρ → Prop} :
    Composes (fun _ _ : σ => True) fun α (x : Handler σ ε ρ α) s => Answers Q x s :=
  ⟨.bind, fun a _ => .pure a, fun _ => .get, fun g _ _ => .update g⟩

lemma Notes.composes {γ : Type} {note : ε → Option γ} {answered : List γ} :
    Composes (fun _ _ : σ => True) fun α (x : Handler σ ε ρ α) s => Notes note answered [] x s :=
  ⟨.bind, fun a _ => .pure a, fun _ => .get, fun g _ _ => .update g⟩

end Composes

end Handlers
