import PxxlEdge.Proxy.Upstreams
import PxxlEdge.Lib.History

/-!
Circuit breakers over whole runs of calls: whether a breaker is open is read off the
results that were recorded under its key.
-/

namespace PxxlEdge

open RustStd Http Run History List

/-! ### Calls -/

structure BreakerResult where
  failed : Bool
  time : ℕ
deriving DecidableEq, Repr

inductive BreakerCall where
  | isOpen (matched : RouteMatch) (upstream : Text) (now : ℕ)
  | record (config : CircuitBreakerConfig) (matched : RouteMatch) (upstream : Text) (status : ℕ)
      (error : Bool) (now : ℕ)

namespace BreakerCall

def step (policy : PolicyEnforcer) : BreakerCall → PolicyEnforcer
  | isOpen matched upstream now => (policy.circuitIsOpen now matched upstream).2
  | record config matched upstream status error now =>
    policy.recordCircuitResult now config matched upstream status error

def now : BreakerCall → ℕ
  | isOpen _ _ now => now
  | record _ _ _ _ _ now => now

def resultOn (key : Text) : BreakerCall → Option BreakerResult
  | isOpen _ _ _ => none
  | record _ matched upstream status error now =>
    if circuitKey matched.route.id matched.path.pathPrefix upstream = key then
      some ⟨error || isServerError status, now⟩
    else none

def Configured (key : Text) (config : CircuitBreakerConfig) : BreakerCall → Prop
  | isOpen _ _ _ => True
  | record config' matched upstream _ _ _ =>
    circuitKey matched.route.id matched.path.pathPrefix upstream = key → config' = config

end BreakerCall

def resultsOn (key : Text) (calls : List BreakerCall) : List BreakerResult :=
  calls.filterMap (BreakerCall.resultOn key)

def failuresSinceSuccess (results : List BreakerResult) : ℕ := trailing (·.failed) results

def lastFailure (results : List BreakerResult) : Option ℕ :=
  (lastWhere (·.failed) results).map (·.time)

def CircuitBreakerConfig.threshold (config : CircuitBreakerConfig) : ℕ :=
  max config.failureThreshold 1

def CircuitBreakerConfig.openTime (config : CircuitBreakerConfig) : ℕ :=
  max config.openSeconds 1 * 1000000000

/-! ### What a breaker remembers -/

section Reflects

variable {config : CircuitBreakerConfig} {results : List BreakerResult} {now now' : ℕ}
  {breaker : CircuitBreakerState}

structure Reflects (config : CircuitBreakerConfig) (results : List BreakerResult) (now : ℕ)
    (breaker : CircuitBreakerState) : Prop where
  failures : breaker.failures = min (failuresSinceSuccess results) (2 ^ 32 - 1)
  closed : failuresSinceSuccess results < config.threshold → breaker.openUntil = none
  opened : config.threshold ≤ failuresSinceSuccess results →
    ∃ time, lastFailure results = some time ∧
      (breaker.openUntil = some (time + config.openTime) ∨
        breaker.openUntil = none ∧ time + config.openTime ≤ now)

lemma reflects_nil : Reflects config [] now {} where
  failures := by simp [failuresSinceSuccess]
  closed := fun _ => rfl
  opened := by
    intro h
    simp [failuresSinceSuccess, CircuitBreakerConfig.threshold] at h

lemma Reflects.mono (h : Reflects config results now breaker) (hnow : now ≤ now') :
    Reflects config results now' breaker where
  failures := h.failures
  closed := h.closed
  opened := by
    intro hmany
    obtain ⟨time, hlast, hopen | ⟨hnone, hover⟩⟩ := h.opened hmany
    · exact ⟨time, hlast, .inl hopen⟩
    · exact ⟨time, hlast, .inr ⟨hnone, hover.trans hnow⟩⟩

lemma Reflects.clear (h : Reflects config results now breaker)
    (hover : ∀ time, breaker.openUntil = some time → time ≤ now) :
    Reflects config results now { breaker with openUntil := none } where
  failures := h.failures
  closed := fun _ => rfl
  opened := by
    intro hmany
    obtain ⟨time, hlast, hopen | ⟨-, hpast⟩⟩ := h.opened hmany
    · exact ⟨time, hlast, .inr ⟨rfl, hover _ hopen⟩⟩
    · exact ⟨time, hlast, .inr ⟨rfl, hpast⟩⟩

def CircuitBreakerState.after (config : CircuitBreakerConfig) (breaker : CircuitBreakerState)
    (result : BreakerResult) : CircuitBreakerState :=
  if result.failed then
    let failures := min (breaker.failures + 1) (2 ^ 32 - 1)
    if config.threshold ≤ failures then ⟨failures, some (result.time + config.openTime)⟩
    else { breaker with failures }
  else ⟨0, none⟩

lemma Reflects.after (h : Reflects config results now breaker)
    (hthreshold : config.failureThreshold < 2 ^ 32) (result : BreakerResult) :
    Reflects config (results ++ [result]) now (breaker.after config result) := by
  have hle : config.threshold ≤ 2 ^ 32 - 1 := by
    rw [CircuitBreakerConfig.threshold]
    omega
  cases hfailed : result.failed with
  | false =>
    have hzero : failuresSinceSuccess (results ++ [result]) = 0 :=
      trailing_concat_of_neg hfailed
    rw [CircuitBreakerState.after, if_neg (by simp [hfailed])]
    refine ⟨by simp [hzero], fun _ => rfl, fun hmany => ?_⟩
    rw [hzero, CircuitBreakerConfig.threshold] at hmany
    omega
  | true =>
    have hsucc : failuresSinceSuccess (results ++ [result]) =
        failuresSinceSuccess results + 1 := trailing_concat_of_pos hfailed
    have hlast : lastFailure (results ++ [result]) = some result.time := by
      rw [lastFailure, lastWhere_concat_of_pos hfailed, Option.map_some]
    have hcount : min (breaker.failures + 1) (2 ^ 32 - 1) =
        min (failuresSinceSuccess results + 1) (2 ^ 32 - 1) := by
      rw [h.failures]
      omega
    rw [CircuitBreakerState.after, if_pos hfailed]
    dsimp only
    rw [hcount]
    split
    · next hmany =>
      refine ⟨by rw [hsucc], fun hfew => ?_, fun _ => ⟨_, hlast, .inl rfl⟩⟩
      rw [hsucc] at hfew
      omega
    · next hfew =>
      -- the counter is below the threshold, so it has not been capped
      have hbelow : failuresSinceSuccess results + 1 < config.threshold := by omega
      refine ⟨by rw [hsucc], fun _ => h.closed (by omega), fun hmany => ?_⟩
      rw [hsucc] at hmany
      omega

lemma Reflects.isOpen_iff (h : Reflects config results now breaker) {t : ℕ} (ht : now ≤ t) :
    (breaker.openUntil.any fun openUntil => decide (t < openUntil)) = true ↔
      config.threshold ≤ failuresSinceSuccess results ∧
        ∃ time, lastFailure results = some time ∧ t < time + config.openTime := by
  by_cases hmany : config.threshold ≤ failuresSinceSuccess results
  · obtain ⟨time, hlast, hopen | ⟨hnone, hpast⟩⟩ := h.opened hmany
    · rw [hopen, Option.any_some, decide_eq_true_iff]
      constructor
      · intro hlt
        exact ⟨hmany, time, hlast, hlt⟩
      · rintro ⟨-, time', hlast', hlt⟩
        obtain rfl : time = time' := Option.some.inj (hlast.symm.trans hlast')
        exact hlt
    · rw [hnone, Option.any_none]
      refine iff_of_false Bool.false_ne_true ?_
      rintro ⟨-, time', hlast', hlt⟩
      obtain rfl : time = time' := Option.some.inj (hlast.symm.trans hlast')
      omega
  · rw [h.closed (not_le.mp hmany), Option.any_none]
    exact iff_of_false Bool.false_ne_true fun h' => hmany h'.1

end Reflects

/-! ### Runs -/

section Runs

variable {key : Text} {config : CircuitBreakerConfig} {policy : PolicyEnforcer}
  {results : List BreakerResult} {now : ℕ}

def PolicyEnforcer.breakerOf (policy : PolicyEnforcer) (key : Text) : CircuitBreakerState :=
  (policy.circuitBreakers.get key).getD {}

lemma breakerOf_insert_self (breaker : CircuitBreakerState) :
    PolicyEnforcer.breakerOf
      { policy with circuitBreakers := policy.circuitBreakers.insert key breaker } key =
        breaker := by
  simp [PolicyEnforcer.breakerOf, Map.get]

lemma breakerOf_insert_of_ne {key' : Text} (hne : key ≠ key') (breaker : CircuitBreakerState) :
    PolicyEnforcer.breakerOf
      { policy with circuitBreakers := policy.circuitBreakers.insert key' breaker } key =
        policy.breakerOf key := by
  simp [PolicyEnforcer.breakerOf, Map.get, AList.lookup_insert_ne hne]

lemma circuitIsOpen_fst {matched : RouteMatch} {upstream : Text} {t : ℕ}
    (hkey : circuitKey matched.route.id matched.path.pathPrefix upstream = key) :
    (policy.circuitIsOpen t matched upstream).1 =
      (policy.breakerOf key).openUntil.any fun openUntil => decide (t < openUntil) := by
  rw [PolicyEnforcer.circuitIsOpen, PolicyEnforcer.breakerOf, hkey]
  cases policy.circuitBreakers.get key with
  | none => rfl
  | some breaker =>
    dsimp only [Option.getD_some]
    split
    · next hopen => exact hopen.symm
    · next hopen => exact (Bool.eq_false_of_not_eq_true hopen).symm

lemma breakerOf_circuitIsOpen (policy : PolicyEnforcer) (key : Text) (matched : RouteMatch)
    (upstream : Text) (t : ℕ) :
    (policy.circuitIsOpen t matched upstream).2.breakerOf key = policy.breakerOf key ∨
      (∀ time, (policy.breakerOf key).openUntil = some time → time ≤ t) ∧
        (policy.circuitIsOpen t matched upstream).2.breakerOf key =
          { policy.breakerOf key with openUntil := none } := by
  rw [PolicyEnforcer.circuitIsOpen]
  set key' := circuitKey matched.route.id matched.path.pathPrefix upstream with hkey'
  cases hget : policy.circuitBreakers.get key' with
  | none => exact .inl rfl
  | some breaker =>
    dsimp only
    split
    · exact .inl rfl
    · next hopen =>
      by_cases hne : key = key'
      · have hbreaker : policy.breakerOf key = breaker := by
          rw [PolicyEnforcer.breakerOf, hne, hget, Option.getD_some]
        refine .inr ⟨fun time htime => ?_, ?_⟩
        · rw [hbreaker] at htime
          simpa [htime] using hopen
        · rw [hne, breakerOf_insert_self, ← hne, hbreaker]
      · exact .inl (breakerOf_insert_of_ne hne _)

lemma breakerOf_recordCircuitResult {matched : RouteMatch} {upstream : Text} {status : ℕ}
    {error : Bool} {t : ℕ} (henabled : config.enabled = true)
    (hkey : circuitKey matched.route.id matched.path.pathPrefix upstream = key) :
    (policy.recordCircuitResult t config matched upstream status error).breakerOf key =
      (policy.breakerOf key).after config ⟨error || isServerError status, t⟩ := by
  rw [PolicyEnforcer.recordCircuitResult, if_neg (by simp [henabled])]
  dsimp only
  rw [hkey, breakerOf_insert_self]
  rfl

lemma breakerOf_recordCircuitResult_of_ne {config' : CircuitBreakerConfig} {matched : RouteMatch}
    {upstream : Text} {status : ℕ} {error : Bool} {t : ℕ}
    (hkey : circuitKey matched.route.id matched.path.pathPrefix upstream ≠ key) :
    (policy.recordCircuitResult t config' matched upstream status error).breakerOf key =
      policy.breakerOf key := by
  rw [PolicyEnforcer.recordCircuitResult]
  split
  · rfl
  · exact breakerOf_insert_of_ne (Ne.symm hkey) _

lemma Reflects.step (h : Reflects config results now (policy.breakerOf key))
    (henabled : config.enabled = true) (hthreshold : config.failureThreshold < 2 ^ 32)
    {call : BreakerCall} (hconfig : call.Configured key config) (hnow : now ≤ call.now) :
    Reflects config (results ++ (call.resultOn key).toList) call.now
      ((call.step policy).breakerOf key) := by
  have hlater := h.mono hnow
  cases call with
  | isOpen matched upstream t =>
    rw [BreakerCall.resultOn, Option.toList_none, append_nil]
    rcases breakerOf_circuitIsOpen policy key matched upstream t with heq | ⟨hover, heq⟩
    · rw [BreakerCall.step, heq]
      exact hlater
    · rw [BreakerCall.step, heq]
      exact hlater.clear hover
  | record config' matched upstream status error t =>
    by_cases hkey : circuitKey matched.route.id matched.path.pathPrefix upstream = key
    · obtain rfl : config' = config := hconfig hkey
      rw [BreakerCall.resultOn, if_pos hkey, Option.toList_some, BreakerCall.step,
        breakerOf_recordCircuitResult henabled hkey]
      exact hlater.after hthreshold _
    · rw [BreakerCall.resultOn, if_neg hkey, Option.toList_none, append_nil,
        BreakerCall.step, breakerOf_recordCircuitResult_of_ne hkey]
      exact hlater

lemma Reflects.run {calls : List BreakerCall} (h : Reflects config results now
      (policy.breakerOf key)) (henabled : config.enabled = true)
    (hthreshold : config.failureThreshold < 2 ^ 32)
    (hconfig : ∀ call ∈ calls, call.Configured key config)
    (hclock : (now :: calls.map BreakerCall.now).Pairwise (· ≤ ·)) {t : ℕ}
    (ht : ∀ time ∈ now :: calls.map BreakerCall.now, time ≤ t) :
    Reflects config (results ++ resultsOn key calls) t
      ((Run.run BreakerCall.step policy calls).breakerOf key) := by
  induction calls generalizing policy results now with
  | nil =>
    rw [resultsOn, filterMap_nil, append_nil]
    exact h.mono (ht now (by simp))
  | cons call calls ih =>
    rw [map_cons, pairwise_cons] at hclock
    have hstep := h.step henabled hthreshold (hconfig call (by simp)) (hclock.1 _ (by simp))
    have hresults : results ++ resultsOn key (call :: calls) =
        results ++ (call.resultOn key).toList ++ resultsOn key calls := by
      rw [resultsOn, filterMap_cons, append_assoc]
      cases call.resultOn key <;> rfl
    rw [hresults, run_cons]
    refine ih hstep (fun c hc => hconfig c (by simp [hc])) hclock.2 fun time htime => ht time ?_
    rw [map_cons]
    exact mem_cons_of_mem _ htime

end Runs

end PxxlEdge
