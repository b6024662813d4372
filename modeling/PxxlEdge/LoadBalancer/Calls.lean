import PxxlEdge.LoadBalancer
import PxxlEdge.Lib.Run

/-!
The calls of the load balancer, which handlers make one after the other, and what each
leaves of its maps.

* `select_snd`, `selectWeightedIndex_snd`: a selection evicts, and raises at most one
  counter.
-/

namespace PxxlEdge

open RustStd

namespace LoadBalancer

variable {H : Hashes} {lb : LoadBalancer}

/-! ### Maps -/

lemma evictMap_eq_self {m : Map Text ℕ} (h : m.entries.length ≤ maxLoadBalancerKeys) :
    evictMap m = m := by
  rw [evictMap, if_neg (Nat.not_lt.2 h)]

lemma inFlight_beginRequest (routeKey upstream : Text)
    (hkeys : lb.inFlight.entries.length ≤ maxLoadBalancerKeys) :
    (lb.beginRequest routeKey upstream).inFlight =
      lb.inFlight.insert (upstreamKey routeKey upstream)
        ((lb.upstreamInFlight routeKey upstream + 1) % 2 ^ 64) := by
  rw [beginRequest, evictIfNeeded, upstreamInFlight, evictMap_eq_self hkeys]

lemma inFlight_endRequest {routeKey upstream : Text} {n : ℕ}
    (h : lb.inFlight.lookup (upstreamKey routeKey upstream) = some n) (latencyMicros : ℕ) :
    (lb.endRequest routeKey upstream latencyMicros).inFlight =
      lb.inFlight.insert (upstreamKey routeKey upstream) (n - 1) := by
  simp only [endRequest, h]

/-! ### Selections -/

def selectCounter (routeKey : Text) (algorithm : LoadBalancingAlgorithm)
    (upstreams : List Upstream) : Option Text :=
  let healthy := upstreams.filter fun u => u.healthy
  if healthy = [] then none
  else
    match algorithm with
    | .weightedRoundRobin => some routeKey
    | .roundRobin => some routeKey
    | .p2c => if healthy.length ≤ 2 then none else some (routeKey ++ ":p2c".toList)
    | _ => none

def weightedIndexCounter (routeKey : Text) (weights : List ℕ) : Option Text :=
  if weights = [] then none else some routeKey

def raise (lb : LoadBalancer) : Option Text → LoadBalancer
  | none => lb
  | some key => (lb.fetchAdd key).2

@[simp] lemma inFlight_raise (key : Option Text) : (lb.raise key).inFlight = lb.inFlight := by
  cases key <;> rfl

lemma select_snd (routeKey : Text) (algorithm : LoadBalancingAlgorithm) (upstreams : List Upstream)
    (clientIp : Option IpAddr) :
    (lb.select H routeKey algorithm upstreams clientIp).2 =
      lb.evictIfNeeded.raise (selectCounter routeKey algorithm upstreams) := by
  unfold select selectCounter
  dsimp only
  split
  · rfl
  · cases algorithm with
    | ipHash => cases clientIp <;> rfl
    | p2c =>
      dsimp only
      rw [powerOfTwoChoices]
      split
      · rfl
      · dsimp only
        split
        · split <;> rfl
        · rfl
    | _ => rfl

lemma selectWeightedIndex_snd (routeKey : Text) (weights : List ℕ) :
    (lb.selectWeightedIndex routeKey weights).2 =
      lb.evictIfNeeded.raise (weightedIndexCounter routeKey weights) := by
  rw [selectWeightedIndex, weightedIndexCounter]
  split <;> rfl

end LoadBalancer

/-! ### Calls -/

inductive BalancerCall where
  | select (routeKey : Text) (algorithm : LoadBalancingAlgorithm) (upstreams : List Upstream)
      (clientIp : Option IpAddr)
  | selectWeightedIndex (routeKey : Text) (weights : List ℕ)
  | beginRequest (routeKey upstream : Text)
  | endRequest (routeKey upstream : Text) (latencyMicros : ℕ)
deriving DecidableEq

namespace BalancerCall

def step (H : Hashes) (lb : LoadBalancer) : BalancerCall → LoadBalancer
  | .select routeKey algorithm upstreams clientIp =>
    (lb.select H routeKey algorithm upstreams clientIp).2
  | .selectWeightedIndex routeKey weights => (lb.selectWeightedIndex routeKey weights).2
  | .beginRequest routeKey upstream => lb.beginRequest routeKey upstream
  | .endRequest routeKey upstream latencyMicros => lb.endRequest routeKey upstream latencyMicros

def evicts : BalancerCall → Bool
  | .endRequest _ _ _ => false
  | _ => true

def counterKey : BalancerCall → Option Text
  | .select routeKey algorithm upstreams _ =>
    LoadBalancer.selectCounter routeKey algorithm upstreams
  | .selectWeightedIndex routeKey weights => LoadBalancer.weightedIndexCounter routeKey weights
  | .beginRequest _ _ => none
  | .endRequest _ _ _ => none

end BalancerCall

namespace LoadBalancer

variable {H : Hashes} {lb : LoadBalancer}

def counterOf (key : Text) (lb : LoadBalancer) : ℕ := (lb.counters.lookup key).getD 0

lemma counterOf_raise (key : Text) (key' : Option Text) :
    counterOf key (lb.raise key') =
      if key' = some key then (counterOf key lb + 1) % 2 ^ 64 else counterOf key lb := by
  cases key' with
  | none => rfl
  | some key' =>
    rw [raise, fetchAdd, counterOf, counterOf]
    dsimp only
    by_cases heq : key' = key
    · subst heq
      rw [AList.lookup_insert, if_pos rfl, Option.getD_some]
    · rw [AList.lookup_insert_ne (Ne.symm heq), if_neg fun h => heq (Option.some.inj h)]

lemma counterOf_evictIfNeeded (key : Text)
    (hkeys : lb.counters.entries.length ≤ maxLoadBalancerKeys) :
    counterOf key lb.evictIfNeeded = counterOf key lb := by
  rw [counterOf, evictIfNeeded, evictMap_eq_self hkeys, counterOf]

def SparesCounters (lb : LoadBalancer) (call : BalancerCall) : Prop :=
  call.evicts = true → lb.counters.entries.length ≤ maxLoadBalancerKeys

instance (lb : LoadBalancer) (call : BalancerCall) : Decidable (lb.SparesCounters call) :=
  inferInstanceAs (Decidable (_ → _))

lemma counterOf_step {call : BalancerCall} (hkeys : lb.SparesCounters call) (key : Text) :
    counterOf key (call.step H lb) =
      if call.counterKey = some key then (counterOf key lb + 1) % 2 ^ 64
      else counterOf key lb := by
  cases call with
  | select routeKey algorithm upstreams clientIp =>
    rw [BalancerCall.step, select_snd, counterOf_raise, counterOf_evictIfNeeded key (hkeys rfl)]
    rfl
  | selectWeightedIndex routeKey weights =>
    rw [BalancerCall.step, selectWeightedIndex_snd, counterOf_raise,
      counterOf_evictIfNeeded key (hkeys rfl)]
    rfl
  | beginRequest routeKey upstream => exact counterOf_evictIfNeeded key (hkeys rfl)
  | endRequest routeKey upstream latencyMicros => rfl

end LoadBalancer

end PxxlEdge
