import PxxlEdge.Common.Types
import PxxlEdge.Lib.Iter

/-!
The load balancer: counters, requests in flight and latencies by key, and the
choice of an upstream among the healthy ones.

The hash functions are parameters.  Counters wrap around at the word size, and
the moving average of latencies is computed exactly and rounded down.
-/

namespace PxxlEdge

open RustStd

structure Hashes where
  ip : IpAddr → ℕ := fun _ => 0
  secondChoice : Text → ℕ → ℕ := fun _ _ => 0
  rendezvous : Text → Text → ℕ := fun _ _ => 0

def maxLoadBalancerKeys : ℕ := 100000

structure LoadBalancer where
  counters : Map Text ℕ := ∅
  inFlight : Map Text ℕ := ∅
  ewmaLatencyMicros : Map Text ℕ := ∅

namespace LoadBalancer

def upstreamKey (routeKey upstream : Text) : Text := routeKey ++ "|" ++ upstream

def evictMap (m : Map Text ℕ) : Map Text ℕ :=
  if maxLoadBalancerKeys < m.entries.length then ∅ else m

def evictIfNeeded (lb : LoadBalancer) : LoadBalancer where
  counters := evictMap lb.counters
  inFlight := evictMap lb.inFlight
  ewmaLatencyMicros := evictMap lb.ewmaLatencyMicros

def beginRequest (lb : LoadBalancer) (routeKey upstream : Text) : LoadBalancer :=
  let lb := lb.evictIfNeeded
  let key := upstreamKey routeKey upstream
  { lb with inFlight := lb.inFlight.insert key (((lb.inFlight.lookup key).getD 0 + 1) % 2 ^ 64) }

def nextLatency (current latencyMicros : ℕ) : ℕ :=
  max 1 (if current = 0 then latencyMicros else (4 * current + latencyMicros) / 5)

def endRequest (lb : LoadBalancer) (routeKey upstream : Text) (latencyMicros : ℕ) :
    LoadBalancer :=
  let key := upstreamKey routeKey upstream
  { lb with
    inFlight :=
      match lb.inFlight.lookup key with
      | some n => lb.inFlight.insert key (n - 1)
      | none => lb.inFlight
    ewmaLatencyMicros :=
      lb.ewmaLatencyMicros.insert key
        (nextLatency ((lb.ewmaLatencyMicros.lookup key).getD latencyMicros) latencyMicros) }

def upstreamInFlight (lb : LoadBalancer) (routeKey upstream : Text) : ℕ :=
  (lb.inFlight.lookup (upstreamKey routeKey upstream)).getD 0

def fetchAdd (lb : LoadBalancer) (key : Text) : ℕ × LoadBalancer :=
  let n := (lb.counters.lookup key).getD 0
  (n, { lb with counters := lb.counters.insert key ((n + 1) % 2 ^ 64) })

def weightedIndices (weights : List ℕ) : List ℕ :=
  weights.zipIdx.flatMap fun p => List.replicate (max p.1 1) p.2

def selectWeightedIndex (lb : LoadBalancer) (routeKey : Text) (weights : List ℕ) :
    Option ℕ × LoadBalancer :=
  let lb := lb.evictIfNeeded
  if weights = [] then (none, lb)
  else
    let weighted := weightedIndices weights
    let (n, lb) := lb.fetchAdd routeKey
    (weighted[n % weighted.length]?, lb)

def roundRobin (lb : LoadBalancer) (routeKey : Text) (upstreams : List Upstream) :
    Option Upstream × LoadBalancer :=
  let (n, lb) := lb.fetchAdd routeKey
  (upstreams[n % upstreams.length]?, lb)

def leastConnections (lb : LoadBalancer) (routeKey : Text) (upstreams : List Upstream) :
    Option Upstream :=
  minByKey (fun u => lb.upstreamInFlight routeKey u.url) upstreams

def powerOfTwoChoices (H : Hashes) (lb : LoadBalancer) (routeKey : Text)
    (upstreams : List Upstream) : Option Upstream × LoadBalancer :=
  if upstreams.length ≤ 2 then (lb.leastConnections routeKey upstreams, lb)
  else
    let (counter, lb) := lb.fetchAdd (routeKey ++ ":p2c")
    let first := counter % upstreams.length
    let second := H.secondChoice routeKey counter % upstreams.length
    let second := if second = first then (second + 1) % upstreams.length else second
    match upstreams[first]?, upstreams[second]? with
    | some left, some right =>
      if lb.upstreamInFlight routeKey left.url ≤ lb.upstreamInFlight routeKey right.url then
        (some left, lb)
      else (some right, lb)
    | _, _ => (none, lb)

def highestRandomWeight (H : Hashes) (routeKey : Text) (upstreams : List Upstream)
    (clientIp : Option IpAddr) : Option Upstream :=
  let identity := (clientIp.map IpAddr.display).getD routeKey
  maxByKey (fun u => min (H.rendezvous identity u.url * max u.weight 1) (2 ^ 64 - 1)) upstreams

def latencyAware (lb : LoadBalancer) (routeKey : Text) (upstreams : List Upstream) :
    Option Upstream :=
  minByKey (fun u => (lb.ewmaLatencyMicros.lookup (upstreamKey routeKey u.url)).getD 0) upstreams

def weightedUpstreams (upstreams : List Upstream) : List Upstream :=
  upstreams.flatMap fun u => List.replicate (max u.weight 1) u

def select (H : Hashes) (lb : LoadBalancer) (routeKey : Text) (algorithm : LoadBalancingAlgorithm)
    (upstreams : List Upstream) (clientIp : Option IpAddr) : Option Upstream × LoadBalancer :=
  let lb := lb.evictIfNeeded
  let healthy := upstreams.filter fun u => u.healthy
  if healthy = [] then (none, lb)
  else
    match algorithm with
    | .ipHash =>
      match clientIp with
      | none => (none, lb)
      | some ip => (healthy[H.ip ip % healthy.length]?, lb)
    | .weightedRoundRobin => lb.roundRobin routeKey (weightedUpstreams healthy)
    | .leastConnections => (lb.leastConnections routeKey healthy, lb)
    | .p2c => lb.powerOfTwoChoices H routeKey healthy
    | .hrw => (highestRandomWeight H routeKey healthy clientIp, lb)
    | .ewmaLatency => (lb.latencyAware routeKey healthy, lb)
    | .latencyAware => (lb.latencyAware routeKey healthy, lb)
    | .roundRobin => lb.roundRobin routeKey healthy

/-! ### What is selected -/

section Select

variable {H : Hashes} {lb : LoadBalancer} {routeKey : Text} {upstreams : List Upstream}
  {clientIp : Option IpAddr}

lemma chooses_of_weightedUpstreams {choice : Option Upstream}
    (h : Chooses (weightedUpstreams upstreams) choice) : Chooses upstreams choice where
  mem := by
    intro u hu
    obtain ⟨v, hv, huv⟩ := List.mem_flatMap.mp (h.mem u hu)
    rwa [List.eq_of_mem_replicate huv]
  isSome := by
    intro hne
    obtain ⟨u, hu⟩ := List.exists_mem_of_ne_nil _ hne
    have hmem : u ∈ weightedUpstreams upstreams :=
      List.mem_flatMap.mpr ⟨u, hu, List.mem_replicate.mpr ⟨by omega, rfl⟩⟩
    exact h.isSome (List.ne_nil_of_mem hmem)

lemma chooses_powerOfTwoChoices :
    Chooses upstreams (lb.powerOfTwoChoices H routeKey upstreams).1 := by
  rw [powerOfTwoChoices]
  split
  · exact chooses_minByKey _ _
  · next hlength =>
    dsimp only
    set first := (lb.fetchAdd (routeKey ++ ":p2c")).1 % upstreams.length
    set second := if _ = first then _ else _
    have hpos : 0 < upstreams.length := by omega
    have hfirst : first < upstreams.length := Nat.mod_lt _ hpos
    have hsecond : second < upstreams.length := by
      show (if _ then _ else _) < _
      split
      · exact Nat.mod_lt _ hpos
      · exact Nat.mod_lt _ hpos
    rw [List.getElem?_eq_getElem hfirst, List.getElem?_eq_getElem hsecond]
    dsimp only
    split
    · exact ⟨by simp, by simp⟩
    · exact ⟨by simp, by simp⟩

lemma select_cases (H : Hashes) (lb : LoadBalancer) (routeKey : Text)
    (algorithm : LoadBalancingAlgorithm) (upstreams : List Upstream) (clientIp : Option IpAddr) :
    Chooses (upstreams.filter fun u => u.healthy)
        (lb.select H routeKey algorithm upstreams clientIp).1 ∨
      algorithm = .ipHash ∧ clientIp = none ∧
        (lb.select H routeKey algorithm upstreams clientIp).1 = none := by
  unfold select
  dsimp only
  split
  · next hnone =>
    rw [hnone]
    exact .inl ⟨by simp, by simp⟩
  · cases algorithm with
    | ipHash =>
      cases clientIp with
      | none => exact .inr ⟨rfl, rfl, rfl⟩
      | some ip => exact .inl (chooses_getElem?_mod _ _)
    | weightedRoundRobin => exact .inl (chooses_of_weightedUpstreams (chooses_getElem?_mod _ _))
    | leastConnections => exact .inl (chooses_minByKey _ _)
    | p2c => exact .inl chooses_powerOfTwoChoices
    | hrw => exact .inl (chooses_maxByKey _ _)
    | ewmaLatency => exact .inl (chooses_minByKey _ _)
    | latencyAware => exact .inl (chooses_minByKey _ _)
    | roundRobin => exact .inl (chooses_getElem?_mod _ _)

lemma select_ipHash_none (H : Hashes) (lb : LoadBalancer) (routeKey : Text)
    (upstreams : List Upstream) : (lb.select H routeKey .ipHash upstreams none).1 = none := by
  unfold select
  dsimp only
  split
  · rfl
  · rfl

end Select

end LoadBalancer

end PxxlEdge
