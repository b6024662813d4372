import PxxlEdge.Lib.Counts
import PxxlEdge.LoadBalancer.Calls

/-!
Accounting of requests in flight.  Every begun request is counted until it ends, under
a key made of the route key, a bar and the upstream; a map with too many keys is
emptied.
-/

namespace PxxlEdge

open RustStd Run LoadBalancer List

/-! ### Keys -/

def requestKey (r : Text × Text) : Text := upstreamKey r.1 r.2

def Plain (r : Text × Text) : Prop := '|' ∉ r.1 ∧ '|' ∉ r.2

instance (r : Text × Text) : Decidable (Plain r) := inferInstanceAs (Decidable (_ ∧ _))

lemma requestKey_eq (r : Text × Text) : requestKey r = r.1 ++ '|' :: r.2 := by
  simp [requestKey, upstreamKey]

lemma Plain.eq_of_requestKey_eq {r r' : Text × Text} (h : Plain r)
    (hkey : requestKey r = requestKey r') : r = r' := by
  rw [requestKey_eq, requestKey_eq, append_cons_inj_of_notMem h.1 h.2] at hkey
  exact Prod.ext hkey.1 hkey.2.2

lemma exists_requestKey_eq {r : Text × Text} (h : ¬ Plain r) :
    ∃ r', r' ≠ r ∧ requestKey r' = requestKey r := by
  obtain ⟨routeKey, upstream⟩ := r
  rw [Plain, not_and_or, not_not, not_not] at h
  rcases h with h | h
  · obtain ⟨front, back, rfl⟩ := append_of_mem h
    refine ⟨(front, back ++ '|' :: upstream), fun heq => ?_, by simp [requestKey_eq]⟩
    simpa using congrArg (fun r : Text × Text => r.1.length) heq
  · obtain ⟨front, back, rfl⟩ := append_of_mem h
    refine ⟨(routeKey ++ '|' :: front, back), fun heq => ?_, by simp [requestKey_eq]⟩
    simpa using congrArg (fun r : Text × Text => r.1.length) heq

/-! ### Counters and open requests -/

def ExactFor (opens : Multiset (Text × Text)) (m : Map Text ℕ) : Prop :=
  ∀ r, (m.lookup (requestKey r)).getD 0 = opens.count r

structure Accounts (opens : Multiset (Text × Text)) (m : Map Text ℕ) : Prop where
  counts : Counts (fun r => some (requestKey r)) opens m
  plain : ∀ r ∈ opens, Plain r

def raiseCounter (m : Map Text ℕ) (key : Text) : Map Text ℕ :=
  m.insert key (((m.lookup key).getD 0 + 1) % 2 ^ 64)

namespace Accounts

variable {opens : Multiset (Text × Text)} {m : Map Text ℕ} {r : Text × Text}

lemma empty : Accounts 0 ∅ := ⟨counts_empty, by simp⟩

lemma exact (h : Accounts opens m) : ExactFor opens m := by
  intro r
  rw [h.counts, holdersOf, Multiset.count]
  refine Multiset.countP_congr rfl fun r' hr' => ?_
  rw [Option.some.injEq]
  refine propext ⟨fun hkey => ((h.plain r' hr').eq_of_requestKey_eq hkey).symm, ?_⟩
  rintro rfl
  rfl

lemma evict_iff (h : Accounts opens m) :
    ExactFor opens (evictMap m) ↔ (maxLoadBalancerKeys < m.entries.length → opens = 0) := by
  rw [evictMap]
  split
  · next hmany =>
    rw [imp_iff_right hmany, Multiset.eq_zero_iff_forall_notMem]
    refine forall_congr' fun r => ?_
    rw [AList.lookup_empty, Option.getD_none, eq_comm, Multiset.count_eq_zero]
  · next hfew => exact iff_of_true h.exact fun hmany => absurd hmany hfew

lemma evict (h : Accounts opens m) (hevict : maxLoadBalancerKeys < m.entries.length → opens = 0) :
    Accounts opens (evictMap m) := by
  rw [evictMap]
  split
  · next hmany =>
    rw [hevict hmany]
    exact empty
  · exact h

lemma begin (h : Accounts opens m) (hplain : Plain r) (hcount : opens.count r + 1 < 2 ^ 64) :
    Accounts (r ::ₘ opens) (raiseCounter m (requestKey r)) := by
  refine ⟨?_, fun r' hr' => ?_⟩
  · rw [raiseCounter, Nat.mod_eq_of_lt (by rwa [h.exact r])]
    exact h.counts.take rfl
  · rcases Multiset.mem_cons.mp hr' with rfl | hr'
    · exact hplain
    · exact h.plain r' hr'

lemma begin_iff (h : Accounts opens m) :
    ExactFor (r ::ₘ opens) (raiseCounter m (requestKey r)) ↔
      Plain r ∧ opens.count r + 1 < 2 ^ 64 := by
  refine ⟨fun hexact => ?_, fun ⟨hplain, hcount⟩ => (h.begin hplain hcount).exact⟩
  have hlt := Nat.mod_lt (opens.count r + 1) (show 0 < 2 ^ 64 by decide)
  have hself := hexact r
  rw [raiseCounter, AList.lookup_insert, Option.getD_some, h.exact r,
    Multiset.count_cons_self] at hself
  refine ⟨?_, by omega⟩
  by_contra hbar
  obtain ⟨r', hne, hkey⟩ := exists_requestKey_eq hbar
  have hother := hexact r'
  have hbefore := h.exact r'
  rw [hkey, h.exact r] at hbefore
  rw [raiseCounter, hkey, AList.lookup_insert, Option.getD_some, h.exact r,
    Multiset.count_cons_of_ne hne] at hother
  omega

lemma not_begin_empty (h : Accounts opens m) (hopen : opens ≠ 0) :
    ¬ ExactFor (r ::ₘ opens) (raiseCounter ∅ (requestKey r)) := by
  intro hexact
  obtain ⟨r', hr'⟩ := Multiset.exists_mem_of_ne_zero hopen
  have hpos := Multiset.count_pos.mpr hr'
  have hcount := hexact r'
  rw [raiseCounter, AList.lookup_empty, Option.getD_none] at hcount
  by_cases hkey : requestKey r' = requestKey r
  · obtain rfl := (h.plain r' hr').eq_of_requestKey_eq hkey
    rw [AList.lookup_insert, Option.getD_some, Multiset.count_cons_self] at hcount
    omega
  · rw [AList.lookup_insert_ne hkey, AList.lookup_empty, Option.getD_none] at hcount
    have hle := Multiset.count_le_count_cons r' r opens
    omega

lemma finish (h : Accounts (r ::ₘ opens) m) {n : ℕ} (hn : m.lookup (requestKey r) = some n) :
    Accounts opens (m.insert (requestKey r) (n - 1)) :=
  ⟨h.counts.leave rfl hn, fun r' hr' => h.plain r' (Multiset.mem_cons_of_mem hr')⟩

end Accounts

/-! ### One call -/

def BalancerCall.opensAfter (opens : Multiset (Text × Text)) :
    BalancerCall → Multiset (Text × Text)
  | .beginRequest routeKey upstream => (routeKey, upstream) ::ₘ opens
  | .endRequest routeKey upstream _ => opens.erase (routeKey, upstream)
  | _ => opens

def ledgerStep (H : Hashes) : LoadBalancer × Multiset (Text × Text) → BalancerCall →
    LoadBalancer × Multiset (Text × Text) :=
  tracked (BalancerCall.step H) fun _ opens call => call.opensAfter opens

section Calls

variable {H : Hashes} {lb : LoadBalancer} {opens : Multiset (Text × Text)} {call : BalancerCall}

def EndsOpen (p : LoadBalancer × Multiset (Text × Text)) : BalancerCall → Prop
  | .endRequest routeKey upstream _ => (routeKey, upstream) ∈ p.2
  | _ => True

def InFlightExact (p : LoadBalancer × Multiset (Text × Text)) : Prop :=
  ∀ routeKey upstream, p.1.upstreamInFlight routeKey upstream = p.2.count (routeKey, upstream)

def SparesOpen (p : LoadBalancer × Multiset (Text × Text)) : Prop :=
  maxLoadBalancerKeys < p.1.inFlight.entries.length → p.2 = 0

def Accountable (p : LoadBalancer × Multiset (Text × Text)) : BalancerCall → Prop
  | .beginRequest routeKey upstream =>
    SparesOpen p ∧ Plain (routeKey, upstream) ∧ p.2.count (routeKey, upstream) + 1 < 2 ^ 64
  | .endRequest _ _ _ => True
  | _ => SparesOpen p

instance (p : LoadBalancer × Multiset (Text × Text)) : Decidable (SparesOpen p) :=
  inferInstanceAs (Decidable (_ → _))

instance (p : LoadBalancer × Multiset (Text × Text)) :
    (call : BalancerCall) → Decidable (EndsOpen p call)
  | .select _ _ _ _ => inferInstanceAs (Decidable True)
  | .selectWeightedIndex _ _ => inferInstanceAs (Decidable True)
  | .beginRequest _ _ => inferInstanceAs (Decidable True)
  | .endRequest _ _ _ => inferInstanceAs (Decidable (_ ∈ _))

instance (p : LoadBalancer × Multiset (Text × Text)) :
    (call : BalancerCall) → Decidable (Accountable p call)
  | .select _ _ _ _ => inferInstanceAs (Decidable (SparesOpen p))
  | .selectWeightedIndex _ _ => inferInstanceAs (Decidable (SparesOpen p))
  | .beginRequest _ _ => inferInstanceAs (Decidable (_ ∧ _ ∧ _))
  | .endRequest _ _ _ => inferInstanceAs (Decidable True)

lemma inFlightExact_iff : InFlightExact (lb, opens) ↔ ExactFor opens lb.inFlight :=
  ⟨fun h r => h r.1 r.2, fun h routeKey upstream => h (routeKey, upstream)⟩

lemma inFlight_step_of_select {routeKey : Text} {algorithm : LoadBalancingAlgorithm}
    {upstreams : List Upstream} {clientIp : Option IpAddr} :
    ((BalancerCall.select routeKey algorithm upstreams clientIp).step H lb).inFlight =
      evictMap lb.inFlight := by
  rw [BalancerCall.step, select_snd, inFlight_raise]
  rfl

lemma inFlight_step_of_selectWeightedIndex {routeKey : Text} {weights : List ℕ} :
    ((BalancerCall.selectWeightedIndex routeKey weights).step H lb).inFlight =
      evictMap lb.inFlight := by
  rw [BalancerCall.step, selectWeightedIndex_snd, inFlight_raise]
  rfl

lemma inFlight_step_of_beginRequest {routeKey upstream : Text} :
    ((BalancerCall.beginRequest routeKey upstream).step H lb).inFlight =
      raiseCounter (evictMap lb.inFlight) (requestKey (routeKey, upstream)) := rfl

lemma Accounts.endRequest {routeKey upstream : Text} (h : Accounts opens lb.inFlight)
    (hopen : (routeKey, upstream) ∈ opens) (latencyMicros : ℕ) :
    Accounts (opens.erase (routeKey, upstream))
      (lb.endRequest routeKey upstream latencyMicros).inFlight := by
  obtain ⟨rest, rfl⟩ := Multiset.exists_cons_of_mem hopen
  obtain ⟨n, hn⟩ := h.counts.exists_lookup rfl
  rw [Multiset.erase_cons_head, inFlight_endRequest hn]
  exact h.finish hn

lemma inFlightExact_step_iff (h : Accounts opens lb.inFlight) (hends : EndsOpen (lb, opens) call) :
    (InFlightExact (ledgerStep H (lb, opens) call) ↔ Accountable (lb, opens) call) ∧
      (Accountable (lb, opens) call →
        Accounts (call.opensAfter opens) (call.step H lb).inFlight) := by
  rw [ledgerStep, tracked, inFlightExact_iff]
  cases call with
  | select routeKey algorithm upstreams clientIp =>
    rw [inFlight_step_of_select]
    exact ⟨h.evict_iff, h.evict⟩
  | selectWeightedIndex routeKey weights =>
    rw [inFlight_step_of_selectWeightedIndex]
    exact ⟨h.evict_iff, h.evict⟩
  | beginRequest routeKey upstream =>
    rw [inFlight_step_of_beginRequest]
    by_cases hspares : SparesOpen (lb, opens)
    · have hkept := h.evict hspares
      refine ⟨hkept.begin_iff.trans ?_, fun hcond => hkept.begin hcond.2.1 hcond.2.2⟩
      exact (and_iff_right hspares).symm
    · -- the map is emptied although there are open requests
      obtain ⟨hmany, hopen⟩ := Classical.not_imp.mp hspares
      refine ⟨iff_of_false ?_ fun hcond => hspares hcond.1, fun hcond => absurd hcond.1 hspares⟩
      rw [evictMap, if_pos hmany]
      exact h.not_begin_empty hopen
  | endRequest routeKey upstream latencyMicros =>
    have hkept := h.endRequest hends latencyMicros
    exact ⟨iff_of_true hkept.exact trivial, fun _ => hkept⟩

end Calls

/-! ### Runs -/

/-- **Accounting.**  In every run of the balancer, over any route keys and upstreams, in which every
request that ends was begun: the numbers in flight are always those of the open requests, exactly
if the map of counters is not evicted while requests are open, no request is begun with a bar in
its names, and no counter overflows. -/
theorem in_flight_exact_iff (H : Hashes) (calls : List BalancerCall)
    (hends : Along (ledgerStep H) EndsOpen ({}, 0) calls) :
    (∀ n, InFlightExact (run (ledgerStep H) ({}, 0) (calls.take n))) ↔
      Along (ledgerStep H) Accountable ({}, 0) calls :=
  forall_take_iff_along_of_invariant (fun p => Accounts p.2 p.1.inFlight) InFlightExact hends .empty
    (fun _ h => inFlightExact_iff.mpr h.exact)
    (fun _ _ h hopen => (inFlightExact_step_iff h hopen).1)
    fun _ _ h hopen => (inFlightExact_step_iff (H := H) h hopen).2

/-- A bar makes two requests one: here the second has not begun. -/
example :
    LoadBalancer.upstreamInFlight (LoadBalancer.beginRequest {} "a" "b|c") "a|b" "c" = 1 := by
  decide

def fewCalls : List BalancerCall :=
  [.beginRequest "r" "u", .select "r" .leastConnections [{ url := "u" }] none,
    .beginRequest "r" "u", .endRequest "r" "u" 5]

theorem in_flight_exact_iff_few :
    InFlightExact (run (ledgerStep {}) ({}, 0) (fewCalls.take 4)) ∧
      (run (ledgerStep {}) ({}, 0) (fewCalls.take 4)).2.count ("r".toList, "u".toList) = 1 := by
  have hends : Along (ledgerStep {}) EndsOpen ({}, 0) fewCalls := by decide
  have haccountable : Along (ledgerStep {}) Accountable ({}, 0) fewCalls := by decide
  exact ⟨(in_flight_exact_iff {} fewCalls hends).mpr haccountable 4, by decide⟩

/-! ### Many upstreams -/

def manyBegins (n : ℕ) : List BalancerCall :=
  (List.range n).map fun i => .beginRequest "r" (List.replicate i 'a')

structure Begun (n : ℕ) (p : LoadBalancer × Multiset (Text × Text)) : Prop where
  length : p.1.inFlight.entries.length = n
  keys : ∀ key ∈ p.1.inFlight, ∃ i < n, key = requestKey ("r", List.replicate i 'a')
  opens : ∀ i < n, ("r".toList, List.replicate i 'a') ∈ p.2

section Many

variable {H : Hashes} {n : ℕ} {p : LoadBalancer × Multiset (Text × Text)}

lemma Begun.begin (h : Begun n p) (hn : n ≤ maxLoadBalancerKeys) :
    Begun (n + 1) (ledgerStep H p (.beginRequest "r" (List.replicate n 'a'))) := by
  have hfresh : requestKey ("r", List.replicate n 'a') ∉ p.1.inFlight := by
    intro hmem
    obtain ⟨i, hi, hkey⟩ := h.keys _ hmem
    have hlength := congrArg List.length hkey
    simp only [requestKey_eq, length_append, length_cons,
      length_replicate] at hlength
    omega
  have hinFlight : (ledgerStep H p (.beginRequest "r" (List.replicate n 'a'))).1.inFlight =
      raiseCounter p.1.inFlight (requestKey ("r", List.replicate n 'a')) := by
    rw [ledgerStep, tracked, inFlight_step_of_beginRequest, evictMap_eq_self (h.length.trans_le hn)]
  refine ⟨?_, fun key hkey => ?_, fun i hi => ?_⟩
  · rw [hinFlight, raiseCounter, AList.entries_insert_of_notMem hfresh, length_cons, h.length]
  · rw [hinFlight, raiseCounter] at hkey
    rcases (AList.mem_insert _).mp hkey with rfl | hkey
    · exact ⟨n, by omega, rfl⟩
    · obtain ⟨i, hi, rfl⟩ := h.keys key hkey
      exact ⟨i, by omega, rfl⟩
  · rcases Nat.lt_succ_iff_lt_or_eq.mp hi with hi | rfl
    · exact Multiset.mem_cons_of_mem (h.opens i hi)
    · exact Multiset.mem_cons_self _ _

variable (H n) in
lemma endsOpen_manyBegins (routeKey : Text) :
    Along (ledgerStep H) EndsOpen p
      (manyBegins n ++ [.select routeKey .leastConnections [] none]) := by
  have hends : ∀ call ∈ manyBegins n ++ [.select routeKey .leastConnections [] none],
      ∀ p, EndsOpen p call := by
    intro call hcall p
    rw [mem_append, mem_singleton, manyBegins, mem_map] at hcall
    rcases hcall with ⟨i, -, rfl⟩ | rfl
    · trivial
    · trivial
  exact (along_of_forall hends).mono fun p _ h => h p

variable (H) in
lemma begun_run (hn : n ≤ maxLoadBalancerKeys + 1) :
    Begun n (run (ledgerStep H) ({}, 0) (manyBegins n)) := by
  induction n with
  | zero => exact ⟨rfl, fun key hkey => absurd hkey (AList.notMem_empty key), by simp⟩
  | succ n ih =>
    rw [manyBegins, range_succ, map_append, ← manyBegins, run_append]
    exact (ih (by omega)).begin (by omega)

lemma Begun.forgotten (h : Begun n p) (hn : maxLoadBalancerKeys < n) (upstreams : List Upstream) :
    ("r".toList, []) ∈ (ledgerStep H p (.select "r" .leastConnections upstreams none)).2 ∧
      (ledgerStep H p (.select "r" .leastConnections upstreams none)).1.upstreamInFlight "r" [] =
        0 := by
  refine ⟨h.opens 0 (by omega), ?_⟩
  rw [ledgerStep, tracked, upstreamInFlight, inFlight_step_of_select, evictMap,
    if_pos (by rwa [h.length])]
  rfl

def forgottenCalls (n : ℕ) : List BalancerCall :=
  manyBegins n ++ [.select "r" .leastConnections [] none]

variable (H) in
lemma forgotten_run (hn : n = maxLoadBalancerKeys + 1) :
    Along (ledgerStep H) EndsOpen ({}, 0) (forgottenCalls n) ∧
      ("r".toList, []) ∈ (run (ledgerStep H) ({}, 0) (forgottenCalls n)).2 ∧
      (run (ledgerStep H) ({}, 0) (forgottenCalls n)).1.upstreamInFlight "r" [] = 0 := by
  refine ⟨endsOpen_manyBegins H n "r", ?_⟩
  rw [forgottenCalls, run_append, run_cons, run_nil]
  exact (begun_run H hn.le).forgotten (by omega) []

end Many

/-- One upstream more than the balancer keeps has a request in flight; the next call empties the
map, and the requests that are open are forgotten. -/
theorem open_requests_forgotten :
    Along (ledgerStep {}) EndsOpen ({}, 0) (forgottenCalls 100001) ∧
      ("r".toList, []) ∈ (run (ledgerStep {}) ({}, 0) (forgottenCalls 100001)).2 ∧
      (run (ledgerStep {}) ({}, 0) (forgottenCalls 100001)).1.upstreamInFlight "r" [] = 0 :=
  forgotten_run {} rfl

end PxxlEdge
