import PxxlEdge.LoadBalancer.Calls
import PxxlEdge.Lib.Rotation

/-!
Fairness of the weighted choices.  In one round, which is as many selections on one
counter as the weights sum up to, each choice is made as often as its weight says,
wherever the counter starts and whatever happens on other counters in between.
-/

namespace PxxlEdge

open RustStd Run LoadBalancer List

/-! ### Answers -/

def indexAnswer (lb : LoadBalancer) : BalancerCall → Option (Option ℕ)
  | .selectWeightedIndex routeKey weights => some (lb.selectWeightedIndex routeKey weights).1
  | _ => none

def upstreamAnswer (H : Hashes) (lb : LoadBalancer) : BalancerCall → Option (Option Upstream)
  | .select routeKey algorithm upstreams clientIp =>
    some (lb.select H routeKey algorithm upstreams clientIp).1
  | _ => none

def answersOn {β : Type} (H : Hashes) (key : Text) (answer : LoadBalancer → BalancerCall → Option β)
    (lb : LoadBalancer) (calls : List BalancerCall) : List β :=
  (trace (BalancerCall.step H)
    (fun lb call => if call.counterKey = some key then answer lb call else none)
    lb calls).reduceOption

section Answers

variable {H : Hashes} {lb : LoadBalancer} {key : Text} {calls : List BalancerCall}

lemma perm_answersOn {β : Type} {answer : LoadBalancer → BalancerCall → Option (Option β)}
    {l : List β} (hspares : Along (BalancerCall.step H) SparesCounters lb calls)
    (hanswer : ∀ call ∈ calls, call.counterKey = some key → ∀ lb, lb.SparesCounters call →
      answer lb call = some l[counterOf key lb % l.length]?)
    (hround : (calls.countP fun call => call.counterKey = some key) = l.length)
    (hsize : counterOf key lb + l.length ≤ 2 ^ 64) :
    (answersOn H key answer lb calls).Perm (l.map some) := by
  refine perm_of_one_round (counterOf key) (fun call => call.counterKey = some key) ?_ ?_
    (hspares.and (along_of_forall hanswer)) hround hsize
  · intro lb call hcond hmine
    rw [if_pos hmine, hcond.2 hmine lb hcond.1, counterOf_step hcond.1, if_pos hmine]
    exact ⟨rfl, rfl⟩
  · intro lb call hcond hother
    rw [if_neg hother, counterOf_step hcond.1, if_neg hother]
    exact ⟨rfl, rfl⟩

lemma selectWeightedIndex_fst {weights : List ℕ} (hne : weights ≠ [])
    (hkeys : lb.counters.entries.length ≤ maxLoadBalancerKeys) :
    (lb.selectWeightedIndex key weights).1 =
      (weightedIndices weights)[counterOf key lb % (weightedIndices weights).length]? := by
  rw [selectWeightedIndex]
  dsimp only
  rw [if_neg hne, ← counterOf_evictIfNeeded key hkeys]
  rfl

lemma select_weightedRoundRobin_fst {upstreams : List Upstream} {clientIp : Option IpAddr}
    (hne : (upstreams.filter fun u => u.healthy) ≠ [])
    (hkeys : lb.counters.entries.length ≤ maxLoadBalancerKeys) :
    (lb.select H key .weightedRoundRobin upstreams clientIp).1 =
      (weightedUpstreams (upstreams.filter fun u => u.healthy))[counterOf key lb %
        (weightedUpstreams (upstreams.filter fun u => u.healthy)).length]? := by
  unfold select
  dsimp only
  rw [if_neg hne, ← counterOf_evictIfNeeded key hkeys]
  rfl

end Answers

/-! ### Counting -/

lemma length_weightedIndices (weights : List ℕ) :
    (weightedIndices weights).length = (weights.map fun w => max w 1).sum := by
  rw [weightedIndices, length_flatMap]
  simp only [length_replicate]
  conv_rhs => rw [← zipIdx_map_fst 0 weights, map_map]
  rfl

lemma count_flatMap_zipIdx (weights : List ℕ) (start i : ℕ) :
    ((weights.zipIdx start).flatMap fun p => List.replicate (max p.1 1) p.2).count i =
      if start ≤ i then ((weights[i - start]?).map fun w => max w 1).getD 0 else 0 := by
  induction weights generalizing start with
  | nil => simp
  | cons w weights ih =>
    rw [zipIdx_cons, flatMap_cons, count_append, ih, count_replicate]
    rcases lt_trichotomy start i with hlt | rfl | hgt
    · -- the index is one of the others
      obtain ⟨j, rfl⟩ := Nat.exists_eq_add_of_lt hlt
      have hne : (start == start + j + 1) = false := by simp; omega
      simp only [hne, Bool.false_eq_true, if_false, Nat.zero_add]
      rw [if_pos (by omega), if_pos (by omega), show start + j + 1 - start = j + 1 by omega,
        show start + j + 1 - (start + 1) = j by omega, getElem?_cons_succ]
    · simp
    · have hne : (start == i) = false := by simp; omega
      simp only [hne, Bool.false_eq_true, if_false, Nat.zero_add]
      rw [if_neg (by omega), if_neg (by omega)]

lemma count_weightedIndices {weights : List ℕ} {i w : ℕ} (h : weights[i]? = some w) :
    (weightedIndices weights).count i = max w 1 := by
  rw [weightedIndices, count_flatMap_zipIdx, if_pos (Nat.zero_le i), Nat.sub_zero, h]
  rfl

lemma mem_weightedIndices {weights : List ℕ} {i : ℕ} :
    i ∈ weightedIndices weights ↔ i < weights.length := by
  rw [← count_pos_iff, weightedIndices, count_flatMap_zipIdx, if_pos (Nat.zero_le i),
    Nat.sub_zero]
  rcases lt_or_ge i weights.length with hi | hi
  · simp [hi]
  · simp [Nat.not_lt.mpr hi]

lemma length_weightedUpstreams (upstreams : List Upstream) :
    (weightedUpstreams upstreams).length = (upstreams.map fun u => max u.weight 1).sum := by
  rw [weightedUpstreams, length_flatMap]
  simp only [length_replicate]

lemma count_weightedUpstreams (upstreams : List Upstream) (u : Upstream) :
    (weightedUpstreams upstreams).count u = upstreams.count u * max u.weight 1 := by
  induction upstreams with
  | nil => simp [weightedUpstreams]
  | cons v upstreams ih =>
    rw [weightedUpstreams, flatMap_cons, count_append, ← weightedUpstreams, ih,
      count_replicate, count_cons]
    by_cases hv : v = u
    · subst hv
      simp only [beq_self_eq_true, if_true]
      ring
    · simp [hv]

/-! ### Rounds -/

/-- **Fairness.**  In every run of the balancer that evicts no counter, one round of selections on
a key: if all of them choose an index by the same weights, each index is chosen as often as its
weight says; if all of them are weighted round robins over the same healthy upstreams, so is each
upstream, for each time that it is in the pool. -/
theorem weighted_round_fair (H : Hashes) (lb : LoadBalancer) (key : Text)
    (calls : List BalancerCall)
    (hspares : Along (BalancerCall.step H) SparesCounters lb calls) :
    (∀ weights,
        (∀ call ∈ calls, call.counterKey = some key → call = .selectWeightedIndex key weights) →
        (calls.countP fun call => call.counterKey = some key) =
            (weights.map fun w => max w 1).sum →
        counterOf key lb + (weights.map fun w => max w 1).sum ≤ 2 ^ 64 →
        ∀ i w, weights[i]? = some w →
          (answersOn H key indexAnswer lb calls).count (some i) = max w 1) ∧
      ∀ healthy : List Upstream,
        (∀ call ∈ calls, call.counterKey = some key → ∃ upstreams clientIp,
          call = .select key .weightedRoundRobin upstreams clientIp ∧
            (upstreams.filter fun u => u.healthy) = healthy) →
        (calls.countP fun call => call.counterKey = some key) =
            (healthy.map fun u => max u.weight 1).sum →
        counterOf key lb + (healthy.map fun u => max u.weight 1).sum ≤ 2 ^ 64 →
        ∀ u ∈ healthy,
          (answersOn H key (upstreamAnswer H) lb calls).count (some u) =
            healthy.count u * max u.weight 1 := by
  constructor
  · intro weights hcalls hround hsize i w hi
    rw [← length_weightedIndices] at hround hsize
    have hperm : (answersOn H key indexAnswer lb calls).Perm
        ((weightedIndices weights).map some) := by
      refine perm_answersOn hspares (fun call hcall hkey lb hkeys => ?_) hround hsize
      obtain rfl := hcalls call hcall hkey
      have hne : weights ≠ [] := by
        rintro rfl
        cases hkey
      rw [indexAnswer, selectWeightedIndex_fst hne (hkeys rfl)]
    rw [hperm.count_eq, count_map_of_injective _ _ (Option.some_injective ℕ),
      count_weightedIndices hi]
  · intro healthy hcalls hround hsize u _
    rw [← length_weightedUpstreams] at hround hsize
    have hperm : (answersOn H key (upstreamAnswer H) lb calls).Perm
        ((weightedUpstreams healthy).map some) := by
      refine perm_answersOn hspares (fun call hcall hkey lb hkeys => ?_) hround hsize
      obtain ⟨upstreams, clientIp, rfl, rfl⟩ := hcalls call hcall hkey
      have hne : (upstreams.filter fun u => u.healthy) ≠ [] := by
        intro hnil
        simp [BalancerCall.counterKey, selectCounter, hnil] at hkey
      rw [upstreamAnswer, select_weightedRoundRobin_fst hne (hkeys rfl)]
    rw [hperm.count_eq, count_map_of_injective _ _ (Option.some_injective Upstream),
      count_weightedUpstreams]

def weightedCalls : List BalancerCall :=
  [.selectWeightedIndex "s" [2, 1], .beginRequest "r" "http://app:80",
    .selectWeightedIndex "s" [2, 1], .selectWeightedIndex "s" [2, 1]]

theorem weighted_round_fair_two_one :
    (answersOn {} "s" indexAnswer {} weightedCalls).count (some 0) = 2 ∧
      (answersOn {} "s" indexAnswer {} weightedCalls).count (some 1) = 1 := by
  have h := (weighted_round_fair {} {} "s" weightedCalls (by decide)).1 [2, 1]
    (by decide) (by decide) (by decide)
  exact ⟨h 0 2 rfl, h 1 1 rfl⟩

end PxxlEdge
