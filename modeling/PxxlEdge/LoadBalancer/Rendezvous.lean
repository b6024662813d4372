import PxxlEdge.LoadBalancer

/-!
Rendezvous hashing.  Each upstream has a score, its hash times its weight, which is cut
off at the largest number of the machine; the last upstream with the largest score is
chosen.
-/

namespace PxxlEdge

open RustStd

def rendezvousIdentity (routeKey : Text) (clientIp : Option IpAddr) : Text :=
  (clientIp.map IpAddr.display).getD routeKey

def rendezvousScore (H : Hashes) (identity : Text) (u : Upstream) : ℕ :=
  min (H.rendezvous identity u.url * max u.weight 1) (2 ^ 64 - 1)

namespace LoadBalancer

variable {H : Hashes} {routeKey : Text} {clientIp : Option IpAddr}

lemma highestRandomWeight_eq (upstreams : List Upstream) :
    highestRandomWeight H routeKey upstreams clientIp =
      maxByKey (rendezvousScore H (rendezvousIdentity routeKey clientIp)) upstreams := rfl

lemma select_hrw (lb : LoadBalancer) (upstreams : List Upstream) :
    (lb.select H routeKey .hrw upstreams clientIp).1 =
      highestRandomWeight H routeKey (upstreams.filter fun u => u.healthy) clientIp := by
  unfold select
  dsimp only
  split
  · next hnone =>
    rw [hnone]
    rfl
  · rfl

end LoadBalancer

open LoadBalancer

/-! ### Upstreams that come and go -/

/-- **Minimal disruption.**  An upstream that was not chosen can be removed, and one that is added
at any place is chosen itself or changes nothing, whichever hashes and weights there are; so it is
for the balancer, which leaves out unhealthy upstreams. -/
theorem rendezvous_minimal_disruption (H : Hashes) (lb : LoadBalancer) (routeKey : Text)
    (clientIp : Option IpAddr) (before after : List Upstream) (u : Upstream) :
    let choice := fun pool => highestRandomWeight H routeKey pool clientIp
    let selection := fun pool => (lb.select H routeKey .hrw pool clientIp).1
    ((choice (before ++ u :: after) ≠ some u →
          choice (before ++ after) = choice (before ++ u :: after)) ∧
        (choice (before ++ u :: after) = choice (before ++ after) ∨
          choice (before ++ u :: after) = some u)) ∧
      (selection (before ++ u :: after) ≠ some u →
          selection (before ++ after) = selection (before ++ u :: after)) ∧
        (selection (before ++ u :: after) = selection (before ++ after) ∨
          selection (before ++ u :: after) = some u) := by
  intro choice selection
  have hchoice : ∀ before after, choice (before ++ u :: after) = choice (before ++ after) ∨
      choice (before ++ u :: after) = some u := fun before after => maxByKey_insert _ before after u
  have hselection : selection (before ++ u :: after) = selection (before ++ after) ∨
      selection (before ++ u :: after) = some u := by
    simp only [selection, select_hrw, List.filter_append, List.filter_cons]
    split
    · exact hchoice _ _
    · exact .inl rfl
  exact ⟨⟨fun h => ((hchoice before after).resolve_right h).symm, hchoice before after⟩,
    fun h => (hselection.resolve_right h).symm, hselection⟩

/-! ### Orders and factors -/

def scaleWeight (factor : ℕ) (u : Upstream) : Upstream := { u with weight := factor * u.weight }

lemma score_mono_of_factor {h₁ h₂ w factor limit : ℕ} (hfactor : 0 < factor)
    (h : min (h₁ * max w 1) limit ≤ min (h₂ * max w 1) limit) :
    min (h₁ * max (factor * w) 1) limit ≤ min (h₂ * max (factor * w) 1) limit := by
  rcases le_or_gt h₁ h₂ with hle | hgt
  · exact min_le_min_right _ (Nat.mul_le_mul_right _ hle)
  · have hlt : h₂ * max w 1 < h₁ * max w 1 := Nat.mul_lt_mul_of_pos_right hgt (by omega)
    have hcut : limit ≤ h₂ * max w 1 := by
      by_contra hbelow
      rw [min_eq_left (not_le.mp hbelow).le] at h
      exact absurd h (not_le.mpr (lt_min hlt (not_le.mp hbelow)))
    have hgrow : h₂ * max w 1 ≤ h₂ * max (factor * w) 1 :=
      Nat.mul_le_mul_left _ (max_le_max_right 1 (Nat.le_mul_of_pos_left w hfactor))
    rw [min_eq_right (hcut.trans hgrow)]
    exact min_le_right _ _

lemma maxByKey_scaleWeight {H : Hashes} {identity : Text} {pool : List Upstream} {w factor : ℕ}
    (hfactor : 0 < factor) (hw : ∀ u ∈ pool, u.weight = w)
    (h : OneLargest (rendezvousScore H identity ∘ scaleWeight factor) pool) :
    maxByKey (rendezvousScore H identity) pool =
      maxByKey (rendezvousScore H identity ∘ scaleWeight factor) pool := by
  cases hmax : maxByKey (rendezvousScore H identity) pool with
  | none =>
    rw [maxByKey_eq_none] at hmax
    rw [hmax]
    rfl
  | some u =>
    obtain ⟨hu, hlargest⟩ := maxByKey_eq_some hmax
    refine (h.maxByKey_eq_some (.refl pool) hu fun x hx => ?_).symm
    have hle := hlargest x hx
    simp only [Function.comp_apply, rendezvousScore, scaleWeight, hw x hx, hw u hu] at hle ⊢
    exact score_mono_of_factor hfactor hle

/-- **Orders and factors.**  If the hashes of the pool are distinct, the URL that is chosen does not
depend on the order of the pool exactly if the largest score is that of one upstream only; for
upstreams of one weight, neither the order nor a factor of the weights matters exactly if the
largest score with the factor is that of one upstream only. -/
theorem rendezvous_stable_iff (H : Hashes) (routeKey : Text) (clientIp : Option IpAddr)
    {pool : List Upstream}
    (hdistinct : (pool.map fun u =>
      H.rendezvous (rendezvousIdentity routeKey clientIp) u.url).Nodup) :
    let url := fun pool => (highestRandomWeight H routeKey pool clientIp).map fun u => u.url
    let score := rendezvousScore H (rendezvousIdentity routeKey clientIp)
    ((∀ pool' : List Upstream, pool'.Perm pool → url pool' = url pool) ↔ OneLargest score pool) ∧
      ∀ w factor, 0 < factor → (∀ u ∈ pool, u.weight = w) →
        ((∀ pool' : List Upstream, pool'.Perm pool →
            url (pool'.map (scaleWeight factor)) = url pool) ↔
          OneLargest (score ∘ scaleWeight factor) pool) := by
  intro url score
  have hurl : Set.InjOn (fun u : Upstream => u.url) {u | u ∈ pool} := by
    intro u hu v hv heq
    refine List.inj_on_of_nodup_map hdistinct hu hv ?_
    exact congrArg (H.rendezvous _) heq
  refine ⟨forall_perm_maxByKey_iff hurl, fun w factor hfactor hw => ?_⟩
  -- the URLs of the choices with the factor are those of the choices by the score with it
  have hscaled : ∀ pool', url (pool'.map (scaleWeight factor)) =
      (maxByKey (score ∘ scaleWeight factor) pool').map fun u => u.url := by
    intro pool'
    simp only [url, highestRandomWeight_eq, maxByKey_map, Option.map_map]
    rfl
  simp only [hscaled]
  rw [← forall_perm_maxByKey_iff hurl]
  constructor
  · intro h pool' hpool'
    rw [h pool' hpool', h pool (.refl pool)]
  · intro h pool' hpool'
    rw [h pool' hpool', ← maxByKey_scaleWeight hfactor hw ((forall_perm_maxByKey_iff hurl).mp h)]
    rfl

/-! ### Two upstreams -/

def largeHashes : Hashes where
  rendezvous := fun _ url => if url = "a" then 2 ^ 63 + 1 else 2 ^ 63

def twoUpstreams (weight : ℕ) : List Upstream :=
  [{ url := "a", weight }, { url := "b", weight }]

/-- With weight one their scores are not cut off, and `a` is chosen in the other order as well. -/
theorem rendezvous_stable_iff_two :
    (highestRandomWeight largeHashes "r" (twoUpstreams 1) none).map (fun u => u.url) =
        some "a".toList ∧
      (highestRandomWeight largeHashes "r" (twoUpstreams 1).reverse none).map (fun u => u.url) =
        some "a".toList := by
  have hdistinct : ((twoUpstreams 1).map fun u =>
      largeHashes.rendezvous (rendezvousIdentity "r" none) u.url).Nodup := by decide
  have hlargest : OneLargest (rendezvousScore largeHashes (rendezvousIdentity "r" none))
      (twoUpstreams 1) := by
    simp only [OneLargest]
    decide
  have hfirst : (highestRandomWeight largeHashes "r" (twoUpstreams 1) none).map (fun u => u.url) =
      some "a".toList := by decide
  have horder := (rendezvous_stable_iff largeHashes "r" none hdistinct).1.mpr hlargest
  exact ⟨hfirst, (horder _ (List.reverse_perm _)).trans hfirst⟩

/-- With weight two both scores are cut off, and the last upstream is chosen: the choice depends on
the order, and on the factor two. -/
theorem saturated_scores_tie :
    ((twoUpstreams 1).map fun u =>
        largeHashes.rendezvous (rendezvousIdentity "r" none) u.url).Nodup ∧
      (highestRandomWeight largeHashes "r" (twoUpstreams 1) none).map (fun u => u.url) =
        some "a".toList ∧
      (twoUpstreams 1).map (scaleWeight 2) = twoUpstreams 2 ∧
      (highestRandomWeight largeHashes "r" (twoUpstreams 2) none).map (fun u => u.url) =
        some "b".toList ∧
      (highestRandomWeight largeHashes "r" (twoUpstreams 2).reverse none).map (fun u => u.url) =
        some "a".toList := by
  decide

end PxxlEdge
