import PxxlEdge.Common.Validate
import PxxlEdge.Lib.RefTree
import PxxlEdge.Proxy.MiddlewareChains

/-!
What the expansion of middleware names costs a request.
-/

namespace PxxlEdge

open RustStd List

/-! ### The expansion of middleware names -/

section Expansion

variable (rules : DomainRules) (names : List Text)

def DomainRules.references (name : Text) : List Text :=
  match rules.middlewareChains.lookup name with
  | some chain => chain
  | none => ((rules.middlewares.lookup name).map fun d => d.chain).getD []

def DomainRules.chainEntries : List Text :=
  (rules.middlewareChains.entries.flatMap fun e => e.2) ++
    rules.middlewares.entries.flatMap fun e => e.2.chain

def ReferredOnce : Prop :=
  ∀ name, rules.references name ≠ [] →
    Multiset.count name (names ++ rules.chainEntries : List Text) ≤ 1

lemma expandMiddlewareNames_flatMap (f : Text → List Text) (levels : ℕ) :
    expandMiddlewareNames rules levels (names.flatMap f) =
      names.flatMap fun name => expandMiddlewareNames rules levels (f name) := by
  cases levels with
  | zero =>
    simp only [expandMiddlewareNames]
    exact (flatMap_eq_nil_iff.mpr fun _ _ => rfl).symm
  | succ levels => exact flatMap_assoc

lemma length_expandMiddlewareNames_singleton (name : Text) (levels : ℕ) :
    (expandMiddlewareNames rules (levels + 1) [name]).length ≤
      1 + (expandMiddlewareNames rules levels (rules.references name)).length := by
  rw [expandMiddlewareNames, flatMap_singleton, DomainRules.references]
  cases rules.middlewareChains.lookup name with
  | some chain => exact Nat.le_add_left _ _
  | none =>
    cases rules.middlewares.lookup name with
    | some d => exact (Nat.add_comm _ _).le
    | none => exact Nat.le_add_right _ _

lemma length_expandMiddlewareNames (levels : ℕ) :
    (expandMiddlewareNames rules levels names).length =
      (names.map fun name => (expandMiddlewareNames rules levels [name]).length).sum := by
  have hsplit := expandMiddlewareNames_flatMap rules names (fun name => [name]) levels
  rw [flatMap_singleton'] at hsplit
  rw [hsplit, length_flatMap]

lemma length_expandMiddlewareNames_succ (levels : ℕ) :
    (expandMiddlewareNames rules (levels + 1) names).length ≤
      names.length + (expandMiddlewareNames rules levels
        (names.flatMap rules.references)).length := by
  rw [length_expandMiddlewareNames, expandMiddlewareNames_flatMap, length_flatMap]
  induction names with
  | nil => exact Nat.zero_le _
  | cons name names ih =>
    have hname := length_expandMiddlewareNames_singleton rules name levels
    simp only [map_cons, sum_cons, length_cons]
    omega

variable {names}

lemma length_expandMiddlewareNames_le (levels : ℕ) :
    (expandMiddlewareNames rules levels names).length ≤
      RefTree.visited rules.references levels names := by
  induction levels generalizing names with
  | zero => exact Nat.zero_le _
  | succ levels ih =>
    rw [RefTree.visited]
    exact (length_expandMiddlewareNames_succ rules names levels).trans (Nat.add_le_add_left ih _)

/-! ### Chains that are referred to once -/

lemma sum_lookup_eq_entries {β : Type} (m : Map Text β) (f : β → List Text) :
    ∑ name ∈ m.keys.toFinset, (((m.lookup name).map f).getD [] : Multiset Text) =
      (m.entries.flatMap fun e => f e.2 : List Text) := by
  have hvalues : (m.keys.map fun name => (((m.lookup name).map f).getD [] : Multiset Text)) =
      m.entries.map fun e => (f e.2 : Multiset Text) := by
    rw [AList.keys, List.keys, map_map]
    refine map_congr_left fun e he => ?_
    have hlookup : m.lookup e.1 = some e.2 := AList.mem_lookup_iff.mpr he
    rw [Function.comp_apply, hlookup]
    rfl
  rw [sum_toFinset _ m.keys_nodup, hvalues]
  induction m.entries with
  | nil => rfl
  | cons e entries ih => rw [map_cons, sum_cons, ih, flatMap_cons]; rfl

variable {rules}

def DomainRules.middlewareNames (rules : DomainRules) : Finset Text :=
  rules.middlewareChains.keys.toFinset ∪ rules.middlewares.keys.toFinset

lemma mem_middlewareNames {name : Text} (h : rules.references name ≠ []) :
    name ∈ rules.middlewareNames := by
  by_contra hnot
  rw [DomainRules.middlewareNames, Finset.mem_union, mem_toFinset, mem_toFinset,
    ← AList.mem_keys, ← AList.mem_keys, not_or] at hnot
  refine h ?_
  rw [DomainRules.references, AList.lookup_eq_none.mpr hnot.1, AList.lookup_eq_none.mpr hnot.2]
  rfl

variable (rules) in
lemma sum_references_le :
    ∑ name ∈ rules.middlewareNames, (rules.references name : Multiset Text) ≤
      (rules.chainEntries : Multiset Text) := by
  set chain : Text → Multiset Text := fun name =>
    (((rules.middlewareChains.lookup name).map id).getD [] : List Text) with hchain
  set ofDefinition : Text → Multiset Text := fun name =>
    (((rules.middlewares.lookup name).map fun d => d.chain).getD [] : List Text) with hdefinition
  have hle : ∀ name, (rules.references name : Multiset Text) ≤ chain name + ofDefinition name := by
    intro name
    simp only [DomainRules.references, hchain, hdefinition]
    cases rules.middlewareChains.lookup name with
    | some c => exact Multiset.le_add_right _ _
    | none => exact Multiset.le_add_left _ _
  have hchains : ∑ name ∈ rules.middlewareNames, chain name =
      ∑ name ∈ rules.middlewareChains.keys.toFinset, chain name := by
    refine (Finset.sum_subset Finset.subset_union_left fun name _ hnot => ?_).symm
    rw [mem_toFinset, ← AList.mem_keys, ← AList.lookup_eq_none] at hnot
    simp only [hchain, hnot]
    rfl
  have hdefinitions : ∑ name ∈ rules.middlewareNames, ofDefinition name =
      ∑ name ∈ rules.middlewares.keys.toFinset, ofDefinition name := by
    refine (Finset.sum_subset Finset.subset_union_right fun name _ hnot => ?_).symm
    rw [mem_toFinset, ← AList.mem_keys, ← AList.lookup_eq_none] at hnot
    simp only [hdefinition, hnot]
    rfl
  refine (Finset.sum_le_sum fun name _ => hle name).trans (le_of_eq ?_)
  rw [Finset.sum_add_distrib, hchains, hdefinitions, sum_lookup_eq_entries,
    sum_lookup_eq_entries]
  rfl

lemma ReferredOnce.once (h : ReferredOnce rules names) :
    RefTree.Once rules.references rules.middlewareNames names where
  mem := fun _ _ => mem_middlewareNames
  closed := fun _ _ _ _ => mem_middlewareNames
  count_le := by
    intro name hne
    have hcount := Multiset.count_le_of_le name (sum_references_le rules)
    have honce := h name hne
    rw [Multiset.count_sum'] at hcount
    rw [← Multiset.coe_add, Multiset.count_add] at honce
    simp only [← Multiset.coe_count]
    omega

end Expansion

def chainRules (name : Text) (chain : List Text) : DomainRules where
  middlewareChains := Map.ofList [(name, chain)]

lemma references_chainRules (name : Text) (chain : List Text) (n : Text) :
    (chainRules name chain).references n = if n = name then chain else [] := by
  rw [DomainRules.references, chainRules, Map.lookup_ofList_singleton]
  by_cases h : n = name
  · rw [if_pos h, if_pos h]
  · rw [if_neg h, if_neg h]
    rfl

def selfChain (m : ℕ) : DomainRules := chainRules "a" ("x" :: List.replicate m "a")

lemma length_expand_selfChain_succ (m levels : ℕ) :
    (expandMiddlewareNames (selfChain m) (levels + 2) ["a"]).length =
      1 + m * (expandMiddlewareNames (selfChain m) (levels + 1) ["a"]).length := by
  have hchain : (selfChain m).middlewareChains.lookup "a".toList =
      some ("x".toList :: List.replicate m "a".toList) := by
    rw [selfChain, chainRules, Map.lookup_ofList_singleton, if_pos rfl]
  have hx : (selfChain m).middlewareChains.lookup "x".toList = none := by
    rw [selfChain, chainRules, Map.lookup_ofList_singleton, if_neg (by decide)]
  have hone : (expandMiddlewareNames (selfChain m) (levels + 1) ["x".toList]).length = 1 := by
    rw [expandMiddlewareNames, flatMap_singleton, hx]
    rfl
  rw [expandMiddlewareNames, flatMap_singleton, hchain]
  dsimp only
  rw [length_expandMiddlewareNames, map_cons, sum_cons, hone, map_replicate,
    sum_replicate, smul_eq_mul]

lemma length_expand_selfChain (m levels : ℕ) :
    (expandMiddlewareNames (selfChain m) (levels + 1) ["a"]).length =
      ∑ i ∈ Finset.range levels, m ^ i := by
  induction levels with
  | zero => rfl
  | succ levels ih =>
    rw [length_expand_selfChain_succ, ih, Finset.sum_range_succ', Finset.mul_sum, pow_zero,
      Nat.add_comm]
    simp only [pow_succ']

lemma length_chainEntries_selfChain (m : ℕ) : (selfChain m).chainEntries.length = m + 1 := by
  simp [selfChain, chainRules, DomainRules.chainEntries, Map.ofList]

end PxxlEdge
