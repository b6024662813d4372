import PxxlEdge.Proxy.Middleware

/-!
The definitions that a list of middleware names stands for, when chains refer to
chains.
-/

namespace PxxlEdge

open RustStd Relation List

section References

variable (rules : DomainRules)

def Refers (a b : Text) : Prop :=
  (∃ chain, rules.middlewareChains.lookup a = some chain ∧ b ∈ chain) ∨
    ∃ d, rules.middlewares.lookup a = some d ∧ b ∈ d.chain

def NestsWithin (n : ℕ) : Prop :=
  ∀ path : List Text, path.IsChain (Refers rules) → path.length ≤ n + 1

def ExpandsTo (a b : Text) : Prop :=
  (∃ chain, rules.middlewareChains.lookup a = some chain ∧ b ∈ chain) ∨
    rules.middlewareChains.lookup a = none ∧
      ∃ d, rules.middlewares.lookup a = some d ∧ b ∈ d.chain

def Reached (names : List Text) (b : Text) : Prop :=
  ∃ a ∈ names, ReflTransGen (ExpandsTo rules) a b

end References

section Expansion

variable {rules : DomainRules} {names : List Text} {a b : Text}

lemma ExpandsTo.refers (h : ExpandsTo rules a b) : Refers rules a b := by
  rcases h with h | ⟨-, h⟩
  · exact .inl h
  · exact .inr h

lemma expandsTo_of_chain {chain : List Text} (h : rules.middlewareChains.lookup a = some chain) :
    ExpandsTo rules a b ↔ b ∈ chain := by
  simp [ExpandsTo, h]

lemma expandsTo_of_definition {d : MiddlewareDefinition}
    (h : rules.middlewareChains.lookup a = none) (hd : rules.middlewares.lookup a = some d) :
    ExpandsTo rules a b ↔ b ∈ d.chain := by
  simp [ExpandsTo, h, hd]

lemma not_expandsTo (h : rules.middlewareChains.lookup a = none)
    (hd : rules.middlewares.lookup a = none) : ¬ ExpandsTo rules a b := by
  simp [ExpandsTo, h, hd]

def PathWithin (rules : DomainRules) (n : ℕ) (a b : Text) : Prop :=
  ∃ path, List.IsChain (ExpandsTo rules) (a :: path) ∧
    (a :: path).getLast (cons_ne_nil a path) = b ∧ path.length ≤ n

lemma pathWithin_zero : PathWithin rules 0 a b ↔ a = b := by
  constructor
  · rintro ⟨path, -, hlast, hlength⟩
    obtain rfl : path = [] := length_eq_zero_iff.mp (Nat.le_zero.mp hlength)
    simpa using hlast
  · rintro rfl
    exact ⟨[], by simp, by simp, le_rfl⟩

lemma pathWithin_succ {n : ℕ} :
    PathWithin rules (n + 1) a b ↔
      a = b ∨ ∃ c, ExpandsTo rules a c ∧ PathWithin rules n c b := by
  constructor
  · rintro ⟨path, hchain, hlast, hlength⟩
    cases path with
    | nil => exact .inl (by simpa using hlast)
    | cons c path =>
      rw [isChain_cons_cons] at hchain
      refine .inr ⟨c, hchain.1, path, hchain.2, ?_, by simpa using hlength⟩
      rwa [getLast_cons (cons_ne_nil c path)] at hlast
  · rintro (rfl | ⟨c, hac, path, hchain, hlast, hlength⟩)
    · exact ⟨[], by simp, by simp, Nat.zero_le _⟩
    · refine ⟨c :: path, isChain_cons_cons.mpr ⟨hac, hchain⟩, ?_, by simpa using hlength⟩
      rwa [getLast_cons (cons_ne_nil c path)]

lemma mem_expandMiddlewareNames_iff {levels : ℕ} :
    b ∈ expandMiddlewareNames rules (levels + 1) names ↔
      rules.middlewareChains.lookup b = none ∧ ∃ a ∈ names, PathWithin rules levels a b := by
  induction levels generalizing names with
  | zero =>
    simp only [pathWithin_zero, exists_eq_right]
    rw [expandMiddlewareNames, mem_flatMap]
    constructor
    · rintro ⟨n, hn, hb⟩
      cases hchain : rules.middlewareChains.lookup n with
      | some chain => simp [hchain, expandMiddlewareNames] at hb
      | none =>
        obtain rfl : b = n := by
          cases hd : rules.middlewares.lookup n <;>
            simpa [hchain, hd, expandMiddlewareNames] using hb
        exact ⟨hchain, hn⟩
    · rintro ⟨hchain, hb⟩
      exact ⟨b, hb, by simp [hchain]⟩
  | succ levels ih =>
    simp only [pathWithin_succ]
    rw [expandMiddlewareNames, mem_flatMap, ← exists_and_left]
    refine exists_congr fun n => ?_
    rw [and_left_comm]
    refine and_congr_right fun _ => ?_
    cases hchain : rules.middlewareChains.lookup n with
    | some chain =>
      -- the name itself is replaced by its chain
      simp only [expandsTo_of_chain hchain, ih]
      refine and_congr_right fun hb => ?_
      have hne : n ≠ b := by
        rintro rfl
        rw [hchain] at hb
        cases hb
      simp [hne]
    | none =>
      rw [mem_cons]
      cases hd : rules.middlewares.lookup n with
      | some d =>
        simp only [expandsTo_of_definition hchain hd, ih]
        constructor
        · rintro (rfl | ⟨hb, h⟩)
          · exact ⟨hchain, .inl rfl⟩
          · exact ⟨hb, .inr h⟩
        · rintro ⟨hb, rfl | h⟩
          · exact .inl rfl
          · exact .inr ⟨hb, h⟩
      | none =>
        simp only [not_expandsTo hchain hd, not_mem_nil, or_false, false_and,
          exists_false]
        constructor
        · rintro rfl
          exact ⟨hchain, rfl⟩
        · rintro ⟨-, rfl⟩
          rfl

lemma NestsWithin.pathWithin {n : ℕ} (h : NestsWithin rules n)
    (hab : ReflTransGen (ExpandsTo rules) a b) : PathWithin rules n a b := by
  obtain ⟨path, hchain, hlast⟩ := exists_isChain_cons_of_relationReflTransGen hab
  have hlength := h _ (hchain.imp fun _ _ => ExpandsTo.refers)
  rw [length_cons] at hlength
  exact ⟨path, hchain, hlast, by omega⟩

lemma PathWithin.reflTransGen {n : ℕ} (h : PathWithin rules n a b) :
    ReflTransGen (ExpandsTo rules) a b := by
  obtain ⟨path, hchain, hlast, -⟩ := h
  exact relationReflTransGen_of_exists_isChain_cons path hchain hlast

end Expansion

/-! ### Two sets of rules -/

lemma nestsWithin_of_flat {rules : DomainRules} (n : ℕ)
    (h : ∀ a b c, Refers rules a b → ¬ Refers rules b c) : NestsWithin rules (n + 1) := by
  intro path hpath
  match path, hpath with
  | [], _ => simp
  | [_], _ => simp
  | [_, _], _ => simp
  | a :: b :: c :: _, hpath =>
    rw [isChain_cons_cons, isChain_cons_cons] at hpath
    exact absurd hpath.2.1 (h a b c hpath.1)

def authAndChain (name : Text) (chain : List Text) : DomainRules where
  middlewareChains := Map.ofList [(name, chain)]
  middlewares := Map.ofList [("auth", { basicAuth := some {} })]

lemma refers_authAndChain {name : Text} {chain : List Text} {a b : Text}
    (h : Refers (authAndChain name chain) a b) : a = name ∧ b ∈ chain := by
  rcases h with ⟨c, hc, hb⟩ | ⟨d, hd, hb⟩
  · rw [authAndChain, Map.lookup_ofList_singleton] at hc
    split at hc
    · next ha =>
      cases hc
      exact ⟨ha, hb⟩
    · cases hc
  · -- the only definition has no chain of its own
    rw [authAndChain, Map.lookup_ofList_singleton] at hd
    split at hd
    · cases hd
      cases hb
    · cases hd

end PxxlEdge
