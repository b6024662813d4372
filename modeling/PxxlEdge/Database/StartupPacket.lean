import PxxlEdge.Lib.Map
import PxxlEdge.Lib.Utf8

/-!
The startup packet of a PostgreSQL client: keys and values, each with a NUL behind it, and one
NUL at the end.  The proxy drops all empty parts between NULs before it takes the rest for keys
and values in turn, so an empty value is not seen and the next key takes its place.
-/

namespace PxxlEdge

open RustStd List

structure PostgresStartup where
  user : Option Text
  database : Option Text
  parameters : Map Text Text

def insertParameters (parameters : Map Text Text) : List (List UInt8) → Except Text (Map Text Text)
  | key :: value :: parts =>
    match Text.fromUtf8 key with
    | none => .error "postgres startup key was not UTF-8"
    | some key =>
      match Text.fromUtf8 value with
      | none => .error "postgres startup value was not UTF-8"
      | some value => insertParameters (parameters.insert key value) parts
  | _ => .ok parameters

def parsePostgresStartupParameters (bytes : List UInt8) : Except Text PostgresStartup := do
  let parameters ← insertParameters ∅ ((bytes.splitOn 0).filter fun part => part ≠ [])
  return {
    user := parameters.get "user"
    database := parameters.get "database"
    parameters }

/-! ### Packets -/

def startupBody (pairs : List (Text × Text)) : List UInt8 :=
  pairs.flatMap (fun p => p.1.asBytes ++ 0 :: (p.2.asBytes ++ [0])) ++ [0]

def ReadsParameters (pairs : List (Text × Text)) : Prop :=
  ∃ startup, parsePostgresStartupParameters (startupBody pairs) = .ok startup ∧
    (∀ key value, startup.parameters.lookup key = some value ↔ (key, value) ∈ pairs) ∧
    (∀ value, startup.user = some value ↔ ("user".toList, value) ∈ pairs) ∧
    ∀ value, startup.database = some value ↔ ("database".toList, value) ∈ pairs

def keptParts (p : Text × Text) : List Text := [p.1, p.2].filter fun part => part ≠ []

def pairUp : List Text → List (Text × Text)
  | key :: value :: parts => (key, value) :: pairUp parts
  | _ => []

lemma insertParameters_map_asBytes (parameters : Map Text Text) (parts : List Text) :
    insertParameters parameters (parts.map Text.asBytes) =
      .ok ((pairUp parts).foldl (fun m p => m.insert p.1 p.2) parameters) := by
  fun_induction pairUp parts generalizing parameters with
  | case1 key value parts ih =>
    simp only [map_cons, insertParameters, Text.fromUtf8_asBytes, foldl_cons]
    exact ih _
  | case2 parts hparts =>
    match parts, hparts with
    | [], _ => rfl
    | [key], _ => rfl
    | key :: value :: parts, hparts => exact absurd rfl (hparts key value parts)

lemma two_mul_length_pairUp_le (parts : List Text) :
    2 * (pairUp parts).length ≤ parts.length := by
  fun_induction pairUp parts with
  | case1 key value parts ih => simp only [length_cons]; omega
  | case2 parts hparts => exact Nat.zero_le _

variable {pairs : List (Text × Text)}

lemma splitOn_startupBody (hnul : ∀ p ∈ pairs, '\x00' ∉ p.1 ∧ '\x00' ∉ p.2) :
    ((startupBody pairs).splitOn 0).filter (fun part => part ≠ []) =
      (pairs.flatMap keptParts).map Text.asBytes := by
  have hbytes : ∀ t : Text, '\x00' ∉ t → (0 : UInt8) ∉ t.asBytes := fun t ht h =>
    ht ((Text.mem_asBytes_iff (k := '\x00') (by decide)).mp h)
  have hempty : ∀ t : Text, t.asBytes = [] ↔ t = [] := fun t =>
    ⟨fun h => Option.some.inj ((Text.fromUtf8_asBytes t).symm.trans (congrArg _ h)),
      fun h => congrArg Text.asBytes h⟩
  induction pairs with
  | nil => decide
  | cons p pairs ih =>
    have hp := hnul p mem_cons_self
    have hbody : startupBody (p :: pairs) =
        p.1.asBytes ++ 0 :: (p.2.asBytes ++ 0 :: startupBody pairs) := by
      simp [startupBody]
    rw [hbody, splitOn_append_cons_self_of_not_mem (hbytes _ hp.1),
      splitOn_append_cons_self_of_not_mem (hbytes _ hp.2), flatMap_cons, map_append,
      ← ih fun q hq => hnul q (mem_cons_of_mem p hq)]
    by_cases hkey : p.1 = [] <;> by_cases hvalue : p.2 = []
    all_goals simp [keptParts, hempty, hkey, hvalue]

lemma parse_startupBody (hnul : ∀ p ∈ pairs, '\x00' ∉ p.1 ∧ '\x00' ∉ p.2) :
    ∃ startup, parsePostgresStartupParameters (startupBody pairs) = .ok startup ∧
      startup.parameters = Map.ofList (pairUp (pairs.flatMap keptParts)) ∧
      startup.user = startup.parameters.lookup "user".toList ∧
      startup.database = startup.parameters.lookup "database".toList := by
  rw [parsePostgresStartupParameters, splitOn_startupBody hnul, insertParameters_map_asBytes]
  exact ⟨_, rfl, rfl, rfl, rfl⟩

lemma length_pairUp_lt (h : ¬ ∀ p ∈ pairs, p.2 ≠ []) :
    (pairUp (pairs.flatMap keptParts)).length < pairs.length := by
  have hle : ∀ l : List (Text × Text), (l.flatMap keptParts).length ≤ 2 * l.length := by
    intro l
    induction l with
    | nil => simp
    | cons p l ih =>
      have hkept : (keptParts p).length ≤ 2 := length_filter_le _ _
      rw [flatMap_cons, length_append, length_cons]
      omega
  push Not at h
  obtain ⟨p, hp, hvalue⟩ := h
  obtain ⟨before, after, rfl⟩ := append_of_mem hp
  have hkept : (keptParts p).length ≤ 1 := by
    rw [keptParts, hvalue, filter_cons]
    split <;> simp
  have htwo := two_mul_length_pairUp_le ((before ++ p :: after).flatMap keptParts)
  have hbefore := hle before
  have hafter := hle after
  rw [flatMap_append, flatMap_cons, length_append, length_append] at htwo
  rw [length_append, length_cons, flatMap_append, flatMap_cons]
  omega

lemma pairUp_flatMap_keptParts (hkeys : ∀ p ∈ pairs, p.1 ≠ []) (h : ∀ p ∈ pairs, p.2 ≠ []) :
    pairUp (pairs.flatMap keptParts) = pairs := by
  induction pairs with
  | nil => rfl
  | cons p pairs ih =>
    rw [forall_mem_cons] at hkeys h
    have hkept : keptParts p = [p.1, p.2] := by simp [keptParts, hkeys.1, h.1]
    rw [flatMap_cons, hkept]
    exact congrArg (p :: ·) (ih hkeys.2 h.2)

/-- **Startup parameters.**  A packet with distinct, non-empty keys is read as its parameters
exactly if none of their values is empty. -/
theorem startup_parameters_exact_iff (pairs : List (Text × Text))
    (hdistinct : (pairs.map Prod.fst).Nodup) (hkeys : ∀ p ∈ pairs, p.1 ≠ [])
    (hnul : ∀ p ∈ pairs, '\x00' ∉ p.1 ∧ '\x00' ∉ p.2) :
    ReadsParameters pairs ↔ ∀ p ∈ pairs, p.2 ≠ [] := by
  obtain ⟨startup, hparse, hparameters, huser, hdatabase⟩ := parse_startupBody hnul
  constructor
  · rintro ⟨startup', hparse', hexact, -⟩
    obtain rfl := Except.ok.inj (hparse.symm.trans hparse')
    by_contra hempty
    -- every key would be bound, but there are fewer bindings than keys
    have hsubset : pairs.map Prod.fst ⊆ (pairUp (pairs.flatMap keptParts)).map Prod.fst := by
      intro key hkey
      obtain ⟨p, hp, rfl⟩ := mem_map.mp hkey
      have hlookup := (hexact p.1 p.2).mpr hp
      rw [hparameters] at hlookup
      exact mem_map_of_mem (f := Prod.fst) (Map.mem_of_lookup_ofList hlookup)
    have hle := (subperm_of_subset hdistinct hsubset).length_le
    rw [length_map, length_map] at hle
    exact absurd hle (by simpa using length_pairUp_lt hempty)
  · intro hvalues
    rw [pairUp_flatMap_keptParts hkeys hvalues] at hparameters
    have hexact : ∀ key value, startup.parameters.lookup key = some value ↔
        (key, value) ∈ pairs := by
      rw [hparameters]
      exact fun key value => ⟨Map.mem_of_lookup_ofList, Map.lookup_ofList_of_nodup hdistinct⟩
    refine ⟨startup, hparse, hexact, fun value => ?_, fun value => ?_⟩
    · rw [huser, hexact]
    · rw [hdatabase, hexact]

theorem startup_parameters_exact_user :
    ReadsParameters [("user", "app"), ("database", "shop")] :=
  (startup_parameters_exact_iff _ (by decide) (by decide) (by decide)).mpr (by decide)

/-- After an empty value the next key is read as a value, and the token is not found. -/
theorem startup_parameters_shifted :
    ¬ ReadsParameters [("options", ""), ("pxxl_proxy_token", "secret")] := by
  rintro ⟨startup, hparse, hexact, -⟩
  have hlookup := (hexact "pxxl_proxy_token" "secret").mpr (by decide)
  have hnone : (parsePostgresStartupParameters
      (startupBody [("options", ""), ("pxxl_proxy_token", "secret")])).toOption.bind
        (fun startup => startup.parameters.lookup "pxxl_proxy_token".toList) = none := by
    decide +kernel
  rw [hparse] at hnone
  exact absurd (hnone.symm.trans hlookup) (by simp)

end PxxlEdge
