import PxxlEdge.Control.Writes
import PxxlEdge.Lib.Run

/-!
The snapshot file.  A change of the routes goes to the registry, then to Redis,
then captures the list of API routes, and this list is written to the file some
time later: by the request itself, or in the background.
-/

namespace PxxlEdge

open RustStd Run List

/-! ### Changes -/

inductive RouteChange where
  | upsert (route : Route)
  | delete (domain : Text)

namespace RouteChange

def domain : RouteChange → Text
  | upsert route => route.domain
  | delete domain => domain

def apply (table : RouteTable) : RouteChange → RouteTable × Bool
  | upsert route => upsertApiRoute table route
  | delete domain => (deleteApiDomain table domain, true)

def store (redis : Map Text Route) : RouteChange → Map Text Route
  | upsert route => redis.insert (persistedRoute route).domain (persistedRoute route)
  | delete domain => redis.erase (normalizeDomain domain)

def target : RouteChange → List Route
  | upsert route => [route]
  | delete _ => []

def Normal : RouteChange → Prop
  | upsert route => route.source = .api ∧ normalizeDomain route.domain = route.domain
  | delete domain => normalizeDomain domain = domain

end RouteChange

def apiRoutesSnapshot (table : RouteTable) : List Route :=
  (table.routes.filter fun r => r.source = .api).insertionSort fun left right =>
    (if left.domain = right.domain then Text.isLe left.id right.id
      else Text.isLe left.domain right.domain) = true

/-! ### Steps -/

inductive ChangeStage where
  | waiting
  | updated
  | stored
  | captured (number : ℕ) (routes : List Route)
  | finished (ok : Bool)

inductive Outcome where
  | done
  | failed (made : Bool)

structure Persisted (ι : Type) where
  table : RouteTable
  redis : Map Text Route
  file : List Route
  stage : ι → ChangeStage
  captures : ℕ := 0
  written : ℕ := 0

section Steps

variable {ι : Type} [DecidableEq ι] (changes : ι → RouteChange)

def Persisted.step (s : Persisted ι) (l : ι × Outcome) : Persisted ι :=
  let goOn := fun stage => Function.update s.stage l.1 stage
  match s.stage l.1 with
  | .waiting =>
    let applied := (changes l.1).apply s.table
    { s with
      table := applied.1
      stage := goOn (if applied.2 then .updated else .finished true) }
  | .updated =>
    match l.2 with
    | .done => { s with redis := (changes l.1).store s.redis, stage := goOn .stored }
    | .failed made =>
      { s with
        redis := if made then (changes l.1).store s.redis else s.redis
        stage := goOn (.finished false) }
  | .stored =>
    { s with
      captures := s.captures + 1
      stage := goOn (.captured (s.captures + 1) (apiRoutesSnapshot s.table)) }
  | .captured number routes =>
    match l.2 with
    | .done => { s with file := routes, written := number, stage := goOn (.finished true) }
    | .failed made =>
      if made then
        { s with file := routes, written := number, stage := goOn (.finished false) }
      else { s with stage := goOn (.finished false) }
  | .finished _ => s

def Persisted.Idle (s : Persisted ι) : Prop :=
  ∀ i, s.stage i = .waiting ∨ ∃ ok, s.stage i = .finished ok

structure Orderly (s : Persisted ι) (l : ι × Outcome) : Prop where
  succeeds : l.2 = .done
  alone : s.stage l.1 = .waiting → ∀ j, j ≠ l.1 → (changes j).domain = (changes l.1).domain →
    s.stage j ≠ .updated
  newer : ∀ number routes, s.stage l.1 = .captured number routes → s.written < number

end Steps

/-! ### After a restart -/

def loadedRoute (route : Route) : Route :=
  { route with source := .api, domain := normalizeDomain route.domain }

def loadHttpRoutesFromFile (file : List Route) : List Route :=
  ((file.map loadedRoute).filter fun r => r.domain ≠ []).take maxRoutesPerSource

def redisLoadRoutes (U : UrlParser) (vars : EnvVars) (redis : Map Text Route) :
    Except Text (List Route) :=
  ((redis.entries.map fun e => e.2).take maxRoutesPerSource).mapM fun value =>
    match (loadedRoute value).validateForDynamicControlPlane U vars with
    | .error reason =>
      .error ("invalid persisted route " ++ (loadedRoute value).domain ++ ": " ++
        reason)
    | .ok () => .ok (loadedRoute value)

def startupRoutes (U : UrlParser) (vars : EnvVars) (static file : List Route)
    (redis : Map Text Route) : List Route :=
  static ++ loadHttpRoutesFromFile file ++
    match redisLoadRoutes U vars redis with
    | .ok routes => routes
    | .error _ => []

/-! ### What one change does -/

namespace RouteChange

variable {c : RouteChange} {table : RouteTable}

lemma Normal.domain (h : c.Normal) : normalizeDomain c.domain = c.domain := by
  cases c with
  | upsert route => exact h.2
  | delete domain => exact h

lemma reachable_apply (htable : Reachable table) : Reachable (c.apply table).1 := by
  cases c with
  | upsert route => exact htable.upsert route
  | delete domain => exact htable.delete domain

lemma apply_unchanged (h : (c.apply table).2 = false) : (c.apply table).1 = table := by
  cases c with
  | upsert route => exact (upsertApiRoute_unchanged h).1
  | delete domain => cases h

lemma apiRoutesOf_apply_of_ne (hc : c.Normal) (htable : Reachable table) {d : Text}
    (hne : d ≠ c.domain) : apiRoutesOf (c.apply table).1 d = apiRoutesOf table d := by
  cases c with
  | upsert route => exact apiRoutesOf_upsert_of_ne htable hc.1 hne
  | delete domain => exact apiRoutesOf_delete_of_ne htable hne

lemma apiRoutesOf_apply (hc : c.Normal) (htable : Reachable table)
    (h : (c.apply table).2 = true) : apiRoutesOf (c.apply table).1 c.domain = c.target := by
  cases c with
  | upsert route => exact apiRoutesOf_upsert_changed htable hc.1 h
  | delete domain => exact apiRoutesOf_delete htable domain

lemma lookup_store (hc : c.Normal) (redis : Map Text Route) :
    (c.store redis).lookup c.domain = c.target.head? := by
  cases c with
  | upsert route =>
    rw [store, persistedRoute_eq hc.1 hc.2]
    exact AList.lookup_insert redis
  | delete domain =>
    rw [store, show normalizeDomain domain = domain from hc]
    exact AList.lookup_erase domain redis

lemma lookup_store_of_ne (hc : c.Normal) (redis : Map Text Route) {d : Text}
    (hne : d ≠ c.domain) : (c.store redis).lookup d = redis.lookup d := by
  cases c with
  | upsert route =>
    rw [store, persistedRoute_eq hc.1 hc.2]
    exact AList.lookup_insert_ne hne
  | delete domain =>
    rw [store, show normalizeDomain domain = domain from hc]
    exact AList.lookup_erase_ne hne

lemma commitRoute_eq_apply_store (U : UrlParser) (vars : EnvVars) {env : WriteEnv} {route : Route}
    (henv : env.hset = .stored)
    (hvalid : (persistedRoute route).validateForDynamicControlPlane U vars = .ok ()) (s : Stores) :
    (commitRoute U vars env route s).2 =
      ⟨((upsert route).apply s.table).1,
        if ((upsert route).apply s.table).2 then (upsert route).store s.redis else s.redis⟩ := by
  rw [commitRoute, apply]
  cases (upsertApiRoute s.table route).2 with
  | false => rfl
  | true => simp [redisUpsertRoute, henv, hvalid, store]

end RouteChange

/-! ### The file -/

section Invariants

variable {ι : Type} [DecidableEq ι] {changes : ι → RouteChange} {s : Persisted ι}
  {l : ι × Outcome}

lemma update_eq_iff {stage : ι → ChangeStage} {i j : ι} {next at' : ChangeStage}
    (hnext : next ≠ at') : Function.update stage i next j = at' ↔ j ≠ i ∧ stage j = at' := by
  by_cases hji : j = i
  · subst hji
    simp [hnext]
  · simp [hji]

lemma none_to_capture {stage : ι → ChangeStage} {i : ι} {next : ChangeStage}
    (hi : stage i ≠ .updated ∧ stage i ≠ .stored)
    (h : ∀ j, Function.update stage i next j ≠ .updated ∧
      Function.update stage i next j ≠ .stored) (j : ι) :
    stage j ≠ .updated ∧ stage j ≠ .stored := by
  by_cases hji : j = i
  · rwa [hji]
  · simpa [Function.update_of_ne hji] using h j

lemma Persisted.step_cases (hl : Orderly changes s l) :
    (s.stage l.1 = .waiting ∧ ((changes l.1).apply s.table).2 = true ∧ s.step changes l =
        { s with
          table := ((changes l.1).apply s.table).1
          stage := Function.update s.stage l.1 .updated }) ∨
    (s.stage l.1 = .waiting ∧ s.step changes l =
        { s with stage := Function.update s.stage l.1 (.finished true) }) ∨
    (s.stage l.1 = .updated ∧ s.step changes l =
        { s with
          redis := (changes l.1).store s.redis
          stage := Function.update s.stage l.1 .stored }) ∨
    (s.stage l.1 = .stored ∧ s.step changes l =
        { s with
          captures := s.captures + 1
          stage := Function.update s.stage l.1
            (.captured (s.captures + 1) (apiRoutesSnapshot s.table)) }) ∨
    (∃ number routes, s.stage l.1 = .captured number routes ∧ s.written < number ∧
      s.step changes l =
        { s with
          file := routes
          written := number
          stage := Function.update s.stage l.1 (.finished true) }) ∨
    s.step changes l = s := by
  have hdone := hl.succeeds
  cases hstage : s.stage l.1 with
  | waiting =>
    cases happly : ((changes l.1).apply s.table).2 with
    | true =>
      refine .inl ⟨rfl, rfl, ?_⟩
      simp only [step, hstage, happly, if_true]
    | false =>
      refine .inr (.inl ⟨rfl, ?_⟩)
      simp only [step, hstage, happly, RouteChange.apply_unchanged happly]
      rfl
  | updated =>
    refine .inr (.inr (.inl ⟨rfl, ?_⟩))
    simp only [step, hstage, hdone]
  | stored =>
    refine .inr (.inr (.inr (.inl ⟨rfl, ?_⟩)))
    simp only [step, hstage]
  | captured number routes =>
    refine .inr (.inr (.inr (.inr (.inl ⟨number, routes, rfl, hl.newer _ _ hstage, ?_⟩))))
    simp only [step, hstage, hdone]
  | finished ok =>
    refine .inr (.inr (.inr (.inr (.inr ?_))))
    simp only [step, hstage]

structure FileUpToDate (s : Persisted ι) (newest : List Route) : Prop where
  current : (∀ i, s.stage i ≠ .updated ∧ s.stage i ≠ .stored) → newest = apiRoutesSnapshot s.table
  numbered : ∀ i number routes, s.stage i = .captured number routes →
    number ≤ s.captures ∧ (number = s.captures → routes = newest)
  written_le : s.written ≤ s.captures
  file : s.written = s.captures → s.file = newest
  pending : s.written < s.captures → ∃ i, s.stage i = .captured s.captures newest

lemma FileUpToDate.goOn {newest : List Route} (h : FileUpToDate s newest) {i : ι}
    {next : ChangeStage} {table : RouteTable} {redis : Map Text Route}
    (hstage : ∀ number routes, s.stage i ≠ .captured number routes)
    (hnext : ∀ number routes, next ≠ .captured number routes)
    (hcurrent : (∀ j, Function.update s.stage i next j ≠ .updated ∧
      Function.update s.stage i next j ≠ .stored) → newest = apiRoutesSnapshot table) :
    FileUpToDate { s with table, redis, stage := Function.update s.stage i next } newest where
  current := hcurrent
  numbered := fun j number routes hj =>
    h.numbered j number routes ((update_eq_iff (hnext number routes)).mp hj).2
  written_le := h.written_le
  file := h.file
  pending := fun hlt => by
    obtain ⟨j, hj⟩ := h.pending hlt
    have hji : j ≠ i := fun hji => hstage _ _ (hji ▸ hj)
    exact ⟨j, by simpa [Function.update_of_ne hji] using hj⟩

lemma FileUpToDate.step {newest : List Route} (h : FileUpToDate s newest)
    (hl : Orderly changes s l) : ∃ newest', FileUpToDate (s.step changes l) newest' := by
  rcases Persisted.step_cases hl with ⟨hstage, -, hstep⟩ | ⟨hstage, hstep⟩ | ⟨hstage, hstep⟩ |
    ⟨hstage, hstep⟩ | ⟨number, routes, hstage, hnewer, hstep⟩ | hstep
  · rw [hstep]
    refine ⟨newest, h.goOn (by simp [hstage]) (by simp) fun hnone => ?_⟩
    exact absurd (by simp) (hnone l.1).1
  · rw [hstep]
    exact ⟨newest, h.goOn (by simp [hstage]) (by simp) fun hnone =>
      h.current (none_to_capture (by simp [hstage]) hnone)⟩
  · rw [hstep]
    refine ⟨newest, h.goOn (by simp [hstage]) (by simp) fun hnone => ?_⟩
    exact absurd (by simp) (hnone l.1).2
  · -- the list captured now is the newest, and it has yet to be written
    rw [hstep]
    have hle := h.written_le
    refine ⟨apiRoutesSnapshot s.table, fun _ => rfl, fun j number routes hj => ?_,
      Nat.le_succ_of_le hle, fun heq => absurd heq (by simp; omega), fun _ => ⟨l.1, by simp⟩⟩
    dsimp only at hj ⊢
    by_cases hj' : j = l.1
    · subst hj'
      simp only [Function.update_self, ChangeStage.captured.injEq] at hj
      exact ⟨hj.1.ge, fun _ => hj.2.symm⟩
    · rw [Function.update_of_ne hj'] at hj
      have hnumber := (h.numbered j number routes hj).1
      exact ⟨Nat.le_succ_of_le hnumber, fun heq => absurd heq (by omega)⟩
  · -- the newest list is still to be written, or it is the one that is written now
    rw [hstep]
    obtain ⟨hnumber, hroutes⟩ := h.numbered l.1 number routes hstage
    refine ⟨newest, fun hnone => h.current (none_to_capture (by simp [hstage]) hnone),
      fun j number' routes' hj => ?_, hnumber, hroutes, fun hlt => ?_⟩
    · exact h.numbered j number' routes' ((update_eq_iff (by simp)).mp hj).2
    · obtain ⟨j, hj⟩ := h.pending (hnewer.trans_le hnumber)
      have hji : j ≠ l.1 := by
        rintro rfl
        rw [hstage] at hj
        simp only [ChangeStage.captured.injEq] at hj
        exact absurd hj.1 (ne_of_lt hlt)
      exact ⟨j, by simpa [Function.update_of_ne hji] using hj⟩
  · rw [hstep]
    exact ⟨newest, h⟩

omit [DecidableEq ι] in
lemma FileUpToDate.settled {newest : List Route} (h : FileUpToDate s newest) (hidle : s.Idle) :
    s.written = s.captures ∧ s.file = apiRoutesSnapshot s.table := by
  have hwritten : s.written = s.captures := by
    by_contra hne
    obtain ⟨i, hi⟩ := h.pending (lt_of_le_of_ne h.written_le hne)
    rcases hidle i with hi' | ⟨ok, hi'⟩ <;> simp [hi] at hi'
  refine ⟨hwritten, (h.file hwritten).trans (h.current fun i => ?_)⟩
  rcases hidle i with hi | ⟨ok, hi⟩ <;> simp [hi]

/-! ### Redis -/

structure RedisUpToDate (changes : ι → RouteChange) (s : Persisted ι) : Prop where
  reachable : Reachable s.table
  normal : ∀ r ∈ s.table.routes, r.source = .api → normalizeDomain r.domain = r.domain
  synced : ∀ d, (∀ j, (changes j).domain = d → s.stage j ≠ .updated) →
    s.redis.lookup d = (apiRoutesOf s.table d).head?
  pending : ∀ i, s.stage i = .updated → apiRoutesOf s.table (changes i).domain = (changes i).target
  alone : ∀ i j, s.stage i = .updated → s.stage j = .updated →
    (changes i).domain = (changes j).domain → i = j

lemma RedisUpToDate.goOn (h : RedisUpToDate changes s) {i : ι} {next : ChangeStage}
    {file : List Route} {captures written : ℕ} (hstage : s.stage i ≠ .updated)
    (hnext : next ≠ .updated) :
    RedisUpToDate changes
      { s with file, captures, written, stage := Function.update s.stage i next } := by
  have hsame : ∀ j, Function.update s.stage i next j = .updated ↔ s.stage j = .updated := by
    intro j
    rw [update_eq_iff hnext]
    exact ⟨fun hj => hj.2, fun hj => ⟨fun hji => hstage (hji ▸ hj), hj⟩⟩
  refine ⟨h.reachable, h.normal, fun d hd => ?_, fun j hj => ?_, fun j k hj hk => ?_⟩
  · exact h.synced d fun j hjd hj => hd j hjd ((hsame j).mpr hj)
  · exact h.pending j ((hsame j).mp hj)
  · exact h.alone j k ((hsame j).mp hj) ((hsame k).mp hk)

lemma RouteChange.normal_apply {c : RouteChange} (hc : c.Normal) {table : RouteTable}
    (htable : Reachable table)
    (h : ∀ r ∈ table.routes, r.source = .api → normalizeDomain r.domain = r.domain) :
    ∀ r ∈ (c.apply table).1.routes, r.source = .api → normalizeDomain r.domain = r.domain := by
  intro r hr hapi
  by_cases hd : r.domain = c.domain
  · rw [hd]
    exact hc.domain
  · -- an API route of another domain was there before
    have hmem : r ∈ apiRoutesOf (c.apply table).1 r.domain :=
      mem_filter.mpr ⟨hr, by simp [hapi]⟩
    rw [apiRoutesOf_apply_of_ne hc htable hd] at hmem
    exact h r (mem_of_mem_filter hmem) hapi

lemma RedisUpToDate.apply (h : RedisUpToDate changes s) {i : ι} (hi : (changes i).Normal)
    (halone : ∀ j, j ≠ i → (changes j).domain = (changes i).domain → s.stage j ≠ .updated)
    (hchanged : ((changes i).apply s.table).2 = true) :
    RedisUpToDate changes
      { s with
        table := ((changes i).apply s.table).1
        stage := Function.update s.stage i .updated } := by
  -- a change that has yet to store is this one, or is for another domain
  have hother : ∀ j, Function.update s.stage i ChangeStage.updated j = .updated →
      j = i ∨ (changes j).domain ≠ (changes i).domain ∧ s.stage j = .updated := by
    intro j hj
    by_cases hji : j = i
    · exact .inl hji
    · rw [Function.update_of_ne hji] at hj
      exact .inr ⟨fun hd => halone j hji hd hj, hj⟩
  refine ⟨(changes i).reachable_apply h.reachable,
    RouteChange.normal_apply hi h.reachable h.normal, fun d hd => ?_, fun j hj => ?_,
    fun j k hj hk hjk => ?_⟩
  · have hdi : d ≠ (changes i).domain := fun hdi => hd i hdi.symm (by simp)
    dsimp only at hd ⊢
    rw [RouteChange.apiRoutesOf_apply_of_ne hi h.reachable hdi]
    refine h.synced d fun j hjd hj => hd j hjd ?_
    by_cases hji : j = i
    · subst hji
      simp
    · rwa [Function.update_of_ne hji]
  · dsimp only
    rcases hother j hj with rfl | ⟨hne, hj⟩
    · exact RouteChange.apiRoutesOf_apply hi h.reachable hchanged
    · rw [RouteChange.apiRoutesOf_apply_of_ne hi h.reachable hne]
      exact h.pending j hj
  · rcases hother j hj with rfl | ⟨hj', hj⟩ <;> rcases hother k hk with rfl | ⟨hk', hk⟩
    · rfl
    · exact absurd hjk.symm hk'
    · exact absurd hjk hj'
    · exact h.alone j k hj hk hjk

lemma RedisUpToDate.store (h : RedisUpToDate changes s) {i : ι} (hi : (changes i).Normal)
    (hstage : s.stage i = .updated) :
    RedisUpToDate changes
      { s with
        redis := (changes i).store s.redis
        stage := Function.update s.stage i .stored } := by
  refine ⟨h.reachable, h.normal, fun d hd => ?_, fun j hj => ?_, fun j k hj hk => ?_⟩
  · dsimp only at hd ⊢
    by_cases hdi : d = (changes i).domain
    · subst hdi
      rw [RouteChange.lookup_store hi, h.pending i hstage]
    · rw [RouteChange.lookup_store_of_ne hi s.redis hdi]
      refine h.synced d fun j hjd hj => hd j hjd ?_
      have hji : j ≠ i := by
        rintro rfl
        exact hdi hjd.symm
      rwa [Function.update_of_ne hji]
  · exact h.pending j ((update_eq_iff (by simp)).mp hj).2
  · exact h.alone j k ((update_eq_iff (by simp)).mp hj).2 ((update_eq_iff (by simp)).mp hk).2

lemma RedisUpToDate.step (h : RedisUpToDate changes s) (hnormal : ∀ i, (changes i).Normal)
    (hl : Orderly changes s l) : RedisUpToDate changes (s.step changes l) := by
  rcases Persisted.step_cases hl with ⟨hstage, hchanged, hstep⟩ | ⟨hstage, hstep⟩ |
    ⟨hstage, hstep⟩ | ⟨hstage, hstep⟩ | ⟨number, routes, hstage, -, hstep⟩ | hstep
  · rw [hstep]
    exact h.apply (hnormal l.1) (hl.alone hstage) hchanged
  · rw [hstep]
    exact h.goOn (by simp [hstage]) (by simp)
  · rw [hstep]
    exact h.store (hnormal l.1) hstage
  · rw [hstep]
    exact h.goOn (by simp [hstage]) (by simp)
  · rw [hstep]
    exact h.goOn (by simp [hstage]) (by simp)
  · rw [hstep]
    exact h

/-! ### Deleted routes -/

structure Deleted (changes : ι → RouteChange) (d : Text) (s : Persisted ι) : Prop where
  absent : apiRoutesOf s.table d = []
  entered : ∀ j route, changes j = .upsert route → route.domain = d → s.stage j ≠ .waiting

lemma Deleted.step {d : Text} (h : Deleted changes d s) (hreachable : Reachable s.table)
    (hnormal : ∀ i, (changes i).Normal) (hl : Orderly changes s l) :
    Deleted changes d (s.step changes l) := by
  have hentered : ∀ {next : ChangeStage}, next ≠ .waiting → ∀ j route,
      changes j = .upsert route → route.domain = d →
        Function.update s.stage l.1 next j ≠ .waiting := by
    intro next hnext j route hj hd hw
    exact h.entered j route hj hd ((update_eq_iff hnext).mp hw).2
  rcases Persisted.step_cases hl with ⟨hstage, hchanged, hstep⟩ | ⟨-, hstep⟩ | ⟨-, hstep⟩ |
    ⟨-, hstep⟩ | ⟨number, routes, -, -, hstep⟩ | hstep
  · rw [hstep]
    refine ⟨?_, hentered (by simp)⟩
    dsimp only
    by_cases hd : d = (changes l.1).domain
    · -- an upsert of the domain would have entered before
      cases hchange : changes l.1 with
      | upsert route =>
        rw [hchange] at hd
        exact absurd hstage (h.entered l.1 route hchange hd.symm)
      | delete domain =>
        rw [hchange] at hd
        subst hd
        exact apiRoutesOf_delete hreachable _
    · rw [RouteChange.apiRoutesOf_apply_of_ne (hnormal l.1) hreachable hd, h.absent]
  all_goals rw [hstep]
  · exact ⟨h.absent, hentered (by simp)⟩
  · exact ⟨h.absent, hentered (by simp)⟩
  · exact ⟨h.absent, hentered (by simp)⟩
  · exact ⟨h.absent, hentered (by simp)⟩
  · exact h

end Invariants

/-! ### What a restart loads -/

lemma mem_loadHttpRoutesFromFile {file : List Route} {r : Route}
    (h : r ∈ loadHttpRoutesFromFile file) : ∃ r' ∈ file, r = loadedRoute r' := by
  have hmem := mem_of_mem_filter (mem_of_mem_take h)
  obtain ⟨r', hr', rfl⟩ := mem_map.mp hmem
  exact ⟨r', hr', rfl⟩

lemma mem_redisLoadRoutes {U : UrlParser} {vars : EnvVars} {redis : Map Text Route}
    {routes : List Route} (h : redisLoadRoutes U vars redis = .ok routes) {r : Route}
    (hr : r ∈ routes) : ∃ d r', redis.lookup d = some r' ∧ r = loadedRoute r' := by
  obtain ⟨value, hvalue, hload⟩ := (mem_iff_of_mapM_eq_ok h).mp hr
  obtain ⟨e, he, rfl⟩ := mem_map.mp (mem_of_mem_take hvalue)
  refine ⟨e.1, e.2, AList.mem_lookup_iff.mpr he, ?_⟩
  split at hload
  · cases hload
  · exact (Except.ok.inj hload).symm

/-! ### Whole runs -/

section Runs

variable {ι : Type}

structure Persisted.Settled (s : Persisted ι) : Prop where
  idle : s.Idle
  reachable : Reachable s.table
  normal : ∀ r ∈ s.table.routes, r.source = .api → normalizeDomain r.domain = r.domain
  written : s.written = s.captures
  file : s.file = apiRoutesSnapshot s.table
  redis : ∀ d, s.redis.lookup d = (apiRoutesOf s.table d).head?

variable {changes : ι → RouteChange} {s : Persisted ι}

lemma Persisted.Idle.not_updated (h : s.Idle) (i : ι) : s.stage i ≠ .updated := by
  rcases h i with hi | ⟨ok, hi⟩ <;> simp [hi]

lemma Persisted.Idle.not_captured (h : s.Idle) (i : ι) (number : ℕ) (routes : List Route) :
    s.stage i ≠ .captured number routes := by
  rcases h i with hi | ⟨ok, hi⟩ <;> simp [hi]

lemma Persisted.Settled.fileUpToDate (h : s.Settled) : FileUpToDate s s.file where
  current := fun _ => h.file
  numbered := fun i number routes hi => absurd hi (h.idle.not_captured i number routes)
  written_le := h.written.le
  file := fun _ => rfl
  pending := fun hlt => absurd h.written hlt.ne

lemma Persisted.Settled.redisUpToDate (h : s.Settled) : RedisUpToDate changes s where
  reachable := h.reachable
  normal := h.normal
  synced := fun d _ => h.redis d
  pending := fun i hi => absurd hi (h.idle.not_updated i)
  alone := fun i _ hi => absurd hi (h.idle.not_updated i)

lemma Persisted.Settled.domain_of_loaded (h : s.Settled) {r : Route}
    (hr : (∃ r' ∈ s.file, r = loadedRoute r') ∨
      ∃ d r', s.redis.lookup d = some r' ∧ r = loadedRoute r') :
    apiRoutesOf s.table r.domain ≠ [] := by
  obtain ⟨r', hr', hapi, rfl⟩ : ∃ r' ∈ s.table.routes, r'.source = .api ∧ r = loadedRoute r' := by
    rcases hr with ⟨r', hr', rfl⟩ | ⟨d, r', hlookup, rfl⟩
    · rw [h.file] at hr'
      obtain ⟨hmem, hapi⟩ := mem_filter.mp ((mem_insertionSort _).mp hr')
      exact ⟨r', hmem, of_decide_eq_true hapi, rfl⟩
    · rw [h.redis d] at hlookup
      obtain ⟨hmem, hkey⟩ := mem_filter.mp (mem_of_head? hlookup)
      exact ⟨r', hmem, (of_decide_eq_true hkey).1, rfl⟩
  have hdomain : (loadedRoute r').domain = r'.domain := h.normal r' hr' hapi
  rw [hdomain]
  exact ne_nil_of_mem (mem_filter.mpr ⟨hr', by simp [hapi]⟩)

variable [DecidableEq ι] {s₀ : Persisted ι}

lemma RedisUpToDate.run (h : RedisUpToDate changes s₀) (hnormal : ∀ i, (changes i).Normal)
    {schedule : List (ι × Outcome)}
    (hrun : Along (Persisted.step changes) (Orderly changes) s₀ schedule) :
    RedisUpToDate changes (Run.run (Persisted.step changes) s₀ schedule) :=
  hrun.invariant _ (fun _ _ hs hl => hs.step hnormal hl) h

lemma Persisted.Settled.after (h : s₀.Settled) (hnormal : ∀ i, (changes i).Normal)
    {schedule : List (ι × Outcome)}
    (hrun : Along (Persisted.step changes) (Orderly changes) s₀ schedule)
    (hidle : (run (Persisted.step changes) s₀ schedule).Idle) :
    (run (Persisted.step changes) s₀ schedule).Settled := by
  obtain ⟨newest, hfile⟩ : ∃ newest, FileUpToDate (run (Persisted.step changes) s₀ schedule)
      newest :=
    hrun.invariant (fun s => ∃ newest, FileUpToDate s newest)
      (fun s l ⟨newest, hs⟩ hl => hs.step hl) ⟨_, h.fileUpToDate⟩
  have hredis := h.redisUpToDate.run hnormal hrun
  obtain ⟨hwritten, hroutes⟩ := hfile.settled hidle
  exact ⟨hidle, hredis.reachable, hredis.normal, hwritten, hroutes,
    fun d => hredis.synced d fun j _ => hidle.not_updated j⟩

lemma deleted_run (h : RedisUpToDate changes s) (hnormal : ∀ i, (changes i).Normal)
    {after : List (ι × Outcome)} {i : ι} {outcome : Outcome} {d : Text}
    (hrun : Along (Persisted.step changes) (Orderly changes) s ((i, outcome) :: after))
    (hi : changes i = .delete d) (hstage : s.stage i = .waiting)
    (hentered : ∀ j route, changes j = .upsert route → route.domain = d →
      s.stage j ≠ .waiting) :
    Deleted changes d (run (Persisted.step changes) s ((i, outcome) :: after)) := by
  have hstep : s.step changes (i, outcome) =
      { s with
        table := deleteApiDomain s.table d
        stage := Function.update s.stage i .updated } := by
    simp only [Persisted.step, hstage, hi]
    rfl
  have hdeleted : Deleted changes d (s.step changes (i, outcome)) := by
    rw [hstep]
    refine ⟨apiRoutesOf_delete h.reachable d, fun j route hj hd hw => ?_⟩
    exact hentered j route hj hd ((update_eq_iff (by simp)).mp hw).2
  exact (hrun.2.invariant (fun s => RedisUpToDate changes s ∧ Deleted changes d s)
    (fun s l hs hl => ⟨hs.1.step hnormal hl, hs.2.step hs.1.reachable hnormal hl⟩)
    ⟨h.step hnormal hrun.1, hdeleted⟩).2

variable (changes s₀) in
/-- **The snapshot file settles.**  From a settled state, in every orderly run of upserts and
deletes with the captured lists written in any other order: once nothing is under way, the
file holds exactly the API routes in memory.  And a domain that was deleted after every upsert
of it had entered the registry has no API route among the routes of a restart. -/
theorem snapshot_settles (U : UrlParser) (vars : EnvVars) (static : List Route)
    (hstatic : ∀ r ∈ static, r.source = .static) (hnormal : ∀ i, (changes i).Normal)
    (hsettled : s₀.Settled) (schedule : List (ι × Outcome))
    (hrun : Along (Persisted.step changes) (Orderly changes) s₀ schedule)
    (hidle : (run (Persisted.step changes) s₀ schedule).Idle) :
    (run (Persisted.step changes) s₀ schedule).file =
        apiRoutesSnapshot (run (Persisted.step changes) s₀ schedule).table ∧
      ∀ before i outcome after d, schedule = before ++ (i, outcome) :: after →
        changes i = .delete d → (run (Persisted.step changes) s₀ before).stage i = .waiting →
        (∀ j route, changes j = .upsert route → route.domain = d →
          (run (Persisted.step changes) s₀ before).stage j ≠ .waiting) →
        ∀ r ∈ startupRoutes U vars static (run (Persisted.step changes) s₀ schedule).file
          (run (Persisted.step changes) s₀ schedule).redis, r.source = .api → r.domain ≠ d := by
  have hend := hsettled.after hnormal hrun hidle
  refine ⟨hend.file, ?_⟩
  rintro before i outcome after d rfl hi hstage hentered r hr hapi rfl
  obtain ⟨hbefore, hafter⟩ := along_append.mp hrun
  have hdeleted := deleted_run (hsettled.redisUpToDate.run hnormal hbefore) hnormal hafter hi
    hstage hentered
  rw [← run_append] at hdeleted
  refine hend.domain_of_loaded ?_ hdeleted.absent
  rw [startupRoutes, mem_append, mem_append] at hr
  rcases hr with (hr | hr) | hr
  · have hsource := hstatic r hr
    rw [hapi] at hsource
    cases hsource
  · exact .inl (mem_loadHttpRoutesFromFile hr)
  · split at hr
    · next hload => exact .inr (mem_redisLoadRoutes hload hr)
    · cases hr

end Runs

/-! ### A route and its deletion -/

def deployedRoute : Route where
  id := "runtime-a.com"
  domain := "a.com"
  source := .api
  paths := [{ pathPrefix := "/", upstreams := [{ url := "http://new.example" }] }]

def putAndDelete : Fin 2 → RouteChange
  | 0 => .upsert deployedRoute
  | 1 => .delete "a.com"

def nothingPersisted : Persisted (Fin 2) where
  table := RouteTable.new []
  redis := ∅
  file := []
  stage := fun _ => .waiting

def putAndDeleteAfter (schedule : List (Fin 2)) : Persisted (Fin 2) :=
  run (Persisted.step putAndDelete) nothingPersisted (schedule.map fun i => (i, .done))

lemma settled_nothingPersisted : nothingPersisted.Settled where
  idle := fun i => .inl rfl
  reachable := ⟨[], by simp, rfl⟩
  normal := fun r hr => by simp [nothingPersisted, RouteTable.new, dedupeRoutes] at hr
  written := rfl
  file := rfl
  redis := fun d => rfl

lemma normal_putAndDelete : ∀ i, (putAndDelete i).Normal
  | 0 => ⟨rfl, by decide⟩
  | 1 => show normalizeDomain "a.com" = "a.com" by decide

lemma orderly_of_alone {s : Persisted (Fin 2)} {i : Fin 2}
    (halone : ∀ j, j ≠ i → (match s.stage j with | .updated => false | _ => true) = true)
    (hnewer : (match s.stage i with
      | .captured number _ => decide (s.written < number) | _ => true) = true) :
    Orderly putAndDelete s (i, .done) where
  succeeds := rfl
  alone := fun _ j hj _ hstage => by simpa [hstage] using halone j hj
  newer := fun number routes hstage => by simpa [hstage] using hnewer

theorem snapshot_settles_one_after_the_other :
    (putAndDeleteAfter [0, 0, 0, 0, 1, 1, 1, 1]).file =
        apiRoutesSnapshot (putAndDeleteAfter [0, 0, 0, 0, 1, 1, 1, 1]).table ∧
      ∀ r ∈ startupRoutes .basic (fun _ => none) []
        (putAndDeleteAfter [0, 0, 0, 0, 1, 1, 1, 1]).file
        (putAndDeleteAfter [0, 0, 0, 0, 1, 1, 1, 1]).redis,
        r.source = .api → r.domain ≠ "a.com".toList := by
  have hidle : (putAndDeleteAfter [0, 0, 0, 0, 1, 1, 1, 1]).Idle := by
    intro i
    refine .inr ⟨true, ?_⟩
    fin_cases i <;> rfl
  have hsettles := snapshot_settles putAndDelete nothingPersisted .basic (fun _ => none) []
    (by simp) normal_putAndDelete settled_nothingPersisted
    ([0, 0, 0, 0, 1, 1, 1, 1].map fun i => (i, .done)) ?_ hidle
  · refine ⟨hsettles.1, hsettles.2 ([0, 0, 0, 0].map fun i => (i, .done)) 1 .done
      ([1, 1, 1].map fun i => (i, .done)) "a.com" rfl rfl rfl fun j route hj _ => ?_⟩
    fin_cases j
    · change (putAndDeleteAfter [0, 0, 0, 0]).stage 0 ≠ .waiting
      rw [show (putAndDeleteAfter [0, 0, 0, 0]).stage 0 = .finished true from rfl]
      simp
    · cases hj
  · refine ⟨?_, ?_, ?_, ?_, ?_, ?_, ?_, ?_, trivial⟩
    all_goals exact orderly_of_alone (by decide) (by decide)

/-- The list captured by the upsert is written after the deletion has been answered: the route
is in the file and among the routes of a restart. -/
theorem deleted_route_returns :
    (putAndDeleteAfter [0, 0, 0, 1, 1, 1, 1]).stage 1 = .finished true ∧
      (putAndDeleteAfter [0, 0, 0, 1, 1, 1, 1, 0]).Idle ∧
      (apiRoutesSnapshot (putAndDeleteAfter [0, 0, 0, 1, 1, 1, 1, 0]).table).map Route.domain = [] ∧
      (putAndDeleteAfter [0, 0, 0, 1, 1, 1, 1, 0]).file.map Route.domain = ["a.com".toList] ∧
      (startupRoutes .basic (fun _ => none) [] (putAndDeleteAfter [0, 0, 0, 1, 1, 1, 1, 0]).file
        (putAndDeleteAfter [0, 0, 0, 1, 1, 1, 1, 0]).redis).map
        (fun r => (r.source, r.domain)) = [(.api, "a.com".toList)] := by
  refine ⟨rfl, fun i => .inr ⟨true, ?_⟩, by decide, by decide,
    by decide⟩
  fin_cases i <;> rfl

end PxxlEdge
