import PxxlEdge.Proxy.Observation

/-!
The statistics per domain (`DomainStatsRegistry` of `crates/core/src/lib.rs`): every request
that is recorded counts for its domain, in tables of countries, paths and upstreams and in a
list of recent visits.
-/

namespace PxxlEdge

open RustStd Http Run List

def recentVisitLimit : ℕ := 5000

def maxCounterKeys : ℕ := 1000

def overflowCounterKey : Text := "__other__"

/-! ### Counters -/

structure LocationCount where
  code : Text
  name : Option Text
  count : UInt64
deriving DecidableEq, Repr

structure VisitSnapshot where
  requestId : Text
  domain : Text
  method : Text
  path : Text
  status : ℕ
  latencyMs : ℕ
  upstream : Option Text
  remoteIp : Option Text
  location : GeoLocation
  timestampUnixMs : ℕ
  bytesSent : ℕ
  bytesReceived : ℕ
deriving DecidableEq, Repr

def RequestObservation.visit (event : RequestObservation) : VisitSnapshot where
  requestId := event.context.requestId
  domain := event.context.domain
  method := event.context.method
  path := event.context.path
  status := event.status
  latencyMs := event.latencyMs
  upstream := event.upstream
  remoteIp := event.context.remoteIp.map IpAddr.display
  location := event.context.location
  timestampUnixMs := event.context.timestampUnixMs
  bytesSent := event.bytesSent
  bytesReceived := event.bytesReceived

structure DomainStatsCounters where
  requestsTotal : UInt64 := 0
  responses2xx : UInt64 := 0
  responses3xx : UInt64 := 0
  responses4xx : UInt64 := 0
  responses5xx : UInt64 := 0
  totalLatencyMs : UInt64 := 0
  totalBytesSent : UInt64 := 0
  totalBytesReceived : UInt64 := 0
  lastStatus : UInt64 := 0
  lastSeenUnixMs : UInt64 := 0
  recentVisits : List VisitSnapshot := []
  countryCounts : Map Text LocationCount := ∅
  continentCounts : Map Text LocationCount := ∅
  pathCounts : Map Text UInt64 := ∅
  upstreamCounts : Map Text UInt64 := ∅

def countOne (counts : Map Text UInt64) (value : Text) : Map Text UInt64 :=
  counts.insert value ((counts.lookup value).getD 0 + 1)

def incrementCount (counts : Map Text UInt64) (value : Text) : Map Text UInt64 :=
  if (counts.lookup value).isSome ∨ counts.entries.length < maxCounterKeys then
    countOne counts value
  else countOne counts overflowCounterKey

def incrementLocationCount (counts : Map Text LocationCount) (code name : Option Text) :
    Map Text LocationCount :=
  let code := (code.getD "UNKNOWN").toAsciiUppercase
  let entry := (counts.lookup code).getD ⟨code, name, 0⟩
  let entryName := if entry.name.isNone then name else entry.name
  counts.insert code { entry with name := entryName, count := entry.count + 1 }

def DomainStatsCounters.countStatus (counters : DomainStatsCounters) (status : ℕ) :
    DomainStatsCounters :=
  if 200 ≤ status ∧ status ≤ 299 then
    { counters with responses2xx := counters.responses2xx + 1 }
  else if 300 ≤ status ∧ status ≤ 399 then
    { counters with responses3xx := counters.responses3xx + 1 }
  else if 400 ≤ status ∧ status ≤ 499 then
    { counters with responses4xx := counters.responses4xx + 1 }
  else { counters with responses5xx := counters.responses5xx + 1 }

def DomainStatsCounters.record (counters : DomainStatsCounters) (event : RequestObservation) :
    DomainStatsCounters :=
  let location := event.context.location
  let counted := counters.countStatus event.status
  { counted with
    requestsTotal := counters.requestsTotal + 1
    totalLatencyMs := counters.totalLatencyMs + .ofNat event.latencyMs
    totalBytesSent := counters.totalBytesSent + .ofNat event.bytesSent
    totalBytesReceived := counters.totalBytesReceived + .ofNat event.bytesReceived
    lastStatus := .ofNat event.status
    lastSeenUnixMs := .ofNat event.context.timestampUnixMs
    pathCounts := incrementCount counters.pathCounts event.context.path
    upstreamCounts := incrementCount counters.upstreamCounts (event.upstream.getD "none")
    countryCounts :=
      incrementLocationCount counters.countryCounts location.countryCode location.countryName
    continentCounts :=
      incrementLocationCount counters.continentCounts location.continentCode
        location.continentName
    recentVisits := (event.visit :: counters.recentVisits).take recentVisitLimit }

def CountsBounded (counts : Map Text UInt64) : Prop :=
  counts.entries.length ≤ maxCounterKeys ∨
    (overflowCounterKey ∈ counts ∧ counts.entries.length ≤ maxCounterKeys + 1)

structure DomainStatsCounters.Bounded (counters : DomainStatsCounters) : Prop where
  recentVisits : counters.recentVisits.length ≤ recentVisitLimit
  pathCounts : CountsBounded counters.pathCounts
  upstreamCounts : CountsBounded counters.upstreamCounts

lemma length_countOne_of_mem {counts : Map Text UInt64} {value : Text} (h : value ∈ counts) :
    (countOne counts value).entries.length ≤ counts.entries.length := by
  have hle := counts.length_insert_le value ((counts.lookup value).getD 0 + 1)
  rwa [if_pos h] at hle

lemma length_countOne_le (counts : Map Text UInt64) (value : Text) :
    (countOne counts value).entries.length ≤ counts.entries.length + 1 := by
  refine (counts.length_insert_le value _).trans ?_
  split <;> omega

lemma CountsBounded.incrementCount {counts : Map Text UInt64} (h : CountsBounded counts)
    (value : Text) : CountsBounded (incrementCount counts value) := by
  rw [PxxlEdge.incrementCount]
  split
  · next hroom =>
    rcases hroom with hmem | hlt
    · have hlen := length_countOne_of_mem (AList.lookup_isSome.mp hmem)
      refine h.imp hlen.trans ?_
      rintro ⟨hover, hle⟩
      exact ⟨(AList.mem_insert _).mpr (.inr hover), hlen.trans hle⟩
    · have hlen := length_countOne_le counts value
      exact .inl (by omega)
  · -- the table is full, and the key for all others is new at most once
    refine .inr ⟨(AList.mem_insert _).mpr (.inl rfl), ?_⟩
    rcases h with hle | ⟨hover, hle⟩
    · have hlen := length_countOne_le counts overflowCounterKey
      omega
    · exact (length_countOne_of_mem hover).trans hle

lemma countsBounded_empty : CountsBounded ∅ := .inl (Nat.zero_le _)

lemma bounded_default : ({} : DomainStatsCounters).Bounded :=
  ⟨Nat.zero_le _, countsBounded_empty, countsBounded_empty⟩

lemma DomainStatsCounters.Bounded.record {counters : DomainStatsCounters}
    (h : counters.Bounded) (event : RequestObservation) : (counters.record event).Bounded where
  recentVisits := length_take_le _ _
  pathCounts := h.pathCounts.incrementCount _
  upstreamCounts := h.upstreamCounts.incrementCount _

/-! ### The registry -/

inductive TrySendError where
  | full | closed
deriving DecidableEq, Repr

structure AnalyticsQueue where
  capacity : ℕ
  queue : List RequestObservation
  closed : Bool

def AnalyticsQueue.trySend (sink : AnalyticsQueue) (event : RequestObservation) :
    Except TrySendError AnalyticsQueue :=
  if sink.closed then .error .closed
  else if sink.queue.length < sink.capacity then
    .ok { sink with queue := sink.queue ++ [event] }
  else .error .full

structure DomainStatsRegistry where
  domains : Map Text DomainStatsCounters := ∅
  sink : Option AnalyticsQueue := none
  overflowSpool : Bool := false

def DomainStatsRegistry.send (registry : DomainStatsRegistry) (event : RequestObservation) :
    Option AnalyticsQueue × Option RequestObservation :=
  match registry.sink with
  | none => (none, none)
  | some sink =>
    match sink.trySend event with
    | .ok sink => (some sink, none)
    | .error .full => (some sink, if registry.overflowSpool then some event else none)
    | .error .closed => (some sink, none)

def DomainStatsRegistry.record (registry : DomainStatsRegistry) (event : RequestObservation) :
    DomainStatsRegistry × Option RequestObservation :=
  let (sink, spooled) := registry.send event
  let counters := (registry.domains.lookup event.context.domain).getD {}
  ({ registry with
      sink
      domains := registry.domains.insert event.context.domain (counters.record event) }, spooled)

section Record

variable {registry : DomainStatsRegistry} {event : RequestObservation}

lemma domains_record :
    (registry.record event).1.domains =
      registry.domains.insert event.context.domain
        (((registry.domains.lookup event.context.domain).getD {}).record event) := rfl

lemma mem_domains_record {domain : Text} :
    domain ∈ (registry.record event).1.domains ↔
      domain = event.context.domain ∨ domain ∈ registry.domains := by
  rw [domains_record]
  exact AList.mem_insert _

end Record

/-! ### Runs of requests -/

def RouteTable.domains (table : RouteTable) : Finset Text :=
  (table.routes.map Route.domain).toFinset

structure Visit (G : Grammar) (domains : Finset Text) where
  world : World G
  conn : Connection
  req : Request G
  state : EdgeState
  registered : state.table.domains = domains
  sink : Option AnalyticsQueue

def observations {G : Grammar} (log : List (Event G)) : List RequestObservation :=
  log.filterMap fun
    | .observed o => some o
    | _ => none

section Runs

variable {G : Grammar} {domains : Finset Text}

def DomainStatsRegistry.visit (registry : DomainStatsRegistry) (v : Visit G domains) :
    DomainStatsRegistry :=
  (observations (handle v.world v.conn v.req v.state).log).foldl
    (fun registry event => (registry.record event).1) { registry with sink := v.sink }

lemma map_domain_observations (log : List (Event G)) :
    (observations log).map (fun o => o.context.domain) = log.filterMap Event.recordedDomain := by
  rw [observations, map_filterMap]
  congr 1
  funext e
  cases e <;> rfl

lemma visit_eq (registry : DomainStatsRegistry) (v : Visit G domains) :
    ∃ event : RequestObservation, event.context.domain = observedDomain v.req ∧
      registry.visit v = (DomainStatsRegistry.record { registry with sink := v.sink } event).1 := by
  have honce := handle_observes_once v.world v.conn v.req v.state
  rw [← map_domain_observations, map_eq_singleton_iff] at honce
  obtain ⟨event, hevents, hdomain⟩ := honce
  refine ⟨event, hdomain, ?_⟩
  rw [DomainStatsRegistry.visit, hevents]
  rfl

lemma mem_domains_run {registry : DomainStatsRegistry} {visits : List (Visit G domains)}
    {domain : Text} :
    domain ∈ (run DomainStatsRegistry.visit registry visits).domains ↔
      domain ∈ registry.domains ∨ domain ∈ visits.map fun v => observedDomain v.req := by
  induction visits generalizing registry with
  | nil => simp [run]
  | cons v visits ih =>
    obtain ⟨event, hdomain, hvisit⟩ := visit_eq registry v
    rw [run_cons, ih, hvisit, mem_domains_record, hdomain, map_cons, mem_cons]
    tauto

def DomainStatsRegistry.new (overflowSpool : Bool) : DomainStatsRegistry := { overflowSpool }

lemma length_domains_run (overflowSpool : Bool) (visits : List (Visit G domains)) :
    (run DomainStatsRegistry.visit (.new overflowSpool) visits).domains.entries.length =
      (visits.map fun v => observedDomain v.req).toFinset.card := by
  rw [Map.length_eq_card]
  congr 1
  ext domain
  rw [mem_toFinset, mem_toFinset, AList.mem_keys.symm.eq, mem_domains_run]
  simp [DomainStatsRegistry.new]

/-- **As many domains are held as the requests of the run name**, whether they have a route or
not: the bound holds along the run exactly if its requests name no more. -/
theorem held_domains_bounded_iff (overflowSpool : Bool) (visits : List (Visit G domains)) :
    (∀ n, (run DomainStatsRegistry.visit (.new overflowSpool)
        (visits.take n)).domains.entries.length ≤ domains.card + maxCounterKeys) ↔
      (visits.map fun v => observedDomain v.req).toFinset.card ≤
        domains.card + maxCounterKeys := by
  simp only [length_domains_run]
  constructor
  · intro h
    have hall := h visits.length
    rwa [take_length] at hall
  · intro h n
    refine (Finset.card_le_card fun domain hdomain => ?_).trans h
    rw [mem_toFinset] at hdomain ⊢
    exact map_subset _ (take_subset n visits) hdomain

end Runs

/-! ### Made-up hosts -/

def letters (n : ℕ) : Text := List.replicate n 'a'

lemma normalizeDomain_letters (n : ℕ) : normalizeDomain (letters (n + 1)) = letters (n + 1) := by
  refine normalizeDomain_eq_self (by simp [letters]) (fun c hc => ?_)
    (by simp [letters, getLast?_replicate])
  rw [eq_of_mem_replicate hc]
  decide

def lettersVisit (n : ℕ) : Visit .http1 {"a.io".toList} where
  world := sampleWorld
  conn := sampleConnection
  req := { rootRequest [] with headers := ⟨[(Header.host, List.replicate n 97)]⟩ }
  state := sampleState {} []
  registered := by decide
  sink := none

lemma observedDomain_lettersVisit (n : ℕ) :
    observedDomain (lettersVisit (n + 1)).req = letters (n + 1) := by
  have hpath : canonicalizePath "/" = .ok "/".toList := by decide
  have hhost : requestHost (lettersVisit (n + 1)).req = some (letters (n + 1)) := by
    have htext : Grammar.http1.toStr (List.replicate (n + 1) 97) = some (letters (n + 1)) := by
      rw [Grammar.toStr, if_pos (by simp [show Grammar.http1.visibleByte 97 = true from rfl]),
        map_replicate]
      rfl
    change ((some (List.replicate (n + 1) 97)).bind Grammar.http1.toStr).or _ = _
    rw [Option.bind_some, htext, Option.some_or]
  rw [observedDomain_eq hpath hhost, normalizeDomain_letters]

/-- A client that makes up hosts, one longer than the other, makes the registry hold as many
domains as it likes. -/
theorem made_up_hosts_held :
    ¬ ∀ n, (run DomainStatsRegistry.visit (.new false)
        (((List.range 1002).map fun i => lettersVisit (i + 1)).take n)).domains.entries.length ≤
      ({"a.io".toList} : Finset Text).card + maxCounterKeys := by
  intro h
  have hall := h 1002
  rw [take_of_length_le (by simp), length_domains_run, map_map] at hall
  have hhosts : (List.range 1002).map ((fun v => observedDomain v.req) ∘
      fun i => lettersVisit (i + 1)) = (List.range 1002).map fun i => letters (i + 1) :=
    map_congr_left fun i _ => observedDomain_lettersVisit i
  have hinj : Function.Injective fun i => letters (i + 1) := by
    intro i j hij
    have hlen := congrArg List.length hij
    simpa [letters] using hlen
  rw [hhosts, toFinset_card_of_nodup (nodup_range.map hinj), length_map,
    length_range, Finset.card_singleton, maxCounterKeys] at hall
  omega

end PxxlEdge
