import PxxlEdge.Proxy.DomainStats
import PxxlEdge.Proxy.WebsocketUpgrade

/-!
What the statistics of a domain count.

Every record of a domain counts once in each table, and the tables add up.  The classes of answers
are told apart by their first digit, except that everything without a class of its own counts as
5xx, also the `101` that a websocket handshake is answered with.
-/

namespace PxxlEdge

open RustStd Http Run List

/-! ### The records of a domain -/

section Domain

variable {registry : DomainStatsRegistry} {event : RequestObservation}
  {events : List RequestObservation} {domain : Text}

def DomainStatsRegistry.counters (registry : DomainStatsRegistry) (domain : Text) :
    DomainStatsCounters :=
  (registry.domains.lookup domain).getD {}

def DomainStatsRegistry.recordAll (registry : DomainStatsRegistry)
    (events : List RequestObservation) : DomainStatsRegistry :=
  run (fun registry event => (registry.record event).1) registry events

def ofDomain (domain : Text) (events : List RequestObservation) : List RequestObservation :=
  events.filter (·.context.domain = domain)

lemma counters_record : (registry.record event).1.counters domain =
    if event.context.domain = domain then (registry.counters domain).record event
    else registry.counters domain := by
  rw [DomainStatsRegistry.counters, domains_record]
  split
  · next h => rw [h, AList.lookup_insert, Option.getD_some, DomainStatsRegistry.counters]
  · next h => rw [AList.lookup_insert_ne fun heq => h heq.symm, DomainStatsRegistry.counters]

lemma counters_recordAll : (registry.recordAll events).counters domain =
    run DomainStatsCounters.record (registry.counters domain) (ofDomain domain events) := by
  induction events generalizing registry with
  | nil => rfl
  | cons event events ih =>
    rw [DomainStatsRegistry.recordAll, run_cons, ← DomainStatsRegistry.recordAll, ih,
      counters_record, ofDomain, ofDomain, filter_cons]
    split
    · next h => rw [if_pos (decide_eq_true h), run_cons]
    · next h => rw [if_neg (by simpa using h)]

end Domain

/-! ### Classes of answers -/

def recorded (events : List RequestObservation) : DomainStatsCounters :=
  run DomainStatsCounters.record {} events

lemma recorded_concat (events : List RequestObservation) (event : RequestObservation) :
    recorded (events ++ [event]) = (recorded events).record event := run_append _ _

def InClass (digit : ℕ) (event : RequestObservation) : Bool := event.status / 100 = digit

def Unclassed (event : RequestObservation) : Bool :=
  !(InClass 2 event || InClass 3 event || InClass 4 event)

def DomainStatsCounters.classes (counters : DomainStatsCounters) : List UInt64 :=
  [counters.requestsTotal, counters.responses2xx, counters.responses3xx, counters.responses4xx,
    counters.responses5xx]

def DomainStatsCounters.CountsClasses (counters : DomainStatsCounters)
    (events : List RequestObservation) : Prop :=
  counters.classes.map UInt64.toNat = [events.length, events.countP (InClass 2),
    events.countP (InClass 3), events.countP (InClass 4), events.countP (InClass 5)]

lemma classes_record (counters : DomainStatsCounters) (event : RequestObservation) :
    (counters.record event).classes =
      [counters.requestsTotal + 1, counters.responses2xx + .ofNat ([event].countP (InClass 2)),
        counters.responses3xx + .ofNat ([event].countP (InClass 3)),
        counters.responses4xx + .ofNat ([event].countP (InClass 4)),
        counters.responses5xx + .ofNat ([event].countP Unclassed)] := by
  have h2 : 200 ≤ event.status ∧ event.status ≤ 299 ↔ event.status / 100 = 2 := by omega
  have h3 : 300 ≤ event.status ∧ event.status ≤ 399 ↔ event.status / 100 = 3 := by omega
  have h4 : 400 ≤ event.status ∧ event.status ≤ 499 ↔ event.status / 100 = 4 := by omega
  rw [DomainStatsCounters.record, DomainStatsCounters.countStatus]
  simp only [countP_singleton, Unclassed, InClass, h2, h3, h4]
  split_ifs <;> simp_all [DomainStatsCounters.classes]

lemma classes_recorded (events : List RequestObservation) : (recorded events).classes =
    [events.length, events.countP (InClass 2), events.countP (InClass 3),
      events.countP (InClass 4), events.countP Unclassed].map UInt64.ofNat := by
  induction events using reverseRecOn with
  | nil => rfl
  | append_singleton events event ih =>
    rw [recorded_concat, classes_record]
    simp only [DomainStatsCounters.classes, map_cons, map_nil, cons.injEq] at ih
    simp only [ih, length_append, countP_append, UInt64.ofNat_add, map_cons, map_nil]
    rfl

lemma countP_unclassed {events : List RequestObservation}
    (hstatus : ∀ e ∈ events, 100 ≤ e.status ∧ e.status ≤ 599) :
    events.countP Unclassed = events.countP (InClass 5) + events.countP (InClass 1) := by
  induction events with
  | nil => rfl
  | cons event events ih =>
    have hevent := hstatus event mem_cons_self
    rw [countP_cons, countP_cons, countP_cons, ih fun e he => hstatus e (mem_cons_of_mem _ he)]
    have hdigit : event.status / 100 = 1 ∨ event.status / 100 = 2 ∨ event.status / 100 = 3 ∨
        event.status / 100 = 4 ∨ event.status / 100 = 5 := by omega
    simp only [Unclassed, InClass]
    rcases hdigit with h | h | h | h | h <;> simp [h] <;> omega

/-- **Classes of answers.**  What a domain has counted is the number of its records, in all and in
each class, exactly if none has a status below 200, and 64 bits suffice. -/
theorem status_classes_exact_iff (sink : Option AnalyticsQueue) (overflowSpool : Bool)
    (events : List RequestObservation) (domain : Text)
    (hstatus : ∀ e ∈ events, 100 ≤ e.status ∧ e.status ≤ 599) :
    ((DomainStatsRegistry.recordAll { sink, overflowSpool } events).counters domain).CountsClasses
        (ofDomain domain events) ↔
      (∀ e ∈ ofDomain domain events, 200 ≤ e.status) ∧
        (ofDomain domain events).length < 2 ^ 64 := by
  rw [counters_recordAll]
  change (recorded (ofDomain domain events)).CountsClasses _ ↔ _
  have hown : ∀ e ∈ ofDomain domain events, 100 ≤ e.status ∧ e.status ≤ 599 := fun e he =>
    hstatus e (mem_of_mem_filter he)
  generalize ofDomain domain events = own at hown
  have hlow : own.countP (InClass 1) = 0 ↔ ∀ e ∈ own, 200 ≤ e.status := by
    rw [countP_eq_zero]
    refine forall₂_congr fun e he => ?_
    have := hown e he
    simp only [InClass, decide_eq_true_eq]
    omega
  have hle : ∀ digit, own.countP (InClass digit) ≤ own.length := fun _ => countP_le_length
  have hle' : own.countP Unclassed ≤ own.length := countP_le_length
  rw [DomainStatsCounters.CountsClasses, classes_recorded, ← hlow]
  rw [countP_unclassed hown] at hle' ⊢
  have h2 := hle 2
  have h3 := hle 3
  have h4 := hle 4
  simp only [map_cons, map_nil, cons.injEq, UInt64.toNat_ofNat', and_true]
  omega

def sampleObservation (status : ℕ) : RequestObservation where
  context := targetContext sampleWorld sampleConnection handshake "a.io" "/"
  status
  latencyMs := 0
  upstream := none
  bytesSent := 0
  bytesReceived := 0

theorem status_classes_exact_two :
    ((DomainStatsRegistry.recordAll {} [sampleObservation 200, sampleObservation 404]).counters
      "a.io").CountsClasses (ofDomain "a.io" [sampleObservation 200, sampleObservation 404]) :=
  (status_classes_exact_iff none false _ "a.io" (by decide)).mpr ⟨by decide, by decide⟩

def switchingWorld : World .http1 :=
  { sampleWorld with answer := fun _ _ => .ok (101, ⟨[]⟩, []) }

/-- A websocket handshake that succeeds is counted as a failure of the server. -/
theorem switching_protocols_counted_5xx :
    let events := observations
      (handle switchingWorld sampleConnection handshake (sampleState {} [])).log
    let counters := (DomainStatsRegistry.recordAll {} events).counters "a.io"
    (ofDomain "a.io" events).map (·.status) = [101] ∧ counters.responses5xx = 1 ∧
      ¬ counters.CountsClasses (ofDomain "a.io" events) := by
  refine ⟨by decide +kernel, by decide +kernel, ?_⟩
  rw [DomainStatsCounters.CountsClasses]
  decide +kernel

/-! ### Tables -/

lemma toNat_succ {count : UInt64} (h : count.toNat + 1 < 2 ^ 64) :
    (count + 1).toNat = count.toNat + 1 := by
  rw [UInt64.toNat_add]
  exact Nat.mod_eq_of_lt h

lemma total_countOne {counts : Map Text UInt64} {value : Text}
    (hlt : counts.total UInt64.toNat + 1 < 2 ^ 64) :
    (countOne counts value).total UInt64.toNat = counts.total UInt64.toNat + 1 := by
  refine Map.total_insert_succ ?_
  rw [Map.total_eq_add_erase _ counts value] at hlt
  cases hcount : counts.lookup value with
  | none => rfl
  | some count =>
    rw [hcount] at hlt
    exact toNat_succ (by simp at hlt ⊢; omega)

lemma total_incrementCount {counts : Map Text UInt64} {value : Text}
    (hlt : counts.total UInt64.toNat + 1 < 2 ^ 64) :
    (incrementCount counts value).total UInt64.toNat = counts.total UInt64.toNat + 1 := by
  rw [incrementCount]
  split
  · exact total_countOne hlt
  · exact total_countOne hlt

lemma total_incrementLocationCount {counts : Map Text LocationCount} {code name : Option Text}
    (hlt : counts.total (·.count.toNat) + 1 < 2 ^ 64) :
    (incrementLocationCount counts code name).total (·.count.toNat) =
      counts.total (·.count.toNat) + 1 := by
  refine Map.total_insert_succ ?_
  rw [Map.total_eq_add_erase _ counts (code.getD "UNKNOWN").toAsciiUppercase] at hlt
  cases hentry : counts.lookup (code.getD "UNKNOWN").toAsciiUppercase with
  | none => rfl
  | some entry =>
    rw [hentry] at hlt
    exact toNat_succ (by simp at hlt ⊢; omega)

def DomainStatsCounters.tableTotals (counters : DomainStatsCounters) : List ℕ :=
  [counters.pathCounts.total UInt64.toNat, counters.upstreamCounts.total UInt64.toNat,
    counters.countryCounts.total (·.count.toNat), counters.continentCounts.total (·.count.toNat)]

lemma tableTotals_recorded {events : List RequestObservation} (h : events.length < 2 ^ 64) :
    (recorded events).tableTotals = replicate 4 events.length := by
  induction events using reverseRecOn with
  | nil => rfl
  | append_singleton events event ih =>
    rw [length_append, length_singleton] at h ⊢
    have htotals := ih (by omega)
    simp only [DomainStatsCounters.tableTotals, replicate, cons.injEq, and_true] at htotals
    obtain ⟨hpaths, hupstreams, hcountries, hcontinents⟩ := htotals
    rw [recorded_concat, DomainStatsCounters.record, DomainStatsCounters.tableTotals]
    dsimp only
    rw [total_incrementCount (by omega), total_incrementCount (by omega),
      total_incrementLocationCount (by omega), total_incrementLocationCount (by omega), hpaths,
      hupstreams, hcountries, hcontinents]
    rfl

lemma recentVisits_recorded (events : List RequestObservation) :
    (recorded events).recentVisits =
      (events.reverse.take recentVisitLimit).map RequestObservation.visit := by
  induction events using reverseRecOn with
  | nil => rfl
  | append_singleton events event ih =>
    rw [recorded_concat, reverse_append, reverse_singleton, singleton_append]
    change (event.visit :: (recorded events).recentVisits).take recentVisitLimit = _
    rw [ih, ← map_cons, ← map_take]
    generalize recentVisitLimit = limit
    cases limit with
    | zero => rfl
    | succ limit => rw [take_succ_cons, take_succ_cons, take_take, Nat.min_eq_left (by omega)]

lemma CountsBounded.length_le {counts : Map Text UInt64} (h : CountsBounded counts) :
    counts.entries.length ≤ maxCounterKeys + 1 :=
  h.elim (fun hle => hle.trans (Nat.le_succ _)) And.right

/-- **The tables of the statistics.**  Every record counts once in each table, the tables of
clients' texts stay bounded, and the visits kept are the latest, the newest first. -/
theorem recorded_tables (events : List RequestObservation) (h : events.length < 2 ^ 64) :
    (recorded events).tableTotals = replicate 4 (recorded events).requestsTotal.toNat ∧
    (recorded events).pathCounts.entries.length ≤ maxCounterKeys + 1 ∧
    (recorded events).upstreamCounts.entries.length ≤ maxCounterKeys + 1 ∧
    (recorded events).recentVisits =
      (events.reverse.take recentVisitLimit).map RequestObservation.visit := by
  have htotal : (recorded events).requestsTotal.toNat = events.length := by
    have hclasses := classes_recorded events
    simp only [DomainStatsCounters.classes, map_cons, map_nil, cons.injEq] at hclasses
    rw [hclasses.1, UInt64.toNat_ofNat', Nat.mod_eq_of_lt h]
  have hbounded : (recorded events).Bounded :=
    run_invariant DomainStatsCounters.Bounded (fun _ event hc => hc.record event)
      bounded_default events
  refine ⟨?_, ?_, ?_, recentVisits_recorded events⟩
  · rw [tableTotals_recorded h, htotal]
  · exact CountsBounded.length_le hbounded.pathCounts
  · exact CountsBounded.length_le hbounded.upstreamCounts

theorem recorded_tables_two :
    (recorded [sampleObservation 200, sampleObservation 101]).tableTotals = [2, 2, 2, 2] :=
  (recorded_tables [sampleObservation 200, sampleObservation 101] (by decide)).1.trans (by decide)

end PxxlEdge
