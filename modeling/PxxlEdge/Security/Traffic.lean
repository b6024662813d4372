import PxxlEdge.Security.BlockerRuns
import PxxlEdge.Lib.SlidingWindow

/-!
What the windows of the adaptive blocker hold, over whole runs of calls.
-/

namespace PxxlEdge

open RustStd Run SlidingWindow List

/-! ### Traffic -/

@[ext]
structure TrafficVolume where
  requests : ℕ
  failures : ℕ
  suspiciousPaths : ℕ
  domains : Finset Text
  failureDomains : Finset Text
  suspiciousDomains : Finset Text
  suspiciousPathSamples : Finset Text

namespace TrafficVolume

instance : Zero TrafficVolume := ⟨⟨0, 0, 0, ∅, ∅, ∅, ∅⟩⟩

instance : Add TrafficVolume where
  add s t :=
    { requests := s.requests + t.requests
      failures := s.failures + t.failures
      suspiciousPaths := s.suspiciousPaths + t.suspiciousPaths
      domains := s.domains ∪ t.domains
      failureDomains := s.failureDomains ∪ t.failureDomains
      suspiciousDomains := s.suspiciousDomains ∪ t.suspiciousDomains
      suspiciousPathSamples := s.suspiciousPathSamples ∪ t.suspiciousPathSamples }

section Fields

variable (s t : TrafficVolume)

@[simp] lemma requests_zero : (0 : TrafficVolume).requests = 0 := rfl
@[simp] lemma failures_zero : (0 : TrafficVolume).failures = 0 := rfl
@[simp] lemma suspiciousPaths_zero : (0 : TrafficVolume).suspiciousPaths = 0 := rfl
@[simp] lemma domains_zero : (0 : TrafficVolume).domains = ∅ := rfl
@[simp] lemma failureDomains_zero : (0 : TrafficVolume).failureDomains = ∅ := rfl
@[simp] lemma suspiciousDomains_zero : (0 : TrafficVolume).suspiciousDomains = ∅ := rfl
@[simp] lemma suspiciousPathSamples_zero : (0 : TrafficVolume).suspiciousPathSamples = ∅ := rfl

@[simp] lemma requests_add : (s + t).requests = s.requests + t.requests := rfl
@[simp] lemma failures_add : (s + t).failures = s.failures + t.failures := rfl
@[simp] lemma suspiciousPaths_add :
    (s + t).suspiciousPaths = s.suspiciousPaths + t.suspiciousPaths := rfl
@[simp] lemma domains_add : (s + t).domains = s.domains ∪ t.domains := rfl
@[simp] lemma failureDomains_add :
    (s + t).failureDomains = s.failureDomains ∪ t.failureDomains := rfl
@[simp] lemma suspiciousDomains_add :
    (s + t).suspiciousDomains = s.suspiciousDomains ∪ t.suspiciousDomains := rfl
@[simp] lemma suspiciousPathSamples_add :
    (s + t).suspiciousPathSamples = s.suspiciousPathSamples ∪ t.suspiciousPathSamples := rfl

end Fields

instance : AddCommMonoid TrafficVolume where
  nsmul := nsmulRec
  add_assoc s t u := by ext1 <;> simp [add_assoc, Finset.union_assoc]
  zero_add s := by ext1 <;> simp
  add_zero s := by ext1 <;> simp
  add_comm s t := by ext1 <;> simp [add_comm, Finset.union_comm]

def totals (iter : Finset Text → List Text) (t : TrafficVolume) : WindowTotals where
  requests := t.requests
  domains := t.domains.card
  failures := t.failures
  failureDomains := t.failureDomains.card
  suspiciousPaths := t.suspiciousPaths
  suspiciousDomains := t.suspiciousDomains.card
  sampleDomains := sampleOf iter t.domains
  samplePaths := sampleOf iter t.suspiciousPathSamples

end TrafficVolume

/-! ### Buckets as slots -/

def TrafficBucket.traffic (b : TrafficBucket) : TrafficVolume where
  requests := b.requests
  failures := b.failures
  suspiciousPaths := b.suspiciousPaths
  domains := b.domains
  failureDomains := b.failureDomains
  suspiciousDomains := b.suspiciousDomains
  suspiciousPathSamples := b.suspiciousPathSamples

def TrafficBucket.slot (b : TrafficBucket) : Slot TrafficVolume := ⟨b.startMs, b.traffic⟩

section Events

variable (config : AdaptiveBlockConfig) (event : RequestObservationInput)

def RequestObservationInput.failed : Bool := 400 ≤ event.status

def RequestObservationInput.suspicious : Bool :=
  isSuspiciousPath event.path config.suspiciousPathPrefixes

def trafficOf : TrafficVolume :=
  let domain := normalizeDomainForTracking event.domain
  { requests := 1
    failures := if event.failed then 1 else 0
    suspiciousPaths := if event.suspicious config then 1 else 0
    domains := {domain}
    failureDomains := if event.failed then {domain} else ∅
    suspiciousDomains := if event.suspicious config then {domain} else ∅
    suspiciousPathSamples :=
      if event.suspicious config then {normalizePathForTracking event.path} else ∅ }

lemma slot_count (b : TrafficBucket) :
    (b.count config event).slot = ⟨b.startMs, b.traffic + trafficOf config event⟩ := by
  have hfailed : event.failed = decide (400 ≤ event.status) := rfl
  have hsuspicious : event.suspicious config =
    isSuspiciousPath event.path config.suspiciousPathPrefixes := rfl
  simp only [TrafficBucket.slot, TrafficBucket.count]
  split <;> split
  all_goals
    next h h' =>
      refine congrArg (Slot.mk b.startMs) ?_
      ext1 <;> simp [TrafficBucket.traffic, trafficOf, hfailed, hsuspicious, h, h']

def trafficScale : Scale RequestObservationInput TrafficVolume where
  width := config.windowMs
  time := RequestObservationInput.timestampUnixMs
  start event := config.bucketStart event.timestampUnixMs
  value := trafficOf config
  fits event := by
    have hpos : 0 < config.bucketMs := by
      rw [AdaptiveBlockConfig.bucketMs]
      omega
    have hwindow : config.bucketMs ≤ config.windowMs := by
      rw [AdaptiveBlockConfig.bucketMs, AdaptiveBlockConfig.windowMs]
      omega
    have hlt := Nat.lt_div_mul_add hpos (a := event.timestampUnixMs)
    rw [AdaptiveBlockConfig.bucketStart]
    omega

lemma slots_updateBucket (start : ℕ) (buckets : List TrafficBucket) :
    (updateBucket start (TrafficBucket.count config event) buckets).map TrafficBucket.slot =
      deposit start (trafficOf config event) (buckets.map TrafficBucket.slot) := by
  induction buckets with
  | nil =>
    have hempty : ({ startMs := start } : TrafficBucket).traffic = 0 := rfl
    rw [updateBucket, map_singleton, slot_count, hempty, zero_add]
    rfl
  | cons b buckets ih =>
    rw [updateBucket, map_cons, deposit]
    split
    · next h =>
      rw [if_pos (show b.slot.start = start from h), map_cons, slot_count]
      rfl
    · next h =>
      rw [if_neg (show ¬ b.slot.start = start from h), map_cons, ih]

lemma slots_trimBuckets (buckets : List TrafficBucket) (oldestAllowed : ℕ) :
    (trimBuckets buckets oldestAllowed).map TrafficBucket.slot =
      trim oldestAllowed (buckets.map TrafficBucket.slot) := by
  rw [trim, dropWhile_map]
  rfl

lemma slots_observe (window : IpWindow) :
    (window.observe config event).buckets.map TrafficBucket.slot =
      (trafficScale config).observe (window.buckets.map TrafficBucket.slot) event := by
  rw [IpWindow.observe, slots_updateBucket, slots_trimBuckets]
  rfl

end Events

/-! ### Totals -/

section Totals

variable (config : AdaptiveBlockConfig) (iter : Finset Text → List Text)

lemma traffic_total (buckets : List TrafficBucket) :
    total (buckets.map TrafficBucket.slot) =
      { requests := (buckets.map fun b => b.requests).sum
        failures := (buckets.map fun b => b.failures).sum
        suspiciousPaths := (buckets.map fun b => b.suspiciousPaths).sum
        domains := unionOf TrafficBucket.domains buckets
        failureDomains := unionOf TrafficBucket.failureDomains buckets
        suspiciousDomains := unionOf TrafficBucket.suspiciousDomains buckets
        suspiciousPathSamples := unionOf TrafficBucket.suspiciousPathSamples buckets } := by
  induction buckets with
  | nil => rfl
  | cons b buckets ih =>
    have hcons : total ((b :: buckets).map TrafficBucket.slot) =
        b.traffic + total (buckets.map TrafficBucket.slot) := rfl
    rw [hcons, ih]
    rfl

lemma windowTotals_eq (buckets : List TrafficBucket) :
    windowTotals iter buckets = (total (buckets.map TrafficBucket.slot)).totals iter := by
  rw [traffic_total]
  rfl

def domainsOf (events : List RequestObservationInput) : Finset Text :=
  (events.map fun e => normalizeDomainForTracking e.domain).toFinset

def countedTotals (events : List RequestObservationInput) : WindowTotals where
  requests := events.length
  domains := (domainsOf events).card
  failures := (events.filter fun e => e.failed).length
  failureDomains := (domainsOf (events.filter fun e => e.failed)).card
  suspiciousPaths := (events.filter fun e => e.suspicious config).length
  suspiciousDomains := (domainsOf (events.filter fun e => e.suspicious config)).card
  sampleDomains := sampleOf iter (domainsOf events)
  samplePaths := sampleOf iter
    ((events.filter fun e => e.suspicious config).map fun e =>
      normalizePathForTracking e.path).toFinset

lemma traffic_sum (events : List RequestObservationInput) :
    (events.map (trafficOf config)).sum =
      { requests := events.length
        failures := (events.filter fun e => e.failed).length
        suspiciousPaths := (events.filter fun e => e.suspicious config).length
        domains := domainsOf events
        failureDomains := domainsOf (events.filter fun e => e.failed)
        suspiciousDomains := domainsOf (events.filter fun e => e.suspicious config)
        suspiciousPathSamples :=
          ((events.filter fun e => e.suspicious config).map fun e =>
            normalizePathForTracking e.path).toFinset } := by
  induction events with
  | nil => rfl
  | cons e events ih =>
    rw [map_cons, sum_cons, ih]
    by_cases hfailed : e.failed = true <;> by_cases hsuspicious : e.suspicious config = true
    all_goals
      ext1 <;> simp [trafficOf, domainsOf, hfailed, hsuspicious, add_comm]

lemma totals_sum (events : List RequestObservationInput) :
    ((events.map (trafficOf config)).sum).totals iter = countedTotals config iter events := by
  rw [traffic_sum]
  rfl

lemma triggerReason_isSome {totals : WindowTotals} :
    (triggerReason config totals).isSome = true ↔
      (config.requestThreshold ≤ totals.requests ∧ config.domainThreshold ≤ totals.domains) ∨
      (config.highRequestThreshold ≤ totals.requests ∧
        config.highRequestDomainThreshold ≤ totals.domains) ∨
      (config.suspiciousPathThreshold ≤ totals.suspiciousPaths ∧
        config.suspiciousPathDomainThreshold ≤ totals.suspiciousDomains) ∨
      (config.failureThreshold ≤ totals.failures ∧
        config.failureDomainThreshold ≤ totals.failureDomains) := by
  rw [triggerReason]
  split
  · next h => simp [h]
  · next h₁ =>
    split
    · next h => simp [h]
    · next h₂ =>
      split
      · next h => simp [h]
      · next h₃ =>
        split
        · next h => simp [h]
        · next h₄ => simp [h₁, h₂, h₃, h₄]

lemma triggerReason_mono {s t rest : TrafficVolume} (h : s + rest = t)
    (htrigger : (triggerReason config (s.totals iter)).isSome = true) :
    (triggerReason config (t.totals iter)).isSome = true := by
  subst h
  have hdomains : s.domains.card ≤ (s + rest).domains.card :=
    Finset.card_le_card Finset.subset_union_left
  have hfailures : s.failureDomains.card ≤ (s + rest).failureDomains.card :=
    Finset.card_le_card Finset.subset_union_left
  have hsuspicious : s.suspiciousDomains.card ≤ (s + rest).suspiciousDomains.card :=
    Finset.card_le_card Finset.subset_union_left
  rw [triggerReason_isSome] at htrigger ⊢
  simp only [TrafficVolume.totals, TrafficVolume.requests_add, TrafficVolume.failures_add,
    TrafficVolume.suspiciousPaths_add] at htrigger ⊢
  omega

end Totals

/-! ### Counted events -/

namespace BlockerOp

def countedFor (ip : IpAddr) (p : PersistentBlocker) : BlockerOp → List RequestObservationInput
  | record r event => if event.ip = ip ∧ p.counts r event = true then [event] else []
  | _ => []

def before (p : PersistentBlocker) : BlockerOp → PersistentBlocker
  | record r event => p.ready r event
  | op => op.apply p

variable (op : BlockerOp) (p : PersistentBlocker) (ip : IpAddr)

lemma countedFor_cases :
    op.countedFor ip p = [] ∨ ∃ event, op.countedFor ip p = [event] := by
  cases op with
  | record r event =>
    rw [countedFor]
    split
    · exact .inr ⟨event, rfl⟩
    · exact .inl rfl
  | _ => exact .inl rfl

lemma lookup_before :
    (op.before p).blocker.windows.lookup ip = p.blocker.windows.lookup ip ∨
      (op.before p).blocker.windows.lookup ip = none := by
  cases op with
  | record r event => exact (maintains_ready r p event).windows ip
  | check r ip' => exact (maintains_check r p ip').windows ip
  | unblock r ip' => exact (maintains_unblock r p ip').windows ip
  | unwatch r ip' => exact (maintains_unwatch r p ip').windows ip
  | restart r => exact .inr (AList.lookup_empty ip)

lemma window_apply :
    (op.apply p).blocker.window ip =
      (op.countedFor ip p).foldl (IpWindow.observe p.blocker.toAdaptiveBlockConfig)
        ((op.before p).blocker.window ip) := by
  cases op with
  | record r event =>
    rw [apply, PersistentBlocker.record_eq, countedFor, before]
    by_cases hcounts : p.counts r event = true
    · have htracks := tracks_track r (p.ready r event) event
      have hconfig := (maintains_ready r p event).config
      rw [if_pos hcounts, AdaptiveBlocker.window, htracks.windows, hconfig]
      by_cases hip : event.ip = ip
      · rw [if_pos ⟨hip, hcounts⟩, hip, AList.lookup_insert, Option.getD_some, foldl_cons,
          foldl_nil]
      · rw [if_neg fun h => hip h.1, AList.lookup_insert_ne (Ne.symm hip), foldl_nil,
          AdaptiveBlocker.window]
    · rw [if_neg hcounts, if_neg fun h => hcounts h.2, foldl_nil]
  | _ => rfl

end BlockerOp

structure Watched where
  state : PersistentBlocker
  counted : List RequestObservationInput := []

namespace Watched

variable (ip : IpAddr) (w : Watched)

def config : AdaptiveBlockConfig := w.state.blocker.toAdaptiveBlockConfig

def buckets : List TrafficBucket := (w.state.blocker.window ip).buckets

def step (w : Watched) (op : BlockerOp) : Watched where
  state := op.apply w.state
  counted := w.counted ++ op.countedFor ip w.state

def NotEvicted (op : BlockerOp) : Prop :=
  (op.before w.state).blocker.windows.lookup ip = w.state.blocker.windows.lookup ip

def recent : List RequestObservationInput :=
  w.counted.filter fun event =>
    decide ((trafficScale w.config).oldest w.counted ≤
      w.config.bucketStart event.timestampUnixMs)

structure ExactTraffic : Prop where
  slots : (trafficScale w.config).Exact w.counted ((w.buckets ip).map TrafficBucket.slot)
  totals : ∀ iter, windowTotals iter (w.buckets ip) = countedTotals w.config iter w.recent

def InOrder (op : BlockerOp) : Prop :=
  ∀ event ∈ op.countedFor ip w.state,
    (trafficScale w.config).Fits w.counted ((w.buckets ip).map TrafficBucket.slot) event

instance (op : BlockerOp) : Decidable (w.NotEvicted ip op) :=
  inferInstanceAs (Decidable (_ = _))

instance (op : BlockerOp) : Decidable (w.InOrder ip op) :=
  inferInstanceAs (Decidable (∀ event ∈ op.countedFor ip w.state, _))

variable (op : BlockerOp)

@[simp] lemma config_step : (w.step ip op).config = w.config := config_apply op w.state

lemma counted_step : (w.step ip op).counted = w.counted ++ op.countedFor ip w.state := rfl

lemma buckets_step :
    (w.step ip op).buckets ip = ((op.countedFor ip w.state).foldl (IpWindow.observe w.config)
      ((op.before w.state).blocker.window ip)).buckets :=
  congrArg IpWindow.buckets (op.window_apply w.state ip)

variable {ip w}

lemma exactTraffic_iff :
    w.ExactTraffic ip ↔
      (trafficScale w.config).Exact w.counted ((w.buckets ip).map TrafficBucket.slot) := by
  refine ⟨fun h => h.slots, fun h => ⟨h, fun iter => ?_⟩⟩
  calc windowTotals iter (w.buckets ip)
      = (total ((w.buckets ip).map TrafficBucket.slot)).totals iter := windowTotals_eq iter _
    _ = ((w.recent.map (trafficOf w.config)).sum).totals iter :=
        congrArg (TrafficVolume.totals iter) h.total_eq
    _ = countedTotals w.config iter w.recent := totals_sum w.config iter w.recent

lemma exactTraffic_step (h : w.ExactTraffic ip) (hkept : w.NotEvicted ip op) :
    (w.step ip op).ExactTraffic ip ↔ w.InOrder ip op := by
  have hbefore : (op.before w.state).blocker.window ip = w.state.blocker.window ip := by
    rw [AdaptiveBlocker.window, hkept, AdaptiveBlocker.window]
  rw [exactTraffic_iff] at h ⊢
  rw [config_step, counted_step, buckets_step, hbefore, InOrder]
  rcases op.countedFor_cases w.state ip with hnone | ⟨event, hevent⟩
  · rw [hnone, append_nil, foldl_nil]
    exact iff_of_true h (by simp)
  · rw [hevent, foldl_cons, foldl_nil, slots_observe, forall_mem_singleton]
    exact Scale.exact_observe_iff h

end Watched

/-- **Exact windows.**  From a blocker without a window for an address, and as long as that window
is not dropped: in every run of calls, the buckets are at all times exactly those of the events
counted so far whose bucket starts in the window of the latest of them, and the totals for the
decision are theirs, if and only if every counted event is in order. -/
theorem window_exact_iff (ip : IpAddr) (p : PersistentBlocker)
    (hnew : p.blocker.windows.lookup ip = none) (ops : List BlockerOp)
    (hkept : Along (Watched.step ip) (Watched.NotEvicted ip) { state := p } ops) :
    (∀ n, (run (Watched.step ip) { state := p } (ops.take n)).ExactTraffic ip) ↔
      Along (Watched.step ip) (Watched.InOrder ip) { state := p } ops := by
  refine forall_take_iff_along (Watched.ExactTraffic ip) hkept ?_
    fun w op hw hop => Watched.exactTraffic_step op hw hop
  have hempty : Watched.buckets ip { state := p } = [] := by
    rw [Watched.buckets, AdaptiveBlocker.window, hnew, Option.getD_none]
  rw [Watched.exactTraffic_iff, hempty]
  exact Scale.exact_nil

/-! ### Late events -/

/-- Requests that are recorded in the order in which they came. -/
theorem window_exact_iff_in_order :
    Along (Watched.step scannerIp) (Watched.InOrder scannerIp) { state := freshBlocker {} }
        [recordOf 0 100, recordOf 1000000 1000100] ∧
      ∀ n, (run (Watched.step scannerIp) { state := freshBlocker {} }
        ([recordOf 0 100, recordOf 1000000 1000100].take n)).ExactTraffic scannerIp := by
  have hinOrder : Along (Watched.step scannerIp) (Watched.InOrder scannerIp)
      { state := freshBlocker {} } [recordOf 0 100, recordOf 1000000 1000100] := by
    refine ⟨?_, ?_, trivial⟩
    all_goals decide
  refine ⟨hinOrder, ?_⟩
  refine (window_exact_iff scannerIp (freshBlocker {}) rfl
    [recordOf 0 100, recordOf 1000000 1000100] ⟨?_, ?_, trivial⟩).mpr hinOrder
  all_goals decide

/-- A request that is recorded after one that came 1000 seconds later stays in the window. -/
theorem late_event_kept :
    let w := run (Watched.step scannerIp) { state := freshBlocker {} }
      [recordOf 1000000 1000100, recordOf 0 1000200]
    w.counted = [requestAt 1000000, requestAt 0] ∧
      (w.buckets scannerIp).map TrafficBucket.startMs = [1000000, 0] ∧
      ¬ w.ExactTraffic scannerIp := by
  intro w
  have hcounted : w.counted = [requestAt 1000000, requestAt 0] := by decide
  have hstarts : (w.buckets scannerIp).map TrafficBucket.startMs = [1000000, 0] := by
    decide
  refine ⟨hcounted, hstarts, fun hexact => ?_⟩
  have hslot : 0 ∈ ((w.buckets scannerIp).map TrafficBucket.slot).map Slot.start := by
    rw [map_map, show Slot.start ∘ TrafficBucket.slot = TrafficBucket.startMs from rfl,
      hstarts]
    simp
  obtain ⟨hold, -⟩ := (hexact.slots.mem_iff 0).mp hslot
  rw [hcounted] at hold
  exact absurd hold (by decide)

/-! ### After an operator has unblocked an address -/

namespace Watched

variable {ip : IpAddr} {w : Watched} {op : BlockerOp}

def CleanStart (ip : IpAddr) (w : Watched) (op : BlockerOp) : Prop :=
  w.counted = [] → ∀ event ∈ op.countedFor ip w.state,
    ∀ bucket ∈ ((op.before w.state).blocker.window ip).buckets,
      bucket.startMs < event.timestampUnixMs - w.config.windowMs

instance : Decidable (CleanStart ip w op) :=
  inferInstanceAs (Decidable (_ → ∀ event ∈ op.countedFor ip w.state,
    ∀ bucket ∈ ((op.before w.state).blocker.window ip).buckets, _))

def Covered (ip : IpAddr) (w : Watched) : Prop :=
  w.counted ≠ [] → ∃ rest, total ((w.buckets ip).map TrafficBucket.slot) + rest =
    (w.counted.map (trafficOf w.config)).sum

lemma observe_of_stale {config : AdaptiveBlockConfig} {window : IpWindow}
    {event : RequestObservationInput}
    (h : ∀ bucket ∈ window.buckets, bucket.startMs < event.timestampUnixMs - config.windowMs) :
    total ((window.observe config event).buckets.map TrafficBucket.slot) =
      trafficOf config event := by
  have htrim : trimBuckets window.buckets (event.timestampUnixMs - config.windowMs) = [] := by
    rw [trimBuckets, dropWhile_eq_nil_iff]
    exact fun bucket hbucket => decide_eq_true (h bucket hbucket)
  have hnil : total ([] : List (Slot TrafficVolume)) = 0 := rfl
  rw [IpWindow.observe, slots_updateBucket, htrim, map_nil, total_deposit, hnil, zero_add]

variable (ip w op) in
lemma exists_total_before_add :
    ∃ dropped, total (((op.before w.state).blocker.window ip).buckets.map TrafficBucket.slot) +
      dropped = total ((w.buckets ip).map TrafficBucket.slot) := by
  rcases op.lookup_before w.state ip with hsame | hnone
  · refine ⟨0, ?_⟩
    rw [AdaptiveBlocker.window, hsame, add_zero]
    rfl
  · refine ⟨total ((w.buckets ip).map TrafficBucket.slot), ?_⟩
    rw [AdaptiveBlocker.window, hnone]
    exact zero_add _

lemma Covered.step (h : w.Covered ip) (hclean : w.CleanStart ip op) :
    (w.step ip op).Covered ip := by
  obtain ⟨dropped, hdropped⟩ := exists_total_before_add ip w op
  rw [Covered, config_step, counted_step, buckets_step]
  rcases op.countedFor_cases w.state ip with hnone | ⟨event, hevent⟩
  · rw [hnone, append_nil, foldl_nil]
    intro hcounted
    obtain ⟨rest, hrest⟩ := h hcounted
    exact ⟨dropped + rest, by rw [← add_assoc, hdropped, hrest]⟩
  · rw [hevent, foldl_cons, foldl_nil, map_append, sum_append,
      map_singleton, sum_singleton]
    intro _
    by_cases hfirst : w.counted = []
    · have hstale := hclean hfirst event (by rw [hevent]; exact mem_singleton_self event)
      refine ⟨0, ?_⟩
      rw [hfirst, map_nil, sum_nil, add_zero, zero_add]
      exact observe_of_stale hstale
    · obtain ⟨rest, hrest⟩ := h hfirst
      set window := (op.before w.state).blocker.window ip
      obtain ⟨old, hold⟩ := Scale.exists_total_observe_add (W := trafficScale w.config)
        (window.buckets.map TrafficBucket.slot) event
      have hvalue : (trafficScale w.config).value event = trafficOf w.config event := rfl
      refine ⟨old + (dropped + rest), ?_⟩
      calc total ((window.observe w.config event).buckets.map TrafficBucket.slot) +
            (old + (dropped + rest))
          = total (window.buckets.map TrafficBucket.slot) + trafficOf w.config event +
              (dropped + rest) := by rw [slots_observe, ← add_assoc, hold, hvalue]
        _ = total (window.buckets.map TrafficBucket.slot) + dropped + rest +
              trafficOf w.config event := by abel
        _ = (w.counted.map (trafficOf w.config)).sum + trafficOf w.config event := by
              rw [hdropped, hrest]

end Watched

lemma triggerReason_of_record {r : Readings} {p : PersistentBlocker}
    {event : RequestObservationInput} (h : (p.record r event).1.isSome = true) :
    p.counts r event = true ∧
      (triggerReason p.blocker.toAdaptiveBlockConfig
        (windowTotals r.iter ((p.record r event).2.blocker.window event.ip).buckets)).isSome =
          true := by
  by_cases hcounts : p.counts r event = true
  · refine ⟨hcounts, ?_⟩
    rw [PersistentBlocker.record_eq, if_pos hcounts] at h ⊢
    have hconfig := (maintains_ready r p event).config
    rw [AdaptiveBlocker.window, (tracks_track r (p.ready r event) event).windows,
      AList.lookup_insert, Option.getD_some, ← hconfig]
    rw [PersistentBlocker.track] at h
    dsimp only at h
    split at h
    · next reason hreason => rw [hreason, Option.isSome_some]
    · cases h
  · rw [PersistentBlocker.record_eq, if_neg hcounts] at h
    cases h

/-- **After an unblock.**  In every run after an operator has unblocked an address, an event that
blocks it again does so with the events counted since then alone, if the first of these found
no bucket that was still in the window. -/
theorem reblocked_by_new_events (p : PersistentBlocker) (ip : IpAddr) (rUnblock : Readings)
    (ops : List BlockerOp) (r : Readings) (event : RequestObservationInput) (hip : event.ip = ip)
    (hclean : Along (Watched.step ip) (Watched.CleanStart ip)
      { state := (p.unblock rUnblock ip).2 } (ops ++ [.record r event]))
    (hblock : ((run (Watched.step ip) { state := (p.unblock rUnblock ip).2 } ops).state.record r
      event).1.isSome = true) :
    let w := run (Watched.step ip) { state := (p.unblock rUnblock ip).2 } ops
    (triggerReason w.config (countedTotals w.config r.iter (w.counted ++ [event]))).isSome =
      true := by
  intro w
  obtain ⟨hcounts, htrigger⟩ := triggerReason_of_record hblock
  have hcovered : (w.step ip (.record r event)).Covered ip := by
    have hrun := hclean.invariant (Watched.Covered ip)
      (fun w op hw hop => Watched.Covered.step hw hop) fun h => absurd rfl h
    rwa [run_append, run_cons, run_nil] at hrun
  have hcounted : (BlockerOp.record r event).countedFor ip w.state = [event] :=
    if_pos ⟨hip, hcounts⟩
  rw [Watched.Covered, Watched.config_step, Watched.counted_step, hcounted] at hcovered
  obtain ⟨rest, hrest⟩ := hcovered (by simp)
  rw [← totals_sum]
  refine triggerReason_mono w.config r.iter hrest ?_
  rw [← windowTotals_eq, ← hip]
  exact htrigger

def blockingBlocker : PersistentBlocker :=
  run BlockerOp.apply (freshBlocker strictConfig)
    [recordOf 0 100, recordOf 1000 1100]

/-- Two new requests after the window is over. -/
theorem reblocked_by_new_events_after_window :
    let w := run (Watched.step scannerIp)
      { state := (blockingBlocker.unblock { nowMs := 1500 } scannerIp).2 } [recordOf 400000 400100]
    (triggerReason w.config (countedTotals w.config (Readings.iter { nowMs := 401100 })
      (w.counted ++ [requestAt 401000]))).isSome = true := by
  refine reblocked_by_new_events blockingBlocker scannerIp { nowMs := 1500 }
    [recordOf 400000 400100] { nowMs := 401100 } (requestAt 401000) rfl ⟨?_, ?_, trivial⟩ ?_
  all_goals decide

/-- The window outlives the block: one new request blocks the address again, which alone would
not. -/
theorem reblocked_by_old_events :
    (blockingBlocker.blocker.blocks.lookup scannerIp).isSome = true ∧
      ((blockingBlocker.unblock { nowMs := 1500 } scannerIp).2.record { nowMs := 2100 }
        (requestAt 2000)).1.isSome = true ∧
      (triggerReason strictConfig (countedTotals strictConfig (Readings.iter {})
        [requestAt 2000])).isSome = false := by
  refine ⟨?_, ?_, ?_⟩
  all_goals decide

end PxxlEdge
