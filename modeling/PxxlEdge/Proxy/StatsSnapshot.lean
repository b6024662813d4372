import PxxlEdge.Proxy.DomainStats

/-!
Snapshots of the statistics of a domain, from which they are restored.

A snapshot holds the counters, and of each table the ten largest counts.
-/

namespace PxxlEdge

open RustStd Run List

structure StringCount where
  value : Text
  count : UInt64
deriving DecidableEq, Repr

structure DomainStatsSnapshot where
  domain : Text
  requestsTotal : UInt64
  responses2xx : UInt64
  responses3xx : UInt64
  responses4xx : UInt64
  responses5xx : UInt64
  averageLatencyMs : Float
  totalBytesSent : UInt64
  totalBytesReceived : UInt64
  totalBandwidth : UInt64
  lastStatus : Option UInt16
  lastSeenUnixMs : Option UInt64
  topCountries : List LocationCount
  topContinents : List LocationCount
  topPaths : List StringCount
  topUpstreams : List StringCount

/-! ### The largest counts -/

section Top

variable {ι : Type} (count : ι → UInt64) (key : ι → Text)

def countCmp : ι → ι → Ordering :=
  compareLex (fun left right => compareOn count right left) (compareOn key)

def topCounts (items : List ι) (limit : ℕ) : List ι :=
  (items.mergeSort fun left right => (countCmp count key left right).isLE).take limit

variable {count key} {items : List ι} {limit : ℕ}

lemma pairwise_topCounts (items : List ι) (limit : ℕ) : (topCounts count key items limit).Pairwise
    fun left right => (countCmp count key left right).isLE = true := by
  have : Std.TransCmp (countCmp count key) :=
    inferInstanceAs (Std.TransCmp (compareLex _ (compareOn key)))
  refine (pairwise_mergeSort (fun _ _ _ => Std.TransCmp.isLE_trans) (fun a b => ?_)
    items).sublist (take_sublist _ _)
  rw [Bool.or_eq_true, ← Std.OrientedCmp.isGE_iff_isLE (a := a) (b := b)]
  cases countCmp count key a b <;> decide

lemma nodup_topCounts (h : (items.map key).Nodup) :
    ((topCounts count key items limit).map key).Nodup :=
  (((mergeSort_perm _ _).map key).nodup_iff.mpr h).sublist ((take_sublist _ _).map key)

lemma topCounts_reverse (h : (items.map key).Nodup) :
    topCounts count key (topCounts count key items limit).reverse limit =
      topCounts count key items limit := by
  have hperm : topCounts count key (topCounts count key items limit).reverse limit ~
      topCounts count key items limit := by
    rw [topCounts, take_of_length_le]
    · exact (mergeSort_perm _ _).trans (reverse_perm _)
    · rw [length_mergeSort, length_reverse]
      exact length_take_le _ _
  refine hperm.eq_of_pairwise (fun a b ha hb hab hba => ?_) (pairwise_topCounts _ _)
    (pairwise_topCounts _ _)
  have : Std.OrientedCmp (countCmp count key) :=
    inferInstanceAs (Std.OrientedCmp (compareLex _ (compareOn key)))
  have heq : countCmp count key a b = .eq := Std.OrientedCmp.isLE_antisymm hab hba
  exact inj_on_of_nodup_map (nodup_topCounts h) (hperm.subset ha) hb
    (Std.LawfulEqCmp.eq_of_compare (Ordering.then_eq_eq.mp heq).2)

end Top

def topLocationCounts (counts : Map Text LocationCount) (limit : ℕ) : List LocationCount :=
  topCounts LocationCount.count LocationCount.code (counts.entries.map fun e => e.2) limit

def topStringCounts (counts : Map Text UInt64) (limit : ℕ) : List StringCount :=
  topCounts StringCount.count StringCount.value (counts.entries.map fun e => ⟨e.1, e.2⟩) limit

def restoreStringCounts (counts : Map Text UInt64) (values : List StringCount) : Map Text UInt64 :=
  values.foldl (fun counts item => counts.insert item.value item.count) counts

def restoreLocationCounts (counts : Map Text LocationCount) (values : List LocationCount) :
    Map Text LocationCount :=
  values.foldl (fun counts item => counts.insert item.code item) counts

lemma entries_foldl_insert {ι ν : Type} {key : ι → Text} {value : ι → ν} {items : List ι}
    {m : Map Text ν} (hnodup : (items.map key).Nodup) (hnew : ∀ i ∈ items, key i ∉ m) :
    (items.foldl (fun m i => m.insert (key i) (value i)) m).entries =
      (items.map fun i => ⟨key i, value i⟩).reverse ++ m.entries := by
  induction items generalizing m with
  | nil => rfl
  | cons item items ih =>
    rw [map_cons, nodup_cons] at hnodup
    have hitem := hnew item mem_cons_self
    have hrest : ∀ i ∈ items, key i ∉ m.insert (key item) (value item) := by
      intro i hi hmem
      rcases (AList.mem_insert _).mp hmem with heq | hmem
      · exact hnodup.1 (heq ▸ mem_map_of_mem hi)
      · exact hnew i (mem_cons_of_mem _ hi) hmem
    rw [foldl_cons, ih hnodup.2 hrest, AList.entries_insert_of_notMem hitem, map_cons,
      reverse_cons, append_assoc, singleton_append]

/-! ### Snapshots -/

def nonzeroU16 (value : UInt64) : Option UInt16 := if value = 0 then none else some value.toUInt16

def nonzeroU64 (value : UInt64) : Option UInt64 := if value = 0 then none else some value

def DomainStatsCounters.snapshot (counters : DomainStatsCounters) (domain : Text) :
    DomainStatsSnapshot where
  domain
  requestsTotal := counters.requestsTotal
  responses2xx := counters.responses2xx
  responses3xx := counters.responses3xx
  responses4xx := counters.responses4xx
  responses5xx := counters.responses5xx
  averageLatencyMs :=
    if counters.requestsTotal = 0 then 0
    else counters.totalLatencyMs.toFloat / counters.requestsTotal.toFloat
  totalBytesSent := counters.totalBytesSent
  totalBytesReceived := counters.totalBytesReceived
  totalBandwidth := counters.totalBytesSent + counters.totalBytesReceived
  lastStatus := nonzeroU16 counters.lastStatus
  lastSeenUnixMs := nonzeroU64 counters.lastSeenUnixMs
  topCountries := topLocationCounts counters.countryCounts 10
  topContinents := topLocationCounts counters.continentCounts 10
  topPaths := topStringCounts counters.pathCounts 10
  topUpstreams := topStringCounts counters.upstreamCounts 10

def DomainStatsCounters.restore (counters : DomainStatsCounters) (snapshot : DomainStatsSnapshot) :
    DomainStatsCounters :=
  { counters with
    requestsTotal := snapshot.requestsTotal
    responses2xx := snapshot.responses2xx
    responses3xx := snapshot.responses3xx
    responses4xx := snapshot.responses4xx
    responses5xx := snapshot.responses5xx
    totalLatencyMs :=
      (max snapshot.averageLatencyMs 0 * snapshot.requestsTotal.toFloat).round.toUInt64
    totalBytesSent := snapshot.totalBytesSent
    totalBytesReceived := snapshot.totalBytesReceived
    lastStatus := (snapshot.lastStatus.getD 0).toUInt64
    lastSeenUnixMs := snapshot.lastSeenUnixMs.getD 0
    countryCounts := restoreLocationCounts counters.countryCounts snapshot.topCountries
    continentCounts := restoreLocationCounts counters.continentCounts snapshot.topContinents
    pathCounts := restoreStringCounts counters.pathCounts snapshot.topPaths
    upstreamCounts := restoreStringCounts counters.upstreamCounts snapshot.topUpstreams }

inductive StatsCall where
  | record (event : RequestObservation) (status_lt : event.status < 2 ^ 16)
  | restore (snapshot : DomainStatsSnapshot)

def DomainStatsCounters.step (counters : DomainStatsCounters) : StatsCall → DomainStatsCounters
  | .record event _ => counters.record event
  | .restore snapshot => counters.restore snapshot

def Coded (counts : Map Text LocationCount) : Prop :=
  ∀ code entry, counts.lookup code = some entry → entry.code = code

structure DomainStatsCounters.Restorable (counters : DomainStatsCounters) : Prop where
  lastStatus : counters.lastStatus.toNat < 2 ^ 16
  countryCounts : Coded counters.countryCounts
  continentCounts : Coded counters.continentCounts

section Reachable

variable {counts : Map Text LocationCount} {counters : DomainStatsCounters}

lemma Coded.insert (h : Coded counts) {key : Text} {entry : LocationCount}
    (hentry : entry.code = key) : Coded (counts.insert key entry) := by
  intro code entry' hlookup
  by_cases hcode : code = key
  · subst hcode
    rw [AList.lookup_insert] at hlookup
    rw [← Option.some.inj hlookup, hentry]
  · rw [AList.lookup_insert_ne hcode] at hlookup
    exact h code entry' hlookup

lemma Coded.restore (h : Coded counts) (values : List LocationCount) :
    Coded (restoreLocationCounts counts values) :=
  run_invariant Coded (fun _ _ hc => hc.insert rfl) h values

lemma Coded.increment (h : Coded counts) (code name : Option Text) :
    Coded (incrementLocationCount counts code name) := by
  refine h.insert ?_
  dsimp only
  cases hlookup : counts.lookup (code.getD "UNKNOWN").toAsciiUppercase with
  | none => rfl
  | some held => exact h _ held hlookup

lemma DomainStatsCounters.Restorable.step (h : counters.Restorable) (call : StatsCall) :
    (counters.step call).Restorable := by
  cases call with
  | record event hstatus =>
    refine ⟨?_, h.countryCounts.increment _ _, h.continentCounts.increment _ _⟩
    change (UInt64.ofNat event.status).toNat < 2 ^ 16
    rw [UInt64.toNat_ofNat']
    exact (Nat.mod_le _ _).trans_lt hstatus
  | restore snapshot =>
    refine ⟨?_, h.countryCounts.restore _, h.continentCounts.restore _⟩
    change (snapshot.lastStatus.getD 0).toUInt64.toNat < 2 ^ 16
    rw [UInt16.toNat_toUInt64]
    exact UInt16.toNat_lt _

lemma restorable_default : ({} : DomainStatsCounters).Restorable :=
  ⟨by decide, nofun, nofun⟩

end Reachable

/-! ### The fixed point -/

lemma topCounts_restored {ι ν : Type} {count : ι → UInt64} {key : ι → Text} {value : ι → ν}
    {f : (Σ _ : Text, ν) → ι} {items : List ι} {limit : ℕ} (hf : ∀ i, f ⟨key i, value i⟩ = i)
    (h : (items.map key).Nodup) :
    topCounts count key (((topCounts count key items limit).foldl
      (fun m i => m.insert (key i) (value i)) (∅ : Map Text ν)).entries.map f) limit =
        topCounts count key items limit := by
  have hid : (f ∘ fun i => ⟨key i, value i⟩) = id := funext hf
  rw [entries_foldl_insert (nodup_topCounts h) fun _ _ => AList.notMem_empty _,
    AList.empty_entries, append_nil, map_reverse, map_map, hid, map_id, topCounts_reverse h]

lemma topStringCounts_restored (counts : Map Text UInt64) (limit : ℕ) :
    topStringCounts (restoreStringCounts ∅ (topStringCounts counts limit)) limit =
      topStringCounts counts limit := by
  refine topCounts_restored (f := fun e => StringCount.mk e.1 e.2) (fun _ => rfl) ?_
  rw [map_map]
  exact counts.keys_nodup

lemma topLocationCounts_restored {counts : Map Text LocationCount} (h : Coded counts)
    (limit : ℕ) :
    topLocationCounts (restoreLocationCounts ∅ (topLocationCounts counts limit)) limit =
      topLocationCounts counts limit := by
  refine topCounts_restored (f := fun e => e.2) (fun _ => rfl) ?_
  rw [map_map, map_congr_left fun e he => h e.1 e.2 (AList.mem_lookup_iff.mpr he)]
  exact counts.keys_nodup

lemma nonzeroU16_restored {value : UInt64} (h : value.toNat < 2 ^ 16) :
    nonzeroU16 ((nonzeroU16 value).getD 0).toUInt64 = nonzeroU16 value := by
  by_cases hzero : value = 0
  · subst hzero
    rfl
  · have hvalue : value.toUInt16.toUInt64 = value := by
      rw [← UInt64.toNat_inj, UInt16.toNat_toUInt64, UInt64.toNat_toUInt16, Nat.mod_eq_of_lt h]
    have hnonzero : nonzeroU16 value = some value.toUInt16 := if_neg hzero
    rw [hnonzero, Option.getD_some, hvalue, hnonzero]

lemma nonzeroU64_restored (value : UInt64) :
    nonzeroU64 ((nonzeroU64 value).getD 0) = nonzeroU64 value := by
  by_cases hzero : value = 0
  · subst hzero
    rfl
  · have hnonzero : nonzeroU64 value = some value := if_neg hzero
    rw [hnonzero, Option.getD_some, hnonzero]

/-- **Snapshots are stable.**  However the counters came about, what is restored from their
snapshot has the same snapshot, but for the average latency. -/
theorem snapshot_restore_stable (calls : List StatsCall) (domain : Text) :
    let snapshot := (run DomainStatsCounters.step {} calls).snapshot domain
    { (DomainStatsCounters.restore {} snapshot).snapshot domain with
      averageLatencyMs := snapshot.averageLatencyMs } = snapshot := by
  have h := run_invariant DomainStatsCounters.Restorable (fun _ call hc => hc.step call)
    restorable_default calls
  generalize run DomainStatsCounters.step {} calls = counters at h
  simp only [DomainStatsCounters.snapshot, DomainStatsCounters.restore,
    topLocationCounts_restored h.countryCounts, topLocationCounts_restored h.continentCounts,
    topStringCounts_restored, nonzeroU16_restored h.lastStatus, nonzeroU64_restored]

end PxxlEdge
