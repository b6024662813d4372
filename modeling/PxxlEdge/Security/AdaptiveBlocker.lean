import PxxlEdge.Lib.Map
import PxxlEdge.Lib.IpAddr
import Mathlib.Data.Char
import Mathlib.Data.Finset.Sort
import Mathlib.Data.List.Lex

/-!
The adaptive blocker: it watches the requests of every address over a sliding window,
blocks an address whose traffic reaches one of four thresholds, and keeps its blocks and
its watchlist in two files.

What a call reads from outside (clocks, the outcome of writes, the order in which hash
sets iterate) is in its `Readings`.

* `AdaptiveBlocker`: what is in memory; `PersistentBlocker` together with the files.
* `PersistentBlocker.record`, `check`, `unblock`, `unwatch` and `new`.
-/

namespace PxxlEdge

open RustStd

inductive SecurityDecision where
  | allowed
  | blocked (reason : Text)
  | rateLimited (retryAfter : ℚ)
deriving DecidableEq, Repr

/-! ### Configuration -/

def defaultExemptCidrs : List IpNet :=
  [⟨.v4 ⟨127, 0, 0, 0⟩, 8⟩, ⟨.v6 ⟨0, 0, 0, 0, 0, 0, 0, 1⟩, 128⟩, ⟨.v4 ⟨10, 88, 0, 0⟩, 24⟩]

structure AdaptiveBlockConfig where
  enabled : Bool := true
  windowSeconds : ℕ := 300
  blockSeconds : ℕ := 1800
  requestThreshold : ℕ := 300
  domainThreshold : ℕ := 25
  highRequestThreshold : ℕ := 1200
  highRequestDomainThreshold : ℕ := 8
  suspiciousPathThreshold : ℕ := 25
  suspiciousPathDomainThreshold : ℕ := 5
  watchlistSuspiciousPathThreshold : ℕ := 5
  watchlistSuspiciousPathDomainThreshold : ℕ := 3
  watchlistTtlSeconds : ℕ := 86400
  failureThreshold : ℕ := 200
  failureDomainThreshold : ℕ := 15
  maxTrackedIps : ℕ := 100000
  bucketSeconds : ℕ := 10
  exemptCidrs : List IpNet := defaultExemptCidrs
  suspiciousPathPrefixes : List Text := []
deriving DecidableEq, Repr

namespace AdaptiveBlockConfig

variable (config : AdaptiveBlockConfig)

def bucketMs : ℕ := max config.bucketSeconds 1 * 1000

def windowMs : ℕ := max config.windowSeconds (max config.bucketSeconds 1) * 1000

def bucketStart (timestampMs : ℕ) : ℕ := timestampMs / config.bucketMs * config.bucketMs

end AdaptiveBlockConfig

/-! ### Events and windows -/

structure RequestObservationInput where
  ip : IpAddr
  domain : Text
  path : Text
  status : ℕ
  timestampUnixMs : ℕ
deriving DecidableEq, Repr

structure TrafficBucket where
  startMs : ℕ := 0
  requests : ℕ := 0
  failures : ℕ := 0
  suspiciousPaths : ℕ := 0
  domains : Finset Text := ∅
  failureDomains : Finset Text := ∅
  suspiciousDomains : Finset Text := ∅
  suspiciousPathSamples : Finset Text := ∅
deriving DecidableEq

structure IpWindow where
  buckets : List TrafficBucket := []
  lastSeenMs : ℕ := 0
deriving DecidableEq

structure WindowTotals where
  requests : ℕ
  domains : ℕ
  failures : ℕ
  failureDomains : ℕ
  suspiciousPaths : ℕ
  suspiciousDomains : ℕ
  sampleDomains : List Text
  samplePaths : List Text
deriving DecidableEq, Repr

def trimBuckets (buckets : List TrafficBucket) (oldestAllowed : ℕ) : List TrafficBucket :=
  buckets.dropWhile fun bucket => decide (bucket.startMs < oldestAllowed)

def unionOf (f : TrafficBucket → Finset Text) (buckets : List TrafficBucket) : Finset Text :=
  buckets.foldr (fun bucket set => f bucket ∪ set) ∅

def sampleOf (iter : Finset Text → List Text) (set : Finset Text) : List Text :=
  ((iter set).take 8).insertionSort fun s t => Text.isLe s t = true

def windowTotals (iter : Finset Text → List Text) (buckets : List TrafficBucket) :
    WindowTotals where
  requests := (buckets.map fun b => b.requests).sum
  domains := (unionOf TrafficBucket.domains buckets).card
  failures := (buckets.map fun b => b.failures).sum
  failureDomains := (unionOf TrafficBucket.failureDomains buckets).card
  suspiciousPaths := (buckets.map fun b => b.suspiciousPaths).sum
  suspiciousDomains := (unionOf TrafficBucket.suspiciousDomains buckets).card
  sampleDomains := sampleOf iter (unionOf TrafficBucket.domains buckets)
  samplePaths := sampleOf iter (unionOf TrafficBucket.suspiciousPathSamples buckets)

def normalizeDomainForTracking (domain : Text) : Text :=
  (domain.trim.trimEndMatches '.').toAsciiLowercase

def normalizePathForTracking (path : Text) : Text :=
  let value := path.trim
  if value = [] then "/"
  else
    let withoutQuery : Text := (value.splitOn '?').headD value
    let normalized :=
      if withoutQuery.startsWith "/" then withoutQuery else "/".toList ++ withoutQuery
    normalized.take 160

def suspiciousPrefixes : List Text :=
  ["/.env", "/.git/", "/api/.git/", "/wp-admin/install.php", "/wp-cron.php", "/xmlrpc.php",
    "/admin.php", "/shell.php", "/cmd.php", "/wso.php", "/c99.php", "/r57.php",
    "/wp-content/plugins/", "/wp-content/uploads/", "/vendor/phpunit/"]

def isSuspiciousPath (path : Text) (configuredPrefixes : List Text) : Bool :=
  let path := path.toAsciiLowercase
  suspiciousPrefixes.any (fun p => path.startsWith p) ||
    configuredPrefixes.any fun p => path.startsWith p.toAsciiLowercase

def TrafficBucket.count (config : AdaptiveBlockConfig) (event : RequestObservationInput)
    (bucket : TrafficBucket) : TrafficBucket :=
  let domain := normalizeDomainForTracking event.domain
  let bucket :=
    { bucket with
      requests := bucket.requests + 1
      domains := insert domain bucket.domains }
  let bucket :=
    if 400 ≤ event.status then
      { bucket with
        failures := bucket.failures + 1
        failureDomains := insert domain bucket.failureDomains }
    else bucket
  if isSuspiciousPath event.path config.suspiciousPathPrefixes then
    { bucket with
      suspiciousPaths := bucket.suspiciousPaths + 1
      suspiciousDomains := insert domain bucket.suspiciousDomains
      suspiciousPathSamples :=
        insert (normalizePathForTracking event.path) bucket.suspiciousPathSamples }
  else bucket

def updateBucket (start : ℕ) (f : TrafficBucket → TrafficBucket) :
    List TrafficBucket → List TrafficBucket
  | [] => [f { startMs := start }]
  | bucket :: buckets =>
    if bucket.startMs = start then f bucket :: buckets
    else bucket :: updateBucket start f buckets

def IpWindow.observe (config : AdaptiveBlockConfig) (window : IpWindow)
    (event : RequestObservationInput) : IpWindow where
  lastSeenMs := event.timestampUnixMs
  buckets :=
    updateBucket (config.bucketStart event.timestampUnixMs) (TrafficBucket.count config event)
      (trimBuckets window.buckets (event.timestampUnixMs - config.windowMs))

/-! ### Thresholds -/

def triggerReason (config : AdaptiveBlockConfig) (totals : WindowTotals) : Option Text :=
  if config.requestThreshold ≤ totals.requests ∧ config.domainThreshold ≤ totals.domains then
    some "cross_domain_request_volume"
  else if config.highRequestThreshold ≤ totals.requests ∧
      config.highRequestDomainThreshold ≤ totals.domains then
    some "high_request_volume"
  else if config.suspiciousPathThreshold ≤ totals.suspiciousPaths ∧
      config.suspiciousPathDomainThreshold ≤ totals.suspiciousDomains then
    some "suspicious_path_scanner"
  else if config.failureThreshold ≤ totals.failures ∧
      config.failureDomainThreshold ≤ totals.failureDomains then
    some "cross_domain_failures"
  else none

def shouldWatch (config : AdaptiveBlockConfig) (totals : WindowTotals) : Bool :=
  config.watchlistSuspiciousPathThreshold ≤ totals.suspiciousPaths ∧
    config.watchlistSuspiciousPathDomainThreshold ≤ totals.suspiciousDomains

/-! ### The blocker in memory -/

structure AdaptiveBlockSnapshot where
  ip : IpAddr
  reason : Text
  blockedAtUnixMs : ℕ
  expiresAtUnixMs : ℕ
  requests : ℕ := 0
  domains : ℕ := 0
  failures : ℕ := 0
  failureDomains : ℕ := 0
  suspiciousPaths : ℕ := 0
  suspiciousDomains : ℕ := 0
  sampleDomains : List Text := []
deriving DecidableEq, Repr

structure SuspiciousIpWatchlistEntry where
  ip : IpAddr
  reason : Text
  firstSeenUnixMs : ℕ
  lastSeenUnixMs : ℕ
  expiresAtUnixMs : ℕ
  requests : ℕ
  domains : ℕ
  failures : ℕ
  failureDomains : ℕ
  suspiciousPaths : ℕ
  suspiciousDomains : ℕ
  sampleDomains : List Text
  samplePaths : List Text
deriving DecidableEq, Repr

structure AdaptiveBlocker extends AdaptiveBlockConfig where
  windows : Map IpAddr IpWindow := ∅
  blocks : Map IpAddr AdaptiveBlockSnapshot := ∅
  watchlist : Map IpAddr SuspiciousIpWatchlistEntry := ∅
  lastEviction : ℕ := 0
  lastSnapshot : ℕ := 0

namespace AdaptiveBlocker

def isExempt (a : AdaptiveBlocker) (ip : IpAddr) : Bool :=
  a.exemptCidrs.any fun network => network.contains ip

def check (a : AdaptiveBlocker) (nowMs : ℕ) (ip : IpAddr) :
    Option SecurityDecision × AdaptiveBlocker :=
  if ¬ a.enabled ∨ a.isExempt ip then (none, a)
  else
    match a.blocks.lookup ip with
    | some block =>
      if nowMs < block.expiresAtUnixMs then (some (.blocked "adaptive_ip_block"), a)
      else (none, { a with blocks := a.blocks.erase ip })
    | none => (none, a)

def Blocked (a : AdaptiveBlocker) (nowMs : ℕ) (ip : IpAddr) : Prop :=
  a.enabled = true ∧ a.isExempt ip = false ∧
    ∃ block, a.blocks.lookup ip = some block ∧ nowMs < block.expiresAtUnixMs

lemma check_eq_none {a : AdaptiveBlocker} {nowMs : ℕ} {ip : IpAddr}
    (h : (a.check nowMs ip).1 = none) : ¬ a.Blocked nowMs ip := by
  rintro ⟨henabled, hexempt, block, hblock, hlive⟩
  simp [AdaptiveBlocker.check, henabled, hexempt, hblock, hlive] at h

def evictStale (a : AdaptiveBlocker) (nowMs : ℕ) : AdaptiveBlocker :=
  let staleAfterMs := (max a.windowSeconds 1 + 300) * 1000
  { a with windows := a.windows.retain fun _ window => nowMs - window.lastSeenMs ≤ staleAfterMs }

def evictIfDue (a : AdaptiveBlocker) (now nowMs : ℕ) : AdaptiveBlocker :=
  if now - a.lastEviction < 30 * 1000000000 then a
  else
    let a := { a with lastEviction := now }.evictStale nowMs
    { a with
      blocks := a.blocks.retain fun _ block => nowMs < block.expiresAtUnixMs
      watchlist := a.watchlist.retain fun _ entry => nowMs < entry.expiresAtUnixMs }

def full (a : AdaptiveBlocker) : Bool := a.maxTrackedIps ≤ a.windows.entries.length

def window (a : AdaptiveBlocker) (ip : IpAddr) : IpWindow := (a.windows.lookup ip).getD {}

end AdaptiveBlocker

/-! ### The blocker with its files -/

inductive PersistSite where
  | dueBlocks | dueWatchlist | check | watch | block | unblock | unwatch
deriving DecidableEq, Repr

structure Readings where
  /-- the monotonic clock in `evict_if_due` -/
  evictionAt : ℕ := 0
  /-- the monotonic clock in `persist_if_due` -/
  snapshotAt : ℕ := 0
  /-- the wall clock in `check`, or where the blocks are loaded -/
  nowMs : ℕ := 0
  /-- the wall clock where the watchlist is loaded -/
  watchlistMs : ℕ := nowMs
  /-- the wall clock where a file is written -/
  persistMs : PersistSite → ℕ := fun _ => nowMs
  /-- whether the file was written -/
  written : PersistSite → Bool := fun _ => true
  /-- the order in which a set of texts iterates -/
  iter : Finset Text → List Text := fun set => set.sort (· ≤ ·)

structure PersistentBlocker where
  blocker : AdaptiveBlocker
  blocksFile : Option (List AdaptiveBlockSnapshot) := none
  watchlistFile : Option (List SuspiciousIpWatchlistEntry) := none

namespace PersistentBlocker

variable (r : Readings) (p : PersistentBlocker)

def persistSnapshot (site : PersistSite) : PersistentBlocker :=
  if r.written site then
    { p with
      blocksFile := some <| (p.blocker.blocks.entries.map fun e => e.2).filter fun block =>
        decide (r.persistMs site < block.expiresAtUnixMs) }
  else p

def persistWatchlistSnapshot (site : PersistSite) : PersistentBlocker :=
  if r.written site then
    { p with
      watchlistFile := some <| (p.blocker.watchlist.entries.map fun e => e.2).filter fun entry =>
        decide (r.persistMs site < entry.expiresAtUnixMs) }
  else p

def check (ip : IpAddr) : Option SecurityDecision × PersistentBlocker :=
  if ¬ p.blocker.enabled ∨ p.blocker.isExempt ip then (none, p)
  else
    match p.blocker.blocks.lookup ip with
    | some block =>
      if r.nowMs < block.expiresAtUnixMs then (some (.blocked "adaptive_ip_block"), p)
      else
        let p := { p with blocker := { p.blocker with blocks := p.blocker.blocks.erase ip } }
        (none, p.persistSnapshot r .check)
    | none => (none, p)

def persistIfDue : PersistentBlocker :=
  if r.snapshotAt - p.blocker.lastSnapshot < 30 * 1000000000 then p
  else
    let p := { p with blocker := { p.blocker with lastSnapshot := r.snapshotAt } }
    (p.persistSnapshot r .dueBlocks).persistWatchlistSnapshot r .dueWatchlist

def watchEntry (a : AdaptiveBlocker) (ip : IpAddr) (reason : Text) (totals : WindowTotals)
    (nowMs : ℕ) : SuspiciousIpWatchlistEntry where
  ip := ip
  reason := reason
  firstSeenUnixMs :=
    ((a.watchlist.lookup ip).map fun existing => existing.firstSeenUnixMs).getD nowMs
  lastSeenUnixMs := nowMs
  expiresAtUnixMs := nowMs + max a.watchlistTtlSeconds 60 * 1000
  requests := totals.requests
  domains := totals.domains
  failures := totals.failures
  failureDomains := totals.failureDomains
  suspiciousPaths := totals.suspiciousPaths
  suspiciousDomains := totals.suspiciousDomains
  sampleDomains := totals.sampleDomains
  samplePaths := totals.samplePaths

def watchIp (ip : IpAddr) (reason : Text) (totals : WindowTotals) (nowMs : ℕ) :
    PersistentBlocker :=
  let entry := watchEntry p.blocker ip reason totals nowMs
  let isNew := (p.blocker.watchlist.lookup ip).isNone
  let p := { p with
    blocker := { p.blocker with watchlist := p.blocker.watchlist.insert ip entry } }
  if isNew then p.persistWatchlistSnapshot r .watch else p

def blockOf (config : AdaptiveBlockConfig) (ip : IpAddr) (reason : Text) (totals : WindowTotals)
    (nowMs : ℕ) : AdaptiveBlockSnapshot where
  ip := ip
  reason := reason
  blockedAtUnixMs := nowMs
  expiresAtUnixMs := nowMs + max config.blockSeconds 1 * 1000
  requests := totals.requests
  domains := totals.domains
  failures := totals.failures
  failureDomains := totals.failureDomains
  suspiciousPaths := totals.suspiciousPaths
  suspiciousDomains := totals.suspiciousDomains
  sampleDomains := totals.sampleDomains

def blockIp (ip : IpAddr) (reason : Text) (totals : WindowTotals) (nowMs : ℕ) :
    AdaptiveBlockSnapshot × PersistentBlocker :=
  let block := blockOf p.blocker.toAdaptiveBlockConfig ip reason totals nowMs
  let p := { p with blocker := { p.blocker with blocks := p.blocker.blocks.insert ip block } }
  (block, p.persistSnapshot r .block)

def track (event : RequestObservationInput) :
    Option AdaptiveBlockSnapshot × PersistentBlocker :=
  let config := p.blocker.toAdaptiveBlockConfig
  let window := (p.blocker.window event.ip).observe config event
  let p := { p with
    blocker := { p.blocker with windows := p.blocker.windows.insert event.ip window } }
  let totals := windowTotals r.iter window.buckets
  let p :=
    if shouldWatch config totals then
      p.watchIp r event.ip "suspicious_path_watch" totals event.timestampUnixMs
    else p
  match triggerReason config totals with
  | some reason =>
    let (block, p) := p.blockIp r event.ip reason totals event.timestampUnixMs
    (some block, p)
  | none => (none, p)

def makeRoom (event : RequestObservationInput) : PersistentBlocker :=
  if p.blocker.full ∧ event.ip ∉ p.blocker.windows then
    { p with blocker := p.blocker.evictStale event.timestampUnixMs }
  else p

def prepare (event : RequestObservationInput) : PersistentBlocker :=
  ({ p with blocker := p.blocker.evictIfDue r.evictionAt event.timestampUnixMs }).persistIfDue r

def record (event : RequestObservationInput) :
    Option AdaptiveBlockSnapshot × PersistentBlocker :=
  if ¬ p.blocker.enabled ∨ p.blocker.isExempt event.ip then (none, p)
  else
    match (p.prepare r event).check r event.ip with
    | (some _, p) => (none, p)
    | (none, p) =>
      let p := p.makeRoom event
      if p.blocker.full ∧ event.ip ∉ p.blocker.windows then (none, p)
      else p.track r event

def unblock (ip : IpAddr) : Bool × PersistentBlocker :=
  let removed := (p.blocker.blocks.lookup ip).isSome
  let p := { p with blocker := { p.blocker with blocks := p.blocker.blocks.erase ip } }
  (removed, if removed then p.persistSnapshot r .unblock else p)

def unwatch (ip : IpAddr) : Bool × PersistentBlocker :=
  let removed := (p.blocker.watchlist.lookup ip).isSome
  let p := { p with blocker := { p.blocker with watchlist := p.blocker.watchlist.erase ip } }
  (removed, if removed then p.persistWatchlistSnapshot r .unwatch else p)

/-! ### Construction -/

def loadSnapshot (nowMs : ℕ) (file : Option (List AdaptiveBlockSnapshot)) (a : AdaptiveBlocker) :
    AdaptiveBlocker :=
  { a with
    blocks := a.blocks.insertAll
      (fun block => decide (nowMs < block.expiresAtUnixMs) && !a.isExempt block.ip)
      AdaptiveBlockSnapshot.ip (file.getD []) }

def loadWatchlistSnapshot (nowMs : ℕ) (file : Option (List SuspiciousIpWatchlistEntry))
    (a : AdaptiveBlocker) : AdaptiveBlocker :=
  { a with
    watchlist := a.watchlist.insertAll
      (fun entry => decide (nowMs < entry.expiresAtUnixMs) && !a.isExempt entry.ip)
      SuspiciousIpWatchlistEntry.ip (file.getD []) }

def new (r : Readings) (config : AdaptiveBlockConfig)
    (blocksFile : Option (List AdaptiveBlockSnapshot))
    (watchlistFile : Option (List SuspiciousIpWatchlistEntry)) : PersistentBlocker where
  blocker :=
    loadWatchlistSnapshot r.watchlistMs watchlistFile <|
      loadSnapshot r.nowMs blocksFile
        { config with lastEviction := r.evictionAt, lastSnapshot := r.snapshotAt }
  blocksFile := blocksFile
  watchlistFile := watchlistFile

end PersistentBlocker

end PxxlEdge
