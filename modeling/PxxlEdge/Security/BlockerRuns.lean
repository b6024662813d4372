import PxxlEdge.Security.AdaptiveBlocker
import PxxlEdge.Lib.Run

/-!
Runs of calls to the adaptive blocker.
-/

namespace PxxlEdge

open RustStd Run

/-! ### One event -/

namespace PersistentBlocker

section Counted

variable (r : Readings) (p : PersistentBlocker) (event : RequestObservationInput)

def ready : PersistentBlocker :=
  if ¬ p.blocker.enabled ∨ p.blocker.isExempt event.ip then p
  else
    match (p.prepare r event).check r event.ip with
    | (some _, q) => q
    | (none, q) => q.makeRoom event

def counts : Bool :=
  p.blocker.enabled && !p.blocker.isExempt event.ip &&
    ((p.prepare r event).check r event.ip).1.isNone &&
    !decide ((p.ready r event).blocker.full ∧ event.ip ∉ (p.ready r event).blocker.windows)

variable {r p event}

lemma record_eq : p.record r event =
    if p.counts r event then (p.ready r event).track r event else (none, p.ready r event) := by
  rw [record, counts, ready]
  by_cases hskip : ¬ p.blocker.enabled ∨ p.blocker.isExempt event.ip
  · rw [if_pos hskip, if_pos hskip, if_neg]
    rcases hskip with h | h <;> simp [h]
  · rw [if_neg hskip, if_neg hskip]
    push Not at hskip
    rcases (p.prepare r event).check r event.ip with ⟨decision, q⟩
    cases decision with
    | some decision => simp
    | none =>
      by_cases hfull : (q.makeRoom event).blocker.full ∧
          event.ip ∉ (q.makeRoom event).blocker.windows
      · simp [hfull]
      · simp [hskip, hfull]

lemma of_counts (h : p.counts r event = true) :
    p.blocker.isExempt event.ip = false ∧
      ¬ ((p.ready r event).blocker.full = true ∧ event.ip ∉ (p.ready r event).blocker.windows) := by
  simp only [counts, Bool.and_eq_true, Bool.not_eq_true', decide_eq_false_iff_not] at h
  exact ⟨h.1.1.2, h.2⟩

end Counted

end PersistentBlocker

/-! ### Maintenance -/

structure Maintains (p q : PersistentBlocker) : Prop where
  config : q.blocker.toAdaptiveBlockConfig = p.blocker.toAdaptiveBlockConfig
  windows : p.blocker.windows.Drops q.blocker.windows
  blocks : p.blocker.blocks.Drops q.blocker.blocks
  watchlist : p.blocker.watchlist.Drops q.blocker.watchlist

section Maintenance

variable {p q q' : PersistentBlocker} {r : Readings}

lemma Maintains.refl (p : PersistentBlocker) : Maintains p p :=
  ⟨rfl, .refl _, .refl _, .refl _⟩

lemma Maintains.trans (h : Maintains p q) (h' : Maintains q q') : Maintains p q' :=
  ⟨h'.config.trans h.config, h.windows.trans h'.windows, h.blocks.trans h'.blocks,
    h.watchlist.trans h'.watchlist⟩

lemma blocker_persistSnapshot (r : Readings) (p : PersistentBlocker) (site : PersistSite) :
    (p.persistSnapshot r site).blocker = p.blocker := by
  rw [PersistentBlocker.persistSnapshot]
  split <;> rfl

lemma blocker_persistWatchlistSnapshot (r : Readings) (p : PersistentBlocker)
    (site : PersistSite) : (p.persistWatchlistSnapshot r site).blocker = p.blocker := by
  rw [PersistentBlocker.persistWatchlistSnapshot]
  split <;> rfl

lemma Maintains.of_blocker_eq (h : Maintains p q) (heq : q'.blocker = q.blocker) :
    Maintains p q' :=
  ⟨heq ▸ h.config, heq ▸ h.windows, heq ▸ h.blocks, heq ▸ h.watchlist⟩

lemma maintains_evictStale (p : PersistentBlocker) (nowMs : ℕ) :
    Maintains p { p with blocker := p.blocker.evictStale nowMs } :=
  ⟨rfl, Map.drops_retain _ _, .refl _, .refl _⟩

lemma maintains_evictIfDue (p : PersistentBlocker) (now nowMs : ℕ) :
    Maintains p { p with blocker := p.blocker.evictIfDue now nowMs } := by
  rw [AdaptiveBlocker.evictIfDue]
  split
  · exact .refl p
  · exact ⟨rfl, Map.drops_retain _ _, Map.drops_retain _ _, Map.drops_retain _ _⟩

lemma maintains_persistIfDue (r : Readings) (p : PersistentBlocker) :
    Maintains p (p.persistIfDue r) := by
  rw [PersistentBlocker.persistIfDue]
  split
  · exact .refl p
  · refine Maintains.of_blocker_eq
      (q := { p with blocker := { p.blocker with lastSnapshot := r.snapshotAt } })
      ⟨rfl, .refl _, .refl _, .refl _⟩ ?_
    rw [blocker_persistWatchlistSnapshot, blocker_persistSnapshot]

lemma maintains_eraseBlock (p : PersistentBlocker) (ip : IpAddr) :
    Maintains p { p with blocker := { p.blocker with blocks := p.blocker.blocks.erase ip } } :=
  ⟨rfl, .refl _, Map.drops_erase _ _, .refl _⟩

lemma maintains_check (r : Readings) (p : PersistentBlocker) (ip : IpAddr) :
    Maintains p (p.check r ip).2 := by
  rw [PersistentBlocker.check]
  split
  · exact .refl p
  · split
    · split
      · exact .refl p
      · exact (maintains_eraseBlock p ip).of_blocker_eq (blocker_persistSnapshot r _ _)
    · exact .refl p

lemma maintains_makeRoom (p : PersistentBlocker) (event : RequestObservationInput) :
    Maintains p (p.makeRoom event) := by
  rw [PersistentBlocker.makeRoom]
  split
  · exact maintains_evictStale p _
  · exact .refl p

lemma maintains_ready (r : Readings) (p : PersistentBlocker) (event : RequestObservationInput) :
    Maintains p (p.ready r event) := by
  have hprepare : Maintains p (p.prepare r event) :=
    (maintains_evictIfDue p _ _).trans (maintains_persistIfDue r _)
  have hcheck := hprepare.trans (maintains_check r (p.prepare r event) event.ip)
  rw [PersistentBlocker.ready]
  split
  · exact .refl p
  · rcases hq : (p.prepare r event).check r event.ip with ⟨decision, q⟩
    rw [hq] at hcheck
    cases decision with
    | some decision => exact hcheck
    | none => exact hcheck.trans (maintains_makeRoom q event)

lemma maintains_unblock (r : Readings) (p : PersistentBlocker) (ip : IpAddr) :
    Maintains p (p.unblock r ip).2 := by
  refine (maintains_eraseBlock p ip).of_blocker_eq ?_
  rw [PersistentBlocker.unblock]
  dsimp only
  split
  · rw [blocker_persistSnapshot]
  · rfl

lemma maintains_unwatch (r : Readings) (p : PersistentBlocker) (ip : IpAddr) :
    Maintains p (p.unwatch r ip).2 := by
  refine Maintains.of_blocker_eq
    (q := { p with blocker := { p.blocker with watchlist := p.blocker.watchlist.erase ip } })
    ⟨rfl, .refl _, .refl _, Map.drops_erase _ _⟩ ?_
  rw [PersistentBlocker.unwatch]
  dsimp only
  split
  · rw [blocker_persistWatchlistSnapshot]
  · rfl

end Maintenance

/-! ### Counting -/

structure Tracks (event : RequestObservationInput) (p q : PersistentBlocker) : Prop where
  config : q.blocker.toAdaptiveBlockConfig = p.blocker.toAdaptiveBlockConfig
  windows : q.blocker.windows = p.blocker.windows.insert event.ip
    ((p.blocker.window event.ip).observe p.blocker.toAdaptiveBlockConfig event)
  blocks : ∀ ip ∈ q.blocker.blocks, ip = event.ip ∨ ip ∈ p.blocker.blocks
  watchlist : ∀ ip ∈ q.blocker.watchlist, ip = event.ip ∨ ip ∈ p.blocker.watchlist

lemma blocker_watchIp (r : Readings) (p : PersistentBlocker) (ip : IpAddr) (reason : Text)
    (totals : WindowTotals) (nowMs : ℕ) :
    (p.watchIp r ip reason totals nowMs).blocker =
      { p.blocker with
        watchlist := p.blocker.watchlist.insert ip
          (PersistentBlocker.watchEntry p.blocker ip reason totals nowMs) } := by
  rw [PersistentBlocker.watchIp]
  dsimp only
  split
  · rw [blocker_persistWatchlistSnapshot]
  · rfl

lemma blocker_blockIp (r : Readings) (p : PersistentBlocker) (ip : IpAddr) (reason : Text)
    (totals : WindowTotals) (nowMs : ℕ) :
    (p.blockIp r ip reason totals nowMs).2.blocker =
      { p.blocker with
        blocks := p.blocker.blocks.insert ip
          (PersistentBlocker.blockOf p.blocker.toAdaptiveBlockConfig ip reason totals nowMs) } := by
  rw [PersistentBlocker.blockIp, blocker_persistSnapshot]

lemma tracks_track (r : Readings) (p : PersistentBlocker) (event : RequestObservationInput) :
    Tracks event p (p.track r event).2 := by
  rw [PersistentBlocker.track]
  dsimp only
  set config := p.blocker.toAdaptiveBlockConfig with hconfig
  set window := (p.blocker.window event.ip).observe config event with hwindow
  set totals := windowTotals r.iter window.buckets
  set p₁ : PersistentBlocker := { p with
    blocker := { p.blocker with windows := p.blocker.windows.insert event.ip window } } with hp₁
  -- watched or not, then blocked or not
  set p₂ := if shouldWatch config totals then
      p₁.watchIp r event.ip "suspicious_path_watch" totals event.timestampUnixMs
    else p₁ with hp₂
  have hwatch : Tracks event p p₂ := by
    rw [hp₂]
    split
    · refine ⟨by rw [blocker_watchIp], by rw [blocker_watchIp], fun ip hip => .inr ?_,
        fun ip hip => ?_⟩
      · rwa [blocker_watchIp] at hip
      · rw [blocker_watchIp] at hip
        exact (AList.mem_insert _).mp hip
    · exact ⟨rfl, rfl, fun _ hip => .inr hip, fun _ hip => .inr hip⟩
  split
  · next reason _ =>
    refine ⟨by rw [blocker_blockIp]; exact hwatch.config,
      by rw [blocker_blockIp]; exact hwatch.windows, fun ip hip => ?_, fun ip hip => ?_⟩
    · rw [blocker_blockIp] at hip
      rcases (AList.mem_insert _).mp hip with heq | hip
      · exact .inl heq
      · exact hwatch.blocks ip hip
    · rw [blocker_blockIp] at hip
      exact hwatch.watchlist ip hip
  · exact hwatch

/-! ### Calls -/

inductive BlockerOp where
  | record (r : Readings) (event : RequestObservationInput)
  | check (r : Readings) (ip : IpAddr)
  | unblock (r : Readings) (ip : IpAddr)
  | unwatch (r : Readings) (ip : IpAddr)
  | restart (r : Readings)

namespace BlockerOp

def apply (p : PersistentBlocker) : BlockerOp → PersistentBlocker
  | record r event => (p.record r event).2
  | check r ip => (p.check r ip).2
  | unblock r ip => (p.unblock r ip).2
  | unwatch r ip => (p.unwatch r ip).2
  | restart r => .new r p.blocker.toAdaptiveBlockConfig p.blocksFile p.watchlistFile

lemma apply_cases (op : BlockerOp) (p : PersistentBlocker) :
    Maintains p (op.apply p) ∨
      (∃ r event, op = .record r event ∧ p.counts r event = true ∧
        Tracks event (p.ready r event) (op.apply p)) ∨
      ∃ r, op = .restart r := by
  cases op with
  | record r event =>
    rw [apply, PersistentBlocker.record_eq]
    split
    · next h => exact .inr (.inl ⟨r, event, rfl, h, tracks_track r _ event⟩)
    · exact .inl (maintains_ready r p event)
  | check r ip => exact .inl (maintains_check r p ip)
  | unblock r ip => exact .inl (maintains_unblock r p ip)
  | unwatch r ip => exact .inl (maintains_unwatch r p ip)
  | restart r => exact .inr (.inr ⟨r, rfl⟩)

end BlockerOp

/-! ### Exempt addresses and capacity -/

structure Sound (a : AdaptiveBlocker) : Prop where
  windows : ∀ ip ∈ a.windows, a.isExempt ip = false
  blocks : ∀ ip ∈ a.blocks, a.isExempt ip = false
  watchlist : ∀ ip ∈ a.watchlist, a.isExempt ip = false
  bounded : a.windows.entries.length ≤ a.maxTrackedIps

section Sound

variable {p q : PersistentBlocker}

lemma isExempt_congr {a b : AdaptiveBlocker}
    (h : b.toAdaptiveBlockConfig = a.toAdaptiveBlockConfig) (ip : IpAddr) :
    b.isExempt ip = a.isExempt ip := by
  rw [AdaptiveBlocker.isExempt, AdaptiveBlocker.isExempt, h]

lemma Sound.of_maintains (h : Sound p.blocker) (hq : Maintains p q) : Sound q.blocker := by
  have hexempt := isExempt_congr hq.config
  refine ⟨fun ip hip => ?_, fun ip hip => ?_, fun ip hip => ?_, ?_⟩
  · rw [hexempt]
    exact h.windows ip (hq.windows.mem hip)
  · rw [hexempt]
    exact h.blocks ip (hq.blocks.mem hip)
  · rw [hexempt]
    exact h.watchlist ip (hq.watchlist.mem hip)
  · calc q.blocker.windows.entries.length ≤ p.blocker.windows.entries.length :=
          hq.windows.length_le
      _ ≤ p.blocker.maxTrackedIps := h.bounded
      _ = q.blocker.maxTrackedIps := by rw [hq.config]

lemma Sound.of_tracks {event : RequestObservationInput} (h : Sound p.blocker)
    (hq : Tracks event p q) (hip : p.blocker.isExempt event.ip = false)
    (hroom : ¬ (p.blocker.full = true ∧ event.ip ∉ p.blocker.windows)) : Sound q.blocker := by
  have hexempt := isExempt_congr hq.config
  refine ⟨fun ip hmem => ?_, fun ip hmem => ?_, fun ip hmem => ?_, ?_⟩
  · rw [hexempt]
    rw [hq.windows, AList.mem_insert] at hmem
    rcases hmem with rfl | hmem
    · exact hip
    · exact h.windows ip hmem
  · rw [hexempt]
    rcases hq.blocks ip hmem with rfl | hmem
    · exact hip
    · exact h.blocks ip hmem
  · rw [hexempt]
    rcases hq.watchlist ip hmem with rfl | hmem
    · exact hip
    · exact h.watchlist ip hmem
  · have hbounded := h.bounded
    have hlength := Map.length_insert_le p.blocker.windows event.ip
      ((p.blocker.window event.ip).observe p.blocker.toAdaptiveBlockConfig event)
    rw [hq.windows, hq.config]
    split at hlength
    · omega
    · next hnew =>
      have hfull : ¬ p.blocker.maxTrackedIps ≤ p.blocker.windows.entries.length := fun hle =>
        hroom ⟨decide_eq_true hle, hnew⟩
      omega

lemma isExempt_of_mem_load {ν : Type} {a : AdaptiveBlocker} {live : ν → Bool} {key : ν → IpAddr}
    {values : List ν} {ip : IpAddr}
    (h : ip ∈ (∅ : Map IpAddr ν).insertAll (fun v => live v && !a.isExempt (key v)) key values) :
    a.isExempt ip = false := by
  rcases Map.mem_of_mem_insertAll h with hmem | ⟨v, -, hkeep, rfl⟩
  · exact absurd hmem (AList.notMem_empty ip)
  · simpa using (Bool.and_eq_true_iff.mp hkeep).2

lemma sound_new (r : Readings) (config : AdaptiveBlockConfig)
    (blocksFile : Option (List AdaptiveBlockSnapshot))
    (watchlistFile : Option (List SuspiciousIpWatchlistEntry)) :
    Sound (PersistentBlocker.new r config blocksFile watchlistFile).blocker where
  windows ip hip := absurd hip (AList.notMem_empty ip)
  blocks _ hip := isExempt_of_mem_load hip
  watchlist _ hip := isExempt_of_mem_load hip
  bounded := Nat.zero_le _

end Sound

lemma Sound.apply {p : PersistentBlocker} (h : Sound p.blocker) (op : BlockerOp) :
    Sound (op.apply p).blocker := by
  rcases op.apply_cases p with hmaintains | ⟨r, event, -, hcounts, htracks⟩ | ⟨r, rfl⟩
  · exact h.of_maintains hmaintains
  · obtain ⟨hexempt, hroom⟩ := PersistentBlocker.of_counts hcounts
    have hready := maintains_ready r p event
    refine (h.of_maintains hready).of_tracks htracks ?_ hroom
    rwa [isExempt_congr hready.config]
  · exact sound_new r _ _ _

lemma config_apply (op : BlockerOp) (p : PersistentBlocker) :
    (op.apply p).blocker.toAdaptiveBlockConfig = p.blocker.toAdaptiveBlockConfig := by
  rcases op.apply_cases p with hmaintains | ⟨r, event, -, -, htracks⟩ | ⟨r, rfl⟩
  · exact hmaintains.config
  · exact htracks.config.trans (maintains_ready r p event).config
  · rfl

/-- **Exempt addresses and capacity.**  In every run of calls, from whatever the files hold, an
exempt address is in none of the three maps and is not answered as blocked, and no more
addresses are tracked than the configuration allows. -/
theorem blocker_sound (r : Readings) (config : AdaptiveBlockConfig)
    (blocksFile : Option (List AdaptiveBlockSnapshot))
    (watchlistFile : Option (List SuspiciousIpWatchlistEntry)) (ops : List BlockerOp) :
    let p := run BlockerOp.apply (PersistentBlocker.new r config blocksFile watchlistFile) ops
    p.blocker.windows.entries.length ≤ config.maxTrackedIps ∧
      ∀ ip, (config.exemptCidrs.any fun network => network.contains ip) = true →
        ip ∉ p.blocker.windows ∧ ip ∉ p.blocker.blocks ∧ ip ∉ p.blocker.watchlist ∧
          ∀ r', (p.check r' ip).1 = none := by
  intro p
  obtain ⟨hsound, hconfig⟩ : Sound p.blocker ∧ p.blocker.toAdaptiveBlockConfig = config := by
    refine run_invariant (fun q : PersistentBlocker =>
      Sound q.blocker ∧ q.blocker.toAdaptiveBlockConfig = config) (fun q op hq => ?_) ?_ ops
    · exact ⟨hq.1.apply op, (config_apply op q).trans hq.2⟩
    · exact ⟨sound_new r config blocksFile watchlistFile, rfl⟩
  refine ⟨hconfig ▸ hsound.bounded, fun ip hip => ?_⟩
  have hexempt : p.blocker.isExempt ip = true := by
    rw [AdaptiveBlocker.isExempt, hconfig]
    exact hip
  have hnot : p.blocker.isExempt ip ≠ false := by simp [hexempt]
  refine ⟨fun h => hnot (hsound.windows ip h), fun h => hnot (hsound.blocks ip h),
    fun h => hnot (hsound.watchlist ip h), fun r' => ?_⟩
  rw [PersistentBlocker.check, if_pos (.inr hexempt)]

/-- A scan from the loopback network. -/
theorem blocker_sound_loopback :
    let p := run BlockerOp.apply (PersistentBlocker.new {} {} none none)
      [.record {} ⟨.v4 ⟨127, 0, 0, 1⟩, "a.io", "/.env", 404, 0⟩]
    .v4 ⟨127, 0, 0, 1⟩ ∉ p.blocker.windows ∧ .v4 ⟨127, 0, 0, 1⟩ ∉ p.blocker.blocks ∧
      .v4 ⟨127, 0, 0, 1⟩ ∉ p.blocker.watchlist ∧
      ∀ r', (p.check r' (.v4 ⟨127, 0, 0, 1⟩)).1 = none :=
  (blocker_sound {} {} none none _).2 _ (by decide)

/-! ### An address and its requests -/

def scannerIp : IpAddr := .v4 ⟨203, 0, 113, 10⟩

def requestAt (timestampMs : ℕ) : RequestObservationInput :=
  ⟨scannerIp, "a.io", "/", 200, timestampMs⟩

def recordOf (timestampMs nowMs : ℕ) : BlockerOp := .record { nowMs } (requestAt timestampMs)

def freshBlocker (config : AdaptiveBlockConfig) : PersistentBlocker := .new {} config none none

def strictConfig : AdaptiveBlockConfig := { requestThreshold := 2, domainThreshold := 1 }

end PxxlEdge
