import PxxlEdge.Security.BlockerRuns

/-!
The blocks in memory and the blocks in the file.

The file is written when a block enters or is taken away, and every 30 seconds; blocks that
have expired leave the memory without a write.
-/

namespace PxxlEdge

open RustStd Run

/-! ### Memory and file -/

structure Agrees (t : ℕ) (p : PersistentBlocker) : Prop where
  keyed : ∀ ip block, p.blocker.blocks.lookup ip = some block → block.ip = ip
  notExempt : ∀ ip ∈ p.blocker.blocks, p.blocker.isExempt ip = false
  distinct : ((p.blocksFile.getD []).map AdaptiveBlockSnapshot.ip).Nodup
  same : ∀ ip block, t < block.expiresAtUnixMs →
    (p.blocker.blocks.lookup ip = some block ↔
      block ∈ p.blocksFile.getD [] ∧ block.ip = ip ∧ p.blocker.isExempt ip = false)

section Agrees

variable {t : ℕ} {p q : PersistentBlocker} {r : Readings} {site : PersistSite}

lemma Agrees.congr (h : Agrees t p) (hblocks : q.blocker.blocks = p.blocker.blocks)
    (hfile : q.blocksFile = p.blocksFile)
    (hconfig : q.blocker.toAdaptiveBlockConfig = p.blocker.toAdaptiveBlockConfig) :
    Agrees t q := by
  have hexempt := isExempt_congr hconfig
  refine ⟨?_, ?_, ?_, ?_⟩
  · rw [hblocks]
    exact h.keyed
  · rw [hblocks]
    intro ip hip
    rw [hexempt]
    exact h.notExempt ip hip
  · rw [hfile]
    exact h.distinct
  · intro ip block hlive
    rw [hblocks, hfile, hexempt]
    exact h.same ip block hlive

lemma Agrees.of_drops (h : Agrees t p) (hmaintains : Maintains p q)
    (hfile : q.blocksFile = p.blocksFile)
    (hexpired : ∀ ip block, p.blocker.blocks.lookup ip = some block →
      t < block.expiresAtUnixMs → q.blocker.blocks.lookup ip = some block) :
    Agrees t q := by
  have hexempt := isExempt_congr hmaintains.config
  refine ⟨fun ip block hlookup => h.keyed ip block (hmaintains.blocks.lookup_eq hlookup),
    fun ip hip => ?_, ?_, fun ip block hlive => ?_⟩
  · rw [hexempt]
    exact h.notExempt ip (hmaintains.blocks.mem hip)
  · rw [hfile]
    exact h.distinct
  · rw [hfile, hexempt, ← h.same ip block hlive]
    exact ⟨hmaintains.blocks.lookup_eq, fun hlookup => hexpired ip block hlookup hlive⟩

lemma agrees_persistSnapshot
    (hkeyed : ∀ ip block, p.blocker.blocks.lookup ip = some block → block.ip = ip)
    (hexempt : ∀ ip ∈ p.blocker.blocks, p.blocker.isExempt ip = false)
    (hwritten : r.written site = true) (htime : r.persistMs site ≤ t) :
    Agrees t (p.persistSnapshot r site) := by
  have hentry : ∀ e ∈ p.blocker.blocks.entries, e.2.ip = e.1 := fun e he =>
    hkeyed e.1 e.2 (AList.mem_lookup_iff.mpr he)
  rw [PersistentBlocker.persistSnapshot, if_pos hwritten]
  refine ⟨hkeyed, hexempt, ?_, fun ip block hlive => ?_⟩
  · show (((p.blocker.blocks.entries.map fun e => e.2).filter fun block =>
      decide (r.persistMs site < block.expiresAtUnixMs)).map AdaptiveBlockSnapshot.ip).Nodup
    refine List.Nodup.sublist (List.filter_sublist.map _) ?_
    have hkeys : (p.blocker.blocks.entries.map fun e => e.2).map AdaptiveBlockSnapshot.ip =
        p.blocker.blocks.keys := by
      rw [List.map_map]
      exact List.map_congr_left hentry
    rw [hkeys]
    exact p.blocker.blocks.keys_nodup
  · show p.blocker.blocks.lookup ip = some block ↔
      block ∈ (p.blocker.blocks.entries.map fun e => e.2).filter (fun block =>
        decide (r.persistMs site < block.expiresAtUnixMs)) ∧ block.ip = ip ∧
          p.blocker.isExempt ip = false
    rw [List.mem_filter, List.mem_map, decide_eq_true_eq]
    constructor
    · intro hlookup
      have hmem := AList.mem_lookup_iff.mp hlookup
      refine ⟨⟨⟨_, hmem, rfl⟩, by omega⟩, hkeyed ip block hlookup, hexempt ip ?_⟩
      exact AList.lookup_isSome.mp (by rw [hlookup]; rfl)
    · rintro ⟨⟨⟨e, he, rfl⟩, -⟩, rfl, -⟩
      rw [hentry e he]
      exact AList.mem_lookup_iff.mpr he

lemma Agrees.erase (h : Agrees t p) (ip : IpAddr) (hwritten : r.written site = true)
    (htime : r.persistMs site ≤ t) :
    Agrees t (PersistentBlocker.persistSnapshot r
      { p with blocker := { p.blocker with blocks := p.blocker.blocks.erase ip } } site) := by
  have hdrops := Map.drops_erase ip p.blocker.blocks
  refine agrees_persistSnapshot (fun ip' block hlookup => ?_) (fun ip' hip' => ?_) hwritten htime
  · exact h.keyed ip' block (hdrops.lookup_eq hlookup)
  · exact h.notExempt ip' (hdrops.mem hip')

end Agrees

/-! ### Calls -/

structure Readings.Settled (t : ℕ) (r : Readings) : Prop where
  written : ∀ site, r.written site = true
  now : r.nowMs ≤ t
  persist : ∀ site, r.persistMs site ≤ t

def BlockerOp.Settled (t : ℕ) : BlockerOp → Prop
  | .record r event => r.Settled t ∧ event.timestampUnixMs ≤ t
  | .check r _ => r.Settled t
  | .unblock r _ => r.Settled t
  | .unwatch r _ => r.Settled t
  | .restart r => r.Settled t

section Calls

variable {t : ℕ} {p : PersistentBlocker} {r : Readings} {event : RequestObservationInput}

lemma Agrees.persistWatchlistSnapshot (h : Agrees t p) (r : Readings) (site : PersistSite) :
    Agrees t (p.persistWatchlistSnapshot r site) := by
  rw [PersistentBlocker.persistWatchlistSnapshot]
  split
  · exact h.congr rfl rfl rfl
  · exact h

lemma Agrees.evictIfDue (h : Agrees t p) (now : ℕ) {nowMs : ℕ} (hnow : nowMs ≤ t) :
    Agrees t { p with blocker := p.blocker.evictIfDue now nowMs } := by
  refine h.of_drops (maintains_evictIfDue p now nowMs) rfl fun ip block hlookup hlive => ?_
  rw [AdaptiveBlocker.evictIfDue]
  split
  · exact hlookup
  · show (Map.retain _ p.blocker.blocks).lookup ip = some block
    rw [Map.lookup_retain, hlookup, Option.filter_some, if_pos (by simp; omega)]

lemma Agrees.persistIfDue (h : Agrees t p) (hr : r.Settled t) : Agrees t (p.persistIfDue r) := by
  rw [PersistentBlocker.persistIfDue]
  split
  · exact h
  · refine Agrees.persistWatchlistSnapshot ?_ r _
    exact agrees_persistSnapshot h.keyed h.notExempt (hr.written _) (hr.persist _)

lemma Agrees.check (h : Agrees t p) (hr : r.Settled t) (ip : IpAddr) :
    Agrees t (p.check r ip).2 := by
  rw [PersistentBlocker.check]
  split
  · exact h
  · split
    · split
      · exact h
      · exact h.erase ip (hr.written _) (hr.persist _)
    · exact h

lemma Agrees.ready (h : Agrees t p) (hr : r.Settled t) (hevent : event.timestampUnixMs ≤ t) :
    Agrees t (p.ready r event) := by
  have hprepare : Agrees t (p.prepare r event) := (h.evictIfDue r.evictionAt hevent).persistIfDue hr
  have hcheck := hprepare.check hr event.ip
  rw [PersistentBlocker.ready]
  split
  · exact h
  · rcases hq : (p.prepare r event).check r event.ip with ⟨decision, q⟩
    rw [hq] at hcheck
    cases decision with
    | some decision => exact hcheck
    | none =>
      show Agrees t (q.makeRoom event)
      rw [PersistentBlocker.makeRoom]
      split
      · exact hcheck.congr rfl rfl rfl
      · exact hcheck

lemma Agrees.watchIp (h : Agrees t p) (r : Readings) (ip : IpAddr) (reason : Text)
    (totals : WindowTotals) (nowMs : ℕ) : Agrees t (p.watchIp r ip reason totals nowMs) := by
  rw [PersistentBlocker.watchIp]
  dsimp only
  split
  · refine Agrees.persistWatchlistSnapshot ?_ r _
    exact h.congr rfl rfl rfl
  · exact h.congr rfl rfl rfl

lemma Agrees.blockIp (h : Agrees t p) (hr : r.Settled t) {ip : IpAddr}
    (hip : p.blocker.isExempt ip = false) (reason : Text) (totals : WindowTotals) (nowMs : ℕ) :
    Agrees t (p.blockIp r ip reason totals nowMs).2 := by
  rw [PersistentBlocker.blockIp]
  refine agrees_persistSnapshot (fun ip' block hlookup => ?_) (fun ip' hip' => ?_)
    (hr.written _) (hr.persist _)
  · by_cases heq : ip' = ip
    · rw [heq, AList.lookup_insert] at hlookup
      rw [← Option.some.inj hlookup, heq]
      rfl
    · rw [AList.lookup_insert_ne heq] at hlookup
      exact h.keyed ip' block hlookup
  · rcases (AList.mem_insert _).mp hip' with rfl | hip'
    · exact hip
    · exact h.notExempt ip' hip'

lemma Agrees.track (h : Agrees t p) (hr : r.Settled t)
    (hip : p.blocker.isExempt event.ip = false) : Agrees t (p.track r event).2 := by
  rw [PersistentBlocker.track]
  dsimp only
  set config := p.blocker.toAdaptiveBlockConfig
  set window := (p.blocker.window event.ip).observe config event
  set totals := windowTotals r.iter window.buckets
  set p₁ : PersistentBlocker := { p with
    blocker := { p.blocker with windows := p.blocker.windows.insert event.ip window } }
  have hp₁ : Agrees t p₁ := h.congr rfl rfl rfl
  set p₂ := if shouldWatch config totals then
      p₁.watchIp r event.ip "suspicious_path_watch" totals event.timestampUnixMs
    else p₁ with hp₂def
  have hp₂ : Agrees t p₂ ∧ p₂.blocker.isExempt event.ip = false := by
    rw [hp₂def]
    split
    · refine ⟨hp₁.watchIp r _ _ _ _, ?_⟩
      rw [blocker_watchIp]
      exact hip
    · exact ⟨hp₁, hip⟩
  split
  · exact hp₂.1.blockIp hr hp₂.2 _ _ _
  · exact hp₂.1

lemma Agrees.unblock (h : Agrees t p) (hr : r.Settled t) (ip : IpAddr) :
    Agrees t (p.unblock r ip).2 := by
  rw [PersistentBlocker.unblock]
  dsimp only
  split
  · exact h.erase ip (hr.written _) (hr.persist _)
  · next hnone =>
    -- there was no block to take away
    refine h.of_drops (maintains_eraseBlock p ip) rfl fun ip' block hlookup _ => ?_
    have hne : ip' ≠ ip := by
      rintro rfl
      rw [hlookup] at hnone
      exact hnone rfl
    exact (AList.lookup_erase_ne hne).trans hlookup

lemma agrees_new (config : AdaptiveBlockConfig) {blocksFile : Option (List AdaptiveBlockSnapshot)}
    (watchlistFile : Option (List SuspiciousIpWatchlistEntry)) (hr : r.nowMs ≤ t)
    (hfile : ((blocksFile.getD []).map AdaptiveBlockSnapshot.ip).Nodup) :
    Agrees t (.new r config blocksFile watchlistFile) where
  keyed ip block hlookup := ((Map.lookup_insertAll_empty hfile).mp hlookup).2.2
  notExempt := (sound_new r config blocksFile watchlistFile).blocks
  distinct := hfile
  same ip block hlive := by
    refine (Map.lookup_insertAll_empty hfile).trans ?_
    rw [Bool.and_eq_true, decide_eq_true_eq, Bool.not_eq_true']
    constructor
    · rintro ⟨hmem, ⟨-, hexempt⟩, rfl⟩
      exact ⟨hmem, rfl, hexempt⟩
    · rintro ⟨hmem, rfl, hexempt⟩
      exact ⟨hmem, ⟨by omega, hexempt⟩, rfl⟩

lemma Agrees.apply (h : Agrees t p) {op : BlockerOp} (hop : op.Settled t) :
    Agrees t (op.apply p) := by
  cases op with
  | record r event =>
    have hready := h.ready hop.1 hop.2
    rw [BlockerOp.apply, PersistentBlocker.record_eq]
    split
    · next hcounts =>
      refine hready.track hop.1 ?_
      rw [isExempt_congr (maintains_ready r p event).config]
      exact (PersistentBlocker.of_counts hcounts).1
    · exact hready
  | check r ip => exact h.check hop ip
  | unblock r ip => exact h.unblock hop ip
  | unwatch r ip =>
    rw [BlockerOp.apply, PersistentBlocker.unwatch]
    dsimp only
    split
    · refine Agrees.persistWatchlistSnapshot ?_ r _
      exact h.congr rfl rfl rfl
    · exact h.congr rfl rfl rfl
  | restart r => exact agrees_new _ _ hop.now h.distinct

end Calls

/-! ### A new blocker from the file -/

lemma check_fst (r : Readings) (p : PersistentBlocker) (ip : IpAddr) :
    (p.check r ip).1 = (p.blocker.check r.nowMs ip).1 := by
  rw [PersistentBlocker.check, AdaptiveBlocker.check]
  split
  · rfl
  · split
    · split <;> rfl
    · rfl

lemma check_of_blocked {a : AdaptiveBlocker} {nowMs : ℕ} {ip : IpAddr} (h : a.Blocked nowMs ip) :
    (a.check nowMs ip).1 = some (.blocked "adaptive_ip_block") := by
  obtain ⟨henabled, hexempt, block, hblock, hlive⟩ := h
  rw [AdaptiveBlocker.check, if_neg (by simp [henabled, hexempt]), hblock]
  simp only [hlive, if_true]

lemma check_of_not_blocked {a : AdaptiveBlocker} {nowMs : ℕ} {ip : IpAddr}
    (h : ¬ a.Blocked nowMs ip) : (a.check nowMs ip).1 = none := by
  rw [AdaptiveBlocker.check]
  split
  · rfl
  · next hskip =>
    push Not at hskip
    split
    · next block hblock =>
      split
      · next hlive => exact absurd ⟨hskip.1, by simpa using hskip.2, block, hblock, hlive⟩ h
      · rfl
    · rfl

lemma blocked_iff_of_agrees {t nowMs : ℕ} {p q : PersistentBlocker} (hp : Agrees t p)
    (hq : Agrees t q) (hfile : q.blocksFile = p.blocksFile)
    (hconfig : q.blocker.toAdaptiveBlockConfig = p.blocker.toAdaptiveBlockConfig)
    (hnow : t ≤ nowMs) (ip : IpAddr) :
    q.blocker.Blocked nowMs ip ↔ p.blocker.Blocked nowMs ip := by
  have hexempt := isExempt_congr hconfig ip
  have hsame : ∀ block : AdaptiveBlockSnapshot, nowMs < block.expiresAtUnixMs →
      (q.blocker.blocks.lookup ip = some block ↔ p.blocker.blocks.lookup ip = some block) := by
    intro block hlive
    rw [hq.same ip block (by omega), hp.same ip block (by omega), hfile, hexempt]
  rw [AdaptiveBlocker.Blocked, AdaptiveBlocker.Blocked, hexempt, hconfig]
  refine and_congr_right fun _ => and_congr_right fun _ => exists_congr fun block => ?_
  exact and_congr_left fun hlive => hsame block hlive

/-- **The file is as good as the memory.**  After every run of calls whose writes succeed, a
blocker that is made from the file at a later time answers every check after that like the
blocker that has run. -/
theorem reloaded_answers_same (r₀ : Readings) (config : AdaptiveBlockConfig)
    (blocksFile : Option (List AdaptiveBlockSnapshot))
    (watchlistFile : Option (List SuspiciousIpWatchlistEntry))
    (hfile : ((blocksFile.getD []).map AdaptiveBlockSnapshot.ip).Nodup)
    (ops : List BlockerOp) (rLoad r : Readings) (hstart : r₀.nowMs ≤ rLoad.nowMs)
    (hops : ∀ op ∈ ops, op.Settled rLoad.nowMs) (hcheck : rLoad.nowMs ≤ r.nowMs) (ip : IpAddr) :
    let p := run BlockerOp.apply (PersistentBlocker.new r₀ config blocksFile watchlistFile) ops
    ((PersistentBlocker.new rLoad config p.blocksFile p.watchlistFile).check r ip).1 =
      (p.check r ip).1 := by
  intro p
  obtain ⟨hagrees, hconfig⟩ :
      Agrees rLoad.nowMs p ∧ p.blocker.toAdaptiveBlockConfig = config := by
    refine Along.invariant (along_of_forall hops) (fun q : PersistentBlocker =>
      Agrees rLoad.nowMs q ∧ q.blocker.toAdaptiveBlockConfig = config) (fun q op hq hop => ?_) ?_
    · exact ⟨hq.1.apply hop, (config_apply op q).trans hq.2⟩
    · exact ⟨agrees_new config watchlistFile hstart hfile, rfl⟩
  have hnew : Agrees rLoad.nowMs (.new rLoad config p.blocksFile p.watchlistFile) :=
    agrees_new config p.watchlistFile le_rfl hagrees.distinct
  have hblocked := blocked_iff_of_agrees hagrees hnew rfl hconfig.symm hcheck ip
  rw [check_fst, check_fst]
  by_cases h : p.blocker.Blocked r.nowMs ip
  · rw [check_of_blocked h, check_of_blocked (hblocked.mpr h)]
  · rw [check_of_not_blocked h, check_of_not_blocked (mt hblocked.mp h)]

/-- An address that is blocked is blocked after a restart. -/
theorem reloaded_answers_same_blocked :
    let p := run BlockerOp.apply (PersistentBlocker.new {} strictConfig none none)
      [recordOf 0 100, recordOf 1000 1100]
    ((PersistentBlocker.new { nowMs := 2000 } strictConfig p.blocksFile p.watchlistFile).check
      { nowMs := 3000 } scannerIp).1 = (p.check { nowMs := 3000 } scannerIp).1 ∧
    (p.check { nowMs := 3000 } scannerIp).1 = some (.blocked "adaptive_ip_block") := by
  have hsettled : ∀ timestampMs nowMs, timestampMs ≤ 2000 → nowMs ≤ 2000 →
      (recordOf timestampMs nowMs).Settled 2000 := fun _ _ htimestamp hnow =>
    ⟨⟨fun _ => rfl, hnow, fun _ => hnow⟩, htimestamp⟩
  refine ⟨reloaded_answers_same {} strictConfig none none List.nodup_nil
    [recordOf 0 100, recordOf 1000 1100] { nowMs := 2000 } { nowMs := 3000 } (by decide) ?_
      (by decide) scannerIp, by decide⟩
  intro op hop
  rcases List.mem_pair.mp hop with rfl | rfl
  · exact hsettled 0 100 (by decide) (by decide)
  · exact hsettled 1000 1100 (by decide) (by decide)

end PxxlEdge
