import PxxlEdge.Control.Requests
import PxxlEdge.Lib.Run

/-!
The consumer of the runtime events.  It reads the Redis stream with `XREAD` from
the last entry it has seen; before it has seen one, from `$`, the end of the
stream at the time the server receives the call.  Every read that comes back
empty-handed is repeated from the same place, so as long as that place is `$` an
entry that is appended between two reads is never returned.
-/

namespace PxxlEdge

open RustStd Run List

abbrev StreamFields := Map Text (Option Text)

def StreamFields.text (fields : StreamFields) (name : Text) : Text :=
  ((fields.lookup name).join).getD []

def runtimeRouteEventFromFields (fields : StreamFields) : Option RuntimeRouteEvent :=
  some
    { eventType := fields.text "event_type"
      domain := fields.text "domain"
      path := fields.text "path"
      upstreamUrl := fields.text "upstream_url"
      runtimeServerIp := fields.text "runtime_server_ip"
      publishedPort := fields.text "published_port" }

def eventsOf (entries : List StreamFields) : List RuntimeRouteEvent :=
  entries.filterMap runtimeRouteEventFromFields

@[simp] lemma length_eventsOf (entries : List StreamFields) :
    (eventsOf entries).length = entries.length := by
  induction entries with
  | nil => rfl
  | cons entry entries ih => simp [eventsOf, runtimeRouteEventFromFields]

lemma eventsOf_append (entries entries' : List StreamFields) :
    eventsOf (entries ++ entries') = eventsOf entries ++ eventsOf entries' :=
  filterMap_append

/-! ### The consumer -/

inductive ReadPhase where
  | idle
  | issued
  | waiting (base : ℕ)
deriving DecidableEq

structure Consumer where
  stream : List StreamFields
  lastId : Option ℕ := none
  read : ReadPhase := .idle
  firstRead : Option ℕ := none
  applied : List RuntimeRouteEvent := []

def readCount : ℕ := 50

inductive StreamAction where
  | append (fields : StreamFields)
  | issue
  | receive
  | reply (count : ℕ)
  | timeout
  | fail

namespace Consumer

def step (s : Consumer) : StreamAction → Consumer
  | .append fields => { s with stream := s.stream ++ [fields] }
  | .issue =>
    match s.read with
    | .idle =>
      { s with read := .issued, firstRead := some (s.firstRead.getD s.stream.length) }
    | _ => s
  | .receive =>
    match s.read with
    | .issued => { s with read := .waiting (s.lastId.getD s.stream.length) }
    | _ => s
  | .reply count =>
    match s.read with
    | .waiting base =>
      if 0 < count ∧ count ≤ readCount ∧ base + count ≤ s.stream.length then
        { s with
          applied := s.applied ++ eventsOf ((s.stream.drop base).take count)
          lastId := some (base + count)
          read := .idle }
      else s
    | _ => s
  | .timeout =>
    match s.read with
    | .waiting base => if s.stream.length ≤ base then { s with read := .idle } else s
    | _ => s
  | .fail => { s with read := .idle }

def init (stream : List StreamFields) : Consumer := { stream }

def expected (s : Consumer) : List RuntimeRouteEvent :=
  match s.firstRead with
  | some first => eventsOf (s.stream.drop first)
  | none => []

def CanCatchUp (s : Consumer) : Prop :=
  ∃ actions : List StreamAction, (∀ a ∈ actions, ∀ fields, a ≠ .append fields) ∧
    (run step s actions).applied = s.expected

def NoGap (s : Consumer) (a : StreamAction) : Prop :=
  s.firstRead.isSome → s.lastId = none →
    match a with
    | .append _ => ∃ base, s.read = .waiting base
    | .fail => ∀ base, s.read = .waiting base → s.stream.length ≤ base
    | _ => True

def start (s : Consumer) : ℕ :=
  match s.lastId, s.read with
  | some n, _ => n
  | none, .waiting base => base
  | none, _ => s.stream.length

def gap (s : Consumer) (a : StreamAction) : ℕ :=
  if s.firstRead.isSome ∧ s.lastId = none then
    match a with
    | .append _ =>
      match s.read with
      | .waiting _ => 0
      | _ => 1
    | .fail =>
      match s.read with
      | .waiting base => s.stream.length - base
      | _ => 0
    | _ => 0
  else 0

/-! ### What every run keeps -/

def Missing (k : ℕ) (s : Consumer) : Prop :=
  match s.firstRead with
  | none => k = 0 ∧ s.lastId = none ∧ s.read = .idle ∧ s.applied = []
  | some first =>
    first + s.applied.length + k = s.start ∧ s.start ≤ s.stream.length ∧
      ∀ base, s.read = .waiting base → base = s.start

variable {s : Consumer} {a : StreamAction}

lemma gap_eq_zero_iff : s.gap a = 0 ↔ s.NoGap a := by
  simp only [gap, NoGap]
  by_cases h : s.firstRead.isSome = true ∧ s.lastId = none
  · rw [if_pos h]
    cases a <;> cases hread : s.read <;> simp [h.1, h.2, Nat.sub_eq_zero_iff_le]
  · rw [if_neg h]
    simp only [true_iff]
    intro hfirst hlast
    exact absurd ⟨hfirst, hlast⟩ h

lemma missing_init (stream : List StreamFields) : Missing 0 (init stream) :=
  ⟨rfl, rfl, rfl, rfl⟩

variable {k : ℕ}

lemma Missing.step (h : Missing k s) (a : StreamAction) :
    Missing (k + s.gap a) (s.step a) := by
  obtain ⟨stream, lastId, read, firstRead, applied⟩ := s
  cases a with
  | append fields =>
    cases lastId <;> cases read <;> cases firstRead <;>
      simp [Consumer.step, Missing, start, gap] at h ⊢ <;> omega
  | issue =>
    cases lastId <;> cases read <;> cases firstRead <;>
      simp_all [Consumer.step, Missing, start, gap]
  | receive =>
    cases lastId <;> cases read <;> cases firstRead <;>
      simp_all [Consumer.step, Missing, start, gap]
  | reply count =>
    cases read with
    | idle => simpa [Consumer.step, gap] using h
    | issued => simpa [Consumer.step, gap] using h
    | waiting base =>
      simp only [Consumer.step]
      split
      · cases lastId <;> cases firstRead <;>
          simp [Missing, start, gap] at h ⊢ <;> omega
      · simpa [gap] using h
  | timeout =>
    cases read with
    | idle => simpa [Consumer.step, gap] using h
    | issued => simpa [Consumer.step, gap] using h
    | waiting base =>
      simp only [Consumer.step]
      split
      · cases lastId <;> cases firstRead <;>
          simp [Missing, start, gap] at h ⊢ <;> omega
      · simpa [gap] using h
  | fail =>
    cases lastId <;> cases read <;> cases firstRead <;>
      simp [Consumer.step, Missing, start, gap] at h ⊢ <;> omega

variable {first : ℕ}

lemma step_of_not_append (ha : ∀ fields, a ≠ .append fields) (hfirst : s.firstRead = some first) :
    (s.step a).stream = s.stream ∧ (s.step a).firstRead = some first ∧
      ((∀ count, a ≠ .reply count) → (s.step a).applied = s.applied) := by
  obtain ⟨stream, lastId, read, firstRead, applied⟩ := s
  cases hfirst
  cases a with
  | append fields => exact absurd rfl (ha fields)
  | fail => exact ⟨rfl, rfl, fun _ => rfl⟩
  | issue => cases read <;> exact ⟨rfl, rfl, fun _ => rfl⟩
  | receive => cases read <;> exact ⟨rfl, rfl, fun _ => rfl⟩
  | reply count =>
    refine ⟨?_, ?_, fun hreply => absurd rfl (hreply count)⟩
    all_goals
      simp only [Consumer.step]
      repeat' split
      all_goals rfl
  | timeout =>
    simp only [Consumer.step]
    repeat' split
    all_goals exact ⟨rfl, rfl, fun _ => rfl⟩

def InOrder (s : Consumer) : Prop :=
  ∀ first, s.firstRead = some first →
    s.applied = eventsOf ((s.stream.drop first).take s.applied.length)

lemma InOrder.append (h : s.InOrder) (hmissing : Missing 0 s) (fields : StreamFields) :
    (s.step (.append fields)).InOrder := by
  intro first hfirst
  have hfirst' : s.firstRead = some first := hfirst
  rw [Missing, hfirst'] at hmissing
  have hlen : s.applied.length ≤ (s.stream.drop first).length := by
    rw [length_drop]
    omega
  change s.applied = eventsOf (((s.stream ++ [fields]).drop first).take s.applied.length)
  rw [drop_append_of_le_length (by omega), take_append_of_le_length hlen]
  exact h first hfirst'

lemma InOrder.reply (h : s.InOrder) (hmissing : Missing 0 s) (count : ℕ) :
    (s.step (.reply count)).InOrder := by
  cases hread : s.read with
  | idle => simpa [Consumer.step, hread] using h
  | issued => simpa [Consumer.step, hread] using h
  | waiting base =>
    simp only [Consumer.step, hread]
    split
    · next hreply =>
      intro first hfirst
      have hfirst' : s.firstRead = some first := hfirst
      rw [Missing, hfirst'] at hmissing
      obtain ⟨hcount, -, hbase⟩ := hmissing
      have hstart : first + s.applied.length = base := by
        rw [hbase base hread]
        exact hcount
      have hlen : ((s.stream.drop base).take count).length = count := by
        rw [length_take, length_drop]
        omega
      change s.applied ++ eventsOf ((s.stream.drop base).take count) =
        eventsOf ((s.stream.drop first).take (s.applied ++ eventsOf _).length)
      rw [length_append, length_eventsOf, hlen, take_add, drop_drop, hstart,
        eventsOf_append, ← h first hfirst']
    · exact h

lemma InOrder.step (h : s.InOrder) (hmissing : Missing 0 s) (a : StreamAction) :
    (s.step a).InOrder := by
  cases hfirst : s.firstRead with
  | none =>
    -- the first read is still to be issued
    obtain ⟨stream, lastId, read, firstRead, applied⟩ := s
    cases hfirst
    obtain ⟨-, rfl, rfl, rfl⟩ := hmissing
    cases a <;> simp [Consumer.step, InOrder, eventsOf]
  | some first =>
    by_cases hreply : ∃ count, a = .reply count
    · obtain ⟨count, rfl⟩ := hreply
      exact h.reply hmissing count
    by_cases happend : ∃ fields, a = .append fields
    · obtain ⟨fields, rfl⟩ := happend
      exact h.append hmissing fields
    obtain ⟨hstream, hfirst', happlied⟩ :=
      step_of_not_append (fun fields ha => happend ⟨fields, ha⟩) hfirst
    intro first' hsome
    rw [hfirst'] at hsome
    rw [hstream, happlied fun count ha => hreply ⟨count, ha⟩]
    exact h first' (hfirst.trans hsome)

def Complete (s : Consumer) : Prop := Missing 0 s ∧ s.InOrder

lemma complete_init (stream : List StreamFields) : (init stream).Complete :=
  ⟨missing_init stream, by simp [InOrder, init]⟩

lemma Complete.step (h : s.Complete) (ha : s.NoGap a) :
    (s.step a).Complete := by
  have hgap : s.gap a = 0 := gap_eq_zero_iff.2 ha
  have hmissing : Missing (0 + s.gap a) (s.step a) := h.1.step a
  rw [hgap] at hmissing
  exact ⟨hmissing, h.2.step h.1 a⟩

/-! ### What is lost stays lost -/

lemma Missing.run (h : Missing k s) (actions : List StreamAction) :
    ∃ k', k ≤ k' ∧ Missing k' (Run.run Consumer.step s actions) := by
  induction actions generalizing s k with
  | nil => exact ⟨k, le_rfl, h⟩
  | cons a actions ih =>
    obtain ⟨k', hk', hmissing⟩ := ih (h.step a)
    exact ⟨k', by omega, hmissing⟩

lemma exists_missing_of_not_along (actions : List StreamAction) (h : Missing k s)
    (hgap : ¬ Along Consumer.step NoGap s actions) :
    ∃ k', 0 < k' ∧ Missing k' (Run.run Consumer.step s actions) := by
  induction actions generalizing s k with
  | nil => exact absurd trivial hgap
  | cons a actions ih =>
    by_cases ha : s.NoGap a
    · exact ih (h.step a) fun hrest => hgap ⟨ha, hrest⟩
    · have hpos : 0 < s.gap a := Nat.pos_of_ne_zero fun h0 => ha (gap_eq_zero_iff.1 h0)
      obtain ⟨k', hk', hmissing⟩ := (h.step a).run actions
      exact ⟨k', by omega, hmissing⟩

lemma run_of_not_append (actions : List StreamAction)
    (hactions : ∀ a ∈ actions, ∀ fields, a ≠ .append fields)
    (hfirst : s.firstRead = some first) :
    (Run.run Consumer.step s actions).stream = s.stream ∧
      (Run.run Consumer.step s actions).firstRead = some first := by
  induction actions generalizing s with
  | nil => exact ⟨rfl, hfirst⟩
  | cons a actions ih =>
    rw [forall_mem_cons] at hactions
    obtain ⟨hstream, hfirst', -⟩ := step_of_not_append hactions.1 hfirst
    rw [run_cons, ← hstream]
    exact ih hactions.2 hfirst'

lemma Missing.not_canCatchUp (h : Missing k s) (hk : 0 < k) : ¬ s.CanCatchUp := by
  rintro ⟨actions, hactions, happlied⟩
  cases hfirst : s.firstRead with
  | none =>
    rw [Missing, hfirst] at h
    exact hk.ne' h.1
  | some first =>
    obtain ⟨hstream, hfirst'⟩ := run_of_not_append actions hactions hfirst
    obtain ⟨k', hk', hmissing⟩ := h.run actions
    rw [Missing, hfirst', hstream] at hmissing
    have hlen : (Run.run Consumer.step s actions).applied.length = s.stream.length - first := by
      rw [happlied, expected, hfirst, length_eventsOf, length_drop]
    omega

/-! ### Reading on -/

lemma run_issue_receive (h : Missing 0 s) (hfirst : s.firstRead = some first) :
    Run.run Consumer.step s [.issue, .receive] = { s with read := .waiting s.start } := by
  rw [Missing, hfirst] at h
  obtain ⟨-, -, hbase⟩ := h
  obtain ⟨stream, lastId, read, firstRead, applied⟩ := s
  cases hfirst
  cases read with
  | idle => cases lastId <;> rfl
  | issued => cases lastId <;> rfl
  | waiting base =>
    rw [← hbase base rfl]
    rfl

def readOn (s : Consumer) : List StreamAction :=
  [.issue, .receive, .reply (min readCount (s.stream.length - s.start))]

lemma start_readOn (h : Missing 0 s) (hfirst : s.firstRead = some first)
    (hlt : s.start < s.stream.length) :
    (Run.run Consumer.step s s.readOn).start =
      s.start + min readCount (s.stream.length - s.start) := by
  have hsplit : s.readOn =
      [.issue, .receive] ++ [.reply (min readCount (s.stream.length - s.start))] := rfl
  have hpos : 0 < readCount := by decide
  rw [hsplit, run_append, run_issue_receive h hfirst, run_cons, run_nil]
  simp only [Consumer.step]
  rw [if_pos (by omega)]
  rfl

lemma Complete.readOn (h : s.Complete) : (Run.run Consumer.step s s.readOn).Complete := by
  have halong : Along Consumer.step NoGap s s.readOn := by
    simp [Consumer.readOn, Along, NoGap]
  exact halong.invariant Complete (fun _ _ h ha => h.step ha) h

lemma Complete.canCatchUp (h : s.Complete) : s.CanCatchUp := by
  cases hfirst : s.firstRead with
  | none =>
    have hmissing := h.1
    rw [Missing, hfirst] at hmissing
    exact ⟨[], by simp, by rw [run_nil, hmissing.2.2.2, expected, hfirst]⟩
  | some first =>
    -- On the number of entries that are still to be read.
    induction hn : s.stream.length - s.start using Nat.strong_induction_on generalizing s with
    | _ n ih =>
      by_cases hlt : s.start < s.stream.length
      · have hreads : ∀ a ∈ s.readOn, ∀ fields, a ≠ .append fields := by
          simp [Consumer.readOn]
        obtain ⟨hstream, hfirst'⟩ := run_of_not_append s.readOn hreads hfirst
        have hstart := start_readOn h.1 hfirst hlt
        have hpos : 0 < readCount := by decide
        obtain ⟨actions, hactions, happlied⟩ :=
          ih _ (by rw [hstream, hstart]; omega) h.readOn hfirst' rfl
        refine ⟨s.readOn ++ actions, ?_, ?_⟩
        · intro a ha
          exact (mem_append.1 ha).elim (hreads a) (hactions a)
        · rw [run_append, happlied, expected, expected, hfirst', hfirst, hstream]
      · have happlied := h.2 first hfirst
        have hmissing := h.1
        rw [Missing, hfirst] at hmissing
        rw [take_of_length_le (by rw [length_drop]; omega)] at happlied
        exact ⟨[], by simp, by rw [run_nil, happlied, expected, hfirst]⟩

end Consumer

open Consumer in
/-- For all appends, reads, timeouts and errors: the consumer passes on every entry appended
since its first read was issued, once and in order, or still can, exactly if before it has
seen an entry nothing was appended without a read at the server, and no read failed that had
an entry to return. -/
theorem events_delivered_iff (stream : List StreamFields) (actions : List StreamAction) :
    (run step (init stream) actions).CanCatchUp ↔ Along step NoGap (init stream) actions := by
  constructor
  · intro hcatch
    by_contra hgap
    obtain ⟨k, hk, hmissing⟩ := exists_missing_of_not_along actions (missing_init stream) hgap
    exact hmissing.not_canCatchUp hk hcatch
  · intro halong
    have hcomplete : (run step (init stream) actions).Complete :=
      halong.invariant Complete (fun _ _ h ha => h.step ha) (complete_init stream)
    exact hcomplete.canCatchUp

def betweenTwoReads : List StreamAction :=
  [.issue, .receive, .timeout, .issue, .append ∅]

open Consumer in
/-- The entry is expected, and whatever the consumer reads from there on, it is not passed
on. -/
theorem event_lost :
    (run step (init []) betweenTwoReads).expected.length = 1 ∧
      ¬ (run step (init []) betweenTwoReads).CanCatchUp := by
  refine ⟨rfl, ?_⟩
  have hmissing : Missing 1 (run step (init []) betweenTwoReads) :=
    ⟨rfl, le_rfl, by rintro base ⟨⟩⟩
  exact hmissing.not_canCatchUp Nat.one_pos

end PxxlEdge
