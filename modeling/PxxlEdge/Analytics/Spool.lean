import PxxlEdge.Lib.Rows
import PxxlEdge.Lib.Files
import PxxlEdge.Lib.Run

/-!
The spool of analytics events that found the queue full.

`append` writes an event as a row of a file that it opens once and keeps open.
The writer of the analytics database replays the files of the directory: it reads
a file, inserts its events and removes it.  The two share nothing but the files.
-/

namespace PxxlEdge

open RustStd Rows Files List

variable {ε : Type}

/-! ### Steps -/

inductive ReplayPass where
  /-- Some files are left to replay; there are none between two passes. -/
  | files (rest : List Text)
  /-- A file has been read. -/
  | parsed (path contents : Text) (rest : List Text)
  /-- Its events have been inserted, or there were none. -/
  | removing (path contents : Text) (rest : List Text)
deriving DecidableEq, Repr

structure OverflowSpool (ε : Type) where
  dir : Dir := .empty
  /-- The open file. -/
  file : Option ℕ := none
  /-- The event of the call that has the lock, and what is left of its row. -/
  appending : Option (ε × Text) := none
  pass : ReplayPass := .files []
  /-- The batches that `insert_requests` accepted. -/
  accepted : List (List ε) := []
  /-- The events whose `append` returned `Ok`. -/
  returned : List ε := []

def clickhouseSpoolReplayMaxFiles : ℕ := 16

def overflowFilename (pid day : ℕ) : Text :=
  "analytics-overflow-" ++ Nat.toDigits 10 pid ++ "-" ++ Nat.toDigits 10 day ++
    ".jsonl"

def replayFiles (dir : Dir) : List Text :=
  ((dir.names.keys.filter fun name => Text.endsWith name ".jsonl" && decide (6 < name.length))
    |>.insertionSort fun s t => Text.isLe s t = true).take clickhouseSpoolReplayMaxFiles

inductive SpoolAct (ε : Type) where
  /-- A call of `append` gets the lock, on some day. -/
  | lock (event : ε) (day : ℕ)
  /-- Some characters of the row are written. -/
  | write (count : ℕ)
  /-- `append` returns `Ok`. -/
  | done
  /-- A write fails, and with it `append`. -/
  | fail
  /-- A pass lists the directory. -/
  | list
  /-- A pass reads the next file. -/
  | read (ok : Bool)
  /-- A pass inserts the events that it has read. -/
  | insert (ok : Bool)
  /-- A pass removes the file. -/
  | remove (ok : Bool)

namespace OverflowSpool

variable (c : Codec ε) (pid : ℕ) (s : OverflowSpool ε)

def lock (event : ε) (day : ℕ) : OverflowSpool ε :=
  match s.appending, s.file with
  | some _, _ => s
  | none, some _ => { s with appending := some (event, c.row event) }
  | none, none =>
    let (i, dir) := s.dir.openAppend (overflowFilename pid day)
    { s with dir, file := some i, appending := some (event, c.row event) }

def write (count : ℕ) : OverflowSpool ε :=
  match s.appending, s.file with
  | some (event, rest), some i =>
    { s with dir := s.dir.append i (rest.take count), appending := some (event, rest.drop count) }
  | _, _ => s

def done : OverflowSpool ε :=
  match s.appending with
  | some (event, []) => { s with appending := none, returned := s.returned ++ [event] }
  | _ => s

def list : OverflowSpool ε :=
  match s.pass with
  | .files [] => { s with pass := .files (replayFiles s.dir) }
  | _ => s

def read (ok : Bool) : OverflowSpool ε :=
  match s.pass with
  | .files (path :: rest) =>
    match if ok then s.dir.read path else none with
    | some contents => { s with pass := .parsed path contents rest }
    | none => { s with pass := .files rest }
  | _ => s

def insert (ok : Bool) : OverflowSpool ε :=
  match s.pass with
  | .parsed path contents rest =>
    if (c.parse contents).isEmpty then { s with pass := .removing path contents rest }
    else if ok then
      { s with
        accepted := s.accepted ++ [c.parse contents]
        pass := .removing path contents rest }
    else { s with pass := .files [] }
  | _ => s

def remove (ok : Bool) : OverflowSpool ε :=
  match s.pass with
  | .removing path _ rest =>
    { s with dir := if ok then s.dir.remove path else s.dir, pass := .files rest }
  | _ => s

def step (s : OverflowSpool ε) : SpoolAct ε → OverflowSpool ε
  | .lock event day => s.lock c pid event day
  | .write count => s.write count
  | .done => s.done
  | .fail => { s with appending := none }
  | .list => s.list
  | .read ok => s.read ok
  | .insert ok => s.insert c ok
  | .remove ok => s.remove ok

def Keeps (e : ε) : Prop :=
  (∃ name t, s.dir.read name = some t ∧ e ∈ c.parse t) ∨ ∃ batch ∈ s.accepted, e ∈ batch

def Careful (s : OverflowSpool ε) : SpoolAct ε → Prop
  | .lock _ _ => ∀ i, s.file = some i → s.dir.Listed i
  | .fail => ∀ e rest, s.appending = some (e, rest) → rest = c.row e ∨ rest = []
  | .remove true => ∀ path contents rest, s.pass = .removing path contents rest →
      (∀ t, s.dir.read path = some t → t = contents) ∧
        (s.appending.isSome = true → s.file ≠ s.dir.names.lookup path)
  | _ => True

structure Fresh : Prop where
  ended : ∀ t ∈ s.dir.files, Ended t
  file : s.file = none
  appending : s.appending = none
  pass : s.pass = .files []
  returned : s.returned = []

/-! ### What careful steps keep -/

structure Inv : Prop where
  ended : ∀ i t, s.dir.files[i]? = some t → s.appending = none ∨ s.file ≠ some i → Ended t
  underway : ∀ e rest, s.appending = some (e, rest) → ∃ i pre part, s.file = some i ∧
    s.dir.Listed i ∧ s.dir.files[i]? = some (pre ++ part) ∧ Ended pre ∧ part ++ rest = c.row e
  replayed : ∀ path contents rest, s.pass = .removing path contents rest →
    c.parse contents = [] ∨ c.parse contents ∈ s.accepted
  kept : ∀ e ∈ s.returned, (∃ name t, s.dir.read name = some t ∧ c.HasRow t e) ∨
    ∃ batch ∈ s.accepted, e ∈ batch

variable {c pid s}

lemma Fresh.inv (h : s.Fresh) : s.Inv c where
  ended i t ht _ := h.ended t (mem_of_getElem? ht)
  underway e rest he := by
    rw [h.appending] at he
    cases he
  replayed path contents rest hpass := by
    rw [h.pass] at hpass
    cases hpass
  kept e he := by
    rw [h.returned] at he
    cases he

lemma Inv.keeps (h : s.Inv c) {e : ε} (he : e ∈ s.returned) : s.Keeps c e := by
  rcases h.kept e he with ⟨name, t, ht, hrow⟩ | haccepted
  · exact .inl ⟨name, t, ht, Codec.mem_parse hrow⟩
  · exact .inr haccepted

lemma Inv.start (h : s.Inv c) {i : ℕ} {event : ε} (hidle : s.appending = none)
    (hfile : s.file = some i) (hlisted : s.dir.Listed i) :
    ({ s with appending := some (event, c.row event) } : OverflowSpool ε).Inv c where
  ended j t ht _ := h.ended j t ht (.inl hidle)
  underway e rest he := by
    obtain ⟨rfl, rfl⟩ := Prod.mk.inj (Option.some.inj he)
    obtain ⟨t, ht⟩ := Dir.exists_of_listed hlisted
    refine ⟨i, t, [], hfile, hlisted, ?_, h.ended i t ht (.inl hidle), rfl⟩
    rw [append_nil]
    exact ht
  replayed := h.replayed
  kept := h.kept

lemma Inv.opened (h : s.Inv c) (hidle : s.appending = none) (name : Text) :
    ({ s with
      dir := (s.dir.openAppend name).2
      file := some (s.dir.openAppend name).1 } : OverflowSpool ε).Inv c where
  ended i t ht _ := by
    rcases Dir.files_openAppend ht with hold | rfl
    · exact h.ended i t hold (.inl hidle)
    · exact .inl rfl
  underway e rest he := by
    rw [show s.appending = some (e, rest) from he] at hidle
    cases hidle
  replayed := h.replayed
  kept e he := by
    rcases h.kept e he with ⟨n, t, ht, hrow⟩ | haccepted
    · exact .inl ⟨n, t, Dir.read_openAppend ht, hrow⟩
    · exact .inr haccepted

lemma Inv.lock (h : s.Inv c) {event : ε} {day : ℕ} (hcareful : s.Careful c (.lock event day)) :
    (s.lock c pid event day).Inv c := by
  rw [OverflowSpool.lock]
  split
  · exact h
  · next i hidle hfile => exact h.start hidle hfile (hcareful i hfile)
  · next hidle _ =>
    have hopened := h.opened hidle (overflowFilename pid day)
    exact hopened.start hidle rfl (Dir.listed_openAppend _)

lemma Inv.write (h : s.Inv c) (count : ℕ) : (s.write count).Inv c := by
  rw [OverflowSpool.write]
  split
  · next event rest i happending hfile =>
    obtain ⟨i', pre, part, hi', hlisted, hcontents, hpre, hrow⟩ := h.underway _ _ happending
    obtain rfl : i = i' := Option.some.inj (hfile.symm.trans hi')
    refine ⟨fun j t ht hj => ?_, fun e rest' he => ?_, h.replayed, fun e he => ?_⟩
    · -- only the open file is written to, and its row is under way
      have hne : i ≠ j := by
        rcases hj with hj | hj
        · cases hj
        · exact fun heq => hj (heq ▸ hfile)
      rw [Dir.files_append, if_neg hne] at ht
      exact h.ended j t ht (.inr fun hj' => hne (Option.some.inj (hfile.symm.trans hj')))
    · obtain ⟨rfl, rfl⟩ := Prod.mk.inj (Option.some.inj he)
      refine ⟨i, pre, part ++ rest.take count, hfile, hlisted, ?_, hpre, ?_⟩
      · rw [Dir.files_append, if_pos rfl, hcontents, Option.map_some, append_assoc]
      · rw [append_assoc, take_append_drop, hrow]
    · rcases h.kept e he with ⟨name, t, ht, hrow'⟩ | haccepted
      · obtain ⟨v, hv⟩ := Dir.read_append i (rest.take count) ht
        exact .inl ⟨name, t ++ v, hv, hrow'.append v⟩
      · exact .inr haccepted
  · exact h

lemma Inv.ended_of_underway (h : s.Inv c) {e : ε} {rest : Text}
    (happending : s.appending = some (e, rest)) (hrest : rest = c.row e ∨ rest = [])
    {i : ℕ} {t : Text} (ht : s.dir.files[i]? = some t) : Ended t := by
  obtain ⟨i', pre, part, hfile, -, hcontents, hpre, hrow⟩ := h.underway _ _ happending
  by_cases hi : i = i'
  · subst hi
    obtain rfl := Option.some.inj (ht.symm.trans hcontents)
    rcases hrest with rfl | rfl
    · rw [append_left_eq_self] at hrow
      rw [hrow, append_nil]
      exact hpre
    · rw [append_nil] at hrow
      rw [hrow]
      exact ended_append
  · exact h.ended i t ht (.inr fun hi' => hi (Option.some.inj (hi'.symm.trans hfile)))

lemma Inv.done (h : s.Inv c) : s.done.Inv c := by
  rw [OverflowSpool.done]
  split
  · next event happending =>
    refine ⟨fun i t ht _ => h.ended_of_underway happending (.inr rfl) ht, nofun, h.replayed, ?_⟩
    intro e he
    rcases mem_append.mp he with he | he
    · exact h.kept e he
    · obtain rfl := mem_singleton.mp he
      obtain ⟨i, pre, part, -, ⟨name, hname⟩, hcontents, hpre, hrow⟩ :=
        h.underway _ _ happending
      rw [append_nil] at hrow
      refine .inl ⟨name, pre ++ part, ?_, hrow ▸ Codec.hasRow_of_ended hpre e⟩
      rw [Dir.read, hname, Option.bind_some, hcontents]
  · exact h

lemma Inv.fail (h : s.Inv c) (hcareful : s.Careful c .fail) :
    ({ s with appending := none } : OverflowSpool ε).Inv c where
  ended i t ht _ := by
    cases happending : s.appending with
    | none => exact h.ended i t ht (.inl happending)
    | some a => exact h.ended_of_underway happending (hcareful a.1 a.2 happending) ht
  underway := nofun
  replayed := h.replayed
  kept := h.kept

lemma Inv.withPass (h : s.Inv c) {pass : ReplayPass}
    (hpass : ∀ path contents rest, pass ≠ .removing path contents rest) :
    ({ s with pass } : OverflowSpool ε).Inv c :=
  ⟨h.ended, h.underway, fun path contents rest heq => absurd heq (hpass path contents rest), h.kept⟩

lemma Inv.list (h : s.Inv c) : s.list.Inv c := by
  rw [OverflowSpool.list]
  split
  · exact h.withPass nofun
  · exact h

lemma Inv.read (h : s.Inv c) (ok : Bool) : (s.read ok).Inv c := by
  rw [OverflowSpool.read]
  split
  · split <;> exact h.withPass nofun
  · exact h

lemma Inv.insert (h : s.Inv c) (ok : Bool) : (s.insert c ok).Inv c := by
  rw [OverflowSpool.insert]
  split
  · split
    · next hempty =>
      refine ⟨h.ended, h.underway, fun path contents rest heq => ?_, h.kept⟩
      obtain ⟨-, rfl, -⟩ := ReplayPass.removing.inj heq
      exact .inl (List.isEmpty_iff.mp hempty)
    · split
      · refine ⟨h.ended, h.underway, fun path contents rest heq => ?_, fun e he => ?_⟩
        · obtain ⟨-, rfl, -⟩ := ReplayPass.removing.inj heq
          exact .inr (mem_append_right _ (mem_singleton_self _))
        · rcases h.kept e he with hfile | ⟨batch, hbatch, he⟩
          · exact .inl hfile
          · exact .inr ⟨batch, mem_append_left _ hbatch, he⟩
      · exact h.withPass nofun
  · exact h

lemma Inv.removed (h : s.Inv c) {path contents : Text} {rest : List Text}
    (hpass : s.pass = .removing path contents rest) (hcareful : s.Careful c (.remove true)) :
    ({ s with dir := s.dir.remove path, pass := .files rest } : OverflowSpool ε).Inv c := by
  obtain ⟨hsame, hother⟩ := hcareful path contents rest hpass
  refine ⟨h.ended, fun e rest' he => ?_, nofun, fun e he => ?_⟩
  · obtain ⟨i, pre, part, hfile, hlisted, hrow⟩ := h.underway e rest' he
    have hne : s.dir.names.lookup path ≠ some i := fun heq =>
      hother (Option.isSome_iff_exists.mpr ⟨_, he⟩) (hfile.trans heq.symm)
    exact ⟨i, pre, part, hfile, hlisted.remove hne, hrow⟩
  · rcases h.kept e he with ⟨name, t, ht, hrow⟩ | haccepted
    · by_cases hname : name = path
      · subst hname
        obtain rfl := hsame t ht
        have hmem := Codec.mem_parse hrow
        rcases h.replayed _ _ _ hpass with hnone | haccepted
        · rw [hnone] at hmem
          cases hmem
        · exact .inr ⟨_, haccepted, hmem⟩
      · exact .inl ⟨name, t, (Dir.read_remove hname).trans ht, hrow⟩
    · exact .inr haccepted

lemma Inv.remove (h : s.Inv c) {ok : Bool} (hcareful : s.Careful c (.remove ok)) :
    (s.remove ok).Inv c := by
  rw [OverflowSpool.remove]
  split
  · next hpass =>
    cases ok with
    | true => exact h.removed hpass hcareful
    | false => exact h.withPass nofun
  · exact h

lemma Inv.step (h : s.Inv c) {act : SpoolAct ε} (hcareful : s.Careful c act) :
    (s.step c pid act).Inv c := by
  cases act with
  | lock event day => exact h.lock hcareful
  | write count => exact h.write count
  | done => exact h.done
  | fail => exact h.fail hcareful
  | list => exact h.list
  | read ok => exact h.read ok
  | insert ok => exact h.insert ok
  | remove ok => exact h.remove hcareful

end OverflowSpool

/-- **In a run of careful steps, every event whose `append` returned is at every later moment
in a file of the directory, or was inserted**: from any spool that has not been used, with
any failures of reading, inserting and removing. -/
theorem spooled_events_kept (c : Codec ε) (pid : ℕ) {s : OverflowSpool ε} (hs : s.Fresh)
    {acts : List (SpoolAct ε)}
    (h : Run.Along (OverflowSpool.step c pid) (OverflowSpool.Careful c) s acts) (n : ℕ) :
    ∀ e ∈ (Run.run (OverflowSpool.step c pid) s (acts.take n)).returned,
      (Run.run (OverflowSpool.step c pid) s (acts.take n)).Keeps c e := by
  rw [← take_append_drop n acts, Run.along_append] at h
  have hinv := h.1.invariant (fun s : OverflowSpool ε => s.Inv c)
    (fun s act hinv hcareful => hinv.step hcareful) hs.inv
  exact fun e he => hinv.keeps he

def eventCodec : Codec Bool where
  encode e := if e then "\x7b\"id\":1\x7d" else "\x7b\"id\":0\x7d"
  decode t :=
    if t = "\x7b\"id\":1\x7d" then some true
    else if t = "\x7b\"id\":0\x7d" then some false else none
  decode_encode := by decide
  not_mem_encode := by decide
  trim_encode := by decide
  getLast_encode := by decide

def writtenAndReplayed : List (SpoolAct Bool) :=
  [.lock true 20000, .write 5, .write 4, .done, .list, .read true, .insert true, .remove true]

lemma fresh_default : ({} : OverflowSpool Bool).Fresh where
  ended := nofun
  file := rfl
  appending := rfl
  pass := rfl
  returned := rfl

lemma careful_writtenAndReplayed :
    Run.Along (OverflowSpool.step eventCodec 1) (OverflowSpool.Careful eventCodec) {}
      writtenAndReplayed := by
  refine ⟨nofun, trivial, trivial, trivial, trivial, trivial, trivial, ?_, trivial⟩
  intro path contents rest hpass
  have hremoving : (Run.run (OverflowSpool.step eventCodec 1) {}
      (writtenAndReplayed.take 7)).pass =
        .removing (overflowFilename 1 20000) (eventCodec.row true) [] := by
    decide
  have hread : (Run.run (OverflowSpool.step eventCodec 1) {}
      (writtenAndReplayed.take 7)).dir.read (overflowFilename 1 20000) =
        some (eventCodec.row true) := by
    decide
  obtain ⟨rfl, rfl, -⟩ := ReplayPass.removing.inj (hremoving.symm.trans hpass)
  exact ⟨fun t ht => Option.some.inj (ht.symm.trans hread), nofun⟩

/-- Nothing is lost up to the removal of the file. -/
theorem spooled_events_kept_sample :
    true ∈ (Run.run (OverflowSpool.step eventCodec 1) {} writtenAndReplayed).returned ∧
      (Run.run (OverflowSpool.step eventCodec 1) {} writtenAndReplayed).Keeps eventCodec
        true := by
  have hreturned : true ∈
      (Run.run (OverflowSpool.step eventCodec 1) {} writtenAndReplayed).returned := by
    decide
  exact ⟨hreturned, spooled_events_kept eventCodec 1 fresh_default careful_writtenAndReplayed
    writtenAndReplayed.length true hreturned⟩

def writtenAfterReplay : List (SpoolAct Bool) :=
  writtenAndReplayed ++ [.lock false 20000, .write 9, .done]

/-- After a replay, `append` writes to the file that was removed: its event is nowhere. -/
theorem replayed_file_swallows :
    false ∈ (Run.run (OverflowSpool.step eventCodec 1) {} writtenAfterReplay).returned ∧
      ¬ (Run.run (OverflowSpool.step eventCodec 1) {} writtenAfterReplay).Keeps eventCodec
        false := by
  have hnames : (Run.run (OverflowSpool.step eventCodec 1) {}
      writtenAfterReplay).dir.names.entries = [] := by
    decide
  have haccepted : ∀ batch ∈ (Run.run (OverflowSpool.step eventCodec 1) {}
      writtenAfterReplay).accepted, false ∉ batch := by
    decide
  refine ⟨by decide, ?_⟩
  rintro (⟨name, t, ht, -⟩ | ⟨batch, hbatch, he⟩)
  · rw [Dir.read, AList.lookup, hnames] at ht
    cases ht
  · exact haccepted batch hbatch he

end PxxlEdge
