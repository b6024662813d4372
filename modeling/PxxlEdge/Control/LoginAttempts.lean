import PxxlEdge.Lib.Calls
import PxxlEdge.Lib.LateCount
import PxxlEdge.Control.Writes

/-!
Logins, and the limit on the failed ones of an address.

A login looks at the recorded failures of its address first.  It then reads the
body, checks the password and, if that is wrong, waits before it records the
failure.  Other logins run in between.
-/

namespace PxxlEdge

open RustStd Calls Run LateCount

/-! ### The account -/

structure AdminCrypto where
  sha256 : List UInt8 → List UInt8
  hashToken : Text → Text
  pbkdf2Sha256 : List UInt8 → List UInt8 → ℕ → ℕ → List UInt8

def AdminCrypto.constantTimeEq (crypto : AdminCrypto) (left right : List UInt8) : Bool :=
  crypto.sha256 left = crypto.sha256 right

structure PasswordHashSpec where
  iterations : ℕ
  salt : Text
  hash : List UInt8

structure AdminLoginAccount where
  email : Text
  passwordHash : PasswordHashSpec

def isAsciiControl (c : Char) : Bool := c.toNat < 32 || c.toNat == 127

def normalizeLoginEmail (email : Text) : Option Text :=
  let email := email.trim.toAsciiLowercase
  if email.len ≤ 254 ∧ '@' ∈ email ∧ ¬ email.startsWith ['@'] ∧ ¬ email.endsWith ['@'] ∧
      ¬ email.any isAsciiControl ∧ ¬ email.any (fun c => c ∈ [' ', '\t', '\n', '\x0c', '\r']) then
    some email
  else none

def PasswordHashSpec.verify (crypto : AdminCrypto) (spec : PasswordHashSpec) (password : Text) :
    Bool :=
  crypto.constantTimeEq
    (crypto.pbkdf2Sha256 password.asBytes spec.salt.asBytes spec.iterations spec.hash.length)
    spec.hash

def AdminLoginAccount.verify (crypto : AdminCrypto) (account : AdminLoginAccount)
    (email password : Text) : Bool :=
  match normalizeLoginEmail email with
  | none => false
  | some email =>
    crypto.constantTimeEq email.asBytes account.email.asBytes &&
      account.passwordHash.verify crypto password

/-! ### The windows -/

def adminLoginMaxAttempts : ℕ := 5

def adminLoginWindow : ℕ := 10 * 60 * 1000

structure LoginAttemptWindow where
  failures : ℕ
  expiresAt : ℕ
deriving DecidableEq, Repr

structure LoginStore where
  attempts : Map Text LoginAttemptWindow := ∅
  now : ℕ := 0

namespace LoginStore

def retained (store : LoginStore) : Map Text LoginAttemptWindow :=
  store.attempts.retain fun _ window => store.now < window.expiresAt

def loginAttemptsExceeded (ip : Text) (store : LoginStore) : Bool × LoginStore :=
  ((store.retained.lookup ip).any fun window => adminLoginMaxAttempts ≤ window.failures,
    { store with attempts := store.retained })

def recordFailedLoginAttempt (ip : Text) (store : LoginStore) : LoginStore :=
  let fresh : LoginAttemptWindow := ⟨0, store.now + adminLoginWindow⟩
  let window := (store.retained.lookup ip).getD fresh
  let window := if window.expiresAt ≤ store.now then fresh else window
  { store with
    attempts := store.retained.insert ip { window with failures := window.failures + 1 } }

def clearLoginAttempts (ip : Text) (store : LoginStore) : LoginStore :=
  { store with attempts := store.attempts.erase ip }

def later (store : LoginStore) (elapsed : ℕ) : LoginStore :=
  { store with now := store.now + elapsed }

end LoginStore

/-! ### Logins -/

structure LoginBody where
  email : Text
  password : Text
deriving DecidableEq, Repr

inductive ApiBodyRead (β : Type) where
  | tooLarge
  | failed (error : Text)
  | malformed (error : Text)
  | parsed (body : β)

def ApiBodyRead.toExcept {β : Type} : ApiBodyRead β → Except ApiResponse β
  | .tooLarge => .error ⟨413, some "request body is too large"⟩
  | .failed error => .error ⟨400, some error⟩
  | .malformed error => .error ⟨400, some error⟩
  | .parsed body => .ok body

lemma ApiBodyRead.toExcept_eq_ok {β : Type} {read : ApiBodyRead β} {body : β} :
    read.toExcept = .ok body ↔ read = .parsed body := by
  cases read <;> simp [ApiBodyRead.toExcept]

inductive LoginStage where
  | check
  | body
  | verify (body : LoginBody)
  | delay (wakeAt : ℕ)
  | record
  | clear
  /-- The tokens of the account are to be revoked. -/
  | rotate
  /-- A token is to be created. -/
  | create
  | done (response : ApiResponse)
  /-- The connection was closed while the login was waiting. -/
  | dropped
deriving DecidableEq, Repr

structure LoginCall where
  ip : Text
  stage : LoginStage
deriving DecidableEq, Repr

inductive LoginEvent where
  | proceed
  | read (body : ApiBodyRead LoginBody)
  | stored (answer : Except Text Unit)
  | disconnect

structure LoginAuth where
  loginAccount : Option AdminLoginAccount
  tokenStore : Bool

namespace LoginCall

def enter (auth : LoginAuth) (ip : Text) : LoginCall where
  ip := ip
  stage :=
    if auth.loginAccount.isNone then
      .done ⟨404, some "initial admin account is not configured"⟩
    else if ¬ auth.tokenStore then .done ⟨503, some "admin token store is not configured"⟩
    else .check

def afterBody (read : ApiBodyRead LoginBody) : LoginStage :=
  match read.toExcept with
  | .error response => .done response
  | .ok body => .verify body

def advance (auth : LoginAuth) (crypto : AdminCrypto) (ip : Text) (store : LoginStore) :
    LoginStage → LoginEvent → LoginStore × LoginStage
  | .check, .proceed =>
    let checked := store.loginAttemptsExceeded ip
    (checked.2, if checked.1 then .done ⟨429, some "too many failed login attempts"⟩
      else .body)
  | .body, .read read => (store, afterBody read)
  | .body, .disconnect => (store, .dropped)
  | .verify body, .proceed =>
    (store, if auth.loginAccount.any fun account =>
        account.verify crypto body.email body.password then .clear
      else .delay (store.now + 300))
  | .delay wakeAt, .proceed => (store, if wakeAt ≤ store.now then .record else .delay wakeAt)
  | .delay _, .disconnect => (store, .dropped)
  | .record, .proceed =>
    (store.recordFailedLoginAttempt ip, .done ⟨401, some "invalid email or password"⟩)
  | .clear, .proceed => (store.clearLoginAttempts ip, .rotate)
  | .rotate, .stored (.ok ()) => (store, .create)
  | .rotate, .stored (.error error) =>
    (store, .done ⟨502, some ("failed to rotate previous login token: " ++ error)⟩)
  | .rotate, .disconnect => (store, .dropped)
  | .create, .stored (.ok ()) => (store, .done ⟨201, none⟩)
  | .create, .stored (.error error) =>
    (store, .done ⟨502, some ("failed to create login token: " ++ error)⟩)
  | .create, .disconnect => (store, .dropped)
  | stage, _ => (store, stage)

def next (auth : LoginAuth) (crypto : AdminCrypto) (event : LoginEvent) (store : LoginStore)
    (call : LoginCall) : LoginStore × LoginCall :=
  let advanced := advance auth crypto call.ip store call.stage event
  (advanced.1, { call with stage := advanced.2 })

end LoginCall

abbrev LoginSystem := System LoginStore LoginCall

inductive LoginLabel where
  | tick (elapsed : ℕ)
  | call (label : Label Text LoginEvent)

section Step

variable (auth : LoginAuth) (crypto : AdminCrypto)

def loginStep (s : LoginSystem) : LoginLabel → LoginSystem
  | .tick elapsed => { s with store := s.store.later elapsed }
  | .call label => step (LoginCall.enter auth) (LoginCall.next auth crypto) s label

def noLogins : LoginSystem := ⟨{}, []⟩

/-! ### What is counted -/

def LoginStore.window (ip : Text) (store : LoginStore) : Option LoginAttemptWindow :=
  store.retained.lookup ip

def LoginStore.recorded (ip : Text) (store : LoginStore) : ℕ :=
  ((store.window ip).map LoginAttemptWindow.failures).getD 0

def LoginStage.trying : LoginStage → Bool
  | .body => true
  | .verify _ => true
  | _ => false

def LoginStage.failed : LoginStage → Bool
  | .delay _ => true
  | .record => true
  | _ => false

def tally (ip : Text) (s : LoginSystem) : Tally where
  recorded := s.store.recorded ip
  trying := s.calls.countP fun call => call.ip = ip && call.stage.trying
  failed := s.calls.countP fun call => call.ip = ip && call.stage.failed

def LoginStage.event (active : Bool) : LoginStage → LoginStage → Event
  | .check, .body => .enter
  | .body, .done _ => .leave
  | .body, .dropped => .leave
  | .verify _, .delay _ => .fail
  | .verify _, .clear => .leave
  | .delay _, .dropped => .drop
  | .record, .done _ => .record
  | .clear, .rotate => if active then .clear else .idle
  | _, _ => .idle

def loginEvent (ip : Text) (s : LoginSystem) : LoginLabel → Event
  | .tick elapsed =>
    if (s.store.window ip).isSome ∧ ((s.store.later elapsed).window ip).isNone then .clear
    else .idle
  | .call (.start _) => .idle
  | .call (.advance i event) =>
    match s.calls[i]? with
    | some call =>
      if call.ip = ip then
        call.stage.event (s.store.window ip).isSome
          (call.next auth crypto event s.store).2.stage
      else .idle
    | none => .idle

def failedChecks (ip : Text) (s : LoginSystem) (labels : List LoginLabel) : ℕ :=
  (trace (loginStep auth crypto) (loginEvent auth crypto ip) s labels).count .fail

end Step

/-! ### The windows of an address -/

section Window

variable {store : LoginStore} {ip other : Text}

lemma window_eq_filter (ip : Text) (store : LoginStore) :
    store.window ip =
      (store.attempts.lookup ip).filter fun window => store.now < window.expiresAt := by
  rw [LoginStore.window, LoginStore.retained, Map.lookup_retain]

lemma lt_expiresAt {window : LoginAttemptWindow} (h : store.window ip = some window) :
    store.now < window.expiresAt := by
  rw [window_eq_filter] at h
  simpa using (Option.filter_eq_some_iff.mp h).2

lemma filter_lookup_retained (ip : Text) (store : LoginStore) :
    (store.retained.lookup ip).filter (fun window => store.now < window.expiresAt) =
      store.window ip := by
  rw [window_eq_filter, LoginStore.retained, Map.lookup_retain, Option.filter_filter]
  simp only [Bool.and_self]

lemma window_loginAttemptsExceeded :
    (store.loginAttemptsExceeded other).2.window ip = store.window ip := by
  rw [window_eq_filter]
  exact filter_lookup_retained ip store

lemma window_recordFailedLoginAttempt_ne (h : ip ≠ other) :
    (store.recordFailedLoginAttempt other).window ip = store.window ip := by
  rw [window_eq_filter, LoginStore.recordFailedLoginAttempt]
  simp only [AList.lookup_insert_ne h]
  exact filter_lookup_retained ip store

lemma recorded_recordFailedLoginAttempt :
    (store.recordFailedLoginAttempt ip).recorded ip = store.recorded ip + 1 := by
  have hlater : store.now < store.now + adminLoginWindow := by
    simp [adminLoginWindow]
  rw [LoginStore.recorded, LoginStore.recorded, window_eq_filter,
    LoginStore.recordFailedLoginAttempt]
  simp only [AList.lookup_insert]
  cases hstore : store.window ip with
  | none =>
    rw [LoginStore.window] at hstore
    rw [hstore, Option.getD_none, if_neg (Nat.not_le.mpr hlater),
      Option.filter_some_pos (by simpa using hlater)]
    rfl
  | some window =>
    have hlive := lt_expiresAt hstore
    rw [LoginStore.window] at hstore
    rw [hstore, Option.getD_some, if_neg (Nat.not_le.mpr hlive),
      Option.filter_some_pos (by simpa using hlive)]
    rfl

lemma window_clearLoginAttempts_ne (h : ip ≠ other) :
    (store.clearLoginAttempts other).window ip = store.window ip := by
  rw [window_eq_filter, window_eq_filter, LoginStore.clearLoginAttempts]
  simp only [AList.lookup_erase_ne h]

lemma window_clearLoginAttempts : (store.clearLoginAttempts ip).window ip = none := by
  rw [window_eq_filter, LoginStore.clearLoginAttempts]
  simp only [AList.lookup_erase]
  rfl

lemma recorded_eq_zero (h : (store.window ip).isNone = true) : store.recorded ip = 0 := by
  rw [LoginStore.recorded, Option.isNone_iff_eq_none.mp h]
  rfl

lemma window_later (ip : Text) (store : LoginStore) (elapsed : ℕ) :
    (store.later elapsed).window ip = store.window ip ∨
      (store.later elapsed).window ip = none := by
  rw [window_eq_filter, window_eq_filter, LoginStore.later]
  cases store.attempts.lookup ip with
  | none => exact .inl rfl
  | some window =>
    by_cases hlive : store.now + elapsed < window.expiresAt
    · have hbefore : store.now < window.expiresAt := by omega
      refine .inl ?_
      rw [Option.filter_some_pos (by simpa using hlive),
        Option.filter_some_pos (by simpa using hbefore)]
    · exact .inr (Option.filter_some_neg (by simpa using hlive))

end Window

/-! ### What a login can do -/

inductive LoginMove (ip : Text) (store : LoginStore) :
    LoginStage → LoginStore → LoginStage → Prop where
  | refused (response) :
      LoginMove ip store .check (store.loginAttemptsExceeded ip).2 (.done response)
  | passed (h : (store.loginAttemptsExceeded ip).1 = false) :
      LoginMove ip store .check (store.loginAttemptsExceeded ip).2 .body
  | answered (response) : LoginMove ip store .body store (.done response)
  | left : LoginMove ip store .body store .dropped
  | read (body) : LoginMove ip store .body store (.verify body)
  | wrong (body wakeAt) : LoginMove ip store (.verify body) store (.delay wakeAt)
  | right (body) : LoginMove ip store (.verify body) store .clear
  | woken (wakeAt) : LoginMove ip store (.delay wakeAt) store .record
  | lost (wakeAt) : LoginMove ip store (.delay wakeAt) store .dropped
  | recorded (response) :
      LoginMove ip store .record (store.recordFailedLoginAttempt ip) (.done response)
  | cleared : LoginMove ip store .clear (store.clearLoginAttempts ip) .rotate
  | rotated : LoginMove ip store .rotate store .create
  | notRotated (response) : LoginMove ip store .rotate store (.done response)
  | rotateLost : LoginMove ip store .rotate store .dropped
  | created (response) : LoginMove ip store .create store (.done response)
  | createLost : LoginMove ip store .create store .dropped
  | stays (stage) : LoginMove ip store stage store stage

section Moves

variable {auth : LoginAuth} {crypto : AdminCrypto} {ip : Text} {store : LoginStore}

lemma loginMove_advance (stage : LoginStage) (event : LoginEvent) :
    LoginMove ip store stage (LoginCall.advance auth crypto ip store stage event).1
      (LoginCall.advance auth crypto ip store stage event).2 := by
  fun_cases LoginCall.advance auth crypto ip store stage event with
  | case1 checked =>
    show LoginMove ip store .check checked.2 (if checked.1 then _ else _)
    split
    · exact .refused _
    · next hpassed => exact .passed (by simpa using hpassed)
  | case2 read =>
    cases read with
    | parsed body => exact .read body
    | _ => exact .answered _
  | case3 => exact .left
  | case4 body =>
    split
    · exact .right body
    · exact .wrong body _
  | case5 wakeAt =>
    split
    · exact .woken wakeAt
    · exact .stays _
  | case6 wakeAt => exact .lost wakeAt
  | case7 => exact .recorded _
  | case8 => exact .cleared
  | case9 => exact .rotated
  | case10 => exact .notRotated _
  | case11 => exact .rotateLost
  | case12 => exact .created _
  | case13 => exact .created _
  | case14 => exact .createLost
  | case15 => exact .stays _

lemma LoginMove.window_eq {other : Text} (hne : ip ≠ other) {before after : LoginStage}
    {store' : LoginStore} (h : LoginMove other store before store' after) :
    store'.window ip = store.window ip := by
  cases h with
  | refused => exact window_loginAttemptsExceeded
  | passed => exact window_loginAttemptsExceeded
  | recorded => exact window_recordFailedLoginAttempt_ne hne
  | cleared => exact window_clearLoginAttempts_ne hne
  | _ => rfl

lemma LoginMove.tally_eq {before after : LoginStage} {store' : LoginStore}
    (h : LoginMove ip store before store' after) {trying failed trying' failed' : ℕ}
    (htrying : trying' + before.trying.toNat = trying + after.trying.toNat)
    (hfailed : failed' + before.failed.toNat = failed + after.failed.toNat)
    (htryingLe : before.trying.toNat ≤ trying) (hfailedLe : before.failed.toNat ≤ failed) :
    let t : Tally := ⟨store.recorded ip, trying, failed⟩
    let event := before.event (store.window ip).isSome after
    ⟨store'.recorded ip, trying', failed'⟩ = t.step event ∧ t.Possible event := by
  intro t event
  cases h with
  | cleared =>
    have hcleared : (store.clearLoginAttempts ip).recorded ip = 0 :=
      recorded_eq_zero (by rw [window_clearLoginAttempts]; rfl)
    obtain rfl : trying' = trying := htrying
    obtain rfl : failed' = failed := hfailed
    rw [hcleared]
    cases hwindow : store.window ip with
    | some window => simp [t, event, LoginStage.event, hwindow, Tally.step, Tally.Possible]
    | none =>
      have hzero : store.recorded ip = 0 := recorded_eq_zero (by rw [hwindow]; rfl)
      simp [t, event, LoginStage.event, hwindow, Tally.step, Tally.Possible, hzero]
  | stays =>
    obtain rfl : trying' = trying := Nat.add_right_cancel htrying
    obtain rfl : failed' = failed := Nat.add_right_cancel hfailed
    have hidle : event = .idle := by cases before <;> rfl
    rw [hidle]
    exact ⟨rfl, trivial⟩
  | recorded =>
    rw [recorded_recordFailedLoginAttempt]
    simp only [LoginStage.trying, LoginStage.failed, Bool.toNat_true, Bool.toNat_false] at *
    simp only [t, event, LoginStage.event, Tally.step, Tally.Possible, Tally.mk.injEq, true_and]
    omega
  | _ =>
    simp only [LoginStage.trying, LoginStage.failed, Bool.toNat_true, Bool.toNat_false] at *
    simp only [t, event, LoginStage.event, Tally.step, Tally.Possible, Tally.mk.injEq,
      LoginStore.recorded, window_loginAttemptsExceeded, true_and, and_true]
    omega

lemma LoginMove.window_of_clear {before after : LoginStage} {store' : LoginStore} {active : Bool}
    (h : LoginMove ip store before store' after) (hevent : before.event active after = .clear) :
    active = true ∧ store'.window ip = none := by
  cases h with
  | cleared =>
    rw [LoginStage.event] at hevent
    split at hevent
    · next hactive => exact ⟨hactive, window_clearLoginAttempts⟩
    · cases hevent
  | stays => cases before <;> cases hevent
  | _ => cases hevent

end Moves

/-! ### The count of an address -/

section Count

variable {auth : LoginAuth} {crypto : AdminCrypto} {ip : Text} {s : LoginSystem}

lemma not_trying_enter (auth : LoginAuth) (other : Text) :
    (LoginCall.enter auth other).stage.trying = false ∧
      (LoginCall.enter auth other).stage.failed = false := by
  rw [LoginCall.enter]
  split
  · exact ⟨rfl, rfl⟩
  · split <;> exact ⟨rfl, rfl⟩

lemma tally_tick (elapsed : ℕ) :
    tally ip (loginStep auth crypto s (.tick elapsed)) =
      (tally ip s).step (loginEvent auth crypto ip s (.tick elapsed)) := by
  rw [loginEvent]
  split
  · next hends =>
    -- the window has expired
    show (⟨_, _, _⟩ : Tally) = ⟨_, _, _⟩
    congr 1
    exact recorded_eq_zero hends.2
  · next hends =>
    show (⟨(s.store.later elapsed).recorded ip, _, _⟩ : Tally) = ⟨_, _, _⟩
    congr 1
    rw [LoginStore.recorded, LoginStore.recorded]
    rcases window_later ip s.store elapsed with hsame | hnone
    · rw [hsame]
    · cases hwindow : s.store.window ip with
      | none => rw [hnone]
      | some window => exact absurd ⟨by rw [hwindow]; rfl, by rw [hnone]; rfl⟩ hends

lemma tally_advance {i : ℕ} {call : LoginCall} (hi : s.calls[i]? = some call)
    (event : LoginEvent) :
    tally ip (loginStep auth crypto s (.call (.advance i event))) =
        (tally ip s).step (loginEvent auth crypto ip s (.call (.advance i event))) ∧
      (tally ip s).Possible (loginEvent auth crypto ip s (.call (.advance i event))) := by
  have hmove : LoginMove call.ip s.store call.stage (call.next auth crypto event s.store).1
      (call.next auth crypto event s.store).2.stage := loginMove_advance call.stage event
  have hstep : loginStep auth crypto s (.call (.advance i event)) =
      ⟨(call.next auth crypto event s.store).1,
        s.calls.set i (call.next auth crypto event s.store).2⟩ := by
    rw [loginStep, step_advance hi]
  rw [hstep, loginEvent, hi]
  have htrying := countP_set_add (fun call : LoginCall => call.ip = ip && call.stage.trying) hi
    (call.next auth crypto event s.store).2
  have hfailed := countP_set_add (fun call : LoginCall => call.ip = ip && call.stage.failed) hi
    (call.next auth crypto event s.store).2
  by_cases hip : call.ip = ip
  · have htryingLe := toNat_le_countP
      (fun call : LoginCall => call.ip = ip && call.stage.trying) hi
    have hfailedLe := toNat_le_countP
      (fun call : LoginCall => call.ip = ip && call.stage.failed) hi
    have hip' : (call.next auth crypto event s.store).2.ip = ip := hip
    simp only [hip, hip', decide_true, Bool.true_and] at htrying hfailed htryingLe hfailedLe
    simp only [hip, if_true]
    subst hip
    exact hmove.tally_eq htrying hfailed htryingLe hfailedLe
  · have hip' : (call.next auth crypto event s.store).2.ip ≠ ip := hip
    simp only [hip, hip', decide_false, Bool.false_and, Bool.toNat_false, Nat.add_zero]
      at htrying hfailed
    simp only [hip, if_false]
    refine ⟨?_, trivial⟩
    show (⟨_, _, _⟩ : Tally) = ⟨_, _, _⟩
    rw [htrying, hfailed, LoginStore.recorded, hmove.window_eq (Ne.symm hip)]
    rfl

lemma tally_step (ip : Text) (s : LoginSystem) (label : LoginLabel) :
    tally ip (loginStep auth crypto s label) =
        (tally ip s).step (loginEvent auth crypto ip s label) ∧
      (tally ip s).Possible (loginEvent auth crypto ip s label) := by
  cases label with
  | tick elapsed =>
    refine ⟨tally_tick elapsed, ?_⟩
    rw [loginEvent]
    split <;> trivial
  | call label =>
    cases label with
    | start other =>
      refine ⟨?_, trivial⟩
      obtain ⟨htrying, hfailed⟩ := not_trying_enter auth other
      show (⟨_, (s.calls ++ [LoginCall.enter auth other]).countP _,
        (s.calls ++ [LoginCall.enter auth other]).countP _⟩ : Tally) = tally ip s
      rw [List.countP_append, List.countP_append, List.countP_singleton,
        List.countP_singleton, htrying, hfailed, Bool.and_false, if_neg Bool.false_ne_true]
      rfl
    | advance i event =>
      cases hi : s.calls[i]? with
      | some call => exact tally_advance hi event
      | none =>
        rw [loginStep, step_advance_none hi, loginEvent, hi]
        exact ⟨rfl, trivial⟩

def WithinLimit (auth : LoginAuth) (crypto : AdminCrypto) (ip : Text) (s : LoginSystem)
    (label : LoginLabel) : Prop :=
  (tally ip s).Within adminLoginMaxAttempts (loginEvent auth crypto ip s label)

instance (label : LoginLabel) : Decidable (WithinLimit auth crypto ip s label) :=
  inferInstanceAs (Decidable (Tally.Within _ _ _))

def KeepsWindow (auth : LoginAuth) (crypto : AdminCrypto) (ip : Text) (s : LoginSystem)
    (label : LoginLabel) : Prop :=
  (s.store.window ip).isSome → ((loginStep auth crypto s label).store.window ip).isSome

instance (label : LoginLabel) : Decidable (KeepsWindow auth crypto ip s label) :=
  inferInstanceAs (Decidable (_ → _))

lemma KeepsWindow.event_ne {label : LoginLabel} (h : KeepsWindow auth crypto ip s label) :
    loginEvent auth crypto ip s label ≠ .clear := by
  intro hclear
  suffices hends : (s.store.window ip).isSome = true ∧
      (loginStep auth crypto s label).store.window ip = none by
    have hsome := h hends.1
    rw [hends.2] at hsome
    cases hsome
  cases label with
  | tick elapsed =>
    rw [loginEvent] at hclear
    split at hclear
    · next hends => exact ⟨hends.1, Option.isNone_iff_eq_none.mp hends.2⟩
    · cases hclear
  | call label =>
    cases label with
    | start other => cases hclear
    | advance i event =>
      cases hi : s.calls[i]? with
      | none =>
        rw [loginEvent, hi] at hclear
        cases hclear
      | some call =>
        rw [loginEvent, hi] at hclear
        simp only at hclear
        split at hclear
        · next hip =>
          subst hip
          rw [loginStep, step_advance hi]
          exact (loginMove_advance call.stage event).window_of_clear hclear
        · cases hclear

/-- **Failed logins.**  Take any part of a run in which the window of an address does not end
before the last step, if the logins of the address stay within the limit all along the run.
At most `ADMIN_LOGIN_MAX_ATTEMPTS` password checks of the address fail in it. -/
theorem failedChecks_le {before period : List LoginLabel} {last : LoginLabel}
    (hwithin : Along (loginStep auth crypto) (WithinLimit auth crypto ip) noLogins
      (before ++ period ++ [last]))
    (hperiod : Along (loginStep auth crypto) (KeepsWindow auth crypto ip)
      (run (loginStep auth crypto) noLogins before) period) :
    failedChecks auth crypto ip (run (loginStep auth crypto) noLogins before)
      (period ++ [last]) ≤ adminLoginMaxAttempts := by
  have hsim : ∀ s label, tally ip (loginStep auth crypto s label) =
      (tally ip s).step (loginEvent auth crypto ip s label) :=
    fun s label => (tally_step ip s label).1
  -- the run is one of the count, and keeps within the limit there
  have hcounted : ∀ {s labels},
      Along (loginStep auth crypto) (WithinLimit auth crypto ip) s labels →
      Along Tally.step (fun t event => t.Possible event ∧ t.Within adminLoginMaxAttempts event)
        (tally ip s) (trace (loginStep auth crypto) (loginEvent auth crypto ip) s labels) :=
    fun h => (along_trace_iff hsim).mpr (h.mono fun s label hlabel =>
      ⟨(tally_step ip s label).2, hlabel⟩)
  rw [List.append_assoc, along_append] at hwithin
  have hbefore : (tally ip (run (loginStep auth crypto) noLogins before)).total ≤
      adminLoginMaxAttempts := by
    rw [map_run hsim]
    exact total_run_le (Nat.zero_le _) (hcounted hwithin.1)
  have hclear : ∀ event ∈ trace (loginStep auth crypto) (loginEvent auth crypto ip)
      (run (loginStep auth crypto) noLogins before) period, event ≠ .clear :=
    forall_mem_trace_iff.mpr (hperiod.mono fun s label hkeeps => hkeeps.event_ne)
  have hevents := hcounted hwithin.2
  rw [failedChecks, trace_append]
  rw [trace_append] at hevents
  by_cases hlast : loginEvent auth crypto ip (run (loginStep auth crypto)
      (run (loginStep auth crypto) noLogins before) period) last = .clear
  · -- the step that ends the window is not a check
    rw [trace, hlast, List.count_append]
    exact count_fail_le hbefore (along_append.mp hevents).1 fun hmem => hclear _ hmem rfl
  · refine count_fail_le hbefore hevents fun hmem => ?_
    rcases List.mem_append.mp hmem with hmem | hmem
    · exact hclear _ hmem rfl
    · exact hlast (List.mem_singleton.mp hmem).symm

end Count

/-! ### Logins that overlap -/

def sampleCrypto : AdminCrypto where
  sha256 := id
  hashToken := id
  pbkdf2Sha256 _ _ _ _ := []

def sampleAuth : LoginAuth where
  loginAccount := some ⟨"admin@pxxl.test", ⟨10000, "0011223344556677", [1]⟩⟩
  tokenStore := true

def sampleIp : Text := "203.0.113.9"

def proceed (i : ℕ) : LoginLabel := .call (.advance i .proceed)

def failCheck (i : ℕ) : List LoginLabel :=
  [.call (.advance i (.read (.parsed ⟨"admin@pxxl.test", "guess"⟩))), proceed i]

def failAlone (i : ℕ) : List LoginLabel :=
  [.call (.start sampleIp), proceed i] ++ failCheck i ++ [.tick 300, proceed i, proceed i]

/-- Five logins fail one after the other, and a sixth is refused. -/
theorem failedChecks_alone :
    let period := (List.range 5).flatMap failAlone ++ [.call (.start sampleIp), proceed 5]
    (run (loginStep sampleAuth sampleCrypto) noLogins period).calls[5]? =
        some ⟨sampleIp, .done ⟨429, some "too many failed login attempts".toList⟩⟩ ∧
      failedChecks sampleAuth sampleCrypto sampleIp noLogins (period ++ [.tick adminLoginWindow]) ≤
        adminLoginMaxAttempts := by
  intro period
  have hwithin : Along (loginStep sampleAuth sampleCrypto)
      (WithinLimit sampleAuth sampleCrypto sampleIp) noLogins
      ([] ++ period ++ [.tick adminLoginWindow]) := by decide
  have hperiod : Along (loginStep sampleAuth sampleCrypto)
      (KeepsWindow sampleAuth sampleCrypto sampleIp) noLogins period := by decide
  exact ⟨by decide, failedChecks_le hwithin hperiod⟩

def overlappingLogins : List LoginLabel :=
  List.replicate 7 (.call (.start sampleIp)) ++ (List.range 7).map proceed ++ failCheck 0 ++
    [.tick 300, proceed 0]

def failingWindow : List LoginLabel :=
  proceed 0 :: (List.range 6).flatMap fun i => failCheck (i + 1)

theorem overlapping_logins_fail :
    let s := run (loginStep sampleAuth sampleCrypto) noLogins overlappingLogins
    let ended := run (loginStep sampleAuth sampleCrypto) s
      (failingWindow ++ [.tick adminLoginWindow])
    s.store.window sampleIp = none ∧ ended.store.window sampleIp = none ∧
      (∀ n < failingWindow.length, (run (loginStep sampleAuth sampleCrypto) s
        (failingWindow.take (n + 1))).store.window sampleIp ≠ none) ∧
      failedChecks sampleAuth sampleCrypto sampleIp s (failingWindow ++ [.tick adminLoginWindow]) =
        6 ∧
      adminLoginMaxAttempts = 5 := by
  decide

end PxxlEdge
