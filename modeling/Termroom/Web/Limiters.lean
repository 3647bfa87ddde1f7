import Mathlib
import Termroom.Data.Double
import Termroom.Data.Window

/-!
# How often a client may try

Two limiters keep the times of the attempts of a client in a queue for each key: the one of Node
pairing for each client and action, and the one of logins for each client, whose queue is dropped
when a login succeeds. Both are sliding windows of 60 seconds (`limiters_limit`).

Times are doubles, and an age is the rounded difference of two. What is at most 60 seconds is never
rounded to more, so that the limits hold as they stand; but in the first seconds of the clock an
attempt that is older by less than a rounding error still counts (`login_refused_early`).
-/

set_option autoImplicit false

namespace Termroom.Web

open Data

/-! ## 1. Node pairing -/

/-- `now - attempt > 60`. -/
def tooOld (now attempt : Double) : Bool := 60 < (now - attempt).value

/-- `remote_key or "unknown"`. -/
def knownKey (remoteKey : String) : String := if remoteKey = "" then "unknown" else remoteKey

/-- `limits.get(action, 10)`. -/
def pairingLimit (action : String) : Nat :=
  if action = "enroll" then 10
  else if action = "status" then 120
  else 10

/-- A key that was not seen has an empty queue, as in a `defaultdict`. -/
structure NodePairingRateLimiter where
  attempts : String × String → List Double := fun _ => []

def NodePairingRateLimiter.allow (limiter : NodePairingRateLimiter) (remoteKey action : String)
    (now : Double) : Bool × NodePairingRateLimiter :=
  let key := (knownKey remoteKey, action)
  let (allowed, attempts) := Window.enter tooOld (pairingLimit action) now (limiter.attempts key)
  (allowed, { attempts := Function.update limiter.attempts key attempts })

structure PairingAttempt where
  remoteKey : String
  action : String
  now : Double
  deriving DecidableEq

/-- Calls of `allow`, and what each returned. -/
def NodePairingRateLimiter.run (limiter : NodePairingRateLimiter) :
    List PairingAttempt → List (PairingAttempt × Bool)
  | [] => []
  | a :: later =>
    let (allowed, limiter) := limiter.allow a.remoteKey a.action a.now
    (a, allowed) :: limiter.run later

/-- When a client was allowed an action. -/
def allowedTimes (key action : String) (log : List (PairingAttempt × Bool)) : List Double :=
  (log.filter fun e => knownKey e.1.remoteKey = key ∧ e.1.action = action ∧ e.2).map fun e =>
    e.1.now

/-! ## 2. Logins -/

structure AuthManager where
  loginPassword : String
  attempts : String → List Double := fun _ => []

def secureCompare (left right : String) : Bool := left ≠ "" ∧ left = right

/-- `_allow_attempt`. -/
def AuthManager.allowAttempt (manager : AuthManager) (key : String) (now : Double) :
    Bool × AuthManager :=
  let (allowed, attempts) := Window.enter tooOld 10 now (manager.attempts (knownKey key))
  (allowed, { manager with attempts := Function.update manager.attempts (knownKey key) attempts })

inductive Login where
  /-- `AuthRateLimited` is raised. -/
  | rateLimited
  | failed
  /-- A session is returned. -/
  | session
  deriving DecidableEq, Repr

def AuthManager.login (manager : AuthManager) (supplied remoteKey : String) (now : Double) :
    Login × AuthManager :=
  let (allowed, manager) := manager.allowAttempt remoteKey now
  if ¬allowed then (.rateLimited, manager)
  else if ¬secureCompare supplied manager.loginPassword then (.failed, manager)
  else
    (.session,
      { manager with attempts := Function.update manager.attempts (knownKey remoteKey) [] })

structure LoginAttempt where
  supplied : String
  remoteKey : String
  now : Double
  deriving DecidableEq

/-- Calls of `login`, and what came of each. -/
def AuthManager.run (manager : AuthManager) : List LoginAttempt → List (LoginAttempt × Login)
  | [] => []
  | a :: later =>
    let (login, manager) := manager.login a.supplied a.remoteKey a.now
    (a, login) :: manager.run later

/-- When the logins of a client failed, since its last one that succeeded. -/
def failedTimes (key : String) (log : List (LoginAttempt × Login)) : List Double :=
  log.foldl (fun times e =>
    if knownKey e.1.remoteKey = key then
      match e.2 with
      | .rateLimited => times
      | .failed => times ++ [e.1.now]
      | .session => []
    else times) []

/-! ## 3. Both are sliding windows -/

/-- An attempt that clears nothing. -/
def PairingAttempt.entry (a : PairingAttempt) : Window.Attempt (String × String) Double :=
  ⟨(knownKey a.remoteKey, a.action), a.now, false⟩

theorem pairing_attempts (limiter : NodePairingRateLimiter) (attempts : List PairingAttempt) :
    (limiter.run attempts).map (Prod.map PairingAttempt.entry id) =
      Window.attempts tooOld (fun key => pairingLimit key.2) limiter.attempts
        (attempts.map PairingAttempt.entry) := by
  induction attempts generalizing limiter with
  | nil => rfl
  | cons a later ih =>
    rw [List.map_cons, Window.attempts_cons]
    unfold NodePairingRateLimiter.run
    rw [List.map_cons, ih]
    simp [NodePairingRateLimiter.allow, Window.attempt, PairingAttempt.entry]

theorem since_pairing (key action : String) (log : List (PairingAttempt × Bool)) :
    Window.since (key, action) (log.map (Prod.map PairingAttempt.entry id)) =
      allowedTimes key action log := by
  suffices all : ∀ times, (log.map (Prod.map PairingAttempt.entry id)).foldl
      (Window.since1 (key, action)) times = times ++ allowedTimes key action log from all []
  induction log with
  | nil => simp [allowedTimes]
  | cons e log ih =>
    intro times
    rw [List.map_cons, List.foldl_cons, ih]
    by_cases h : knownKey e.1.remoteKey = key ∧ e.1.action = action ∧ e.2
    · obtain ⟨hkey, haction, hallowed⟩ := h
      simp [Window.since1, PairingAttempt.entry, allowedTimes, hkey, haction, hallowed]
    · have hentry : ¬((knownKey e.1.remoteKey, e.1.action) = (key, action) ∧ e.2) := by
        rintro ⟨heq, hallowed⟩
        obtain ⟨hkey, haction⟩ := Prod.mk.inj heq
        exact h ⟨hkey, haction, hallowed⟩
      have hsame : Window.since1 (key, action) times (Prod.map PairingAttempt.entry id e) = times :=
        if_neg hentry
      rw [hsame]
      simp [allowedTimes, h]

/-- An attempt that clears the queue where its password is right. -/
def LoginAttempt.entry (password : String) (a : LoginAttempt) : Window.Attempt String Double :=
  ⟨knownKey a.remoteKey, a.now, secureCompare a.supplied password⟩

/-- Whether a login was let through to the comparison. -/
def Login.compared (login : Login) : Bool := login ≠ .rateLimited

/-- What one login does: to the queues, and for the client. -/
theorem login_attempt (manager : AuthManager) (a : LoginAttempt) :
    let r := manager.login a.supplied a.remoteKey a.now
    r.2.loginPassword = manager.loginPassword ∧
    (r.1.compared, r.2.attempts) =
      Window.attempt tooOld (fun _ => 10) manager.attempts (a.entry manager.loginPassword) ∧
    (r.1 = .rateLimited ∨
      r.1 = if secureCompare a.supplied manager.loginPassword then .session else .failed) := by
  unfold AuthManager.login AuthManager.allowAttempt Window.attempt LoginAttempt.entry
  dsimp only
  generalize Window.enter tooOld 10 a.now (manager.attempts (knownKey a.remoteKey)) = r
  obtain ⟨allowed, queue⟩ := r
  cases allowed with
  | false => simp [Login.compared]
  | true =>
    cases hcorrect : secureCompare a.supplied manager.loginPassword with
    | false => simp [Login.compared]
    | true => simp [Login.compared]

variable {manager : AuthManager} {a : LoginAttempt} {later logins : List LoginAttempt}

theorem run_cons : manager.run (a :: later) =
    (a, (manager.login a.supplied a.remoteKey a.now).1) ::
      (manager.login a.supplied a.remoteKey a.now).2.run later := rfl

theorem login_attempts :
    (manager.run logins).map (Prod.map (LoginAttempt.entry manager.loginPassword) Login.compared) =
      Window.attempts tooOld (fun _ => 10) manager.attempts
        (logins.map (LoginAttempt.entry manager.loginPassword)) := by
  induction logins generalizing manager with
  | nil => rfl
  | cons a later ih =>
    obtain ⟨hpassword, hattempt, -⟩ := login_attempt manager a
    have hlater := @ih (manager.login a.supplied a.remoteKey a.now).2
    rw [hpassword] at hlater
    rw [List.map_cons, Window.attempts_cons, ← hattempt, ← hlater, run_cons]
    rfl

/-- What can come of the logins. -/
theorem login_outcome : ∀ e ∈ manager.run logins, e.2 = .rateLimited ∨
    e.2 = if secureCompare e.1.supplied manager.loginPassword then .session else .failed := by
  induction logins generalizing manager with
  | nil => simp [AuthManager.run]
  | cons a later ih =>
    intro e he
    obtain ⟨hpassword, -, hlogin⟩ := login_attempt manager a
    rw [run_cons] at he
    rcases List.mem_cons.mp he with rfl | he
    · exact hlogin
    · have := ih e he
      rwa [hpassword] at this

theorem since_logins (key password : String) {log : List (LoginAttempt × Login)}
    (h : ∀ e ∈ log, e.2 = .rateLimited ∨
      e.2 = if secureCompare e.1.supplied password then .session else .failed) :
    Window.since key (log.map (Prod.map (LoginAttempt.entry password) Login.compared)) =
      failedTimes key log := by
  unfold Window.since failedTimes
  rw [List.foldl_map]
  apply List.foldl_ext
  intro times e he
  unfold Window.since1
  rcases h e he with hlogin | hlogin
  · simp [LoginAttempt.entry, Login.compared, hlogin]
  · cases hcorrect : secureCompare e.1.supplied password with
    | false =>
      rw [hcorrect] at hlogin
      simp [LoginAttempt.entry, Login.compared, hlogin, hcorrect]
    | true =>
      rw [hcorrect] at hlogin
      simp [LoginAttempt.entry, Login.compared, hlogin, hcorrect]

/-! ## 4. Ages -/

/-- A closed window of 60 seconds. -/
def inWindow (start : ℚ) (t : Double) : Bool := start ≤ t.value ∧ t.value ≤ start + 60

theorem sixty_representable : Double.Representable 60 := ⟨60, 0, by norm_num, by norm_num⟩

/-- An age of at most 60 seconds is not rounded to more. -/
theorem age_le {now t : Double} (h : now.value - t.value ≤ 60) : (now - t).value ≤ 60 := by
  have := Double.round_mono h
  rwa [Double.round_of_representable sixty_representable] at this

theorem tooOld_aging : Window.Aging tooOld := by
  intro t t' now now' ht hnow hold
  unfold tooOld at hold ⊢
  rw [decide_eq_true_eq] at hold ⊢
  have hage : now.value - t.value ≤ now'.value - t'.value := sub_le_sub hnow ht
  exact hold.trans_le (Double.round_mono hage)

theorem tooOld_window (start : ℚ) : Window.Stretch tooOld (inWindow start) := by
  intro t now ht hnow _
  obtain ⟨hlow, -⟩ := of_decide_eq_true ht
  obtain ⟨-, hhigh⟩ := of_decide_eq_true hnow
  apply decide_eq_false
  exact not_lt.mpr (age_le (by linarith))

/-- **From the 32nd second of the clock on** an age of more than 60 seconds is told as such. -/
theorem age_le_iff {now t : Double} (ht : 32 ≤ t.value) (hnow : t ≤ now) :
    (now - t).value ≤ 60 ↔ now.value - t.value ≤ 60 := by
  refine ⟨fun h => ?_, age_le⟩
  by_contra hold
  have hnow : t.value ≤ now.value := hnow
  -- both are whole multiples of the last bit of a number between 32 and 64
  have bits : ∀ x : Double, 32 ≤ x.value → ∃ n : ℤ, x.value = n * 2 ^ (-47 : ℤ) := by
    intro x hx
    have habs : (2 : ℚ) ^ (5 : ℤ) ≤ |x.value| := by
      rw [abs_of_nonneg (by linarith)]
      norm_num
      exact hx
    exact Double.representable_multiple x.representable habs
  obtain ⟨m, hm⟩ := bits t ht
  obtain ⟨n, hn⟩ := bits now (ht.trans hnow)
  have hlast : (2 : ℚ) ^ (-47 : ℤ) = 1 / 140737488355328 := by norm_num
  rw [hlast] at hm hn
  have hmore : 60 * 140737488355328 + 1 ≤ n - m := by
    rw [not_le, hn, hm, ← sub_mul] at hold
    have : ((60 * 140737488355328 : ℤ) : ℚ) < ((n - m : ℤ) : ℚ) := by
      push_cast
      linarith
    exact Int.cast_lt.mp this
  have hage : (60 * 140737488355328 + 1 : ℚ) / 140737488355328 ≤ now.value - t.value := by
    have : ((60 * 140737488355328 + 1 : ℤ) : ℚ) ≤ ((n - m : ℤ) : ℚ) := Int.cast_le.mpr hmore
    push_cast at this
    rw [hn, hm]
    linarith
  have next : Double.Representable ((60 * 140737488355328 + 1 : ℚ) / 140737488355328) :=
    ⟨60 * 140737488355328 + 1, -47, by norm_num, by norm_num⟩
  have hround := Double.round_mono hage
  rw [Double.round_of_representable next] at hround
  have : (60 * 140737488355328 + 1 : ℚ) / 140737488355328 ≤ 60 := hround.trans h
  norm_num at this

/-! ## 5. The limits -/

theorem fresh_tooOld (now : Double) (times : List Double) :
    Window.fresh tooOld now times = times.filter fun t => (now - t).value ≤ 60 := by
  apply List.filter_congr
  intro t _
  rw [tooOld, ← decide_not]
  simp only [not_lt]

theorem pairing_limited {attempts : List PairingAttempt}
    (sorted : attempts.Pairwise fun a b => a.now ≤ b.now) :
    let log := NodePairingRateLimiter.run {} attempts
    (∀ key action start, ((allowedTimes key action log).filter (inWindow start)).length ≤
      pairingLimit action) ∧
    ∀ before a after, log = before ++ (a, false) :: after → pairingLimit a.action ≤
      ((allowedTimes (knownKey a.remoteKey) a.action before).filter fun t =>
        (a.now - t).value ≤ 60).length := by
  intro log
  have hsorted : (attempts.map PairingAttempt.entry).Pairwise fun a b => a.now ≤ b.now :=
    List.pairwise_map.mpr sorted
  have hrun : ∀ before after, log = before ++ after → Window.attempts tooOld
      (fun key => pairingLimit key.2) (fun _ => []) (attempts.map PairingAttempt.entry) =
        before.map (Prod.map PairingAttempt.entry id) ++
          after.map (Prod.map PairingAttempt.entry id) := by
    intro before after hlog
    rw [← List.map_append, ← hlog]
    exact (pairing_attempts {} attempts).symm
  constructor
  · intro key action start
    have hall := hrun log [] (List.append_nil _).symm
    have := Window.attempts_limit tooOld_aging hsorted hall (key, action) (tooOld_window start)
    rwa [since_pairing] at this
  · intro before a after hlog
    have := Window.attempts_refused tooOld_aging hsorted (hrun before ((a, false) :: after) hlog)
    rwa [PairingAttempt.entry, since_pairing, fresh_tooOld] at this

theorem logins_limited (loginPassword : String) {logins : List LoginAttempt}
    (sorted : logins.Pairwise fun a b => a.now ≤ b.now) :
    let log := AuthManager.run { loginPassword } logins
    (∀ before after, log = before ++ after → ∀ key start,
      ((failedTimes key before).filter (inWindow start)).length ≤ 10) ∧
    ∀ before a after, log = before ++ (a, .rateLimited) :: after → 10 ≤
      ((failedTimes (knownKey a.remoteKey) before).filter fun t =>
        (a.now - t).value ≤ 60).length := by
  intro log
  have hsorted : (logins.map (LoginAttempt.entry loginPassword)).Pairwise
      fun a b => a.now ≤ b.now := List.pairwise_map.mpr sorted
  have hrun : ∀ before after, log = before ++ after → Window.attempts tooOld (fun _ => 10)
      (fun _ => []) (logins.map (LoginAttempt.entry loginPassword)) =
        before.map (Prod.map (LoginAttempt.entry loginPassword) Login.compared) ++
          after.map (Prod.map (LoginAttempt.entry loginPassword) Login.compared) := by
    intro before after hlog
    rw [← List.map_append, ← hlog]
    exact (@login_attempts { loginPassword } logins).symm
  have houtcome : ∀ before after, log = before ++ after → ∀ e ∈ before, e.2 = .rateLimited ∨
      e.2 = if secureCompare e.1.supplied loginPassword then .session else .failed := by
    intro before after hlog e he
    have hlogged : e ∈ log := by
      rw [hlog]
      exact List.mem_append_left _ he
    exact login_outcome e hlogged
  constructor
  · intro before after hlog key start
    have := Window.attempts_limit tooOld_aging hsorted (hrun before after hlog) key
      (tooOld_window start)
    rwa [since_logins key loginPassword (houtcome before after hlog)] at this
  · intro before a after hlog
    have := Window.attempts_refused tooOld_aging hsorted
      (hrun before ((a, .rateLimited) :: after) hlog)
    rwa [LoginAttempt.entry, since_logins _ loginPassword (houtcome before _ hlog), fresh_tooOld]
      at this

/-- **The limiters really limit.** As long as time does not go back, in every closed window of 60
    seconds a client is allowed an action of Node pairing at most as often as its limit, and at
    most 10 of its logins fail after its last one that succeeded; and either refuses an attempt
    only where that many are at most 60 seconds old as the code measures it, which from the 32nd
    second of the clock on is their age. -/
theorem limiters_limit :
    (∀ attempts : List PairingAttempt, attempts.Pairwise (fun a b => a.now ≤ b.now) →
      let log := NodePairingRateLimiter.run {} attempts
      (∀ key action start, ((allowedTimes key action log).filter (inWindow start)).length ≤
        pairingLimit action) ∧
      ∀ before a after, log = before ++ (a, false) :: after → pairingLimit a.action ≤
        ((allowedTimes (knownKey a.remoteKey) a.action before).filter fun t =>
          (a.now - t).value ≤ 60).length) ∧
    (∀ (loginPassword : String) (logins : List LoginAttempt),
      logins.Pairwise (fun a b => a.now ≤ b.now) →
      let log := AuthManager.run { loginPassword } logins
      (∀ before after, log = before ++ after → ∀ key start,
        ((failedTimes key before).filter (inWindow start)).length ≤ 10) ∧
      ∀ before a after, log = before ++ (a, .rateLimited) :: after → 10 ≤
        ((failedTimes (knownKey a.remoteKey) before).filter fun t =>
          (a.now - t).value ≤ 60).length) ∧
    ∀ now t : Double, 32 ≤ t.value → t ≤ now →
      ((now - t).value ≤ 60 ↔ now.value - t.value ≤ 60) := by
  refine ⟨?_, ?_, ?_⟩
  · intro attempts sorted
    exact pairing_limited sorted
  · intro loginPassword logins sorted
    exact logins_limited loginPassword sorted
  · intro now t
    exact age_le_iff

/-- 0.1 seconds after the clock began, and 60.1 seconds after it did. -/
def early : Double := .ofBits 3602879701896397 (-55) (by decide)

def minuteLater : Double := .ofBits 8458323050155213 (-47) (by decide)

/-- **A login is refused** for ten that failed, though none of them lies in the 60 seconds before
    it. -/
theorem login_refused_early :
    let before := List.replicate 10 ((⟨"", "", early⟩, .failed) : LoginAttempt × Login)
    AuthManager.run { loginPassword := "pw" }
        (List.replicate 10 ⟨"", "", early⟩ ++ [⟨"pw", "", minuteLater⟩]) =
      before ++ [(⟨"pw", "", minuteLater⟩, .rateLimited)] ∧
    ((failedTimes "unknown" before).filter (inWindow (minuteLater.value - 60))).length = 0 := by
  constructor
  · decide +kernel
  · decide +kernel

end Termroom.Web
