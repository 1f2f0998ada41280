import BrokeTurnkey.Text
import Mathlib.Algebra.Order.Ring.Int

/-!
# Renewing the Vault token

`cmd/crypto/vault.go`: the login at start-up and the loop that renews the token.
Time is counted in nanoseconds.  An answer of Vault comes with the time it takes,
and a lease begins when its answer arrives, which is the latest it can begin.
-/

namespace BrokeTurnkey.Signer.TokenRenewal

def second : Int := 10 ^ 9

/-- A `lease_duration`: the whole seconds of a `time.Duration` of Vault. -/
structure Lease where
  seconds : Nat
  fits : seconds * 10 ^ 9 < 2 ^ 63

/-- The `auth` of a response that was decoded. -/
structure Auth where
  clientToken : Text
  leaseDuration : Lease

/-- What a call to Vault comes to: `none` for a failed request, another status than 200
    or a body that is not decoded. -/
structure Answer where
  auth : Option Auth
  elapsed : Nat

/-! ### The code -/

structure VaultState where
  token : Text
  leaseDurSec : Int

def loginMaxAttempts : Nat := 3

def loginRetryDelay : Int := 5 * second

def doLogin (auth : Option Auth) : Option Auth :=
  auth.filter fun granted => granted.clientToken ≠ []

/-- An `int64`. -/
def wrapInt64 (n : Int) : Int := (n + 2 ^ 63) % 2 ^ 64 - 2 ^ 63

/-- `time.Duration(float64(leaseDur)*0.75) * time.Second`.  The product is exact for
    every lease, and the conversion cuts off the fraction. -/
def fireIn (leaseDur : Int) : Int := wrapInt64 ((3 * leaseDur).tdiv 4 * second)

/-- `RenewToken`: a renewal may leave out the token, and only a positive lease counts. -/
def renewToken (vault : VaultState) (auth : Option Auth) : Option VaultState :=
  auth.map fun renewed =>
    { token := if renewed.clientToken ≠ [] then renewed.clientToken else vault.token
      leaseDurSec :=
        if renewed.leaseDuration.seconds > 0 then renewed.leaseDuration.seconds
        else vault.leaseDurSec }

/-! ### The process over time -/

/-- The process at the start of an iteration of the loop. -/
structure Process where
  vault : VaultState
  now : Int
  /-- the end of the lease that Vault granted last -/
  expiresAt : Int
  /-- the renewals that failed since then -/
  failures : Nat

def Process.granted (vault : VaultState) (lease : Lease) (now : Int) : Process where
  vault
  now
  expiresAt := now + lease.seconds * second
  failures := 0

/-- The rest of `AppRoleLogin` after some attempts; without a token there is no process. -/
def loginFrom : Nat → Int → List Answer → Option Process
  | 0, _, _ => none
  | _, _, [] => none
  | attempts + 1, now, answer :: rest =>
    match doLogin answer.auth with
    | some granted =>
      some (Process.granted ⟨granted.clientToken, granted.leaseDuration.seconds⟩
        granted.leaseDuration (now + answer.elapsed))
    | none => loginFrom attempts (now + answer.elapsed + loginRetryDelay) rest

def appRoleLogin (answers : List Answer) : Option Process :=
  loginFrom loginMaxAttempts 0 answers

/-- When the next renewal is attempted. -/
def Process.nextAttempt (p : Process) : Int := p.now + fireIn p.vault.leaseDurSec

/-- One iteration of the loop of `StartTokenRenewalLoop`. -/
def Process.iterate (p : Process) (answer : Answer) : Process :=
  let now := p.nextAttempt + answer.elapsed
  match answer.auth, renewToken p.vault answer.auth with
  | some renewed, some vault => Process.granted vault renewed.leaseDuration now
  | _, _ => { p with now, failures := p.failures + 1 }

/-- The process at the start of each iteration. -/
def Process.iterations (p : Process) (answers : List Answer) : List Process :=
  answers.scanl Process.iterate p

/-! ### Keeping the token alive -/

/-- The iteration waits, and if it follows a single failed renewal, it renews the token
    before its lease ends. -/
structure Process.KeepsAlive (p : Process) : Prop where
  waits : 0 < fireIn p.vault.leaseDurSec
  retries : p.failures = 1 → p.nextAttempt < p.expiresAt

/-- The lease is as long as the stored one, or of no length at all. -/
structure Process.Fresh (p : Process) : Prop where
  stored : ∃ lease : Lease, p.vault.leaseDurSec = lease.seconds
  unfailed : p.failures = 0
  lease : p.expiresAt ≤ p.now + p.vault.leaseDurSec * second

/-- The renewal succeeds with a lease of another length than one second. -/
def Answer.Renews (answer : Answer) : Prop :=
  ∃ renewed, answer.auth = some renewed ∧ renewed.leaseDuration.seconds ≠ 1

/-- The wait is three quarters of the lease, in whole seconds. -/
theorem fireIn_lease (lease : Lease) :
    fireIn lease.seconds = ((3 * lease.seconds / 4 : Nat) : Int) * second := by
  have hquarters : (3 * (lease.seconds : Int)).tdiv 4 = ((3 * lease.seconds / 4 : Nat) : Int) := by
    rw [Int.tdiv_eq_ediv_of_nonneg (by omega)]
    omega
  have hfits := lease.fits
  rw [fireIn, hquarters, wrapInt64, second, Int.emod_eq_of_lt (by omega) (by omega)]
  omega

theorem fireIn_pos_iff (lease : Lease) : 0 < fireIn lease.seconds ↔ 2 ≤ lease.seconds := by
  rw [fireIn_lease, second]
  omega

/-- **Two waits take the whole lease.** -/
theorem lease_le_two_waits (lease : Lease) (h : 2 ≤ lease.seconds) :
    lease.seconds * second ≤ fireIn lease.seconds + fireIn lease.seconds := by
  rw [fireIn_lease, second]
  omega

/-! ### One iteration -/

theorem iterate_failed {p : Process} {answer : Answer} (h : answer.auth = none) :
    p.iterate answer =
      { p with now := p.nextAttempt + answer.elapsed, failures := p.failures + 1 } := by
  rw [Process.iterate, h]

theorem iterate_renewed {p : Process} {answer : Answer} {renewed : Auth}
    (h : answer.auth = some renewed) : ∃ vault, renewToken p.vault answer.auth = some vault ∧
      p.iterate answer =
        Process.granted vault renewed.leaseDuration (p.nextAttempt + answer.elapsed) := by
  refine ⟨_, by rw [h]; rfl, ?_⟩
  rw [Process.iterate, h]
  rfl

/-- A lease that is granted is fresh. -/
theorem Process.Fresh.granted {vault : VaultState} {lease : Lease} {now : Int}
    (hstored : ∃ stored : Lease, vault.leaseDurSec = stored.seconds)
    (hle : (lease.seconds : Int) ≤ vault.leaseDurSec) :
    (Process.granted vault lease now).Fresh := by
  constructor
  case stored => exact hstored
  case unfailed => rfl
  case lease =>
    simp only [Process.granted, second]
    omega

theorem Process.Fresh.iterate {p : Process} {answer : Answer} {renewed : Auth} (h : p.Fresh)
    (hrenewed : answer.auth = some renewed) : (p.iterate answer).Fresh ∧
      (p.iterate answer).vault.leaseDurSec =
        if renewed.leaseDuration.seconds > 0 then (renewed.leaseDuration.seconds : Int)
        else p.vault.leaseDurSec := by
  obtain ⟨lease, hlease⟩ := h.stored
  obtain ⟨vault, hvault, hiterate⟩ := iterate_renewed hrenewed (p := p)
  rw [hrenewed, renewToken, Option.map_some, Option.some.injEq] at hvault
  have hstored : vault.leaseDurSec =
      if renewed.leaseDuration.seconds > 0 then (renewed.leaseDuration.seconds : Int)
      else p.vault.leaseDurSec := by rw [← hvault]
  rw [hiterate]
  refine ⟨Process.Fresh.granted ?_ ?_, hstored⟩
  · rw [hstored]
    split
    · exact ⟨renewed.leaseDuration, rfl⟩
    · exact ⟨lease, hlease⟩
  · rw [hstored]
    split
    · exact Int.le_refl _
    · omega

theorem Process.Fresh.keepsAlive_iff {p : Process} (h : p.Fresh) :
    p.KeepsAlive ↔ 2 ≤ p.vault.leaseDurSec := by
  obtain ⟨lease, hlease⟩ := h.stored
  have hwaits := fireIn_pos_iff lease
  rw [← hlease] at hwaits
  constructor
  · intro halive
    have hpos := hwaits.mp halive.waits
    omega
  · intro hle
    constructor
    case waits => exact hwaits.mpr (by omega)
    case retries =>
      intro hone
      rw [h.unfailed] at hone
      cases hone

/-- After a failed renewal the lease ends before the next attempt, however fast Vault
    answers. -/
theorem Process.Fresh.not_keepsAlive {p : Process} {answer : Answer} (h : p.Fresh)
    (hfailed : answer.auth = none) : ¬(p.iterate answer).KeepsAlive := by
  intro halive
  obtain ⟨lease, hlease⟩ := h.stored
  rw [iterate_failed hfailed] at halive
  have hpos := halive.waits
  have hretries := halive.retries (by rw [h.unfailed])
  have hends := h.lease
  simp only [Process.nextAttempt] at hretries
  rw [hlease] at hpos hretries hends
  have htwo := lease_le_two_waits lease ((fireIn_pos_iff lease).mp hpos)
  omega

/-! ### Whole runs -/

theorem Process.iterations_cons (p : Process) (answer : Answer) (rest : List Answer) :
    p.iterations (answer :: rest) = p :: (p.iterate answer).iterations rest :=
  List.scanl_cons

theorem Process.mem_iterations (p : Process) (answers : List Answer) :
    p ∈ p.iterations answers := by
  cases answers with
  | nil => simp [Process.iterations]
  | cons answer rest => simp [Process.iterations_cons]

theorem Answer.renews_iff {answer : Answer} {renewed : Auth} (h : answer.auth = some renewed) :
    answer.Renews ↔ renewed.leaseDuration.seconds ≠ 1 := by
  constructor
  · rintro ⟨other, hother, hne⟩
    rw [h, Option.some.injEq] at hother
    exact hother ▸ hne
  · intro hne
    exact ⟨renewed, h, hne⟩

/-- From a lease that is granted on, each iteration keeps the token alive exactly if the
    lease is long enough and every renewal renews it. -/
theorem Process.Fresh.iterations_iff {answers : List Answer} : ∀ {p : Process}, p.Fresh →
    ((∀ q ∈ p.iterations answers, q.KeepsAlive) ↔
      2 ≤ p.vault.leaseDurSec ∧ ∀ answer ∈ answers, answer.Renews) := by
  induction answers with
  | nil =>
    intro p h
    rw [← h.keepsAlive_iff]
    simp [Process.iterations]
  | cons answer rest ih =>
    intro p h
    rw [Process.iterations_cons, List.forall_mem_cons, List.forall_mem_cons, h.keepsAlive_iff]
    cases hauth : answer.auth with
    | none =>
      apply iff_of_false
      · rintro ⟨_, hrest⟩
        exact h.not_keepsAlive hauth (hrest _ (Process.mem_iterations _ _))
      · rintro ⟨_, ⟨renewed, hrenewed, _⟩, _⟩
        rw [hauth] at hrenewed
        cases hrenewed
    | some renewed =>
      obtain ⟨hfresh, hstored⟩ := h.iterate hauth
      have hlease : 2 ≤ p.vault.leaseDurSec →
          (2 ≤ (p.iterate answer).vault.leaseDurSec ↔ renewed.leaseDuration.seconds ≠ 1) := by
        intro hle
        rw [hstored]
        split
        · omega
        · exact iff_of_true hle (by omega)
      rw [ih hfresh, Answer.renews_iff hauth]
      constructor
      · rintro ⟨hle, hnext, hrest⟩
        exact ⟨hle, (hlease hle).mp hnext, hrest⟩
      · rintro ⟨hle, hne, hrest⟩
        exact ⟨hle, (hlease hle).mpr hne, hrest⟩

/-- The login that succeeds, among those that are attempted. -/
def firstLogin (logins : List Answer) : Option Auth :=
  (logins.take loginMaxAttempts).findSome? fun answer => doLogin answer.auth

/-- A process starts with the lease of its login. -/
theorem loginFrom_eq_some : ∀ {attempts : Nat} {logins : List Answer} {now : Int} {p : Process},
    loginFrom attempts now logins = some p →
      ∃ granted, (logins.take attempts).findSome? (fun answer => doLogin answer.auth) =
        some granted ∧ p.Fresh ∧ p.vault.leaseDurSec = granted.leaseDuration.seconds
  | 0, _, _, _, h => by cases h
  | _ + 1, [], _, _, h => by cases h
  | attempts + 1, answer :: rest, now, p, h => by
    rw [loginFrom] at h
    rw [List.take_succ_cons, List.findSome?_cons]
    cases hlogin : doLogin answer.auth with
    | some granted =>
      simp only [hlogin, Option.some.injEq] at h
      subst h
      refine ⟨granted, rfl, Process.Fresh.granted ⟨granted.leaseDuration, rfl⟩ (Int.le_refl _), rfl⟩
    | none =>
      simp only [hlogin] at h
      exact loginFrom_eq_some h

/-- **When renewal keeps the token alive.**  For every sequence of answers to the login
    and to the renewals: every iteration waits, and the attempt after a single failed
    renewal comes before the lease ends, exactly if the login grants at least two
    seconds and every renewal succeeds, with another lease than one second. -/
theorem renewal_keepsAlive_iff (logins answers : List Answer) (p : Process)
    (hlogin : appRoleLogin logins = some p) :
    (∀ q ∈ p.iterations answers, q.KeepsAlive) ↔
      (∃ granted, firstLogin logins = some granted ∧ 2 ≤ granted.leaseDuration.seconds) ∧
        ∀ answer ∈ answers, answer.Renews := by
  obtain ⟨granted, hgranted, hfresh, hstored⟩ := loginFrom_eq_some hlogin
  have hle : 2 ≤ p.vault.leaseDurSec ↔
      ∃ granted, firstLogin logins = some granted ∧ 2 ≤ granted.leaseDuration.seconds := by
    rw [hstored]
    constructor
    · intro hle
      exact ⟨granted, hgranted, by omega⟩
    · rintro ⟨other, hother, hle⟩
      rw [firstLogin, hgranted, Option.some.injEq] at hother
      rw [hother]
      omega
  rw [hfresh.iterations_iff, hle]

/-- Vault grants an hour and the token is `s.1`. -/
def hour : Auth := ⟨"s.1".toList, 3600, by decide⟩

/-- One attempt to log in fails, then two renewals succeed. -/
theorem renewal_keepsAlive_iff_hours : ∃ p,
    appRoleLogin [⟨none, 7⟩, ⟨some hour, 9⟩] = some p ∧
      ∀ q ∈ p.iterations [⟨some hour, 5⟩, ⟨some hour, 3⟩], q.KeepsAlive := by
  refine ⟨_, rfl, ?_⟩
  apply (renewal_keepsAlive_iff [⟨none, 7⟩, ⟨some hour, 9⟩] _ _ rfl).mpr
  constructor
  · exact ⟨hour, rfl, by decide⟩
  · intro answer hmem
    have hauth : answer.auth = some hour := by
      simp only [List.mem_cons, List.not_mem_nil, or_false] at hmem
      rcases hmem with rfl | rfl
      · rfl
      · rfl
    exact ⟨hour, hauth, by decide⟩

/-- A lease of one second is renewed without a wait, and after a failed renewal of an hour
    the next attempt comes half an hour after the end of the lease. -/
theorem renewal_not_keepsAlive :
    (∃ p, appRoleLogin [⟨some ⟨"s.1".toList, 1, by decide⟩, 9⟩] = some p ∧
      fireIn p.vault.leaseDurSec = 0) ∧
    ∃ p, appRoleLogin [⟨some hour, 9⟩] = some p ∧ (p.iterate ⟨none, 0⟩).failures = 1 ∧
      (p.iterate ⟨none, 0⟩).nextAttempt = (p.iterate ⟨none, 0⟩).expiresAt + 1800 * second := by
  constructor
  · exact ⟨_, rfl, by decide⟩
  · exact ⟨_, rfl, rfl, by decide⟩

end BrokeTurnkey.Signer.TokenRenewal
