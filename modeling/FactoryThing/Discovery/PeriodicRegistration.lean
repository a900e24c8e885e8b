import FactoryThing.Timer.JobsList
import Mathlib

/-!
# Registering again

`periodicServerRegister` (`src/server/ua_services_discovery.c:554-641`). A registration that fails
is tried again after a second, then after twice the time, as long as the next time is smaller than
the default interval: the one is in seconds, and the other in milliseconds.
-/

namespace FactoryThing.Discovery

open Timer

/-- `struct PeriodicServerRegisterJob`; `hasJob` tells that `job` is not `NULL`. -/
structure PeriodicServerRegisterJob where
  defaultInterval : UInt32
  hasJob : Bool
  thisInterval : UInt32
  discoveryServerUrl : UaString
  deriving DecidableEq

/-- What one execution of the job meets: the status of the registration, the memory it asks for, and
the id and the time of a new repeated job. -/
structure Attempt where
  retval : StatusCode
  removeGranted : Bool
  retryGranted : Bool
  entryGranted : Bool
  id : Guid
  now : Int

/-- What goes wrong without memory: a retry job that is `NULL`, and a job that could not be removed
from the list and is executed once more with data that have been freed. -/
inductive RetryFault where
  | nullDeref
  | freed
  deriving DecidableEq

/-- A job for the next attempt, and the milliseconds until then. -/
structure Retry where
  job : PeriodicServerRegisterJob
  delay : UInt32
  deriving DecidableEq

/-- `nextInterval` (`:604-609`). -/
def nextInterval (retryJob : PeriodicServerRegisterJob) : UInt32 :=
  if retryJob.hasJob then retryJob.thisInterval * 2 else 1

/-- The retry job of a failed registration (`:597-629`). -/
def retryAfter (retryJob : PeriodicServerRegisterJob) (attempt : Attempt) :
    Except RetryFault (Option Retry) :=
  if attempt.retval ≠ StatusCode.good then
    if nextInterval retryJob < retryJob.defaultInterval then
      if attempt.retryGranted then
        return some
          { job :=
              { defaultInterval := retryJob.defaultInterval
                hasJob := true
                thisInterval := nextInterval retryJob
                discoveryServerUrl := retryJob.discoveryServerUrl }
            delay := nextInterval retryJob * 1000 }
      else throw RetryFault.nullDeref
    else return none
  else return none

/-- `UA_Server_addRepeatedJob` with the retry job; its status is not looked at. -/
def addRetry (retry : Retry) (attempt : Attempt) : Option PeriodicServerRegisterJob :=
  match (Call.add retry.job retry.delay attempt.id attempt.now attempt.entryGranted).perform [] with
  | (_, .added _) => some retry.job
  | _ => none

/-- `periodicServerRegister`: the job of the next attempt, if there is one. -/
def periodicServerRegister (retryJob : PeriodicServerRegisterJob) (attempt : Attempt) :
    Except RetryFault (Option PeriodicServerRegisterJob) := do
  let retry ← retryAfter retryJob attempt
  if retryJob.hasJob ∧ ¬ attempt.removeGranted then throw RetryFault.freed
  else return retry.bind fun retry => addRetry retry attempt

/-- The periodic job (`UA_Server_addPeriodicServerRegisterJob`, `:659-664`). -/
def periodicJob (defaultInterval : UInt32) (discoveryServerUrl : UaString) :
    PeriodicServerRegisterJob :=
  ⟨defaultInterval, false, 0, discoveryServerUrl⟩

section Chain

variable (defaultInterval : UInt32) (discoveryServerUrl : UaString) (attempts : Nat → Attempt)

/-- The job of an attempt in the chain that one execution of the periodic job starts; there is none
when the chain has ended. -/
def pending : Nat → Except RetryFault (Option PeriodicServerRegisterJob)
  | 0 => .ok (some (periodicJob defaultInterval discoveryServerUrl))
  | k + 1 => do
    match ← pending k with
    | none => return none
    | some retryJob => periodicServerRegister retryJob (attempts k)

/-- The retries back off as announced: the chain runs and ends, nothing that is computed on the way
wraps around, each delay is twice the one before, and shorter than the default interval. -/
structure BacksOff : Prop where
  runs : ∀ k, ∃ p, pending defaultInterval discoveryServerUrl attempts k = .ok p
  next : ∀ k retryJob,
    pending defaultInterval discoveryServerUrl attempts k = .ok (some retryJob) →
      (attempts k).retval ≠ StatusCode.good → (nextInterval retryJob).toNat = 2 ^ k
  delay : ∀ k retryJob retry,
    pending defaultInterval discoveryServerUrl attempts k = .ok (some retryJob) →
      retryAfter retryJob (attempts k) = .ok (some retry) →
        retry.job.thisInterval.toNat = 2 ^ k ∧ retry.delay.toNat = 1000 * 2 ^ k ∧
          retry.delay.toNat < defaultInterval.toNat
  ends : ∃ k, pending defaultInterval discoveryServerUrl attempts k = .ok none

end Chain

/-! ## The chain -/

variable {defaultInterval : UInt32} {discoveryServerUrl : UaString} {attempts : Nat → Attempt}
  {attempt : Attempt} {k : Nat}

/-- The job of an attempt, while the chain lasts. -/
def jobAt (defaultInterval : UInt32) (discoveryServerUrl : UaString) :
    Nat → PeriodicServerRegisterJob
  | 0 => periodicJob defaultInterval discoveryServerUrl
  | k + 1 => ⟨defaultInterval, true, UInt32.ofNat (2 ^ k), discoveryServerUrl⟩

/-- The registration fails, another one is due, and it gets into the list of jobs. -/
structure Continues (defaultInterval : UInt32) (attempt : Attempt) (k : Nat) : Prop where
  failed : attempt.retval ≠ StatusCode.good
  due : 2 ^ k < defaultInterval.toNat
  entry : attempt.entryGranted = true

/-- A retry that is due comes before the default interval has passed, and there is memory. -/
structure InTime (defaultInterval : UInt32) (attempt : Attempt) (k : Nat) : Prop where
  removed : 0 < k → attempt.removeGranted = true
  early : attempt.retval ≠ StatusCode.good → 2 ^ k < defaultInterval.toNat →
    1000 * 2 ^ k < defaultInterval.toNat ∧ attempt.retryGranted = true

theorem nextInterval_jobAt (k : Nat) :
    nextInterval (jobAt defaultInterval discoveryServerUrl k) = UInt32.ofNat (2 ^ k) := by
  cases k with
  | zero => rfl
  | succ k => rw [Nat.pow_succ, UInt32.ofNat_mul]; rfl

theorem hasJob_jobAt (k : Nat) :
    (jobAt defaultInterval discoveryServerUrl k).hasJob = decide (0 < k) := by
  cases k with
  | zero => rfl
  | succ k => exact (decide_eq_true (Nat.succ_pos k)).symm

theorem defaultInterval_jobAt (k : Nat) :
    (jobAt defaultInterval discoveryServerUrl k).defaultInterval = defaultInterval := by
  cases k with
  | zero => rfl
  | succ k => rfl

theorem discoveryServerUrl_jobAt (k : Nat) :
    (jobAt defaultInterval discoveryServerUrl k).discoveryServerUrl = discoveryServerUrl := by
  cases k with
  | zero => rfl
  | succ k => rfl

theorem toNat_two_pow (hk : 2 ^ k < 2 ^ 32) : (UInt32.ofNat (2 ^ k)).toNat = 2 ^ k :=
  UInt32.toNat_ofNat_of_lt' hk

/-- The retry after an attempt of the chain. -/
def retryAt (defaultInterval : UInt32) (discoveryServerUrl : UaString) (k : Nat) : Retry :=
  ⟨jobAt defaultInterval discoveryServerUrl (k + 1), UInt32.ofNat (2 ^ k) * 1000⟩

theorem retryAfter_jobAt (hk : 2 ^ k < 2 ^ 32) :
    retryAfter (jobAt defaultInterval discoveryServerUrl k) attempt =
      if attempt.retval ≠ StatusCode.good ∧ 2 ^ k < defaultInterval.toNat then
        if attempt.retryGranted then .ok (some (retryAt defaultInterval discoveryServerUrl k))
        else .error RetryFault.nullDeref
      else .ok none := by
  have hdue : UInt32.ofNat (2 ^ k) < defaultInterval ↔ 2 ^ k < defaultInterval.toNat := by
    rw [UInt32.lt_iff_toNat_lt, toNat_two_pow hk]
  rw [retryAfter, nextInterval_jobAt, defaultInterval_jobAt, discoveryServerUrl_jobAt]
  by_cases hfailed : attempt.retval ≠ StatusCode.good
  · rw [if_pos hfailed, if_congr (and_iff_right hfailed) rfl rfl]
    exact if_congr hdue rfl rfl
  · rw [if_neg hfailed, if_neg fun h => hfailed h.1]
    rfl

theorem toNat_delay (hk : 1000 * 2 ^ k < 2 ^ 32) :
    (UInt32.ofNat (2 ^ k) * 1000).toNat = 1000 * 2 ^ k := by
  have hthousand : (1000 : UInt32).toNat = 1000 := rfl
  rw [UInt32.toNat_mul, toNat_two_pow (by omega), hthousand, Nat.mul_comm]
  exact Nat.mod_eq_of_lt hk

theorem addRetry_retryAt (hk : 1000 * 2 ^ k < 2 ^ 32) :
    addRetry (retryAt defaultInterval discoveryServerUrl k) attempt =
      if attempt.entryGranted then some (jobAt defaultInterval discoveryServerUrl (k + 1))
      else none := by
  have hpos : 0 < 2 ^ k := Nat.two_pow_pos k
  have hlarge : ¬ (UInt32.ofNat (2 ^ k) * 1000 < 5) := by
    rw [UInt32.lt_iff_toNat_lt, toNat_delay hk]
    have hfive : (5 : UInt32).toNat = 5 := rfl
    omega
  rw [addRetry, Call.perform, retryAt]
  rw [if_neg hlarge]
  cases attempt.entryGranted with
  | true | false => rfl

theorem periodicServerRegister_jobAt (discoveryServerUrl : UaString) (hk : 2 ^ k < 2 ^ 32)
    (h : InTime defaultInterval attempt k) :
    (Continues defaultInterval attempt k ∧
      periodicServerRegister (jobAt defaultInterval discoveryServerUrl k) attempt =
        .ok (some (jobAt defaultInterval discoveryServerUrl (k + 1)))) ∨
    (¬ Continues defaultInterval attempt k ∧
      periodicServerRegister (jobAt defaultInterval discoveryServerUrl k) attempt = .ok none) := by
  have hremoved : ¬ ((jobAt defaultInterval discoveryServerUrl k).hasJob = true ∧
      ¬ attempt.removeGranted = true) := by
    rw [hasJob_jobAt, decide_eq_true_eq]
    exact fun hboth => hboth.2 (h.removed hboth.1)
  rw [periodicServerRegister, retryAfter_jobAt hk]
  by_cases hdue : attempt.retval ≠ StatusCode.good ∧ 2 ^ k < defaultInterval.toNat
  · obtain ⟨hearly, hgranted⟩ := h.early hdue.1 hdue.2
    have hbound : 1000 * 2 ^ k < 2 ^ 32 := Nat.lt_trans hearly defaultInterval.toNat_lt
    rw [if_pos hdue, if_pos hgranted]
    refine (Classical.em (attempt.entryGranted = true)).imp (fun hentry => ?_) fun hentry => ?_
    · refine ⟨⟨hdue.1, hdue.2, hentry⟩, (if_neg hremoved).trans ?_⟩
      rw [Option.bind_some, addRetry_retryAt hbound, if_pos hentry]
      rfl
    · refine ⟨fun hcontinues => hentry hcontinues.entry, (if_neg hremoved).trans ?_⟩
      rw [Option.bind_some, addRetry_retryAt hbound, if_neg hentry]
      rfl
  · rw [if_neg hdue]
    exact .inr ⟨fun hcontinues => hdue ⟨hcontinues.failed, hcontinues.due⟩, if_neg hremoved⟩

theorem pending_succ {retryJob : PeriodicServerRegisterJob}
    (h : pending defaultInterval discoveryServerUrl attempts k = .ok (some retryJob)) :
    pending defaultInterval discoveryServerUrl attempts (k + 1) =
      periodicServerRegister retryJob (attempts k) := by
  rw [pending, h]
  rfl

theorem pending_succ_none
    (h : pending defaultInterval discoveryServerUrl attempts k = .ok none) :
    pending defaultInterval discoveryServerUrl attempts (k + 1) = .ok none := by
  rw [pending, h]
  rfl

/-- The attempts before `k` all lead to another one. -/
def ContinuesTo (defaultInterval : UInt32) (attempts : Nat → Attempt) (k : Nat) : Prop :=
  ∀ j < k, Continues defaultInterval (attempts j) j

theorem ContinuesTo.succ (h : ContinuesTo defaultInterval attempts k)
    (hk : Continues defaultInterval (attempts k) k) :
    ContinuesTo defaultInterval attempts (k + 1) := by
  intro j hj
  by_cases heq : j = k
  · exact heq ▸ hk
  · exact h j (by omega)

/-- Every attempt that the chain comes to is in time. -/
def AllInTime (defaultInterval : UInt32) (attempts : Nat → Attempt) : Prop :=
  ∀ k, ContinuesTo defaultInterval attempts k → InTime defaultInterval (attempts k) k

theorem AllInTime.early (h : AllInTime defaultInterval attempts)
    (hcontinues : ContinuesTo defaultInterval attempts k) {j : Nat} (hj : j < k) :
    1000 * 2 ^ j < defaultInterval.toNat :=
  ((h j fun i hi => hcontinues i (Nat.lt_trans hi hj)).early (hcontinues j hj).failed
    (hcontinues j hj).due).1

theorem two_pow_lt (h : ∀ j < k, 1000 * 2 ^ j < defaultInterval.toNat) : 2 ^ k < 2 ^ 32 := by
  cases k with
  | zero => decide
  | succ k =>
    have hlt := h k (Nat.lt_succ_self k)
    have hbound := defaultInterval.toNat_lt
    omega

theorem AllInTime.pending_cases (h : AllInTime defaultInterval attempts)
    (discoveryServerUrl : UaString)
    (k : Nat) :
    (ContinuesTo defaultInterval attempts k ∧
      pending defaultInterval discoveryServerUrl attempts k =
        .ok (some (jobAt defaultInterval discoveryServerUrl k))) ∨
    pending defaultInterval discoveryServerUrl attempts k = .ok none := by
  induction k with
  | zero => exact .inl ⟨fun j hj => absurd hj (Nat.not_lt_zero j), rfl⟩
  | succ k ih =>
    obtain ⟨hcontinues, hpending⟩ | hnone := ih
    · have hk : 2 ^ k < 2 ^ 32 := two_pow_lt fun j hj => h.early hcontinues hj
      rw [pending_succ hpending]
      obtain ⟨hnext, hrun⟩ | ⟨-, hrun⟩ := periodicServerRegister_jobAt discoveryServerUrl hk
        (h k hcontinues)
      · exact .inl ⟨hcontinues.succ hnext, hrun⟩
      · exact .inr hrun
    · exact .inr (pending_succ_none hnone)

theorem AllInTime.jobAt_of_pending (h : AllInTime defaultInterval attempts)
    {retryJob : PeriodicServerRegisterJob}
    (hpending : pending defaultInterval discoveryServerUrl attempts k = .ok (some retryJob)) :
    ContinuesTo defaultInterval attempts k ∧
      retryJob = jobAt defaultInterval discoveryServerUrl k := by
  obtain ⟨hcontinues, hjob⟩ | hnone := h.pending_cases discoveryServerUrl k
  · rw [hpending] at hjob
    cases hjob
    exact ⟨hcontinues, rfl⟩
  · rw [hpending] at hnone
    cases hnone

theorem AllInTime.backsOff (h : AllInTime defaultInterval attempts)
    (discoveryServerUrl : UaString) :
    BacksOff defaultInterval discoveryServerUrl attempts where
  runs := by
    intro k
    obtain ⟨-, hjob⟩ | hnone := h.pending_cases discoveryServerUrl k
    · exact ⟨_, hjob⟩
    · exact ⟨_, hnone⟩
  next := by
    intro k retryJob hpending _
    obtain ⟨hcontinues, rfl⟩ := h.jobAt_of_pending hpending
    rw [nextInterval_jobAt]
    exact toNat_two_pow (two_pow_lt fun j hj => h.early hcontinues hj)
  delay := by
    intro k retryJob retry hpending hretry
    obtain ⟨hcontinues, rfl⟩ := h.jobAt_of_pending hpending
    have hk : 2 ^ k < 2 ^ 32 := two_pow_lt fun j hj => h.early hcontinues hj
    rw [retryAfter_jobAt hk] at hretry
    by_cases hdue : (attempts k).retval ≠ StatusCode.good ∧ 2 ^ k < defaultInterval.toNat
    · obtain ⟨hearly, hgranted⟩ := (h k hcontinues).early hdue.1 hdue.2
      rw [if_pos hdue, if_pos hgranted] at hretry
      cases hretry
      have hdelay : (retryAt defaultInterval discoveryServerUrl k).delay.toNat = 1000 * 2 ^ k :=
        toNat_delay (Nat.lt_trans hearly defaultInterval.toNat_lt)
      exact ⟨toNat_two_pow hk, hdelay, hdelay ▸ hearly⟩
    · rw [if_neg hdue] at hretry
      cases hretry
  ends := by
    refine ⟨32, ?_⟩
    obtain ⟨hcontinues, -⟩ | hnone := h.pending_cases discoveryServerUrl 32
    · have hlt := h.early hcontinues (j := 31) (by decide)
      have hbound := defaultInterval.toNat_lt
      omega
    · exact hnone

theorem BacksOff.inTime (h : BacksOff defaultInterval discoveryServerUrl attempts)
    (hpending : pending defaultInterval discoveryServerUrl attempts k =
      .ok (some (jobAt defaultInterval discoveryServerUrl k)))
    (hk : 2 ^ k < 2 ^ 32) : InTime defaultInterval (attempts k) k := by
  obtain ⟨p, hrun⟩ := h.runs (k + 1)
  rw [pending_succ hpending, periodicServerRegister] at hrun
  cases hretry : retryAfter (jobAt defaultInterval discoveryServerUrl k) (attempts k) with
  | error f =>
    rw [hretry] at hrun
    cases hrun
  | ok retry =>
    rw [hretry] at hrun
    have hrun' : (if (jobAt defaultInterval discoveryServerUrl k).hasJob = true ∧
        ¬ (attempts k).removeGranted = true then .error RetryFault.freed
        else .ok (retry.bind fun retry => addRetry retry (attempts k)) :
          Except RetryFault (Option PeriodicServerRegisterJob)) = .ok p := hrun
    constructor
    · intro hpos
      by_contra hrefused
      rw [if_pos ⟨by rw [hasJob_jobAt]; exact decide_eq_true hpos, hrefused⟩] at hrun'
      cases hrun'
    · intro hfailed hdue
      have hall := hretry
      rw [retryAfter_jobAt hk, if_pos ⟨hfailed, hdue⟩] at hall
      by_cases hgranted : (attempts k).retryGranted = true
      · rw [if_pos hgranted] at hall
        cases hall
        obtain ⟨-, hdelay, hearly⟩ := h.delay k _ _ hpending hretry
        exact ⟨hdelay ▸ hearly, hgranted⟩
      · rw [if_neg hgranted] at hall
        cases hall

/-- A chain backs off just as announced if and only if each of its attempts is in time. -/
theorem backsOff_iff (defaultInterval : UInt32) (discoveryServerUrl : UaString)
    (attempts : Nat → Attempt) :
    BacksOff defaultInterval discoveryServerUrl attempts ↔
      ∀ k, (∀ j < k, Continues defaultInterval (attempts j) j) →
        InTime defaultInterval (attempts k) k := by
  constructor
  · intro h
    -- the chain comes to its next job, and so far nothing has wrapped around
    have hreach : ∀ k, ContinuesTo defaultInterval attempts k →
        pending defaultInterval discoveryServerUrl attempts k =
          .ok (some (jobAt defaultInterval discoveryServerUrl k)) ∧ 2 ^ k < 2 ^ 32 := by
      intro k
      induction k with
      | zero => exact fun _ => ⟨rfl, by decide⟩
      | succ k ih =>
        intro hcontinues
        obtain ⟨hpending, hk⟩ := ih fun j hj => hcontinues j (Nat.lt_succ_of_lt hj)
        have hnow := hcontinues k (Nat.lt_succ_self k)
        have htime := h.inTime hpending hk
        have hbound := defaultInterval.toNat_lt
        have hearly := (htime.early hnow.failed hnow.due).1
        rw [pending_succ hpending]
        obtain ⟨-, hrun⟩ | ⟨hends, -⟩ := periodicServerRegister_jobAt discoveryServerUrl hk htime
        · exact ⟨hrun, by rw [Nat.pow_succ]; omega⟩
        · exact absurd hnow hends
    intro k hcontinues
    obtain ⟨hpending, hk⟩ := hreach k hcontinues
    exact h.inTime hpending hk
  · intro h
    exact AllInTime.backsOff h discoveryServerUrl

/-- The discovery server cannot be reached, and there is memory. -/
def unreachable : Attempt :=
  ⟨StatusCode.badConnectionClosed, true, true, true, ⟨0, 0, 0, Vector.replicate 8 0⟩, 0⟩

/-- With the default interval of ten minutes the eleventh retry comes after more than a quarter of
an hour. -/
theorem tenMinutes_exceeded : ¬ BacksOff 600000 .null fun _ => unreachable := by
  intro h
  have hpending : pending 600000 .null (fun _ => unreachable) 10 =
    .ok (some (jobAt 600000 .null 10)) :=
    rfl
  obtain ⟨-, -, hshort⟩ := h.delay 10 _ (retryAt 600000 .null 10) hpending rfl
  exact absurd hshort (by decide)

end FactoryThing.Discovery
