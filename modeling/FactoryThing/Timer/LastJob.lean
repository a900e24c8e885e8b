import FactoryThing.Timer.Schedule

/-!
# The last job

`UA_RepeatedJobsList_process` reads the time it returns from the first entry of the list
(`ua_timer.c:263`). When jobs were due, the callbacks may have taken all entries away by then.
-/

namespace FactoryThing.Timer

variable {J : Type}

/-- What the callbacks of the jobs that are due put into the queue. -/
def queuedByCallbacks (rjl : JobsList J) (nowMonotonic : Int) (script : List (List (Call J))) :
    List (Change J) :=
  ((Event.process nowMonotonic script).calls rjl).flatMap Call.changes

/-- No job is due, or the changes that wait in the queue and those of the callbacks leave one. -/
def KeepsJob (rjl : JobsList J) (nowMonotonic : Int) (script : List (List (Call J))) : Prop :=
  dueJobs (processChanges rjl nowMonotonic).repeatedJobs nowMonotonic = [] ∨
    alive (rjl.repeatedJobs.map RepeatedJob.id)
      (rjl.changes ++ queuedByCallbacks rjl nowMonotonic script) ≠ []

theorem map_id_batch (rjl : JobsList J) (nowMonotonic : Int) (script : List (List (Call J))) :
    let start := (processChanges rjl nowMonotonic).repeatedJobs
    let executedNow := dueJobs start nowMonotonic
    let result := dispatchAll nowMonotonic executedNow ⟨start.drop executedNow.length, none⟩ []
      script
    ((processChanges ⟨result.1.jobs, result.2.1⟩ nowMonotonic).repeatedJobs.map
        RepeatedJob.id).Perm
      (alive (rjl.repeatedJobs.map RepeatedJob.id)
        (rjl.changes ++ queuedByCallbacks rjl nowMonotonic script)) := by
  intro start executedNow result
  obtain ⟨hperm, hchanges⟩ := dispatchAll_jobs nowMonotonic executedNow
    ⟨start.drop executedNow.length, none⟩ [] script
  have hsplit : executedNow ++ start.drop executedNow.length = start :=
    List.prefix_iff_eq_append.mp (List.takeWhile_prefix _)
  rw [hsplit] at hperm
  have hids : (result.1.jobs.map RepeatedJob.id).Perm (start.map RepeatedJob.id) := by
    have hmap := hperm.map Registration.id
    rwa [List.map_map, List.map_map] at hmap
  have hqueue : result.2.1 = queuedByCallbacks rjl nowMonotonic script := hchanges
  refine (map_id_processChanges _ nowMonotonic).trans ?_
  rw [hqueue]
  refine (alive_perm (hids.trans (map_id_processChanges rjl nowMonotonic)) _).trans ?_
  rw [alive, alive, alive, List.foldl_append]

/-- The times of the jobs, and those they will get in this call, are before `UA_INT64_MAX`. -/
def BeforeSentinel (nowMonotonic : Int) (jobs : List (RepeatedJob J)) : Prop :=
  ∀ rj ∈ jobs, rj.nextTime < int64Max ∧ nowMonotonic + rj.interval < int64Max

/-- The same for all jobs of a call: the clock has not come near its end. -/
structure ClockRoom (rjl : JobsList J) (nowMonotonic : Int) (script : List (List (Call J))) :
    Prop where
  now : nowMonotonic + 1 < int64Max
  jobs : BeforeSentinel nowMonotonic rjl.repeatedJobs
  changes : ∀ rj, .add rj ∈ rjl.changes ++ queuedByCallbacks rjl nowMonotonic script →
    nowMonotonic + rj.interval < int64Max

theorem beforeSentinel_applyChange {nowMonotonic : Int} {jobs : List (RepeatedJob J)}
    (h : BeforeSentinel nowMonotonic jobs) {c : Change J}
    (hc : ∀ rj, c = .add rj → nowMonotonic + rj.interval < int64Max) :
    BeforeSentinel nowMonotonic (applyChange nowMonotonic jobs c) := by
  have hremove : ∀ id, BeforeSentinel nowMonotonic (removeRepeatedJob jobs id) :=
    fun id rj hmem => h rj (List.mem_of_mem_eraseP hmem)
  unfold applyChange
  cases c with
  | remove id => exact hremove id
  | add rj =>
    dsimp only
    split
    · intro rj' hmem
      have hrj := hc rj rfl
      refine ⟨?_, ?_⟩
      · obtain hold | heq | ⟨other, hother, heq⟩ := mem_insertSorted jobs _ rj' hmem
        · exact (h rj' hold).1
        · exact heq ▸ hrj
        · exact heq ▸ (h other hother).1
      · have hperm := map_insertSorted (f := RepeatedJob.interval) (fun _ _ => rfl) jobs
          { rj with nextTime := nowMonotonic + rj.interval }
        obtain heq | hold := List.mem_cons.mp (hperm.mem_iff.mp (List.mem_map_of_mem hmem))
        · rw [heq]
          exact hrj
        · obtain ⟨other, hother, heq⟩ := List.mem_map.mp hold
          exact heq ▸ (h other hother).2
    · exact hremove rj.id

theorem beforeSentinel_processChanges {nowMonotonic : Int} {jobs : List (RepeatedJob J)}
    {changes : List (Change J)} (h : BeforeSentinel nowMonotonic jobs)
    (hchanges : ∀ rj, .add rj ∈ changes → nowMonotonic + rj.interval < int64Max) :
    BeforeSentinel nowMonotonic (processChanges ⟨jobs, changes⟩ nowMonotonic).repeatedJobs := by
  unfold processChanges
  induction changes generalizing jobs with
  | nil => exact h
  | cons c changes ih =>
    exact ih (beforeSentinel_applyChange h fun rj hrj => hchanges rj (hrj ▸ List.mem_cons_self))
      fun rj hmem => hchanges rj (List.mem_cons_of_mem c hmem)

theorem again_lt {nowMonotonic : Int} {rj : RepeatedJob J} (hnow : nowMonotonic + 1 < int64Max)
    (hdue : rj.nextTime ≤ nowMonotonic) (hrj : nowMonotonic + rj.interval < int64Max) :
    (rj.again nowMonotonic).nextTime < int64Max := by
  unfold RepeatedJob.again
  dsimp only
  split <;> omega

theorem beforeSentinel_dispatchAll {nowMonotonic : Int} (hnow : nowMonotonic + 1 < int64Max)
    (executedNow : List (RepeatedJob J)) :
    ∀ (sorted : Sorted J) (changes : List (Change J)) (script : List (List (Call J))),
      (∀ rj ∈ executedNow, rj.nextTime ≤ nowMonotonic) →
      BeforeSentinel nowMonotonic executedNow → BeforeSentinel nowMonotonic sorted.jobs →
        BeforeSentinel nowMonotonic
          (dispatchAll nowMonotonic executedNow sorted changes script).1.jobs := by
  induction executedNow with
  | nil => exact fun _ _ _ _ _ h => h
  | cons rj rest ih =>
    intro sorted changes script hdue hexecuted hsorted
    have hrj := hexecuted rj List.mem_cons_self
    refine ih _ _ _ (fun rj' hmem => hdue rj' (List.mem_cons_of_mem rj hmem))
      (fun rj' hmem => hexecuted rj' (List.mem_cons_of_mem rj hmem)) ?_
    intro rj' hmem
    obtain rfl | hold := List.mem_cons.mp ((insert_perm nowMonotonic sorted _).mem_iff.mp hmem)
    · exact ⟨again_lt hnow (hdue rj List.mem_cons_self) hrj.2, hrj.2⟩
    · exact hsorted rj' hold

theorem head_eq_int64Max_iff {nowMonotonic : Int} {jobs : List (RepeatedJob J)}
    (h : BeforeSentinel nowMonotonic jobs) :
    ((jobs.head?).map RepeatedJob.nextTime).getD int64Max = int64Max ↔ jobs = [] := by
  cases jobs with
  | nil => exact ⟨fun _ => rfl, fun _ => rfl⟩
  | cons first rest =>
    have hfirst := (h first List.mem_cons_self).1
    exact ⟨fun heq => absurd heq hfirst.ne, nofun⟩

theorem beforeSentinel_batch {rjl : JobsList J} {nowMonotonic : Int}
    {script : List (List (Call J))} (h : ClockRoom rjl nowMonotonic script) :
    let start := (processChanges rjl nowMonotonic).repeatedJobs
    let executedNow := dueJobs start nowMonotonic
    let result := dispatchAll nowMonotonic executedNow ⟨start.drop executedNow.length, none⟩ []
      script
    BeforeSentinel nowMonotonic start ∧
      BeforeSentinel nowMonotonic
        (processChanges ⟨result.1.jobs, result.2.1⟩ nowMonotonic).repeatedJobs := by
  intro start executedNow result
  have hstart : BeforeSentinel nowMonotonic start :=
    beforeSentinel_processChanges h.jobs fun rj hmem => h.changes rj (List.mem_append_left _ hmem)
  have hqueue : result.2.1 = queuedByCallbacks rjl nowMonotonic script :=
    (dispatchAll_jobs nowMonotonic executedNow _ [] script).2
  refine ⟨hstart, beforeSentinel_processChanges ?_ fun rj hmem => ?_⟩
  · refine beforeSentinel_dispatchAll h.now executedNow _ _ _ ?_ ?_ ?_
    · intro rj hmem
      have htake : rj ∈ start.takeWhile fun rj => decide (rj.nextTime ≤ nowMonotonic) := hmem
      have hle := List.mem_takeWhile_imp htake
      exact of_decide_eq_true hle
    · exact fun rj hmem => hstart rj ((List.takeWhile_prefix _).subset hmem)
    · exact fun rj hmem => hstart rj (List.mem_of_mem_drop hmem)
  · exact h.changes rj (List.mem_append_right _ (hqueue ▸ hmem))

/-- `UA_RepeatedJobsList_process` comes to its end just if no job is due, or a job is left after the
batch. Then, as long as the clock is before its end, `UA_INT64_MAX` says that the list is empty. -/
theorem process_survives_iff (rjl : JobsList J) (nowMonotonic : Int)
    (script : List (List (Call J))) :
    (∃ rjl' next, (process rjl nowMonotonic script).1 = .ok (rjl', next) ∧
      (ClockRoom rjl nowMonotonic script → (next = int64Max ↔ rjl'.repeatedJobs = []))) ↔
    KeepsJob rjl nowMonotonic script := by
  have hids := map_id_batch rjl nowMonotonic script
  have hroom := @beforeSentinel_batch _ rjl nowMonotonic script
  unfold KeepsJob process
  dsimp only at hids hroom ⊢
  generalize processChanges rjl nowMonotonic = start at hids hroom ⊢
  by_cases hdue : dueJobs start.repeatedJobs nowMonotonic = []
  · rw [hdue, List.isEmpty_nil, if_pos rfl]
    refine iff_of_true ⟨_, _, rfl, fun h => ?_⟩ (Or.inl rfl)
    exact head_eq_int64Max_iff (hroom h).1
  · rw [if_neg (by simpa using hdue)]
    generalize dispatchAll nowMonotonic _ _ [] script = result at hids hroom ⊢
    obtain ⟨sorted, changes, seen⟩ := result
    dsimp only at hids hroom ⊢
    generalize processChanges ⟨sorted.jobs, changes⟩ nowMonotonic = last at hids hroom ⊢
    cases hjobs : last.repeatedJobs with
    | nil =>
      rw [hjobs] at hids
      refine iff_of_false ?_ ?_
      · rintro ⟨rjl', next, hcrash, -⟩
        cases hcrash
      · rintro (hnone | hleft)
        · exact hdue hnone
        · exact hleft hids.nil_eq.symm
    | cons first rest =>
      rw [hjobs] at hids
      refine iff_of_true ⟨_, _, rfl, fun h => ?_⟩ (Or.inr fun hempty => ?_)
      · have hfirst := (hroom h).2
        rw [hjobs] at hfirst ⊢
        exact head_eq_int64Max_iff hfirst
      · rw [hempty] at hids
        exact absurd hids.eq_nil (List.cons_ne_nil _ _)

/-- The only job is due, and its callback removes it: the first entry of an empty list is read. -/
theorem lastJob_removes_itself :
    ¬ ∃ rjl' next, (process dispatchedOnce 100000 [[.remove firstId true]]).1 =
      .ok (rjl', next) := by
  have hcrash : (process dispatchedOnce 100000 [[.remove firstId true]]).1 =
      .error .nullDeref := by decide +kernel
  rintro ⟨rjl', next, hok⟩
  rw [hcrash] at hok
  cases hok

end FactoryThing.Timer
