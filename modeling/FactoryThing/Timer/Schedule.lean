import FactoryThing.Timer.Removal

/-!
# The timer list

Whatever the callbacks of a batch add or remove, `UA_RepeatedJobsList_process` leaves a sorted list
of just the registered jobs, has dispatched what was due, and returns a time that is not in the
past. What is registered is said by the calls alone: a job is, from the call that added it on to
the one that removed it.
-/

namespace FactoryThing.Timer

variable {J : Type}

structure Registration (J : Type) where
  id : Guid
  interval : Nat
  job : J
  deriving DecidableEq

def RepeatedJob.registration (rj : RepeatedJob J) : Registration J := ⟨rj.id, rj.interval, rj.job⟩

/-- A call adds a job, or removes one, or is refused. -/
def Call.register (regs : List (Registration J)) : Call J → List (Registration J)
  | .add job interval id _ alloc =>
      if interval < 5 ∨ alloc = false then regs else ⟨id, interval.toNat * 10000, job⟩ :: regs
  | .remove id alloc => if alloc then regs.filter fun reg => reg.id ≠ id else regs

/-- The jobs that are registered after some calls. -/
def registered (calls : List (Call J)) : List (Registration J) := calls.foldl Call.register []

def Call.addedId : Call J → Option Guid
  | .add _ interval id _ alloc => if interval < 5 ∨ alloc = false then none else some id
  | .remove _ _ => none

/-- The clock is so far from the end of `UA_DateTime` that the first execution can be given. -/
def Call.InRange : Call J → Prop
  | .add _ interval _ now _ => now + interval.toNat * 10000 < int64Max
  | .remove _ _ => True

/-- The ids of the jobs are distinct, and times are representable. -/
structure Usable (calls : List (Call J)) : Prop where
  distinct : (calls.filterMap Call.addedId).Nodup
  inRange : ∀ call ∈ calls, call.InRange

/-- The calls of an event: of a batch, those of the callbacks of the jobs that are dispatched. -/
def Event.calls (rjl : JobsList J) : Event J → List (Call J)
  | .call c => [c]
  | .process nowMonotonic script =>
      let executedNow := dueJobs (processChanges rjl nowMonotonic).repeatedJobs nowMonotonic
      (script.take executedNow.length).flatten

/-- A list that a run ends with, and all the calls that were made in the run. -/
inductive Reaches : JobsList J → List (Call J) → Prop where
  | init : Reaches JobsList.init []
  | step {rjl rjl' : JobsList J} {calls : List (Call J)} (e : Event J) (h : Reaches rjl calls)
      (hstep : (step rjl e).1 = .ok rjl') : Reaches rjl' (calls ++ e.calls rjl)

variable (calls : List (Call J)) {rjl : JobsList J}

theorem registered_append (call : Call J) :
    registered (calls ++ [call]) = call.register (registered calls) := by
  unfold registered
  rw [List.foldl_append]
  rfl

theorem Usable.left {calls calls' : List (Call J)} (h : Usable (calls ++ calls')) :
    Usable calls where
  distinct := by
    have hall := h.distinct
    rw [List.filterMap_append] at hall
    exact hall.of_append_left
  inRange call hmem := h.inRange call (List.mem_append_left _ hmem)

theorem mem_registered : ∀ reg ∈ registered calls, reg.id ∈ calls.filterMap Call.addedId := by
  induction calls using List.reverseRecOn with
  | nil =>
    intro reg hmem
    cases hmem
  | append_singleton calls call ih =>
    intro reg hmem
    rw [registered_append] at hmem
    rw [List.filterMap_append]
    cases call with
    | add job interval id now alloc =>
      unfold Call.register at hmem
      dsimp only at hmem
      split at hmem
      · exact List.mem_append_left _ (ih reg hmem)
      · next haccepted =>
        rcases List.mem_cons.mp hmem with rfl | hold
        · exact List.mem_append_right _ (by simp [Call.addedId, if_neg haccepted])
        · exact List.mem_append_left _ (ih reg hold)
    | remove id alloc =>
      unfold Call.register at hmem
      dsimp only at hmem
      split at hmem
      · exact List.mem_append_left _ (ih reg (List.mem_filter.mp hmem).1)
      · exact List.mem_append_left _ (ih reg hmem)

theorem nodup_registered (h : Usable calls) : ((registered calls).map Registration.id).Nodup := by
  induction calls using List.reverseRecOn with
  | nil => exact List.nodup_nil
  | append_singleton calls call ih =>
    have hold := ih h.left
    rw [registered_append]
    cases call with
    | add job interval id now alloc =>
      unfold Call.register
      dsimp only
      split
      · exact hold
      · next haccepted =>
        refine List.nodup_cons.mpr ⟨?_, hold⟩
        intro hmem
        obtain ⟨reg, hreg, hid⟩ := List.mem_map.mp hmem
        have hdistinct := h.distinct
        rw [List.filterMap_append, List.nodup_append] at hdistinct
        exact hdistinct.2.2 reg.id (mem_registered calls reg hreg) id
          (by simp [Call.addedId, if_neg haccepted]) hid
    | remove id alloc =>
      unfold Call.register
      dsimp only
      split
      · exact hold.sublist (List.filter_sublist.map _)
      · exact hold

def Call.changes (call : Call J) : List (Change J) := (call.perform []).1

theorem perform_fst (changes : List (Change J)) (call : Call J) :
    (call.perform changes).1 = changes ++ call.changes := by
  unfold Call.changes
  cases call with
  | add job interval id now alloc =>
    unfold Call.perform
    dsimp only
    split
    · exact (List.append_nil changes).symm
    split
    · rfl
    · exact (List.append_nil changes).symm
  | remove id alloc =>
    unfold Call.perform
    dsimp only
    split
    · rfl
    · exact (List.append_nil changes).symm

theorem performAll_fst (calls : List (Call J)) (changes : List (Change J)) :
    (performAll changes calls).1 = changes ++ calls.flatMap Call.changes := by
  induction calls generalizing changes with
  | nil => exact (List.append_nil changes).symm
  | cons call calls ih =>
    unfold performAll
    rw [ih, perform_fst, List.append_assoc, List.flatMap_cons]

theorem timeless_registration : Timeless (RepeatedJob.registration (J := J)) := fun _ _ => rfl

theorem removeRepeatedJob_eq_filter {jobs : List (RepeatedJob J)}
    (h : (jobs.map RepeatedJob.id).Nodup) (jobId : Guid) :
    removeRepeatedJob jobs jobId = jobs.filter fun rj => rj.id ≠ jobId := by
  unfold removeRepeatedJob
  induction jobs with
  | nil => rfl
  | cons rj rest ih =>
    obtain ⟨hfirst, hrest⟩ := List.nodup_cons.mp h
    by_cases hid : rj.id = jobId
    · have hkeep : rest.filter (fun rj => decide (rj.id ≠ jobId)) = rest := by
        apply List.filter_eq_self.mpr
        intro rj' hmem
        refine decide_eq_true ?_
        rintro rfl
        exact hfirst (hid ▸ List.mem_map_of_mem hmem)
      rw [List.eraseP_cons_of_pos (by simpa using hid),
        List.filter_cons_of_neg (by simpa using hid), hkeep]
    · rw [List.eraseP_cons_of_neg (by simpa using hid),
        List.filter_cons_of_pos (by simpa using hid), ih hrest]

theorem registration_applyChange (nowMonotonic : Int) {jobs : List (RepeatedJob J)}
    {regs : List (Registration J)} (hperm : (jobs.map RepeatedJob.registration).Perm regs)
    (hnodup : (regs.map Registration.id).Nodup) {call : Call J} (hrange : call.InRange) :
    ((call.changes.foldl (applyChange nowMonotonic) jobs).map RepeatedJob.registration).Perm
      (call.register regs) := by
  cases call with
  | add job interval id now alloc =>
    unfold Call.changes Call.perform Call.register
    dsimp only
    by_cases hinterval : interval < 5
    · rw [if_pos hinterval, if_pos (.inl hinterval)]
      exact hperm
    rw [if_neg hinterval]
    cases alloc with
    | false =>
      rw [if_neg Bool.false_ne_true, if_pos (.inr rfl)]
      exact hperm
    | true =>
      have haccepted : ¬ (interval < 5 ∨ true = false) := by simp [hinterval]
      rw [if_pos rfl, if_neg haccepted]
      show ((applyChange nowMonotonic jobs (.add _)).map RepeatedJob.registration).Perm _
      unfold applyChange
      dsimp only
      rw [if_pos (by simpa [Call.InRange] using hrange)]
      exact (map_insertSorted timeless_registration jobs _).trans (hperm.cons _)
  | remove id alloc =>
    unfold Call.changes Call.perform Call.register
    dsimp only
    cases alloc with
    | false => exact hperm
    | true =>
      show ((removeRepeatedJob jobs id).map RepeatedJob.registration).Perm _
      have hids : (jobs.map RepeatedJob.id).Nodup := by
        have h := (hperm.map Registration.id).nodup_iff.mpr hnodup
        rw [List.map_map] at h
        exact h
      rw [removeRepeatedJob_eq_filter hids]
      have hfilter := hperm.filter fun reg => reg.id ≠ id
      rw [List.filter_map] at hfilter
      exact hfilter

/-- The list and its queue account for all calls: those before some point have been worked off,
the others wait in the queue. -/
structure Consistent (rjl : JobsList J) (worked waiting : List (Call J)) : Prop where
  inOrder : InOrder rjl.repeatedJobs
  registered : (rjl.repeatedJobs.map RepeatedJob.registration).Perm (registered worked)
  changes : rjl.changes = waiting.flatMap Call.changes

theorem Consistent.processChanges {rjl : JobsList J} {worked waiting : List (Call J)}
    (h : Consistent rjl worked waiting) (husable : Usable (worked ++ waiting))
    (nowMonotonic : Int) :
    Consistent (processChanges rjl nowMonotonic) (worked ++ waiting) [] := by
  refine ⟨inOrder_processChanges h.inOrder nowMonotonic, ?_, rfl⟩
  obtain ⟨jobs, changes⟩ := rjl
  obtain ⟨-, hregistered, rfl⟩ := h
  unfold Timer.processChanges
  dsimp only at hregistered ⊢
  induction waiting generalizing jobs worked with
  | nil =>
    rw [List.append_nil]
    exact hregistered
  | cons call waiting ih =>
    rw [List.append_cons] at husable ⊢
    rw [List.flatMap_cons, List.foldl_append]
    have hworked := husable.left
    have hcall := registration_applyChange nowMonotonic hregistered
      (nodup_registered worked hworked.left) (hworked.inRange call (by simp))
    rw [← registered_append] at hcall
    exact ih husable _ hcall

/-- The job that is handed to the callback. -/
def Observed.dispatchedJob : Observed J → Option (Guid × J)
  | .dispatched id job => some (id, job)
  | _ => none

theorem dispatchedJob_performAll (changes : List (Change J)) :
    (performAll changes calls).2.filterMap Observed.dispatchedJob = [] := by
  induction calls generalizing changes with
  | nil => rfl
  | cons call calls ih =>
    have hnone : (call.perform changes).2.dispatchedJob = none := by
      unfold Call.perform
      cases call with
      | add job interval id now alloc =>
        dsimp only
        split
        · rfl
        split
        · rfl
        · rfl
      | remove id alloc =>
        dsimp only
        split
        · rfl
        · rfl
    unfold performAll
    rw [List.filterMap_cons, hnone]
    exact ih _

theorem dispatchAll_jobs (nowMonotonic : Int) (executedNow : List (RepeatedJob J)) :
    ∀ (sorted : Sorted J) (changes : List (Change J)) (script : List (List (Call J))),
      let result := dispatchAll nowMonotonic executedNow sorted changes script
      (result.1.jobs.map RepeatedJob.registration).Perm
          ((executedNow ++ sorted.jobs).map RepeatedJob.registration) ∧
        result.2.1 =
          changes ++ ((script.take executedNow.length).flatten).flatMap Call.changes := by
  induction executedNow with
  | nil => exact fun sorted changes script => ⟨.refl _, (List.append_nil changes).symm⟩
  | cons rj rest ih =>
    intro sorted changes script
    obtain ⟨hperm, hchanges⟩ := ih (sorted.insert nowMonotonic (rj.again nowMonotonic))
      (performAll changes (script.headD [])).1 script.tail
    refine ⟨?_, ?_⟩
    · have hinsert := (insert_perm nowMonotonic sorted (rj.again nowMonotonic)).map
        RepeatedJob.registration
      refine hperm.trans ?_
      rw [List.map_append, List.cons_append, List.map_cons, List.map_append]
      exact (hinsert.append_left _).trans List.perm_middle
    · refine hchanges.trans ?_
      rw [performAll_fst, List.append_assoc, ← List.flatMap_append]
      congr 2
      cases script with
      | nil => simp
      | cons calls script => simp

theorem dispatchAll_sorted (nowMonotonic : Int) (executedNow : List (RepeatedJob J)) :
    ∀ (sorted : Sorted J) (changes : List (Change J)) (script : List (List (Call J))),
      sorted.Ordered nowMonotonic →
      let result := dispatchAll nowMonotonic executedNow sorted changes script
      result.1.Ordered nowMonotonic ∧
        result.2.2.filterMap Observed.dispatchedJob =
          executedNow.map fun rj => (rj.id, rj.job) := by
  induction executedNow with
  | nil => exact fun sorted changes script hordered => ⟨hordered, rfl⟩
  | cons rj rest ih =>
    intro sorted changes script hordered
    obtain ⟨hordered', hseen⟩ := ih (sorted.insert nowMonotonic (rj.again nowMonotonic))
      (performAll changes (script.headD [])).1 script.tail
      (hordered.insert (le_again nowMonotonic rj))
    refine ⟨hordered', ?_⟩
    show (Observed.dispatched rj.id rj.job :: (_ ++ _)).filterMap Observed.dispatchedJob = _
    rw [List.filterMap_cons, List.filterMap_append, dispatchedJob_performAll]
    exact congrArg _ hseen

theorem dueJobs_eq_filter {jobs : List (RepeatedJob J)} (h : InOrder jobs) (nowMonotonic : Int) :
    dueJobs jobs nowMonotonic = jobs.filter (fun rj => rj.nextTime ≤ nowMonotonic) ∧
      ∀ rj ∈ jobs.drop (dueJobs jobs nowMonotonic).length, nowMonotonic < rj.nextTime := by
  unfold dueJobs
  induction jobs with
  | nil => exact ⟨rfl, nofun⟩
  | cons rj rest ih =>
    obtain ⟨hfirst, hrest⟩ := List.pairwise_cons.mp h
    by_cases hdue : rj.nextTime ≤ nowMonotonic
    · obtain ⟨hfilter, hlater⟩ := ih hrest
      rw [List.takeWhile_cons_of_pos (by simpa using hdue),
        List.filter_cons_of_pos (by simpa using hdue)]
      exact ⟨congrArg _ hfilter, hlater⟩
    · have hall : ∀ rj' ∈ rj :: rest, nowMonotonic < rj'.nextTime := by
        intro rj' hmem
        rcases List.mem_cons.mp hmem with rfl | hmem
        · exact not_le.mp hdue
        · exact lt_of_lt_of_le (not_le.mp hdue) (hfirst rj' hmem)
      rw [List.takeWhile_cons_of_neg (by simpa using hdue)]
      refine ⟨?_, hall⟩
      symm
      apply List.filter_eq_nil_iff.mpr
      intro rj' hmem hle
      exact absurd (of_decide_eq_true hle) (not_le.mpr (hall rj' hmem))

/-- The time that is returned for a list. -/
def Earliest (jobs : List (RepeatedJob J)) (next : Int) : Prop :=
  (∀ rj ∈ jobs, next ≤ rj.nextTime) ∧
    (jobs = [] ∧ next = int64Max ∨ ∃ rj ∈ jobs, rj.nextTime = next)

theorem earliest_head {first : RepeatedJob J} {rest : List (RepeatedJob J)}
    (h : InOrder (first :: rest)) : Earliest (first :: rest) first.nextTime := by
  refine ⟨?_, .inr ⟨first, List.mem_cons_self, rfl⟩⟩
  intro rj hmem
  rcases List.mem_cons.mp hmem with rfl | hmem
  · exact le_refl _
  · exact (List.pairwise_cons.mp h).1 rj hmem

/-- What a call of `UA_RepeatedJobsList_process` owes its caller: `calls` are all calls that have
been made up to its end. -/
structure Settled (rjl rjl' : JobsList J) (calls : List (Call J)) (nowMonotonic next : Int)
    (seen : List (Observed J)) : Prop where
  inOrder : InOrder rjl'.repeatedJobs
  /-- each registered job is there, and nothing else -/
  complete : (rjl'.repeatedJobs.map RepeatedJob.registration).Perm (registered calls)
  nodup : (rjl'.repeatedJobs.map RepeatedJob.id).Nodup
  /-- each job that was due is handed over once, and no other one -/
  dispatched : seen.filterMap Observed.dispatchedJob =
    ((processChanges rjl nowMonotonic).repeatedJobs.filter
      fun rj => rj.nextTime ≤ nowMonotonic).map fun rj => (rj.id, rj.job)
  distinct : ((seen.filterMap Observed.dispatchedJob).map Prod.fst).Nodup
  notBefore : NotBefore nowMonotonic rjl'.repeatedJobs
  earliest : Earliest rjl'.repeatedJobs next

theorem Consistent.nodup {worked : List (Call J)} (h : Consistent rjl worked [])
    (husable : Usable worked) : (rjl.repeatedJobs.map RepeatedJob.id).Nodup := by
  have hnodup :=
    ((h.registered.map Registration.id).nodup_iff).mpr (nodup_registered worked husable)
  rw [List.map_map] at hnodup
  exact hnodup

theorem process_settled {worked waiting : List (Call J)} (h : Consistent rjl worked waiting)
    (nowMonotonic : Int) (script : List (List (Call J)))
    (husable : Usable (worked ++ waiting ++ (Event.process nowMonotonic script).calls rjl)) :
    (dueJobs (processChanges rjl nowMonotonic).repeatedJobs nowMonotonic ≠ [] ∧
        registered (worked ++ waiting ++ (Event.process nowMonotonic script).calls rjl) = [] ∧
        (process rjl nowMonotonic script).1 = .error .nullDeref) ∨
      ∃ rjl' next seen, process rjl nowMonotonic script = (.ok (rjl', next), seen) ∧
        Consistent rjl' (worked ++ waiting ++ (Event.process nowMonotonic script).calls rjl) [] ∧
        Settled rjl rjl' (worked ++ waiting ++ (Event.process nowMonotonic script).calls rjl)
          nowMonotonic next seen := by
  have hstart := h.processChanges husable.left nowMonotonic
  have hids := hstart.nodup husable.left
  obtain ⟨hfilter, hlater⟩ := dueJobs_eq_filter hstart.inOrder nowMonotonic
  unfold process
  dsimp only [Event.calls] at husable ⊢
  generalize hrjl : processChanges rjl nowMonotonic = rjl₁ at *
  have hsplit : dueJobs rjl₁.repeatedJobs nowMonotonic ++
      rjl₁.repeatedJobs.drop (dueJobs rjl₁.repeatedJobs nowMonotonic).length =
      rjl₁.repeatedJobs :=
    (List.prefix_iff_eq_append.mp (List.takeWhile_prefix _))
  generalize dueJobs rjl₁.repeatedJobs nowMonotonic = executedNow at *
  by_cases hdue : executedNow = []
  · subst hdue
    rw [List.isEmpty_nil, if_pos rfl, List.length_nil, List.take_zero, List.flatten_nil,
      List.append_nil]
    refine .inr ⟨_, _, _, rfl, hstart, hstart.inOrder, hstart.registered, hids, ?_, List.nodup_nil,
      ?_, ?_⟩
    · rw [hrjl, ← hfilter]
      rfl
    · exact fun rj hmem => le_of_lt (hlater rj hmem)
    · cases hjobs : rjl₁.repeatedJobs with
      | nil => exact ⟨nofun, .inl ⟨rfl, rfl⟩⟩
      | cons first rest =>
        have hinOrder := hstart.inOrder
        rw [hjobs] at hinOrder
        exact earliest_head hinOrder
  · rw [if_neg (by simpa using hdue)]
    have hordered : Sorted.Ordered nowMonotonic
        ⟨rjl₁.repeatedJobs.drop executedNow.length, none⟩ :=
      ⟨hstart.inOrder.sublist (List.drop_sublist _ _), fun rj hmem => le_of_lt (hlater rj hmem),
        nofun⟩
    have hspec := dispatchAll_sorted nowMonotonic executedNow _ [] script hordered
    have hjobs := dispatchAll_jobs nowMonotonic executedNow
      ⟨rjl₁.repeatedJobs.drop executedNow.length, none⟩ [] script
    generalize dispatchAll nowMonotonic executedNow _ [] script = result at hspec hjobs ⊢
    obtain ⟨sorted, changes, seen⟩ := result
    obtain ⟨hsorted, hseen⟩ := hspec
    obtain ⟨hperm, hchanges⟩ := hjobs
    dsimp only at hperm hchanges hseen ⊢
    rw [hsplit] at hperm
    have hbatch : Consistent ⟨sorted.jobs, changes⟩ (worked ++ waiting)
        (script.take executedNow.length).flatten :=
      ⟨hsorted.inOrder, hperm.trans hstart.registered, hchanges⟩
    have hend := hbatch.processChanges husable nowMonotonic
    have hnot : NotBefore nowMonotonic
        (processChanges ⟨sorted.jobs, changes⟩ nowMonotonic).repeatedJobs :=
      notBefore_processChanges hsorted.notBefore
    generalize processChanges ⟨sorted.jobs, changes⟩ nowMonotonic = rjl₂ at hend hnot ⊢
    cases hjobs : rjl₂.repeatedJobs with
    | nil =>
      have hempty := hend.registered
      rw [hjobs] at hempty
      exact .inl ⟨hdue, hempty.nil_eq.symm, rfl⟩
    | cons first rest =>
      have hinOrder := hend.inOrder
      rw [hjobs] at hinOrder
      refine .inr ⟨rjl₂, first.nextTime, seen, rfl, hend, hend.inOrder, hend.registered,
        hend.nodup husable, ?_, ?_, hnot, ?_⟩
      · rw [hseen, hrjl, hfilter]
      · rw [hseen, List.map_map]
        rw [← hsplit, List.map_append] at hids
        exact hids.of_append_left
      · rw [hjobs]
        exact earliest_head hinOrder

theorem step_consistent {rjl rjl' : JobsList J} {worked waiting : List (Call J)}
    (h : Consistent rjl worked waiting) (e : Event J)
    (husable : Usable (worked ++ waiting ++ e.calls rjl)) (hstep : (step rjl e).1 = .ok rjl') :
    ∃ worked' waiting', worked' ++ waiting' = worked ++ waiting ++ e.calls rjl ∧
      Consistent rjl' worked' waiting' := by
  cases e with
  | call c =>
    obtain rfl := Except.ok.inj hstep
    refine ⟨worked, waiting ++ [c], (List.append_assoc _ _ _).symm, h.inOrder, h.registered, ?_⟩
    show (c.perform rjl.changes).1 = _
    rw [perform_fst, h.changes, List.flatMap_append, List.flatMap_singleton]
  | process nowMonotonic script =>
    unfold step at hstep
    dsimp only at hstep
    rcases process_settled h nowMonotonic script husable with
      ⟨-, -, hfault⟩ | ⟨rjl₁, next, seen, hprocess, hconsistent, -⟩
    · rw [hfault] at hstep
      cases hstep
    · rw [hprocess] at hstep
      obtain rfl := Except.ok.inj hstep
      exact ⟨_, [], List.append_nil _, hconsistent⟩

theorem Reaches.consistent {rjl : JobsList J} {calls : List (Call J)} (h : Reaches rjl calls)
    (husable : Usable calls) :
    ∃ worked waiting, worked ++ waiting = calls ∧ Consistent rjl worked waiting := by
  induction h with
  | init => exact ⟨[], [], rfl, List.Pairwise.nil, .refl _, rfl⟩
  | @step rjl rjl' calls e h hstep ih =>
    obtain ⟨worked, waiting, rfl, hconsistent⟩ := ih husable.left
    exact step_consistent hconsistent e husable hstep

/-- `UA_MAXTIMEOUT`, in ticks. -/
def maxTimeout : Int := 50 * 10000

/-- The timeout in milliseconds that `UA_Server_run_iterate` computes from the returned time
(`server/ua_server_worker.c:402-408`), when it waits. -/
def iterateTimeout (now nextRepeated : Int) : UInt16 :=
  let latest := now + maxTimeout
  let nextRepeated := if nextRepeated > latest then latest else nextRepeated
  UInt16.ofInt ((nextRepeated - now).tdiv 10000)

theorem iterateTimeout_exact {now nextRepeated : Int} (h : now ≤ nextRepeated) :
    ((iterateTimeout now nextRepeated).toNat : Int) =
        (min nextRepeated (now + maxTimeout) - now) / 10000 ∧
      (iterateTimeout now nextRepeated).toNat ≤ 50 := by
  have hmin : (if nextRepeated > now + maxTimeout then now + maxTimeout else nextRepeated) =
      min nextRepeated (now + maxTimeout) := by
    unfold maxTimeout
    split
    · omega
    · omega
  have hnonneg : 0 ≤ min nextRepeated (now + maxTimeout) - now := by
    unfold maxTimeout
    omega
  have hle : min nextRepeated (now + maxTimeout) - now ≤ 500000 := by
    unfold maxTimeout
    omega
  unfold iterateTimeout
  dsimp only
  rw [hmin, Int.tdiv_eq_ediv_of_nonneg hnonneg]
  generalize min nextRepeated (now + maxTimeout) - now = d at hnonneg hle ⊢
  unfold UInt16.ofInt
  rw [UInt16.toNat_ofNat']
  omega

/-- After every run of calls and batches, a call of `UA_RepeatedJobsList_process` that leaves a job
registered settles the list, and the caller's timeout is exact. The clock may even go back between
two calls. -/
theorem process_wellFormed (rjl : JobsList J) (calls : List (Call J)) (hreaches : Reaches rjl calls)
    (nowMonotonic : Int) (hnow : nowMonotonic ≤ int64Max) (script : List (List (Call J)))
    (husable : Usable (calls ++ (Event.process nowMonotonic script).calls rjl))
    (hkeep : dueJobs (processChanges rjl nowMonotonic).repeatedJobs nowMonotonic ≠ [] →
      registered (calls ++ (Event.process nowMonotonic script).calls rjl) ≠ []) :
    ∃ rjl' next seen, process rjl nowMonotonic script = (.ok (rjl', next), seen) ∧
      Settled rjl rjl' (calls ++ (Event.process nowMonotonic script).calls rjl) nowMonotonic next
        seen ∧
      nowMonotonic ≤ next ∧
      ((iterateTimeout nowMonotonic next).toNat : Int) =
        (min next (nowMonotonic + maxTimeout) - nowMonotonic) / 10000 := by
  obtain ⟨worked, waiting, rfl, hconsistent⟩ := hreaches.consistent husable.left
  rcases process_settled hconsistent nowMonotonic script husable with
    ⟨hdue, hnone, -⟩ | ⟨rjl', next, seen, hprocess, -, hsettled⟩
  · exact absurd hnone (hkeep hdue)
  have hnext : nowMonotonic ≤ next := by
    rcases hsettled.earliest.2 with ⟨-, rfl⟩ | ⟨rj, hmem, rfl⟩
    · exact hnow
    · exact hsettled.notBefore rj hmem
  exact ⟨rjl', next, seen, hprocess, hsettled, hnext, (iterateTimeout_exact hnext).1⟩

def dispatchedOnce : JobsList Nat := ⟨[⟨100000, 50000, firstId, 7⟩], []⟩

theorem reaches_dispatchedOnce :
    Reaches dispatchedOnce [.add 7 5 firstId 0 true] :=
  ((Reaches.init.step (.call (.add 7 5 firstId 0 true)) rfl).step
    (.process 0 []) rfl).step (.process 50000 []) (by decide +kernel)

/-- The callback of the job removes it and adds another one. -/
theorem process_wellFormed_replaced :
    ∃ rjl' next seen, process dispatchedOnce 100000
        [[.remove firstId true, .add 8 6 secondId 100000 true]] = (.ok (rjl', next), seen) ∧
      Settled dispatchedOnce rjl' [.add 7 5 firstId 0 true, .remove firstId true,
        .add 8 6 secondId 100000 true] 100000 next seen ∧
      100000 ≤ next ∧
      ((iterateTimeout 100000 next).toNat : Int) =
        (min next (100000 + maxTimeout) - 100000) / 10000 :=
  process_wellFormed dispatchedOnce _ reaches_dispatchedOnce 100000 (by decide) _
    ⟨by decide +kernel, by
      simp [Event.calls, Call.InRange, dispatchedOnce, int64Max, dueJobs, processChanges]⟩
    (fun _ => by decide +kernel)

end FactoryThing.Timer
