import FactoryThing.Timer.Sorting
import FactoryThing.Lib.Trace

/-!
# Removed jobs

A removal that was answered `Good` waits in the queue, and no job with its id outlives the working
off of the queue. That is soon enough for every job but those the current call of
`UA_RepeatedJobsList_process` has already taken out of the list to dispatch them.
-/

namespace FactoryThing.Timer

variable {J : Type}

/-- After a removal was answered `Good`, the job is not dispatched any more. -/
def NeverFiresAgain (trace : List (Observed J)) : Prop :=
  ∀ pre id post, trace = pre ++ .removed id StatusCode.good :: post →
    ∀ job, .dispatched id job ∉ post

/-- The random ids are different from all ids used before. -/
def FreshIds (past : List (Observed J)) : Observed J → Prop
  | .added id => .added id ∉ past ∧ ∀ status, .removed id status ∉ past
  | _ => True

/-- What is dispatched has not been removed. -/
def NotRemoved (past : List (Observed J)) : Observed J → Prop
  | .dispatched id _ => .removed id StatusCode.good ∉ past
  | _ => True

theorem neverFiresAgain_iff (trace : List (Observed J)) :
    NeverFiresAgain trace ↔ Trace.Always NotRemoved [] trace := by
  constructor
  · rintro h pre o post rfl
    cases o with
    | dispatched id job =>
      intro hmem
      obtain ⟨pre₁, pre₂, rfl⟩ := List.append_of_mem (by simpa using hmem)
      exact h pre₁ id (pre₂ ++ .dispatched id job :: post) (by simp) job (by simp)
    | _ => trivial
  · rintro h pre id post rfl job hmem
    obtain ⟨post₁, post₂, rfl⟩ := List.append_of_mem hmem
    exact h (pre ++ .removed id StatusCode.good :: post₁) (.dispatched id job) post₂ (by simp)
      (by simp)

/-- No callback of a batch removes, with success, a job that is still waiting in the batch. -/
def Spares : (executedNow : List (RepeatedJob J)) → (script : List (List (Call J))) → Prop
  | [], _ => True
  | _ :: rest, script =>
      (∀ id, .remove id true ∈ script.headD [] → id ∉ rest.map RepeatedJob.id) ∧
        Spares rest script.tail

/-- The condition on an event in the state it happens in. -/
def SparesBatch (rjl : JobsList J) : Event J → Prop
  | .call _ => True
  | .process nowMonotonic script =>
      Spares (dueJobs (processChanges rjl nowMonotonic).repeatedJobs nowMonotonic) script

def SparesBatches (rjl : JobsList J) : List (Event J) → Prop
  | [] => True
  | e :: es =>
      SparesBatch rjl e ∧
        match (step rjl e).1 with
        | .error _ => True
        | .ok rjl => SparesBatches rjl es

/-- What a change does to the ids of the list. -/
def applyId (ids : List Guid) : Change J → List Guid
  | .add rj => if rj.nextTime < int64Max then rj.id :: ids else ids.erase rj.id
  | .remove id => ids.erase id

/-- The ids of the jobs that are left once the queue has been worked off. -/
def alive (ids : List Guid) (changes : List (Change J)) : List Guid := changes.foldl applyId ids

variable {ids' : List Guid} (nowMonotonic : Int) (calls : List (Call J))

theorem applyId_perm {ids : List Guid} (h : ids.Perm ids') (c : Change J) :
    (applyId ids c).Perm (applyId ids' c) := by
  unfold applyId
  cases c with
  | add rj =>
    dsimp only
    split
    · exact h.cons _
    · exact h.erase _
  | remove id => exact h.erase _

theorem alive_perm {ids : List Guid} (h : ids.Perm ids') (changes : List (Change J)) :
    (alive ids changes).Perm (alive ids' changes) := by
  induction changes generalizing ids ids' with
  | nil => exact h
  | cons c changes ih => exact ih (applyId_perm h c)

theorem map_id_removeRepeatedJob (jobs : List (RepeatedJob J)) (id : Guid) :
    (removeRepeatedJob jobs id).map RepeatedJob.id = (jobs.map RepeatedJob.id).erase id := by
  unfold removeRepeatedJob
  induction jobs with
  | nil => rfl
  | cons rj rest ih =>
    by_cases h : rj.id = id
    · simp [h]
    · simp [h, ih]

theorem map_id_applyChange (jobs : List (RepeatedJob J)) (c : Change J) :
    ((applyChange nowMonotonic jobs c).map RepeatedJob.id).Perm
      (applyId (jobs.map RepeatedJob.id) c) := by
  unfold applyChange applyId
  cases c with
  | add rj =>
    dsimp only
    split
    · exact map_insertSorted (fun _ _ => rfl) jobs _
    · rw [map_id_removeRepeatedJob]
  | remove id =>
    dsimp only
    rw [map_id_removeRepeatedJob]

theorem map_id_processChanges (rjl : JobsList J) (nowMonotonic : Int) :
    ((processChanges rjl nowMonotonic).repeatedJobs.map RepeatedJob.id).Perm
      (alive (rjl.repeatedJobs.map RepeatedJob.id) rjl.changes) := by
  obtain ⟨jobs, changes⟩ := rjl
  induction changes generalizing jobs with
  | nil => exact .refl _
  | cons c changes ih =>
    exact (ih _).trans (alive_perm (map_id_applyChange nowMonotonic jobs c) changes)

/-- The ids that outlive the queue are different, were added, and have not been removed. -/
structure Tracks (past : List (Observed J)) (ids : List Guid) : Prop where
  nodup : ids.Nodup
  known : ∀ id ∈ ids, .added id ∈ past
  gone : ∀ id, .removed id StatusCode.good ∈ past → id ∉ ids

variable {past : List (Observed J)} {ids : List Guid}

theorem Tracks.perm (h : Tracks past ids) (hp : ids.Perm ids') :
    Tracks past ids' where
  nodup := hp.nodup_iff.1 h.nodup
  known id hid := h.known id (hp.mem_iff.2 hid)
  gone id hid hmem := h.gone id hid (hp.mem_iff.2 hmem)

theorem Tracks.observe (h : Tracks past ids) {o : Observed J}
    (ho : ∀ id, o ≠ .removed id StatusCode.good) : Tracks (past ++ [o]) ids where
  nodup := h.nodup
  known id hid := List.mem_append_left _ (h.known id hid)
  gone id hid := by
    rcases List.mem_append.1 hid with hid | hid
    · exact h.gone id hid
    · exact absurd (List.mem_singleton.1 hid).symm (ho id)

theorem Tracks.perform {start : List Guid} {changes : List (Change J)}
    (h : Tracks past (alive start changes)) (call : Call J)
    (hfresh : FreshIds past (call.perform changes).2) :
    Tracks (past ++ [(call.perform changes).2]) (alive start (call.perform changes).1) := by
  cases call with
  | add job interval id now alloc =>
    unfold Call.perform at hfresh ⊢
    dsimp only at hfresh ⊢
    split
    · exact h.observe (by simp)
    · rename_i hinterval
      rw [if_neg hinterval] at hfresh
      split
      · rename_i halloc
        rw [if_pos halloc] at hfresh
        have hnew : id ∉ alive start changes := fun hmem => hfresh.1 (h.known id hmem)
        have hkeep : Tracks (past ++ [.added id]) (alive start changes) := h.observe (by simp)
        simp only [alive, List.foldl_append, List.foldl_cons, List.foldl_nil, applyId]
        split
        · refine ⟨List.nodup_cons.2 ⟨hnew, h.nodup⟩, ?_, ?_⟩
          · intro id' hid'
            rcases List.mem_cons.1 hid' with rfl | hid'
            · simp
            · exact hkeep.known id' hid'
          · intro id' hid' hmem
            rcases List.mem_cons.1 hmem with rfl | hmem
            · rcases List.mem_append.1 hid' with hid' | hid'
              · exact hfresh.2 _ hid'
              · simp at hid'
            · exact hkeep.gone id' hid' hmem
        · change Tracks _ ((alive start changes).erase id)
          rw [List.erase_of_not_mem hnew]
          exact hkeep
      · exact h.observe (by simp)
  | remove id alloc =>
    unfold Call.perform
    dsimp only
    split
    · simp only [alive, List.foldl_append, List.foldl_cons, List.foldl_nil, applyId]
      have hsub : ∀ id', id' ∈ (alive start changes).erase id → id' ∈ alive start changes :=
        fun _ => List.mem_of_mem_erase
      refine ⟨h.nodup.erase id, fun id' hid' => List.mem_append_left _ (h.known id' (hsub _ hid')),
        ?_⟩
      intro id' hid' hmem
      rcases List.mem_append.1 hid' with hid' | hid'
      · exact h.gone id' hid' (hsub _ hmem)
      · simp only [List.mem_singleton, Observed.removed.injEq, and_true] at hid'
        subst hid'
        exact h.nodup.not_mem_erase hmem
    · exact h.observe (by simp [StatusCode.badOutOfMemory, StatusCode.good])

theorem Tracks.performAll {start : List Guid} :
    ∀ {past : List (Observed J)} {changes : List (Change J)}, Tracks past (alive start changes) →
      Trace.Always FreshIds past (performAll changes calls).2 →
      Tracks (past ++ (performAll changes calls).2) (alive start (performAll changes calls).1) := by
  induction calls with
  | nil => intro past changes h _; simpa [Timer.performAll] using h
  | cons call calls ih =>
    intro past changes h hfresh
    simp only [Timer.performAll, Trace.always_cons] at hfresh ⊢
    simpa using ih (h.perform call hfresh.1) hfresh.2

theorem mem_performAll_removed (id : Guid) :
    ∀ changes : List (Change J),
      .removed id StatusCode.good ∈ (performAll changes calls).2 ↔ .remove id true ∈ calls := by
  induction calls with
  | nil => intro changes; simp [performAll]
  | cons call calls ih =>
    intro changes
    simp only [performAll, List.mem_cons, ih]
    apply or_congr_left
    cases call with
    | add job interval id' now alloc =>
      simp only [Call.perform, reduceCtorEq, iff_false]
      split
      · simp
      · split <;> simp
    | remove id' alloc =>
      cases alloc <;> simp [Call.perform, StatusCode.badOutOfMemory, StatusCode.good]

theorem notRemoved_performAll (past : List (Observed J)) :
    ∀ changes : List (Change J), Trace.Always NotRemoved past (performAll changes calls).2 := by
  induction calls generalizing past with
  | nil => intro changes; simp [performAll]
  | cons call calls ih =>
    intro changes
    simp only [performAll, Trace.always_cons]
    refine ⟨?_, ih _ _⟩
    cases call with
    | add job interval id now alloc =>
      simp only [Call.perform]
      split
      · trivial
      · split <;> trivial
    | remove id alloc =>
      simp only [Call.perform]
      split <;> trivial

theorem map_id_insert (sorted : Sorted J) (rj : RepeatedJob J) :
    ((sorted.insert nowMonotonic rj).jobs.map RepeatedJob.id).Perm
      (rj.id :: sorted.jobs.map RepeatedJob.id) :=
  (insert_perm nowMonotonic sorted rj).map RepeatedJob.id

theorem mem_dispatchAll (executedNow : List (RepeatedJob J)) :
    ∀ (sorted : Sorted J) (changes : List (Change J)) (script : List (List (Call J))),
      ∀ rj ∈ executedNow, .dispatched rj.id rj.job ∈
        (dispatchAll nowMonotonic executedNow sorted changes script).2.2 := by
  induction executedNow with
  | nil => intro _ _ _ rj hrj; cases hrj
  | cons rj' rest ih =>
    intro sorted changes script rj hrj
    simp only [dispatchAll, List.mem_cons, List.mem_append]
    rcases List.mem_cons.1 hrj with rfl | hrj
    · exact Or.inl rfl
    · exact Or.inr (Or.inr (ih _ _ _ rj hrj))

theorem dispatchAll_spec (executedNow : List (RepeatedJob J)) :
    ∀ (past : List (Observed J)) (sorted : Sorted J) (changes : List (Change J))
      (script : List (List (Call J))),
      let result := dispatchAll nowMonotonic executedNow sorted changes script
      Tracks past (alive ((executedNow ++ sorted.jobs).map RepeatedJob.id) changes) →
      Trace.Always FreshIds past result.2.2 →
      Tracks (past ++ result.2.2) (alive (result.1.jobs.map RepeatedJob.id) result.2.1) ∧
        ((∀ rj ∈ executedNow, .removed rj.id StatusCode.good ∉ past) →
          (Spares executedNow script ↔ Trace.Always NotRemoved past result.2.2)) := by
  induction executedNow with
  | nil =>
    intro past sorted changes script result htracks _
    refine ⟨?_, fun _ => ?_⟩
    · simpa [result, dispatchAll] using htracks
    · simp [result, dispatchAll, Spares]
  | cons rj rest ih =>
    intro past sorted changes script result htracks hfresh
    simp only [result, dispatchAll, Trace.always_cons, Trace.always_append] at hfresh ⊢
    obtain ⟨-, hfreshSeen, hfreshLater⟩ := hfresh
    have hseen := Tracks.performAll (script.headD []) (htracks.observe
      (o := .dispatched rj.id rj.job) (by simp)) hfreshSeen
    have hlater : ((rj :: rest ++ sorted.jobs).map RepeatedJob.id).Perm
        ((rest ++ (sorted.insert nowMonotonic (rj.again nowMonotonic)).jobs).map
          RepeatedJob.id) := by
      rw [List.map_append, List.map_append]
      exact (List.perm_middle (a := rj.id)).symm.trans
        ((map_id_insert nowMonotonic sorted (rj.again nowMonotonic)).symm.append_left _)
    have hmoved := hseen.perm (alive_perm hlater _)
    obtain ⟨htracks', hiff⟩ := ih _ _ _ script.tail hmoved hfreshLater
    refine ⟨by simpa [List.append_assoc] using htracks', ?_⟩
    intro hpast
    have hwaiting : (∀ id, .remove id true ∈ script.headD [] → id ∉ rest.map RepeatedJob.id) ↔
        ∀ rj' ∈ rest, .removed rj'.id StatusCode.good ∉
          past ++ [.dispatched rj.id rj.job] ++ (performAll changes (script.headD [])).2 := by
      constructor
      · intro h rj' hrj' hmem
        rcases List.mem_append.1 hmem with hmem | hmem
        · rcases List.mem_append.1 hmem with hmem | hmem
          · exact hpast rj' (List.mem_cons_of_mem _ hrj') hmem
          · simp at hmem
        · exact h rj'.id ((mem_performAll_removed _ _ _).1 hmem) (List.mem_map_of_mem hrj')
      · intro h id hid hmem
        obtain ⟨rj', hrj', rfl⟩ := List.mem_map.1 hmem
        exact h rj' hrj' (List.mem_append_right _ ((mem_performAll_removed _ _ _).2 hid))
    unfold Spares
    rw [hwaiting]
    constructor
    · rintro ⟨hwait, hspares⟩
      exact ⟨hpast rj List.mem_cons_self, notRemoved_performAll _ _ _,
        (hiff hwait).1 hspares⟩
    · rintro ⟨-, -, hsafe⟩
      have hwait : ∀ rj' ∈ rest, .removed rj'.id StatusCode.good ∉
          past ++ [.dispatched rj.id rj.job] ++ (performAll changes (script.headD [])).2 := by
        intro rj' hrj' hmem
        obtain ⟨pre, post, heq⟩ := List.append_of_mem
          (mem_dispatchAll nowMonotonic rest (sorted.insert nowMonotonic (rj.again nowMonotonic))
            (performAll changes (script.headD [])).1 script.tail rj' hrj')
        exact hsafe pre _ post heq (List.mem_append_left _ hmem)
      exact ⟨hwait, (hiff hwait).2 hsafe⟩

theorem step_spec (past : List (Observed J)) (rjl : JobsList J) (e : Event J)
    (htracks : Tracks past (alive (rjl.repeatedJobs.map RepeatedJob.id) rjl.changes))
    (hfresh : Trace.Always FreshIds past (step rjl e).2) :
    (SparesBatch rjl e ↔ Trace.Always NotRemoved past (step rjl e).2) ∧
      ∀ rjl', (step rjl e).1 = .ok rjl' → Tracks (past ++ (step rjl e).2)
        (alive (rjl'.repeatedJobs.map RepeatedJob.id) rjl'.changes) := by
  cases e with
  | call call =>
    simp only [step, Trace.always_cons, Trace.always_nil, and_true] at hfresh ⊢
    constructor
    · refine ⟨fun _ => ?_, fun _ => trivial⟩
      have h := notRemoved_performAll [call] past rjl.changes
      simpa [performAll] using h
    · rintro rjl' heq
      simp only [Except.ok.injEq] at heq
      subst heq
      exact htracks.perform call hfresh
  | process nowMonotonic script =>
    have hworked := htracks.perm (map_id_processChanges rjl nowMonotonic).symm
    simp only [step, process, SparesBatch] at hfresh ⊢
    generalize hchanges : processChanges rjl nowMonotonic = rjl₁ at hfresh hworked ⊢
    have hqueue : rjl₁.changes = [] := by rw [← hchanges]; rfl
    have hjobs : rjl₁.repeatedJobs = dueJobs rjl₁.repeatedJobs nowMonotonic ++
        rjl₁.repeatedJobs.drop (dueJobs rjl₁.repeatedJobs nowMonotonic).length :=
      (List.prefix_iff_eq_append.1 (List.takeWhile_prefix _)).symm
    split
    · rename_i hempty
      rw [List.isEmpty_iff.1 hempty]
      refine ⟨by simp [Spares], ?_⟩
      rintro rjl' heq
      simp only [Except.map, Except.ok.injEq] at heq
      subst heq
      simpa [hqueue, alive] using hworked
    · rename_i hdue
      rw [if_neg hdue] at hfresh
      have hnone : ∀ rj ∈ dueJobs rjl₁.repeatedJobs nowMonotonic,
          .removed rj.id StatusCode.good ∉ past := fun rj hrj hmem =>
        hworked.gone rj.id hmem (List.mem_map_of_mem
          (hjobs ▸ List.mem_append_left _ hrj))
      rw [hjobs] at hworked
      obtain ⟨htracks', hiff⟩ := dispatchAll_spec nowMonotonic
        (dueJobs rjl₁.repeatedJobs nowMonotonic) past ⟨_, none⟩ [] script hworked hfresh
      refine ⟨hiff hnone, ?_⟩
      intro rjl' heq
      dsimp only at heq htracks'
      split at heq
      · cases heq
      · simp only [Except.map, Except.ok.injEq] at heq
        subst heq
        exact htracks'.perm (map_id_processChanges ⟨_, _⟩ nowMonotonic).symm

/-- With fresh ids, a run does not dispatch a job after its removal was answered `Good`, exactly if
no callback removes a job that waits in its batch. -/
theorem run_neverFiresAgain_iff (events : List (Event J))
    (hfresh : Trace.Always FreshIds [] (run JobsList.init events)) :
    NeverFiresAgain (run JobsList.init events) ↔ SparesBatches JobsList.init events := by
  rw [neverFiresAgain_iff]
  suffices hrun : ∀ (events : List (Event J)) (past : List (Observed J)) (rjl : JobsList J),
      Tracks past (alive (rjl.repeatedJobs.map RepeatedJob.id) rjl.changes) →
      Trace.Always FreshIds past (run rjl events) →
      (Trace.Always NotRemoved past (run rjl events) ↔ SparesBatches rjl events) from
    hrun events [] JobsList.init ⟨List.nodup_nil, by simp [JobsList.init, alive],
      by simp⟩ hfresh
  intro events
  induction events with
  | nil => intro past rjl _ _; simp [run, SparesBatches]
  | cons e events ih =>
    intro past rjl htracks hfresh
    unfold run at hfresh ⊢
    unfold SparesBatches
    rcases hstep : step rjl e with ⟨result, seen⟩
    rw [hstep] at hfresh
    have hspec := step_spec past rjl e htracks
    rw [hstep] at hspec
    cases result with
    | error f =>
      obtain ⟨hiff, -⟩ := hspec hfresh
      simpa using hiff.symm
    | ok rjl' =>
      rw [Trace.always_append] at hfresh ⊢
      obtain ⟨hiff, htracks'⟩ := hspec hfresh.1
      rw [hiff, ih _ rjl' (htracks' rjl' rfl) hfresh.2]

theorem sparesBatches_of_silent (events : List (Event J))
    (hsilent : ∀ nowMonotonic script, .process nowMonotonic script ∈ events → script = []) :
    ∀ rjl, SparesBatches rjl events := by
  have hnil : ∀ executedNow : List (RepeatedJob J), Spares executedNow [] := by
    intro executedNow
    induction executedNow with
    | nil => trivial
    | cons rj rest ih => exact ⟨by simp, ih⟩
  induction events with
  | nil => exact fun _ => trivial
  | cons e events ih =>
    intro rjl
    refine ⟨?_, ?_⟩
    · cases e with
      | call call => trivial
      | process nowMonotonic script =>
        obtain rfl := hsilent nowMonotonic script List.mem_cons_self
        exact hnil _
    · split
      · trivial
      · exact ih (fun n s hmem => hsilent n s (List.mem_cons_of_mem _ hmem)) _

def firstId : Guid := ⟨1, 0, 0, Vector.replicate 8 0⟩
def secondId : Guid := ⟨2, 0, 0, Vector.replicate 8 0⟩

/-- A job is registered, removed from outside when it is due, and never seen again. -/
theorem removal_before_batch :
    NeverFiresAgain (run (J := Nat) JobsList.init
      [.call (.add 7 5 firstId 0 true), .process 0 [], .call (.remove firstId true),
        .process 50000 []]) := by
  have hrun : run (J := Nat) JobsList.init [.call (.add 7 5 firstId 0 true), .process 0 [],
      .call (.remove firstId true), .process 50000 []] =
        [.added firstId, .removed firstId StatusCode.good] := by decide +kernel
  refine (run_neverFiresAgain_iff _ ?_).2 ?_
  · rw [hrun]
    simp [FreshIds]
  · refine sparesBatches_of_silent _ (fun nowMonotonic script hmem => ?_) _
    simp only [List.mem_cons, reduceCtorEq, Event.process.injEq, List.not_mem_nil, or_false,
      false_or] at hmem
    exact hmem.elim And.right And.right

/-- Two jobs that are due together, where the callback of the one dispatched first removes the
other. -/
def removalInBatch : List (Event Nat) :=
  [.call (.add 7 5 firstId 0 true), .call (.add 8 5 secondId 0 true), .process 0 [],
    .process 50000 [[.remove firstId true]]]

/-- In `removalInBatch` the first job is dispatched although its removal was answered `Good`. -/
theorem removalInBatch_fires :
    ¬ ∀ events : List (Event Nat), Trace.Always FreshIds [] (run JobsList.init events) →
      NeverFiresAgain (run JobsList.init events) := by
  intro h
  have hrun : run JobsList.init removalInBatch = [.added firstId, .added secondId] ++
      [.dispatched secondId 8, .removed firstId StatusCode.good, .dispatched firstId 7] := by
    decide +kernel
  have hnever := h removalInBatch (by rw [hrun]; simp [FreshIds, firstId, secondId])
  exact hnever [.added firstId, .added secondId, .dispatched secondId 8] firstId
    [.dispatched firstId 7] (by rw [hrun]; rfl) 7 (by simp)

end FactoryThing.Timer
