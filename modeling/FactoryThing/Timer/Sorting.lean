import FactoryThing.Timer.JobsList
import Mathlib.Data.List.Perm.Basic
import Mathlib.Data.List.TakeWhile
import Mathlib.Tactic

/-!
# Sorting jobs in

The list of jobs is kept sorted by the functions that put a job into it: neither of them loses or
doubles an entry, and both leave a sorted list sorted, whichever shortcut they take to the place.
-/

namespace FactoryThing.Timer

variable {J B : Type}

/-- The jobs are sorted by the time they are due. -/
def InOrder (jobs : List (RepeatedJob J)) : Prop :=
  jobs.Pairwise fun rj rj' => rj.nextTime ≤ rj'.nextTime

/-- A part of a job that does not change with the time it is due. -/
def Timeless (f : RepeatedJob J → B) : Prop := ∀ rj t, f { rj with nextTime := t } = f rj

theorem map_insertSorted {f : RepeatedJob J → B} (hf : Timeless f) (jobs : List (RepeatedJob J)) :
    ∀ rj : RepeatedJob J, ((insertSorted rj jobs).map f).Perm (f rj :: jobs.map f) := by
  induction jobs with
  | nil => exact fun _ => .refl _
  | cons tmpRj rest ih =>
    intro rj
    unfold insertSorted
    split
    · exact .refl _
    · split
      · have hrest := ih { rj with nextTime := tmpRj.nextTime }
        rw [hf] at hrest
        exact (hrest.cons (f tmpRj)).trans (.swap _ _ _)
      · exact ((ih rj).cons (f tmpRj)).trans (.swap _ _ _)

theorem take_cons_drop_perm (p : Nat) (rj : RepeatedJob J) (jobs : List (RepeatedJob J)) :
    (jobs.take p ++ rj :: jobs.drop p).Perm (rj :: jobs) := by
  have h : (jobs.take p ++ rj :: jobs.drop p).Perm (rj :: (jobs.take p ++ jobs.drop p)) :=
    List.perm_middle
  rwa [List.take_append_drop] at h

variable (nowMonotonic : Int) {jobs : List (RepeatedJob J)}

theorem insert_perm (sorted : Sorted J) (rj : RepeatedJob J) :
    (sorted.insert nowMonotonic rj).jobs.Perm (rj :: sorted.jobs) := by
  unfold Sorted.insert
  split
  · exact take_cons_drop_perm _ rj sorted.jobs
  · exact take_cons_drop_perm _ rj sorted.jobs

theorem mem_insertSorted (jobs : List (RepeatedJob J)) :
    ∀ rj : RepeatedJob J, ∀ rj' ∈ insertSorted rj jobs,
      rj' ∈ jobs ∨ rj'.nextTime = rj.nextTime ∨ ∃ tmpRj ∈ jobs, rj'.nextTime = tmpRj.nextTime := by
  induction jobs with
  | nil =>
    intro rj rj' hmem
    exact .inr (.inl (congrArg RepeatedJob.nextTime (List.mem_singleton.mp hmem)))
  | cons tmpRj rest ih =>
    intro rj rj' hmem
    unfold insertSorted at hmem
    split at hmem
    · rcases List.mem_cons.mp hmem with rfl | hmem
      · exact .inr (.inl rfl)
      · exact .inl hmem
    split at hmem
    · rcases List.mem_cons.mp hmem with rfl | hmem
      · exact .inl List.mem_cons_self
      rcases ih _ rj' hmem with hold | heq | ⟨other, hother, heq⟩
      · exact .inl (List.mem_cons_of_mem _ hold)
      · exact .inr (.inr ⟨tmpRj, List.mem_cons_self, heq⟩)
      · exact .inr (.inr ⟨other, List.mem_cons_of_mem _ hother, heq⟩)
    · rcases List.mem_cons.mp hmem with rfl | hmem
      · exact .inl List.mem_cons_self
      rcases ih rj rj' hmem with hold | heq | ⟨other, hother, heq⟩
      · exact .inl (List.mem_cons_of_mem _ hold)
      · exact .inr (.inl heq)
      · exact .inr (.inr ⟨other, List.mem_cons_of_mem _ hother, heq⟩)

theorem inOrder_insertSorted (jobs : List (RepeatedJob J)) (hjobs : InOrder jobs) :
    ∀ rj : RepeatedJob J, InOrder (insertSorted rj jobs) := by
  induction jobs with
  | nil => exact fun rj => List.pairwise_singleton _ rj
  | cons tmpRj rest ih =>
    intro rj
    obtain ⟨hfirst, hrest⟩ := List.pairwise_cons.mp hjobs
    unfold insertSorted
    split
    · next hle =>
      refine List.pairwise_cons.mpr ⟨?_, hjobs⟩
      intro rj' hmem
      rcases List.mem_cons.mp hmem with rfl | hmem
      · exact hle
      · exact le_trans hle (hfirst rj' hmem)
    next hlt =>
    split
    · refine List.pairwise_cons.mpr ⟨?_, ih hrest _⟩
      intro rj' hmem
      rcases mem_insertSorted rest _ rj' hmem with hold | heq | ⟨other, hother, heq⟩
      · exact hfirst rj' hold
      · exact heq.ge
      · exact heq ▸ hfirst other hother
    · refine List.pairwise_cons.mpr ⟨?_, ih hrest rj⟩
      intro rj' hmem
      rcases mem_insertSorted rest rj rj' hmem with hold | heq | ⟨other, hother, heq⟩
      · exact hfirst rj' hold
      · rw [heq]
        exact le_of_lt (not_le.mp hlt)
      · exact heq ▸ hfirst other hother

theorem inOrder_removeRepeatedJob (h : InOrder jobs) (jobId : Guid) :
    InOrder (removeRepeatedJob jobs jobId) :=
  List.Pairwise.sublist List.eraseP_sublist h

theorem inOrder_applyChange (h : InOrder jobs) (c : Change J) :
    InOrder (applyChange nowMonotonic jobs c) := by
  unfold applyChange
  cases c with
  | add rj =>
    dsimp only
    split
    · exact inOrder_insertSorted jobs h _
    · exact inOrder_removeRepeatedJob h rj.id
  | remove id => exact inOrder_removeRepeatedJob h id

theorem inOrder_processChanges {rjl : JobsList J} (h : InOrder rjl.repeatedJobs)
    (nowMonotonic : Int) : InOrder (processChanges rjl nowMonotonic).repeatedJobs := by
  obtain ⟨jobs, changes⟩ := rjl
  induction changes generalizing jobs with
  | nil => exact h
  | cons c changes ih => exact ih _ (inOrder_applyChange nowMonotonic h c)

/-- No job is due before `nowMonotonic`. -/
def NotBefore (nowMonotonic : Int) (jobs : List (RepeatedJob J)) : Prop :=
  ∀ rj ∈ jobs, nowMonotonic ≤ rj.nextTime

theorem notBefore_applyChange {nowMonotonic : Int} {jobs : List (RepeatedJob J)}
    (h : NotBefore nowMonotonic jobs) (c : Change J) :
    NotBefore nowMonotonic (applyChange nowMonotonic jobs c) := by
  have hremove : ∀ id, NotBefore nowMonotonic (removeRepeatedJob jobs id) :=
    fun id rj hmem => h rj (List.mem_of_mem_eraseP hmem)
  unfold applyChange
  cases c with
  | add rj =>
    dsimp only
    split
    · intro rj' hmem
      rcases mem_insertSorted jobs _ rj' hmem with hold | heq | ⟨other, hother, heq⟩
      · exact h rj' hold
      · rw [heq]
        show nowMonotonic ≤ nowMonotonic + rj.interval
        omega
      · exact heq ▸ h other hother
    · exact hremove rj.id
  | remove id => exact hremove id

theorem notBefore_processChanges {nowMonotonic : Int} {rjl : JobsList J}
    (h : NotBefore nowMonotonic rjl.repeatedJobs) :
    NotBefore nowMonotonic (processChanges rjl nowMonotonic).repeatedJobs := by
  obtain ⟨jobs, changes⟩ := rjl
  induction changes generalizing jobs with
  | nil => exact h
  | cons c changes ih => exact ih _ (notBefore_applyChange h c)

theorem le_again (rj : RepeatedJob J) : nowMonotonic ≤ (rj.again nowMonotonic).nextTime := by
  unfold RepeatedJob.again
  dsimp only
  split
  · omega
  · next h => exact not_lt.mp h

/-- What holds of the newly sorted list while the batch is dispatched. -/
structure Sorted.Ordered (nowMonotonic : Int) (sorted : Sorted J) : Prop where
  inOrder : InOrder sorted.jobs
  notBefore : NotBefore nowMonotonic sorted.jobs
  inside : ∀ p, sorted.lastDispatched = some p → p < sorted.jobs.length

theorem length_take_cons_drop (p : Nat) (rj : RepeatedJob J) (jobs : List (RepeatedJob J)) :
    (jobs.take p ++ rj :: jobs.drop p).length = jobs.length + 1 :=
  (take_cons_drop_perm p rj jobs).length_eq

theorem inOrder_take_cons_drop {p : Nat} {rj : RepeatedJob J} (h : InOrder jobs)
    (hbefore : ∀ rj' ∈ jobs.take p, rj'.nextTime ≤ rj.nextTime)
    (hbehind : ∀ rj' ∈ jobs.drop p, rj.nextTime ≤ rj'.nextTime) :
    InOrder (jobs.take p ++ rj :: jobs.drop p) := by
  refine List.pairwise_append.mpr ⟨h.sublist (List.take_sublist p jobs), ?_, ?_⟩
  · exact List.pairwise_cons.mpr ⟨hbehind, h.sublist (List.drop_sublist p jobs)⟩
  · intro rj' hrj' rj'' hrj''
    rcases List.mem_cons.mp hrj'' with rfl | hdrop
    · exact hbefore rj' hrj'
    · exact le_trans (hbefore rj' hrj') (hbehind rj'' hdrop)

theorem inOrder_behind_last {p : Nat} {rj last : RepeatedJob J} (h : InOrder jobs)
    (hlast : jobs[p]? = some last) (htime : last.nextTime = rj.nextTime) :
    InOrder (jobs.take (p + 1) ++ rj :: jobs.drop (p + 1)) := by
  obtain ⟨hp, rfl⟩ := List.getElem?_eq_some_iff.mp hlast
  have hsplit : jobs.take (p + 1) = jobs.take p ++ [jobs[p]] := (List.take_append_getElem hp).symm
  have hall := h
  rw [InOrder, ← List.take_append_drop (p + 1) jobs, List.pairwise_append] at hall
  obtain ⟨htake, -, hcross⟩ := hall
  apply inOrder_take_cons_drop h
  · intro rj' hmem
    rw [hsplit, List.pairwise_append] at htake
    rw [hsplit] at hmem
    rcases List.mem_append.mp hmem with hfront | hlast
    · exact (htake.2.2 rj' hfront _ (List.mem_singleton_self _)).trans htime.le
    · rw [List.mem_singleton.mp hlast]
      exact htime.le
  · intro rj' hmem
    rw [← htime]
    refine hcross _ ?_ rj' hmem
    rw [hsplit]
    exact List.mem_append_right _ (List.mem_singleton_self _)

theorem inOrder_search {rj : RepeatedJob J} (h : InOrder jobs) :
    let p := (jobs.takeWhile fun n => n.nextTime < rj.nextTime).length
    InOrder (jobs.take p ++ rj :: jobs.drop p) := by
  intro p
  have htake : jobs.take p = jobs.takeWhile fun n => n.nextTime < rj.nextTime :=
    (List.prefix_iff_eq_take.mp (List.takeWhile_prefix _)).symm
  have hdrop : jobs.drop p = jobs.dropWhile fun n => n.nextTime < rj.nextTime := by
    have hboth := List.take_append_drop p jobs
    rw [htake] at hboth
    exact List.append_cancel_left (hboth.trans (List.takeWhile_append_dropWhile).symm)
  apply inOrder_take_cons_drop h
  · intro rj' hmem
    rw [htake] at hmem
    have hlt := List.mem_takeWhile_imp hmem
    exact le_of_lt (of_decide_eq_true hlt)
  · intro rj' hmem
    have hsorted : InOrder (jobs.drop p) := h.sublist (List.drop_sublist p jobs)
    rw [hdrop] at hmem hsorted
    cases hlist : jobs.dropWhile fun n => decide (n.nextTime < rj.nextTime) with
    | nil =>
      rw [hlist] at hmem
      cases hmem
    | cons first rest =>
      have hfirst : ¬ first.nextTime < rj.nextTime := by
        have hnot := List.head?_dropWhile_not
          (fun n : RepeatedJob J => decide (n.nextTime < rj.nextTime)) jobs
        rw [hlist] at hnot
        exact of_decide_eq_false hnot
      rw [hlist] at hmem hsorted
      rcases List.mem_cons.mp hmem with rfl | hrest
      · exact not_lt.mp hfirst
      · exact (not_lt.mp hfirst).trans ((List.pairwise_cons.mp hsorted).1 rj' hrest)

theorem Sorted.Ordered.insert {nowMonotonic : Int} {sorted : Sorted J}
    (h : sorted.Ordered nowMonotonic) {rj : RepeatedJob J} (hrj : nowMonotonic ≤ rj.nextTime) :
    (sorted.insert nowMonotonic rj).Ordered nowMonotonic := by
  have hnot : NotBefore nowMonotonic (sorted.insert nowMonotonic rj).jobs := by
    intro rj' hmem
    rcases List.mem_cons.mp ((insert_perm nowMonotonic sorted rj).mem_iff.mp hmem) with rfl | hold
    · exact hrj
    · exact h.notBefore rj' hold
  unfold Sorted.insert at hnot ⊢
  split
  · next heq =>
    rw [if_pos heq] at hnot
    unfold Sorted.lastTime at heq
    cases hp : sorted.lastDispatched with
    | none =>
      -- the fake first entry is in the past
      rw [hp] at heq
      change nowMonotonic - 1 = rj.nextTime at heq
      omega
    | some p =>
      rw [hp] at heq
      have hlt := h.inside p hp
      rw [Option.bind_some, List.getElem?_eq_getElem hlt] at heq
      refine ⟨inOrder_behind_last h.inOrder (List.getElem?_eq_getElem hlt) heq, ?_, ?_⟩
      · rw [hp] at hnot
        exact hnot
      · rintro q hq
        obtain rfl := Option.some.inj hq
        rw [length_take_cons_drop]
        exact hlt.trans (Nat.lt_succ_self _)
  · next hne =>
    rw [if_neg hne] at hnot
    refine ⟨inOrder_search h.inOrder, hnot, ?_⟩
    rintro q hq
    obtain rfl := Option.some.inj hq
    rw [length_take_cons_drop]
    exact Nat.lt_succ_of_le (List.takeWhile_prefix _).length_le

end FactoryThing.Timer
