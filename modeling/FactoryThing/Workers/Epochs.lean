import FactoryThing.Lib.Trace
import FactoryThing.Workers.DelayedJobs
import Mathlib.Data.List.Forall2

/-!
# What the counters say

The jobs leave the queue in the order in which they were dispatched, so when the snapshot for a
record is taken every earlier job is done or in the hands of a worker. A worker whose counter has
moved since then has none of them any more. Once all counters have moved, every job dispatched
before the snapshot was asked for has finished, and with them all jobs that came before a delayed
job of the record or of an older one.
-/

namespace FactoryThing.Workers

variable {sv sv' : Server} {log : List Output}

/-- What is known of a full record whose snapshot is taken by the job `g`, when the first `k` jobs
have left the queue. -/
structure Snapshot (k : Nat) (workers : List Worker) (log : List Output) (dj : DelayedJobs)
    (g : Nat) : Prop where
  unique : ∀ n, Output.dispatched ⟨n, .getCounters dj.addr⟩ ∈ log → n = g
  late : ∀ d ∈ dj.jobs, d.after ≤ g
  taken : ∀ counters, dj.workerCounters = some counters →
    g < k ∧ counters.length = workers.length ∧
      ∀ (i : Nat) (counter : UInt32) (worker : Worker), counters[i]? = some counter →
        workers[i]? = some worker → counter ≠ worker.counter →
          ∀ running, worker.doing = .job running → g < running.number

/-- The queue and the workers after a run with the observations `log`: the first `k` jobs have left
the queue, and those that have not finished are in the hands of workers. -/
structure Queued (k : Nat) (sv : Server) (log : List Output) : Prop where
  queue : sv.dispatchQueue.map DispatchJob.number = List.range' k sv.dispatchQueue.length
  total : k + sv.dispatchQueue.length = sv.dispatched
  queued : ∀ dj ∈ sv.dispatchQueue, .dispatched dj ∈ log
  running : ∀ worker ∈ sv.workers, ∀ dj, worker.doing = .job dj →
    dj.number < k ∧ .dispatched dj ∈ log
  finished : ∀ j < k, .finished j ∈ log ∨
    ∃ worker ∈ sv.workers, ∃ dj, worker.doing = .job dj ∧ dj.number = j

/-- The records after that run: the snapshots of those behind the head are taken by the jobs
`gs`. -/
structure Inv (k : Nat) (gs : List Nat) (sv : Server) (log : List Output) : Prop
    extends Queued k sv log where
  addrs : (sv.nextAddr :: sv.delayedJobs.map DelayedJobs.addr).Pairwise (· > ·)
  known : ∀ n addr, .dispatched ⟨n, .getCounters addr⟩ ∈ log →
    addr ∈ sv.delayedJobs.tail.map DelayedJobs.addr
  head : ∀ dj ∈ sv.delayedJobs.head?,
    dj.workerCounters = none ∧ ∀ d ∈ dj.jobs, d.after ≤ sv.dispatched
  snapshots : List.Forall₂ (Snapshot k sv.workers log) sv.delayedJobs.tail gs
  decreasing : (sv.dispatched :: gs).Pairwise (· > ·)

theorem Inv.init (nThreads : Nat) : Inv 0 [] (Server.init nThreads) [] where
  queue := rfl
  total := rfl
  queued := nofun
  running := by
    intro worker hworker dj hdoing
    rw [List.eq_of_mem_replicate hworker] at hdoing
    cases hdoing
  finished := nofun
  addrs := List.pairwise_singleton _ _
  known := nofun
  head := nofun
  snapshots := List.Forall₂.nil
  decreasing := List.pairwise_singleton _ _

section Snapshots

variable {k k' : Nat} {workers : List Worker} {dj : DelayedJobs} {g : Nat}

theorem Snapshot.logged (h : Snapshot k workers log dj g) {outputs : List Output}
    (hnew : ∀ n, Output.dispatched ⟨n, .getCounters dj.addr⟩ ∉ outputs) :
    Snapshot k workers (log ++ outputs) dj g where
  unique n hn := by
    obtain hn | hn := List.mem_append.mp hn
    · exact h.unique n hn
    · exact absurd hn (hnew n)
  late := h.late
  taken := h.taken

theorem Snapshot.set (h : Snapshot k workers log dj g) (hk : k ≤ k') (i : Nat) {worker : Worker}
    (hworker : ∀ running, worker.doing = .job running → k ≤ running.number) :
    Snapshot k' (workers.set i worker) log dj g where
  unique := h.unique
  late := h.late
  taken counters hcounters := by
    obtain ⟨hg, hlen, hmoved⟩ := h.taken counters hcounters
    refine ⟨Nat.lt_of_lt_of_le hg hk, hlen.trans List.length_set.symm, ?_⟩
    intro j counter worker' hcounter hworker' hne running hrunning
    rw [List.getElem?_set] at hworker'
    split at hworker'
    · split at hworker'
      · cases hworker'
        exact Nat.lt_of_lt_of_le hg (hworker running hrunning)
      · cases hworker'
    · exact hmoved j counter worker' hcounter hworker' hne running hrunning

theorem Snapshot.of_ready (h : Snapshot k workers log dj g) (hready : dj.ready workers = true) :
    g < k ∧ ∀ worker ∈ workers, ∀ running, worker.doing = .job running → g < running.number := by
  unfold DelayedJobs.ready at hready
  split at hready
  · cases hready
  · rename_i counters hcounters
    obtain ⟨hg, hlen, hmoved⟩ := h.taken counters hcounters
    refine ⟨hg, fun worker hworker running hrunning => ?_⟩
    obtain ⟨i, hi⟩ := List.mem_iff_getElem?.mp hworker
    have hlt : i < counters.length := by
      rw [hlen]
      exact (List.getElem?_eq_some_iff.mp hi).1
    have hcounter : counters[i]? = some counters[i] := List.getElem?_eq_getElem hlt
    refine hmoved i counters[i] worker hcounter hi ?_ running hrunning
    have hmem : (counters[i], worker) ∈ counters.zip workers :=
      List.mem_iff_getElem?.mpr ⟨i, List.getElem?_zip_eq_some.mpr ⟨hcounter, hi⟩⟩
    simpa using List.all_eq_true.mp hready _ hmem

end Snapshots

/-! ## What a step keeps -/

section Steps

variable {k : Nat} {gs : List Nat}

theorem Inv.observed (h : Inv k gs sv log) {outputs : List Output}
    (hnew : ∀ dj, .dispatched dj ∉ outputs) : Inv k gs sv (log ++ outputs) where
  queue := h.queue
  total := h.total
  queued dj hdj := List.mem_append_left _ (h.queued dj hdj)
  running worker hworker dj hdoing := by
    obtain ⟨hlt, hlogged⟩ := h.running worker hworker dj hdoing
    exact ⟨hlt, List.mem_append_left _ hlogged⟩
  finished j hj := (h.finished j hj).imp_left (List.mem_append_left _)
  addrs := h.addrs
  known n addr hn := by
    obtain hn | hn := List.mem_append.mp hn
    · exact h.known n addr hn
    · exact absurd hn (hnew _)
  head := h.head
  snapshots := h.snapshots.imp fun _ _ hsnap => hsnap.logged fun _ => hnew _
  decreasing := h.decreasing

theorem range'_append_one (k n : Nat) : List.range' k n ++ [k + n] = List.range' k (n + 1) := by
  rw [List.range'_concat, Nat.one_mul]

theorem Queued.dispatchJob (h : Queued k sv log) (job : Job) :
    Queued k (dispatchJob sv job).1 (log ++ (dispatchJob sv job).2) where
  queue := by
    simp only [Workers.dispatchJob, List.map_append, List.map_cons, List.map_nil,
      List.length_append, List.length_singleton]
    rw [h.queue, ← h.total, range'_append_one]
  total := by
    simp only [Workers.dispatchJob, List.length_append, List.length_singleton]
    rw [← h.total, Nat.add_assoc]
  queued dj hdj := by
    obtain hdj | hdj := List.mem_append.mp hdj
    · exact List.mem_append_left _ (h.queued dj hdj)
    · exact List.mem_append_right _ (by simpa [Workers.dispatchJob] using hdj)
  running worker hworker dj hdoing := by
    obtain ⟨hlt, hlogged⟩ := h.running worker hworker dj hdoing
    exact ⟨hlt, List.mem_append_left _ hlogged⟩
  finished j hj := (h.finished j hj).imp_left (List.mem_append_left _)

theorem dispatched_mem_dispatchJob {n : Nat} {job job' : Job}
    (h : Output.dispatched ⟨n, job'⟩ ∈ (dispatchJob sv job).2) : n = sv.dispatched ∧
    job' = job := by
  simpa [dispatchJob] using h

theorem decreasing_succ (h : (sv.dispatched :: gs).Pairwise (· > ·)) :
    ((sv.dispatched + 1) :: gs).Pairwise (· > ·) := by
  obtain ⟨hfirst, hrest⟩ := List.pairwise_cons.mp h
  exact List.pairwise_cons.mpr ⟨fun g hg => Nat.lt_succ_of_lt (hfirst g hg), hrest⟩

theorem Inv.dispatchJob (h : Inv k gs sv log) {job : Job} (hjob : ∀ addr, job ≠ .getCounters addr) :
    Inv k gs (dispatchJob sv job).1 (log ++ (dispatchJob sv job).2) where
  toQueued := h.toQueued.dispatchJob job
  addrs := h.addrs
  known n addr hn := by
    obtain hn | hn := List.mem_append.mp hn
    · exact h.known n addr hn
    · exact absurd (dispatched_mem_dispatchJob hn).2.symm (hjob addr)
  head dj hdj := by
    obtain ⟨hnone, hafter⟩ := h.head dj hdj
    exact ⟨hnone, fun d hd => Nat.le_succ_of_le (hafter d hd)⟩
  snapshots := h.snapshots.imp fun _ _ hsnap => hsnap.logged fun n hn =>
    hjob _ (dispatched_mem_dispatchJob hn).2.symm
  decreasing := decreasing_succ h.decreasing

theorem Inv.head_unknown (h : Inv k gs sv log) {dj : DelayedJobs} {next : List DelayedJobs}
    (hlist : sv.delayedJobs = dj :: next) (n : Nat) :
    .dispatched ⟨n, .getCounters dj.addr⟩ ∉ log := by
  intro hn
  have hmem := h.known n dj.addr hn
  have haddrs := h.addrs
  rw [hlist] at hmem haddrs
  have hlt := (List.pairwise_cons.mp (List.pairwise_cons.mp haddrs).2).1 dj.addr hmem
  exact Nat.lt_irrefl _ hlt

theorem Inv.addr_ne_head (h : Inv k gs sv log) {dj : DelayedJobs} {next : List DelayedJobs}
    (hlist : sv.delayedJobs = dj :: next) : ∀ dj' ∈ next, dj'.addr ≠ dj.addr := by
  have hbelow := (List.pairwise_cons.mp h.addrs).2
  rw [hlist] at hbelow
  intro dj' hdj'
  exact Nat.ne_of_lt ((List.pairwise_cons.mp hbelow).1 _ (List.mem_map_of_mem hdj'))

theorem Inv.addrs_push (h : Inv k gs sv log) :
    ((sv.nextAddr + 1) :: sv.nextAddr :: sv.delayedJobs.map DelayedJobs.addr).Pairwise (· > ·) := by
  refine List.pairwise_cons.mpr ⟨?_, h.addrs⟩
  intro addr haddr
  obtain rfl | haddr := List.mem_cons.mp haddr
  · exact Nat.lt_succ_self _
  · exact Nat.lt_succ_of_lt ((List.pairwise_cons.mp h.addrs).1 addr haddr)

/-- The record that was at the head gets its snapshot from the job dispatched now, which comes after
all that its delayed jobs have to wait for. -/
theorem Inv.pushDelayedJobs (h : Inv k gs sv log) :
    ∃ gs', Inv k gs' (pushDelayedJobs sv).1 (log ++ (pushDelayedJobs sv).2) := by
  unfold Workers.pushDelayedJobs
  have hsnaps := h.snapshots
  split
  · rename_i hnil
    rw [hnil] at hsnaps
    cases hsnaps
    refine ⟨[], ?_⟩
    rw [List.append_nil]
    exact
      { toQueued := ⟨h.queue, h.total, h.queued, h.running, h.finished⟩
        addrs := h.addrs_push
        known := by
          intro n addr hn
          have hmem := h.known n addr hn
          rw [hnil] at hmem
          cases hmem
        head := by
          intro dj hdj
          cases hdj
          exact ⟨rfl, nofun⟩
        snapshots := by
          dsimp only
          rw [hnil]
          exact List.Forall₂.nil
        decreasing := h.decreasing }
  · rename_i dj next hlist
    rw [hlist] at hsnaps
    obtain ⟨hnone, hafter⟩ := h.head dj (by rw [hlist]; rfl)
    have hpushed : Queued k { sv with
        delayedJobs := ⟨sv.nextAddr, none, []⟩ :: sv.delayedJobs, nextAddr := sv.nextAddr + 1 }
          log :=
      ⟨h.queue, h.total, h.queued, h.running, h.finished⟩
    exact ⟨sv.dispatched :: gs,
      { toQueued := hpushed.dispatchJob _
        addrs := h.addrs_push
        known := by
          intro n addr hn
          change addr ∈ sv.delayedJobs.map DelayedJobs.addr
          obtain hn | hn := List.mem_append.mp hn
          · exact List.mem_of_mem_tail (List.map_tail ▸ h.known n addr hn)
          · rw [Job.getCounters.inj (dispatched_mem_dispatchJob hn).2, hlist]
            exact List.mem_cons_self
        head := by
          intro dj' hdj'
          cases hdj'
          exact ⟨rfl, nofun⟩
        snapshots := by
          change List.Forall₂ _ sv.delayedJobs _
          rw [hlist]
          refine List.Forall₂.cons ⟨?_, hafter, ?_⟩ ?_
          · intro n hn
            obtain hn | hn := List.mem_append.mp hn
            · exact absurd hn (h.head_unknown hlist n)
            · exact (dispatched_mem_dispatchJob hn).1
          · intro counters hcounters
            rw [hnone] at hcounters
            cases hcounters
          · refine ((List.forall₂_and_left _ _).mpr ⟨h.addr_ne_head hlist, hsnaps⟩).imp ?_
            rintro dj' g ⟨hne, hsnap⟩
            exact hsnap.logged fun n hn =>
              hne (Job.getCounters.inj (dispatched_mem_dispatchJob hn).2)
        decreasing := by
          refine List.pairwise_cons.mpr ⟨?_, h.decreasing⟩
          intro g hg
          obtain rfl | hg := List.mem_cons.mp hg
          · exact Nat.lt_succ_self _
          · exact Nat.lt_succ_of_lt ((List.pairwise_cons.mp h.decreasing).1 g hg) }⟩

theorem Inv.appendDelayedJob (h : Inv k gs sv log) :
    Inv k gs (appendDelayedJob sv).1 (log ++ (appendDelayedJob sv).2) := by
  unfold Workers.appendDelayedJob
  split
  · rw [List.append_nil]
    exact h
  · rename_i dj next hlist
    have hseen : Inv k gs sv (log ++ [.added ⟨sv.delayed, sv.dispatched⟩]) := h.observed (by simp)
    obtain ⟨hnone, hafter⟩ := h.head dj (by rw [hlist]; rfl)
    exact
      { toQueued := ⟨hseen.queue, hseen.total, hseen.queued, hseen.running, hseen.finished⟩
        addrs := by
          have haddrs := h.addrs
          rw [hlist] at haddrs
          exact haddrs
        known := by
          intro n addr hn
          have hmem := hseen.known n addr hn
          rwa [hlist] at hmem
        head := by
          intro dj' hdj'
          cases hdj'
          refine ⟨hnone, fun d hd => ?_⟩
          obtain hd | hd := List.mem_append.mp hd
          · exact hafter d hd
          · exact Nat.le_of_eq (congrArg DelayedJob.after (List.mem_singleton.mp hd))
        snapshots := by
          have hsnaps := hseen.snapshots
          rwa [hlist] at hsnaps
        decreasing := h.decreasing }

theorem Inv.addDelayedJob (h : Inv k gs sv log) :
    ∃ gs', Inv k gs' (addDelayedJob sv).1 (log ++ (addDelayedJob sv).2) := by
  have hboth : ∃ gs', Inv k gs' (Workers.appendDelayedJob (Workers.pushDelayedJobs sv).1).1
      (log ++ ((Workers.pushDelayedJobs sv).2 ++
        (Workers.appendDelayedJob (Workers.pushDelayedJobs sv).1).2)) := by
    obtain ⟨gs', hpushed⟩ := h.pushDelayedJobs
    rw [← List.append_assoc]
    exact ⟨gs', hpushed.appendDelayedJob⟩
  unfold Workers.addDelayedJob
  split
  · exact hboth
  · split
    · exact hboth
    · exact ⟨gs, h.appendDelayedJob⟩

theorem Inv.setWorker {k' : Nat} (h : Inv k gs sv log) (hk : k ≤ k') (i : Nat) {worker : Worker}
    (hworker : ∀ running, worker.doing = .job running → k ≤ running.number)
    {queue : List DispatchJob}
    (hqueued : Queued k' ({ sv with dispatchQueue := queue }.setWorker i worker) log) :
    Inv k' gs ({ sv with dispatchQueue := queue }.setWorker i worker) log where
  toQueued := hqueued
  addrs := h.addrs
  known := h.known
  head := h.head
  snapshots := h.snapshots.imp fun _ _ hsnap => hsnap.set hk i hworker
  decreasing := h.decreasing

theorem mem_set_of_running {workers : List Worker} {i : Nat} {old : Worker}
    (hi : workers[i]? = some old) (hold : ∀ dj, old.doing ≠ .job dj) {worker : Worker}
    (hworker : worker ∈ workers) {dj : DispatchJob} (hdoing : worker.doing = .job dj)
    (worker' : Worker) : worker ∈ workers.set i worker' := by
  obtain ⟨j, hj⟩ := List.mem_iff_getElem?.mp hworker
  refine List.mem_iff_getElem?.mpr ⟨j, ?_⟩
  rw [List.getElem?_set_ne]
  · exact hj
  · rintro rfl
    rw [hi] at hj
    cases hj
    exact hold dj hdoing

theorem Inv.setIdle (h : Inv k gs sv log) {i : Nat} {old worker : Worker}
    (hi : sv.workers[i]? = some old) (hold : ∀ dj, old.doing ≠ .job dj)
    (hworker : ∀ dj, worker.doing ≠ .job dj) : Inv k gs (sv.setWorker i worker) log := by
  refine @Inv.setWorker sv log k gs k h (Nat.le_refl k) i worker
    (fun dj hdoing => absurd hdoing (hworker dj)) sv.dispatchQueue
    ⟨h.queue, h.total, h.queued, ?_, ?_⟩
  · intro worker' hworker' dj hdoing
    obtain hworker' | rfl := List.mem_or_eq_of_mem_set hworker'
    · exact h.running worker' hworker' dj hdoing
    · exact absurd hdoing (hworker dj)
  · intro j hj
    obtain hfin | ⟨worker', hworker', dj, hdoing, hnumber⟩ := h.finished j hj
    · exact Or.inl hfin
    · exact Or.inr ⟨worker', mem_set_of_running hi hold hworker' hdoing _, dj, hdoing, hnumber⟩

theorem Inv.dequeue (h : Inv k gs sv log) {i : Nat} {counter : UInt32}
    (hi : sv.workers[i]? = some ⟨counter, .waiting⟩) :
    ∃ k', Inv k' gs (dequeue sv i ⟨counter, .waiting⟩) log := by
  unfold Workers.dequeue
  have hlt := (List.getElem?_eq_some_iff.mp hi).1
  have hidle : ∀ dj, (⟨counter, .waiting⟩ : Worker).doing ≠ .job dj := nofun
  split
  · exact ⟨k, h.setIdle hi hidle nofun⟩
  · rename_i dj rest hqueue
    have hnumbers := h.queue
    have htotal := h.total
    rw [hqueue, List.map_cons, List.length_cons, List.range'_succ] at hnumbers
    rw [hqueue, List.length_cons] at htotal
    obtain ⟨hnumber, hrest⟩ := List.cons.inj hnumbers
    have hlogged := h.queued dj (hqueue ▸ List.mem_cons_self)
    refine ⟨k + 1, h.setWorker (Nat.le_succ k) i ?_ ?_⟩
    · intro running hrunning
      cases hrunning
      exact Nat.le_of_eq hnumber.symm
    · refine ⟨hrest, ?_, ?_, ?_, ?_⟩
      · change k + 1 + rest.length = sv.dispatched
        omega
      · exact fun dj' hdj' => h.queued dj' (hqueue ▸ List.mem_cons_of_mem dj hdj')
      · intro worker hworker dj' hdoing
        obtain hworker | rfl := List.mem_or_eq_of_mem_set hworker
        · obtain ⟨hless, hseen⟩ := h.running worker hworker dj' hdoing
          exact ⟨Nat.lt_succ_of_lt hless, hseen⟩
        · cases hdoing
          exact ⟨hnumber ▸ Nat.lt_succ_self k, hlogged⟩
      · intro j hj
        obtain hj | rfl := Nat.lt_succ_iff_lt_or_eq.mp hj
        · obtain hfin | ⟨worker, hworker, dj', hdoing, hnumber'⟩ := h.finished j hj
          · exact Or.inl hfin
          · exact Or.inr ⟨worker, mem_set_of_running hi hidle hworker hdoing _, dj', hdoing,
              hnumber'⟩
        · exact Or.inr ⟨_, List.mem_set hlt _, dj, rfl, hnumber⟩

theorem Inv.getCounters (h : Inv k gs sv log) {n delayed : Nat} (hn : n < k)
    (hlogged : .dispatched ⟨n, .getCounters delayed⟩ ∈ log) :
    ∃ sv', getCounters sv delayed = .ok sv' ∧ Inv k gs sv' log ∧ sv'.workers = sv.workers := by
  have hknown := h.known n delayed hlogged
  have hany : sv.delayedJobs.any (·.addr == delayed) = true := by
    obtain ⟨dj, hdj, haddr⟩ := List.mem_map.mp hknown
    exact List.any_eq_true.mpr ⟨dj, List.mem_of_mem_tail hdj, beq_iff_eq.mpr haddr⟩
  refine ⟨_, if_pos hany, ?_, rfl⟩
  have haddrs : ∀ records : List DelayedJobs,
      (records.map fun dj => if dj.addr = delayed then
          { dj with workerCounters := some (sv.workers.map Worker.counter) } else dj).map
        DelayedJobs.addr = records.map DelayedJobs.addr := by
    intro records
    rw [List.map_map]
    refine List.map_congr_left fun dj _ => ?_
    dsimp only [Function.comp_apply]
    split <;> rfl
  exact
    { toQueued := ⟨h.queue, h.total, h.queued, h.running, h.finished⟩
      addrs := by
        dsimp only
        rw [haddrs]
        exact h.addrs
      known := by
        intro n' addr hn'
        dsimp only
        rw [← List.map_tail, haddrs]
        exact h.known n' addr hn'
      head := by
        intro dj hdj
        cases hlist : sv.delayedJobs with
        | nil =>
          rw [hlist] at hdj
          cases hdj
        | cons dj' next =>
          obtain ⟨dj₂, hdj₂, haddr⟩ := List.mem_map.mp hknown
          rw [hlist] at hdj hdj₂
          have hne : dj'.addr ≠ delayed := by
            rw [← haddr]
            exact (h.addr_ne_head hlist dj₂ hdj₂).symm
          rw [List.map_cons, if_neg hne] at hdj
          cases hdj
          exact h.head dj (by rw [hlist]; rfl)
      snapshots := by
        dsimp only
        rw [← List.map_tail, List.forall₂_map_left_iff]
        refine h.snapshots.imp fun dj g hsnap => ?_
        split
        · rename_i haddr
          have hg : n = g := hsnap.unique n (haddr ▸ hlogged)
          refine ⟨hsnap.unique, hsnap.late, ?_⟩
          intro counters hcounters
          cases hcounters
          refine ⟨hg ▸ hn, List.length_map _, ?_⟩
          intro i counter worker hcounter hworker hne
          rw [List.getElem?_map, hworker] at hcounter
          exact absurd (Option.some.inj hcounter).symm hne
        · exact hsnap
      decreasing := h.decreasing }

theorem Inv.finish (h : Inv k gs sv log) {i : Nat} {counter : UInt32} {dj : DispatchJob}
    (hi : sv.workers[i]? = some ⟨counter, .job dj⟩) :
    Inv k gs (sv.setWorker i ⟨counter, .done⟩) (log ++ [.finished dj.number]) := by
  have hseen : Inv k gs sv (log ++ [.finished dj.number]) := h.observed (by simp)
  refine @Inv.setWorker sv _ k gs k hseen (Nat.le_refl k) i ⟨counter, .done⟩ nofun
    sv.dispatchQueue ⟨hseen.queue, hseen.total, hseen.queued, ?_, ?_⟩
  · intro worker hworker dj' hdoing
    obtain hworker | rfl := List.mem_or_eq_of_mem_set hworker
    · exact hseen.running worker hworker dj' hdoing
    · cases hdoing
  · intro j hj
    obtain hfin | ⟨worker, hworker, dj', hdoing, hnumber⟩ := hseen.finished j hj
    · exact Or.inl hfin
    · obtain ⟨i', hi'⟩ := List.mem_iff_getElem?.mp hworker
      by_cases hsame : i = i'
      · subst hsame
        rw [hi] at hi'
        cases hi'
        cases hdoing
        rw [← hnumber]
        exact Or.inl (List.mem_append_right _ List.mem_cons_self)
      · refine Or.inr ⟨worker, List.mem_iff_getElem?.mpr ⟨i', ?_⟩, dj', hdoing, hnumber⟩
        exact (List.getElem?_set_ne hsame).trans hi'

/-- No pass of `dispatchDelayedJobs` finds a record that is ready. -/
def NoneReady (sv : Server) : Event → Prop
  | .finish i =>
      match sv.workers[i]? with
      | some ⟨_, .job ⟨_, .dispatchDelayedJobs⟩⟩ => findReady sv.workers sv.delayedJobs.tail = []
      | _ => True
  | _ => True

/-- An observation that says nothing of the execution of delayed jobs. -/
def Output.quiet : Output → Bool
  | .dispatched _ | .added _ | .finished _ => true
  | _ => false

theorem quiet_pushDelayedJobs : ∀ o ∈ (pushDelayedJobs sv).2, o.quiet = true := by
  unfold pushDelayedJobs
  split
  · nofun
  · simp [dispatchJob, Output.quiet]

theorem quiet_appendDelayedJob : ∀ o ∈ (appendDelayedJob sv).2, o.quiet = true := by
  unfold appendDelayedJob
  split
  · nofun
  · simp [Output.quiet]

theorem quiet_addDelayedJob : ∀ o ∈ (addDelayedJob sv).2, o.quiet = true := by
  have hboth : ∀ o ∈ (pushDelayedJobs sv).2 ++ (appendDelayedJob (pushDelayedJobs sv).1).2,
      o.quiet = true := by
    intro o ho
    obtain ho | ho := List.mem_append.mp ho
    · exact quiet_pushDelayedJobs o ho
    · exact quiet_appendDelayedJob o ho
  unfold addDelayedJob
  split
  · exact hboth
  · split
    · exact hboth
    · exact quiet_appendDelayedJob

theorem processJob_of_noneReady (h : Inv k gs sv log) {i : Nat} {counter : UInt32}
    {dj : DispatchJob} (hi : sv.workers[i]? = some ⟨counter, .job dj⟩)
    (hnone : NoneReady sv (.finish i)) :
    ∃ sv', processJob sv dj.job = .ok sv' ∧ Inv k gs sv' log ∧ sv'.workers = sv.workers := by
  obtain ⟨hlt, hlogged⟩ := h.running _ (List.mem_of_getElem? hi) dj rfl
  obtain ⟨number, job⟩ := dj
  cases job with
  | other => exact ⟨sv, rfl, h, rfl⟩
  | getCounters delayed => exact h.getCounters hlt hlogged
  | dispatchDelayedJobs =>
    rw [NoneReady, hi] at hnone
    dsimp only at hnone
    refine ⟨sv, ?_, h, rfl⟩
    rw [processJob, Workers.dispatchDelayedJobs, hnone]

theorem Inv.step (h : Inv k gs sv log) {e : Event} (hnone : NoneReady sv e) :
    ∃ sv' outputs, step sv e = .ok (sv', outputs) ∧ (∃ k' gs', Inv k' gs' sv' (log ++ outputs)) ∧
      ∀ o ∈ outputs, o.quiet = true := by
  have hstay : ∃ sv' outputs, Except.ok (sv, []) = (Except.ok (sv', outputs) :
      Except UseAfterFree (Server × List Output)) ∧ (∃ k' gs', Inv k' gs' sv' (log ++ outputs)) ∧
      ∀ o ∈ outputs, o.quiet = true :=
    ⟨sv, [], rfl, ⟨k, gs, (List.append_nil log).symm ▸ h⟩, nofun⟩
  cases e with
  | dequeue i =>
    rw [Workers.step]
    split
    · rename_i counter hi
      obtain ⟨k', hk'⟩ := h.dequeue hi
      exact ⟨_, [], rfl, ⟨k', gs, (List.append_nil log).symm ▸ hk'⟩, nofun⟩
    · exact hstay
  | finish i =>
    rw [Workers.step]
    split
    · rename_i counter dj hi
      obtain ⟨sv', hjob, hinv, hworkers⟩ := processJob_of_noneReady h hi hnone
      refine ⟨_, _, by rw [hjob]; rfl, ⟨k, gs, hinv.finish (hworkers ▸ hi)⟩, ?_⟩
      simp [Output.quiet]
    · exact hstay
  | count i =>
    rw [Workers.step]
    split
    · rename_i counter hi
      exact ⟨_, [], rfl, ⟨k, gs, (List.append_nil log).symm ▸ h.setIdle hi nofun nofun⟩, nofun⟩
    · exact hstay
  | dispatchJob | dispatchDelayedJobs =>
    exact ⟨_, _, rfl, ⟨k, gs, h.dispatchJob nofun⟩, by simp [Output.quiet]⟩
  | addDelayedJob =>
    obtain ⟨gs', hgs'⟩ := h.addDelayedJob
    exact ⟨_, _, rfl, ⟨k, gs', hgs'⟩, quiet_addDelayedJob⟩

theorem step_of_ready {e : Event} (hready : ¬ NoneReady sv e) : ∃ f, step sv e = .error f := by
  cases e with
  | finish i =>
    rw [NoneReady] at hready
    split at hready
    · rename_i counter number hi
      rw [step, hi]
      dsimp only
      rw [processJob, dispatchDelayedJobs]
      split
      · rename_i hnil
        exact absurd hnil hready
      · exact ⟨_, rfl⟩
    · exact absurd trivial hready
  | _ => exact absurd trivial hready

theorem exists_of_forall₂ {α β : Type} {r : α → β → Prop} {as : List α} {bs : List β}
    (h : List.Forall₂ r as bs) {a : α} (ha : a ∈ as) : ∃ b ∈ bs, r a b := by
  induction h with
  | nil => cases ha
  | @cons a' b as bs hab _ ih =>
    obtain rfl | ha := List.mem_cons.mp ha
    · exact ⟨b, List.mem_cons_self, hab⟩
    · obtain ⟨b', hb', hr⟩ := ih ha
      exact ⟨b', List.mem_cons_of_mem b hb', hr⟩

theorem Inv.finished_of_ready (h : Inv k gs sv log) {newer older : List DelayedJobs}
    {dw : DelayedJobs} (hlist : sv.delayedJobs.tail = newer ++ dw :: older)
    (hready : dw.ready sv.workers = true) :
    ∀ dj ∈ dw :: older, (∀ d ∈ dj.jobs, ∀ j < d.after, .finished j ∈ log) ∧
      ∀ n, .dispatched ⟨n, .getCounters dj.addr⟩ ∈ log → .finished n ∈ log := by
  have hfrom := List.forall₂_drop newer.length h.snapshots
  rw [hlist, List.drop_left] at hfrom
  obtain ⟨g, gs', hsnap, -, hgs⟩ := List.forall₂_cons_left_iff.mp hfrom
  obtain ⟨hg, hrunning⟩ := hsnap.of_ready hready
  have hdone : ∀ j ≤ g, .finished j ∈ log := by
    intro j hj
    obtain hfin | ⟨worker, hworker, dj, hdoing, rfl⟩ := h.finished j (Nat.lt_of_le_of_lt hj hg)
    · exact hfin
    · exact absurd (hrunning worker hworker dj hdoing) (Nat.not_lt.mpr hj)
  have hbelow : ∀ g' ∈ gs.drop newer.length, g' ≤ g := by
    have hdec := (List.pairwise_cons.mp h.decreasing).2.sublist (List.drop_sublist newer.length gs)
    rw [hgs] at hdec ⊢
    have hfirst := (List.pairwise_cons.mp hdec).1
    intro g' hg'
    obtain rfl | hg' := List.mem_cons.mp hg'
    · exact Nat.le_refl _
    · exact Nat.le_of_lt (hfirst g' hg')
  intro dj hdj
  obtain ⟨g', hg', hsnap'⟩ := exists_of_forall₂ hfrom hdj
  constructor
  · intro d hd j hj
    exact hdone j (Nat.le_trans (Nat.le_of_lt hj) (Nat.le_trans (hsnap'.late d hd) (hbelow g' hg')))
  · intro n hn
    exact hdone n (Nat.le_trans (Nat.le_of_eq (hsnap'.unique n hn)) (hbelow g' hg'))

end Steps

def AtMostOnce (log : List Output) : Prop := ∀ d, log.count (.executed d) ≤ 1

/-- A delayed job is executed when every job dispatched before it was added has finished. -/
def LateEnough (log : List Output) : Prop :=
  Trace.Always (fun past o =>
    match o with
    | .executed d => ∀ j < d.after, .finished j ∈ past
    | _ => True) [] log

/-- A record leaves the list when its jobs have been executed and the job for its snapshot has
finished, if there was one. -/
def LeavesDone (log : List Output) : Prop :=
  Trace.Always (fun past o =>
    match o with
    | .left dj => (∀ d ∈ dj.jobs, .executed d ∈ past) ∧
        ∀ n, .dispatched ⟨n, .getCounters dj.addr⟩ ∈ past → .finished n ∈ past
    | _ => True) [] log

/-- The jobs of a record found ready, and of all older ones, are executed after that. -/
def PassesComplete (log : List Output) : Prop :=
  ∀ past records later, log = past ++ .found records :: later →
    ∀ dj ∈ records, ∀ d ∈ dj.jobs, .executed d ∈ later

theorem correct_of_quiet (hquiet : ∀ o ∈ log, o.quiet = true) :
    AtMostOnce log ∧ LateEnough log ∧ LeavesDone log ∧ PassesComplete log := by
  have hnot : ∀ {o : Output}, o.quiet = false → o ∉ log := by
    intro o ho hmem
    rw [hquiet o hmem] at ho
    cases ho
  refine ⟨fun d => ?_, ?_, ?_, ?_⟩
  · rw [List.count_eq_zero_of_not_mem (hnot rfl)]
    exact Nat.zero_le 1
  · apply Trace.always_of_forall
    intro o ho past
    cases o with
    | executed d => exact absurd ho (hnot rfl)
    | _ => exact trivial
  · apply Trace.always_of_forall
    intro o ho past
    cases o with
    | left dj => exact absurd ho (hnot rfl)
    | _ => exact trivial
  · rintro past records later rfl
    exact absurd (List.mem_append_right past List.mem_cons_self) (hnot rfl)

/-- What holds after a run in which no record is found ready. -/
def Reached (sv : Server) (replies : List (List Output)) : Prop :=
  (∃ k gs, Inv k gs sv replies.flatten) ∧ ∀ o ∈ replies.flatten, o.quiet = true

theorem reached_of_guarded (nThreads : Nat) (es : List Event)
    (h : Runs.Guarded step NoneReady (Server.init nThreads) es) :
    ∃ sv replies, Runs.run step (Server.init nThreads) es = .ok (sv, replies) ∧
      Reached sv replies := by
  refine Runs.ok_of_guarded Reached ?_ es (Server.init nThreads) []
    ⟨⟨0, [], .init nThreads⟩, nofun⟩ h
  rintro sv past e ⟨⟨k, gs, hinv⟩, hquiet⟩ hnone
  obtain ⟨sv', outputs, hstep, hinv', hnew⟩ := hinv.step hnone
  have hflat : (past ++ [outputs]).flatten = past.flatten ++ outputs := by simp
  refine ⟨sv', outputs, hstep, ?_, ?_⟩
  · rwa [hflat]
  · rw [hflat]
    intro o ho
    obtain ho | ho := List.mem_append.mp ho
    · exact hquiet o ho
    · exact hnew o ho

/-- A run keeps to what is said of delayed jobs if and only if no pass finds a record that is ready,
for a pass that finds one uses it after it is freed. The counters are not to blame: when a record is
ready, all jobs dispatched before its delayed jobs and those of older records have finished, and no
snapshot of these records is outstanding. -/
theorem delayedJobs_correct_iff (nThreads : Nat) (es : List Event) :
    ((∃ sv replies, Runs.run step (Server.init nThreads) es = .ok (sv, replies) ∧
        AtMostOnce replies.flatten ∧ LateEnough replies.flatten ∧ LeavesDone replies.flatten ∧
        PassesComplete replies.flatten) ↔
      Runs.Guarded step NoneReady (Server.init nThreads) es) ∧
    ∀ sv replies, Runs.run step (Server.init nThreads) es = .ok (sv, replies) →
      ∀ newer dw older, sv.delayedJobs.tail = newer ++ dw :: older → dw.ready sv.workers = true →
        ∀ dj ∈ dw :: older,
          (∀ d ∈ dj.jobs, ∀ j < d.after, .finished j ∈ replies.flatten) ∧
            ∀ n, .dispatched ⟨n, .getCounters dj.addr⟩ ∈ replies.flatten →
              .finished n ∈ replies.flatten := by
  have hguarded : ∀ sv replies, Runs.run step (Server.init nThreads) es = .ok (sv, replies) →
      Runs.Guarded step NoneReady (Server.init nThreads) es :=
    Runs.guarded_of_ok (fun _ _ => step_of_ready) es (Server.init nThreads)
  refine ⟨⟨?_, ?_⟩, ?_⟩
  · rintro ⟨sv, replies, hrun, -⟩
    exact hguarded sv replies hrun
  · intro h
    obtain ⟨sv, replies, hrun, -, hquiet⟩ := reached_of_guarded nThreads es h
    exact ⟨sv, replies, hrun, correct_of_quiet hquiet⟩
  · intro sv replies hrun newer dw older hlist hready
    obtain ⟨sv', replies', hrun', ⟨k, gs, hinv⟩, -⟩ :=
      reached_of_guarded nThreads es (hguarded sv replies hrun)
    rw [hrun] at hrun'
    cases hrun'
    exact hinv.finished_of_ready hlist hready

/-- Delayed jobs until the first record is full and there is a second one, the snapshot for the
first one, a move of the counter, and a pass. -/
def firstRecord : List Event :=
  List.replicate (delayedJobsSize + 1) .addDelayedJob ++
    [.dequeue 0, .finish 0, .count 0, .dispatchDelayedJobs, .dequeue 0, .finish 0]

/-- The first record when it is full and its snapshot is taken. -/
def fullRecord : DelayedJobs :=
  ⟨0, some [0], (List.range delayedJobsSize).map fun number => ⟨number, 0⟩⟩

/-- The pass runs the hundred jobs of the record, takes it off the list, frees it and goes on with
it. -/
theorem firstRecord_used_after_free :
    Runs.Fails step (Server.init 1) firstRecord
      ⟨0, .found [fullRecord] :: fullRecord.jobs.map Output.executed ++
        [.left fullRecord, .freed 0]⟩ := by
  decide +kernel

end FactoryThing.Workers
