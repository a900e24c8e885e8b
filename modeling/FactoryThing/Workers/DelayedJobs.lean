import FactoryThing.Lib.Runs

/-!
# Worker threads and delayed jobs

The multi-threaded build (`src/server/ua_server_worker.c:97-136` and `196-300`). Worker threads take
jobs from the dispatch queue and count the rounds of their loops. Delayed jobs are collected in
records; when a record is full, a job takes a snapshot of the counters, and once all counters have
moved the delayed jobs are run. Allocations succeed. Jobs are numbered in the order in which they
are dispatched, and a delayed job is tagged with the number of jobs dispatched before it; no
function looks at the numbers.
-/

namespace FactoryThing.Workers

/-- The method calls in the dispatch queue. -/
inductive Job where
  | other
  | getCounters (delayed : Nat)
  | dispatchDelayedJobs
  deriving DecidableEq

/-- `struct DispatchJob`. -/
structure DispatchJob where
  number : Nat
  job : Job
  deriving DecidableEq

/-- A delayed job, with the number of jobs dispatched before it was added. -/
structure DelayedJob where
  number : Nat
  after : Nat
  deriving DecidableEq

/-- `struct DelayedJobs` (`:203-208`) at an address. The counters are not there until they are
set. -/
structure DelayedJobs where
  addr : Nat
  workerCounters : Option (List UInt32)
  jobs : List DelayedJob
  deriving DecidableEq

def delayedJobsSize : Nat := 100

/-- Where in its loop a worker is: in front of the queue, at a job, or in front of the counter. -/
inductive Doing where
  | waiting
  | job (dj : DispatchJob)
  | done
  deriving DecidableEq

/-- `UA_Worker`: its counter and what it works on. -/
structure Worker where
  counter : UInt32
  doing : Doing
  deriving DecidableEq

/-- The part of `UA_Server` the workers work on, with the numbers of the next job and the next
delayed job and the next address. The list of records starts at `server->delayedJobs`. -/
structure Server where
  workers : List Worker
  dispatchQueue : List DispatchJob
  delayedJobs : List DelayedJobs
  dispatched : Nat
  delayed : Nat
  nextAddr : Nat
  deriving DecidableEq

/-- The server after `UA_Server_run_startup` with `nThreads` workers. -/
def Server.init (nThreads : Nat) : Server where
  workers := List.replicate nThreads ⟨0, .waiting⟩
  dispatchQueue := []
  delayedJobs := []
  dispatched := 0
  delayed := 0
  nextAddr := 0

/-- What a step shows. -/
inductive Output where
  | dispatched (dj : DispatchJob)
  | added (d : DelayedJob)
  | finished (number : Nat)
  | found (records : List DelayedJobs)
  | executed (d : DelayedJob)
  | left (delayed : DelayedJobs)
  | freed (addr : Nat)
  deriving DecidableEq

/-- The program goes on with a record it has freed; what happened in the step before that. -/
structure UseAfterFree where
  addr : Nat
  outputs : List Output
  deriving DecidableEq

variable (sv : Server)

/-- `UA_Server_dispatchJob` (`:129-136`). -/
def dispatchJob (job : Job) : Server × List Output :=
  let dj : DispatchJob := ⟨sv.dispatched, job⟩
  ({ sv with dispatchQueue := sv.dispatchQueue ++ [dj], dispatched := sv.dispatched + 1 },
    [.dispatched dj])

/-- A new record at the head of the list (`:221-238`). For the full one behind it a job is
dispatched that takes the snapshot. -/
def pushDelayedJobs : Server × List Output :=
  let dj : DelayedJobs := ⟨sv.nextAddr, none, []⟩
  let pushed := { sv with delayedJobs := dj :: sv.delayedJobs, nextAddr := sv.nextAddr + 1 }
  match sv.delayedJobs with
  | [] => (pushed, [])
  | next :: _ => dispatchJob pushed (.getCounters next.addr)

/-- The delayed job goes into the record at the head (`:240-241`). -/
def appendDelayedJob : Server × List Output :=
  match sv.delayedJobs with
  | [] => (sv, [])
  | dj :: next =>
      let d : DelayedJob := ⟨sv.delayed, sv.dispatched⟩
      ({ sv with
        delayedJobs := { dj with jobs := dj.jobs ++ [d] } :: next
        delayed := sv.delayed + 1 }, [.added d])

/-- `addDelayedJob` (`:217-242`). -/
def addDelayedJob : Server × List Output :=
  match sv.delayedJobs with
  | [] =>
      let (sv, pushed) := pushDelayedJobs sv
      let (sv, added) := appendDelayedJob sv
      (sv, pushed ++ added)
  | dj :: _ =>
      if dj.jobs.length ≥ delayedJobsSize then
        let (sv, pushed) := pushDelayedJobs sv
        let (sv, added) := appendDelayedJob sv
        (sv, pushed ++ added)
      else appendDelayedJob sv

/-- `getCounters` (`:211-216`) for the record at an address. -/
def getCounters (delayed : Nat) : Except UseAfterFree Server :=
  if sv.delayedJobs.any (·.addr == delayed) then
    .ok { sv with
      delayedJobs := sv.delayedJobs.map fun dj =>
        if dj.addr = delayed then { dj with workerCounters := some (sv.workers.map Worker.counter) }
        else dj }
  else .error ⟨delayed, []⟩

/-- The counters have been set and have all moved (`:273-288`). -/
def DelayedJobs.ready (workers : List Worker) (dw : DelayedJobs) : Bool :=
  match dw.workerCounters with
  | none => false
  | some workerCounters =>
      (workerCounters.zip workers).all fun (counter, worker) => counter != worker.counter

/-- From the first record on that is ready (`:272-291`). -/
def findReady (workers : List Worker) : List DelayedJobs → List DelayedJobs
  | [] => []
  | dw :: next => if dw.ready workers then dw :: next else findReady workers next

/-- `dispatchDelayedJobs` (`:263-300`). The search starts at the second record. The first record
found is taken off the list with all behind it, and its jobs are run. The exchange then yields what
was the `next` of the record before it, and that is the record itself: the loop goes on with it once
it is freed. -/
def dispatchDelayedJobs : Except UseAfterFree Server :=
  match findReady sv.workers sv.delayedJobs.tail with
  | [] => .ok sv
  | dw :: next =>
      .error ⟨dw.addr, .found (dw :: next) :: dw.jobs.map Output.executed ++
        (dw :: next).map Output.left ++ [.freed dw.addr]⟩

/-- `UA_Server_processJob` for the jobs of the queue. -/
def processJob : Job → Except UseAfterFree Server
  | .other => .ok sv
  | .getCounters delayed => getCounters sv delayed
  | .dispatchDelayedJobs => dispatchDelayedJobs sv

/-- The server with another state of one of the workers. -/
def Server.setWorker (i : Nat) (worker : Worker) : Server :=
  { sv with workers := sv.workers.set i worker }

/-- A step of a worker, or a call from the main thread. -/
inductive Event where
  | dequeue (worker : Nat)
  | finish (worker : Nat)
  | count (worker : Nat)
  | dispatchJob
  | dispatchDelayedJobs
  | addDelayedJob
  deriving DecidableEq

/-- `workerLoop` (`:98-127`) up to the job: the first one in the queue, or none. -/
def dequeue (i : Nat) (worker : Worker) : Server :=
  match sv.dispatchQueue with
  | [] => sv.setWorker i { worker with doing := .done }
  | dj :: rest => { sv with dispatchQueue := rest }.setWorker i { worker with doing := .job dj }

/-- One step. A worker that is somewhere else in its loop does not make it. -/
def step (sv : Server) : Event → Except UseAfterFree (Server × List Output)
  | .dequeue i =>
      match sv.workers[i]? with
      | some ⟨counter, .waiting⟩ => .ok (dequeue sv i ⟨counter, .waiting⟩, [])
      | _ => .ok (sv, [])
  | .finish i =>
      match sv.workers[i]? with
      | some ⟨counter, .job dj⟩ =>
          (processJob sv dj.job).map fun sv =>
            (sv.setWorker i ⟨counter, .done⟩, [.finished dj.number])
      | _ => .ok (sv, [])
  | .count i =>
      match sv.workers[i]? with
      | some ⟨counter, .done⟩ => .ok (sv.setWorker i ⟨counter + 1, .waiting⟩, [])
      | _ => .ok (sv, [])
  | .dispatchJob => .ok (dispatchJob sv .other)
  | .dispatchDelayedJobs => .ok (dispatchJob sv .dispatchDelayedJobs)
  | .addDelayedJob => .ok (addDelayedJob sv)

end FactoryThing.Workers
