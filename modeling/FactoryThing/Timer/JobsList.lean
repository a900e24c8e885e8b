import FactoryThing.Types.NodeId

/-!
# Repeated jobs

`src/ua_timer.c`: a list of jobs sorted by the time they are due, changed through a queue. Adding
and removing a job only enqueues a change; `UA_RepeatedJobsList_process` works the queue off,
dispatches the jobs that are due and sorts them in again. The queue is used by one thread here, and
is the list of its entries in the order they were put in. `UA_DateTime` arithmetic does not
overflow. `J` is the type of the jobs, whatever the callback does with them.
-/

namespace FactoryThing.Timer

variable {J : Type}

/-- `struct UA_RepeatedJob` (`ua_timer.c:14-20`). -/
structure RepeatedJob (J : Type) where
  nextTime : Int
  interval : Nat
  id : Guid
  job : J
  deriving DecidableEq

/-- An entry of the queue: a job to be added, or the id of a job to be removed, which the code
marks with the `nextTime` sentinel. -/
inductive Change (J : Type) where
  | add (rj : RepeatedJob J)
  | remove (id : Guid)
  deriving DecidableEq

/-- `UA_RepeatedJobsList` (`ua_timer.h:23-36`). -/
structure JobsList (J : Type) where
  repeatedJobs : List (RepeatedJob J)
  changes : List (Change J)
  deriving DecidableEq

/-- `UA_RepeatedJobsList_init` (`ua_timer.c:22-32`). -/
def JobsList.init : JobsList J := ⟨[], []⟩

def int64Max : Int := 9223372036854775807

/-- What can be seen from outside: a job registered, a removal answered, another call refused, a
job handed to the callback. -/
inductive Observed (J : Type) where
  | added (id : Guid)
  | removed (id : Guid) (status : StatusCode)
  | refused (status : StatusCode)
  | dispatched (id : Guid) (job : J)
  deriving DecidableEq

/-- A call of one of the two functions that change the list, with what it finds: the random id,
the clock, and whether its entry can be allocated. -/
inductive Call (J : Type) where
  | add (job : J) (interval : UInt32) (id : Guid) (now : Int) (alloc : Bool)
  | remove (id : Guid) (alloc : Bool)
  deriving DecidableEq

/-- `UA_RepeatedJobsList_addRepeatedJob` and `UA_RepeatedJobsList_removeRepeatedJob`
(`ua_timer.c:75-99`, `132-148`): the queue after the call. -/
def Call.perform (changes : List (Change J)) : Call J → List (Change J) × Observed J
  | .add job interval id now alloc =>
      if interval < 5 then (changes, .refused StatusCode.badInternalError)
      else if alloc then
        let ticks := interval.toNat * 10000
        (changes ++ [.add ⟨now + ticks, ticks, id, job⟩], .added id)
      else (changes, .refused StatusCode.badOutOfMemory)
  | .remove id alloc =>
      if alloc then (changes ++ [.remove id], .removed id StatusCode.good)
      else (changes, .removed id StatusCode.badOutOfMemory)

/-- The calls a callback makes, one after the other. -/
def performAll (changes : List (Change J)) : List (Call J) → List (Change J) × List (Observed J)
  | [] => (changes, [])
  | call :: calls =>
      let (changes, seen) := call.perform changes
      let (changes, rest) := performAll changes calls
      (changes, seen :: rest)

/-- The search of `addRepeatedJob` for its place (`ua_timer.c:101-130`). On the way a job takes
over the time of a job with the same interval that is due up to a second earlier. -/
def insertSorted (rj : RepeatedJob J) : List (RepeatedJob J) → List (RepeatedJob J)
  | [] => [rj]
  | tmpRj :: rest =>
      if tmpRj.nextTime ≥ rj.nextTime then rj :: tmpRj :: rest
      else if tmpRj.interval = rj.interval ∧ tmpRj.nextTime > rj.nextTime - 10000000 then
        tmpRj :: insertSorted { rj with nextTime := tmpRj.nextTime } rest
      else tmpRj :: insertSorted rj rest

/-- `addRepeatedJob` (`ua_timer.c:101-130`). -/
def addRepeatedJob (jobs : List (RepeatedJob J)) (rj : RepeatedJob J) (nowMonotonic : Int) :
    List (RepeatedJob J) :=
  insertSorted { rj with nextTime := nowMonotonic + rj.interval } jobs

/-- `removeRepeatedJob` (`ua_timer.c:150-164`). -/
def removeRepeatedJob (jobs : List (RepeatedJob J)) (jobId : Guid) : List (RepeatedJob J) :=
  jobs.eraseP fun rj => rj.id == jobId

/-- One round of the loop of `processChanges`. -/
def applyChange (nowMonotonic : Int) (jobs : List (RepeatedJob J)) :
    Change J → List (RepeatedJob J)
  | .add rj =>
      if rj.nextTime < int64Max then addRepeatedJob jobs rj nowMonotonic
      else removeRepeatedJob jobs rj.id
  | .remove id => removeRepeatedJob jobs id

/-- `processChanges` (`ua_timer.c:166-178`). -/
def processChanges (rjl : JobsList J) (nowMonotonic : Int) : JobsList J :=
  ⟨rjl.changes.foldl (applyChange nowMonotonic) rjl.repeatedJobs, []⟩

/-- The newly sorted list, and the position in it of `last_dispatched` (`none` for the fake first
entry, whose time is `nowMonotonic - 1`). -/
structure Sorted (J : Type) where
  jobs : List (RepeatedJob J)
  lastDispatched : Option Nat

/-- The time for the next execution (`ua_timer.c:224-228`). -/
def RepeatedJob.again (nowMonotonic : Int) (rj : RepeatedJob J) : RepeatedJob J :=
  let nextTime := rj.nextTime + rj.interval
  { rj with nextTime := if nextTime < nowMonotonic then nowMonotonic + 1 else nextTime }

/-- `last_dispatched->nextTime`. -/
def Sorted.lastTime (nowMonotonic : Int) (sorted : Sorted J) : Int :=
  match sorted.lastDispatched.bind (sorted.jobs[·]?) with
  | none => nowMonotonic - 1
  | some last => last.nextTime

/-- The position of a dispatched job in the newly sorted list (`ua_timer.c:230-251`). -/
def Sorted.insert (nowMonotonic : Int) (sorted : Sorted J) (rj : RepeatedJob J) : Sorted J :=
  if sorted.lastTime nowMonotonic = rj.nextTime then
    let p := (sorted.lastDispatched.map (· + 1)).getD 0
    { sorted with jobs := sorted.jobs.take p ++ rj :: sorted.jobs.drop p }
  else
    let p := (sorted.jobs.takeWhile fun n => n.nextTime < rj.nextTime).length
    ⟨sorted.jobs.take p ++ rj :: sorted.jobs.drop p, some p⟩

/-- The loop over `executedNowList` (`ua_timer.c:213-252`). `script` lists the calls made by the
callback of the first job, of the second one, and so on. -/
def dispatchAll (nowMonotonic : Int) : (executedNow : List (RepeatedJob J)) → Sorted J →
    (changes : List (Change J)) → (script : List (List (Call J))) →
    Sorted J × List (Change J) × List (Observed J)
  | [], sorted, changes, _ => (sorted, changes, [])
  | rj :: rest, sorted, changes, script =>
      let (changes, seen) := performAll changes (script.headD [])
      let sorted := sorted.insert nowMonotonic (rj.again nowMonotonic)
      let (sorted, changes, later) := dispatchAll nowMonotonic rest sorted changes script.tail
      (sorted, changes, .dispatched rj.id rj.job :: (seen ++ later))

/-- The jobs that are due (`ua_timer.c:187-193`). -/
def dueJobs (jobs : List (RepeatedJob J)) (nowMonotonic : Int) : List (RepeatedJob J) :=
  jobs.takeWhile fun rj => rj.nextTime ≤ nowMonotonic

/-- `UA_RepeatedJobsList_process` (`ua_timer.c:180-264`): the time of the next repetition. Reading
it from an empty list is an access through `NULL`. -/
def process (rjl : JobsList J) (nowMonotonic : Int) (script : List (List (Call J))) :
    Except Fault (JobsList J × Int) × List (Observed J) :=
  let rjl := processChanges rjl nowMonotonic
  let executedNow := dueJobs rjl.repeatedJobs nowMonotonic
  let after := rjl.repeatedJobs.drop executedNow.length
  if executedNow.isEmpty then
    (.ok (rjl, ((after.head?).map RepeatedJob.nextTime).getD int64Max), [])
  else
    let (sorted, changes, seen) := dispatchAll nowMonotonic executedNow ⟨after, none⟩ [] script
    let rjl := processChanges ⟨sorted.jobs, changes⟩ nowMonotonic
    (match rjl.repeatedJobs.head? with
      | none => .error .nullDeref
      | some first => .ok (rjl, first.nextTime), seen)

inductive Event (J : Type) where
  | call (call : Call J)
  | process (nowMonotonic : Int) (script : List (List (Call J)))

/-- One event: the list after it, and what is seen of it. -/
def step (rjl : JobsList J) : Event J → Except Fault (JobsList J) × List (Observed J)
  | .call call =>
      let (changes, seen) := call.perform rjl.changes
      (.ok { rjl with changes := changes }, [seen])
  | .process nowMonotonic script =>
      let (result, seen) := process rjl nowMonotonic script
      (result.map Prod.fst, seen)

/-- What is seen of a run; a crash ends it. -/
def run (rjl : JobsList J) : List (Event J) → List (Observed J)
  | [] => []
  | e :: es =>
      match step rjl e with
      | (.error _, seen) => seen
      | (.ok rjl, seen) => seen ++ run rjl es

end FactoryThing.Timer
