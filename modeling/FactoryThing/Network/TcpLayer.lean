import FactoryThing.Connections.Manager
import FactoryThing.Lib.Compaction

/-!
# The TCP network layer

`plugins/ua_network_tcp.c` on Linux, where every allocation succeeds: the connections with their
sockets, the jobs the layer hands to the server, and what the server does to a connection in
between. What the operating system answers is part of each step. A connection notes what has led to
each call of `close` on its descriptor. The sets of `select` hold any descriptor.
-/

namespace FactoryThing.Network

open Connections (ConnectionState)

abbrev Errno := Nat

def eintr : Errno := 4
def eagain : Errno := 11
def ewouldblock : Errno := eagain

/-- What a call of `recv` comes back with. -/
inductive Received where
  | data (bytes : List UInt8)
  | failed (errno : Errno)
  deriving DecidableEq

/-- What a call of `send` comes back with. -/
inductive Sent where
  | wrote (n : Nat)
  | failed (errno : Errno)
  deriving DecidableEq

/-- What leads to a call of `close`. -/
inductive Cause where
  | notSet
  | received (ret : Received)
  | sendFailed (errno : Errno)
  deriving DecidableEq

/-- `UA_Connection`, as far as the sockets go. `closings` are the calls of `close` so far. -/
structure Connection where
  sockfd : Int
  state : ConnectionState
  closings : List Cause
  deriving DecidableEq

/-- `socket_close` (`:93-98`). -/
def socketClose (conn : Connection) (cause : Cause) : Connection :=
  { conn with state := .closed, closings := conn.closings ++ [cause] }

/-- `ServerNetworkLayerTCP_closeConnection` (`:306-328`): the descriptor is shut down, not
closed. -/
def closeConnection (conn : Connection) : Connection :=
  if conn.state = .closed then conn else { conn with state := .closed }

/-- `socket_write` (`:100-121`) of `length` bytes; without a status the call has not come back. -/
def socketWrite (conn : Connection) (length : Nat) :
    Nat → List Sent → Connection × Option StatusCode
  | _, [] => (conn, none)
  | nWritten, .failed errno :: rest =>
      if errno ≠ eintr ∧ errno ≠ eagain then
        (socketClose (closeConnection conn) (.sendFailed errno),
          some StatusCode.badConnectionClosed)
      else socketWrite conn length nWritten rest
  | nWritten, .wrote n :: rest =>
      if nWritten + n < length then socketWrite conn length (nWritten + n) rest
      else (conn, some StatusCode.good)

/-- `socket_recv` (`:123-200`); `optionSet` says whether the timeout could be set. -/
def socketRecv (conn : Connection) (timeout : Nat) (optionSet : Bool) (ret : Received) :
    Connection × StatusCode × List UInt8 :=
  if timeout > 0 ∧ ¬ optionSet then
    (socketClose conn .notSet, StatusCode.badConnectionClosed, [])
  else
    match ret with
    | .data [] => (socketClose conn (.received ret), StatusCode.badConnectionClosed, [])
    | .failed errno =>
        -- the condition of the conditional expression is the whole disjunction
        if (if errno = eintr ∨ timeout > 0 then false
            else decide (errno = eagain ∨ errno = ewouldblock)) then
          (conn, StatusCode.good, [])
        else (socketClose conn (.received ret), StatusCode.badConnectionClosed, [])
    | .data bytes => (conn, StatusCode.good, bytes)

/-! ## The layer -/

structure ConnectionMapping where
  connection : Nat
  sockfd : Int
  deriving DecidableEq

/-- `UA_Job`, as far as the layer makes them. -/
inductive Job where
  | detachConnection (connection : Nat)
  | binaryMessage (connection : Nat) (message : List UInt8)
  /-- The delayed call of `FreeConnectionCallback`. -/
  | freeConnection (connection : Nat)
  deriving DecidableEq

def Job.connection : Job → Nat
  | .detachConnection c => c
  | .binaryMessage c _ => c
  | .freeConnection c => c

/-- `ServerNetworkLayerTCP` and the connections in memory, by their addresses; `nextConnection` is
the address of the next one. -/
structure Layer where
  serversockfd : Int
  mappings : List ConnectionMapping
  connectionAt : Nat → Connection
  nextConnection : Nat

/-- A layer that listens. -/
def Layer.start (serversockfd : Int) : Layer :=
  ⟨serversockfd, [], fun _ => ⟨-1, .opening, []⟩, 0⟩

def Layer.setConnection (layer : Layer) (c : Nat) (conn : Connection) : Layer :=
  { layer with connectionAt := Function.update layer.connectionAt c conn }

/-- Whether `removeClosedConnections` is to remove the mapping. -/
def Layer.isClosed (layer : Layer) (mapping : ConnectionMapping) : Bool :=
  (layer.connectionAt mapping.connection).state == .closed

/-- `setFDSet` (`:295-304`), without the highest descriptor. -/
def setFDSet (layer : Layer) : List Int :=
  layer.serversockfd :: layer.mappings.map ConnectionMapping.sockfd

/-- `ServerNetworkLayerTCP_add` (`:331-372`). -/
def Layer.add (layer : Layer) (newsockfd : Int) : Layer :=
  { layer.setConnection layer.nextConnection ⟨newsockfd, .opening, []⟩ with
    mappings := layer.mappings ++ [⟨layer.nextConnection, newsockfd⟩]
    nextConnection := layer.nextConnection + 1 }

abbrev Jobs := List (Option Job)

/-- A write to the array of jobs. -/
def Jobs.write (js : Jobs) (k : Nat) (job : Job) : Except Fault Jobs :=
  if k < js.length then .ok (js.set k (some job)) else .error .outOfBounds

/-- The mapping at the index is overridden by the last one. -/
abbrev Layer.removeMapping (layer : Layer) (i : Nat) : Layer :=
  { layer with mappings := SwapRemove.removeAt layer.mappings i }

/-- The loop of `removeClosedConnections` (`:447-467`) from the index `i` on, with `c` jobs written
so far. -/
def removeClosedConnections : Nat → Nat → Layer → Nat → Jobs → Except Fault (Layer × Nat × Jobs)
  | 0, _, layer, c, js => .ok (layer, c, js)
  | fuel + 1, i, layer, c, js =>
      match layer.mappings[i]? with
      | none => .ok (layer, c, js)
      | some mapping =>
          if ¬ layer.isClosed mapping then removeClosedConnections fuel (i + 1) layer c js
          else
            match js.write c (.detachConnection mapping.connection) with
            | .error fault => .error fault
            | .ok js =>
                match js.write (c + 1) (.freeConnection mapping.connection) with
                | .error fault => .error fault
                | .ok js =>
                    removeClosedConnections fuel (i + 1) (layer.removeMapping i) (c + 2) js

/-- What the operating system answers during `getJobs`: the result of `select` and what it leaves in
the two sets, the result of `accept`, and what comes back from the connections that are read. -/
structure Answers where
  select : Int
  readable : Int → Bool
  failed : Int → Bool
  accept : Int
  recv : Nat → Received

/-- `(size_t)resultsize`. -/
def sizeOfInt (n : Int) : Nat := (n % 2 ^ 64).toNat

/-- The loop over the established sockets (`:505-541`) from the index `i` on. -/
def readSockets (os : Answers) (isSet : Int → Bool) (resultsize : Int) :
    Nat → Nat → Layer → Nat → Nat → Jobs → Except Fault (Layer × Nat × Jobs)
  | 0, _, layer, totalJobs, j, js => .ok (layer, totalJobs + j, js)
  | fuel + 1, i, layer, totalJobs, j, js =>
      match layer.mappings[i]? with
      | none => .ok (layer, totalJobs + j, js)
      | some mapping =>
          if ¬ j < sizeOfInt resultsize then .ok (layer, totalJobs + j, js)
          else if ¬ isSet mapping.sockfd then
            readSockets os isSet resultsize fuel (i + 1) layer totalJobs j js
          else
            let c := mapping.connection
            let (conn, retval, buf) := socketRecv (layer.connectionAt c) 0 true (os.recv c)
            let layer := layer.setConnection c conn
            if retval = StatusCode.good then
              match js.write (totalJobs + j) (.binaryMessage c buf) with
              | .error fault => .error fault
              | .ok js => readSockets os isSet resultsize fuel (i + 1) layer totalJobs (j + 1) js
            else if retval = StatusCode.badConnectionClosed then
              match js.write (totalJobs + j) (.detachConnection c) with
              | .error fault => .error fault
              | .ok js =>
                  -- increase j only once
                  match js.write (totalJobs + 1 + j) (.freeConnection c) with
                  | .error fault => .error fault
                  | .ok js =>
                      readSockets os isSet resultsize fuel (i + 1) (layer.removeMapping i)
                        (totalJobs + 1) (j + 1) js
            else readSockets os isSet resultsize fuel (i + 1) layer totalJobs j js

/-- What `getJobs` returns: the count and the array. -/
structure Returned where
  count : Nat
  jobs : Jobs
  deriving DecidableEq

def Returned.nothing : Returned := ⟨0, []⟩

/-- The jobs the server takes from the array. -/
def Returned.taken (returned : Returned) : List Job :=
  (returned.jobs.take returned.count).filterMap id

/-- `accept` and what follows it (`:486-502`). -/
def acceptConnection (layer : Layer) (newsockfd : Int) : Layer :=
  if newsockfd ≥ 0 then layer.add newsockfd else layer

/-- `ServerNetworkLayerTCP_getJobs` (`:469-549`). -/
def getJobs (layer : Layer) (os : Answers) : Except Fault (Layer × Returned) :=
  let js : Jobs := List.replicate (layer.mappings.length * 2) none
  match removeClosedConnections layer.mappings.length 0 layer 0 js with
  | .error fault => .error fault
  | .ok (layer, totalJobs, js) =>
      let fdset (fd : Int) := decide (fd ∈ setFDSet layer) && os.readable fd
      let errset (fd : Int) := decide (fd ∈ setFDSet layer) && os.failed fd
      if totalJobs = 0 ∧ os.select ≤ 0 then .ok (layer, .nothing)
      else
        let listening := fdset layer.serversockfd
        let resultsize := if listening then os.select - 1 else os.select
        let layer := if listening then acceptConnection layer os.accept else layer
        match readSockets os (fun fd => errset fd || fdset fd) resultsize layer.mappings.length 0
            layer totalJobs 0 js with
        | .error fault => .error fault
        | .ok (layer, totalJobs, js) =>
            .ok (layer, if totalJobs = 0 then .nothing else ⟨totalJobs, js⟩)

/-- The server lets the layer work, closes a connection, or sends `length` bytes on one. -/
inductive TcpStep where
  | getJobs (os : Answers)
  | close (c : Nat)
  | write (c : Nat) (length : Nat) (results : List Sent)

/-- One step, with what it returns to the server. -/
def tcpStep (layer : Layer) : TcpStep → Except Fault (Layer × Returned)
  | .getJobs os => getJobs layer os
  | .close c => .ok (layer.setConnection c (closeConnection (layer.connectionAt c)), .nothing)
  | .write c length results =>
      .ok (layer.setConnection c (socketWrite (layer.connectionAt c) length 0 results).1, .nothing)

end FactoryThing.Network
