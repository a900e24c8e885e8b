import FactoryThing.Types.NodeId
import Mathlib.Data.Rat.Floor

/-!
# Sessions and the channels they are attached to

The session manager (`src/server/ua_session_manager.c`), the session lists of the secure channels
(`src/ua_securechannel.c:28-101`) and the delayed callbacks that free both
(`src/server/ua_server_worker.c:171-192`). Pointers are numbers and memory a partial map from
them, so that a freed object is one the map no longer has. Of a session the fields these functions
work with are kept. The monotonic clock is read once for each message or job; `UA_DateTime`
arithmetic does not overflow.
-/

namespace FactoryThing.Sessions

/-- `UA_Session` (`ua_session.h:35-58`). -/
structure Session where
  activated : Bool
  authenticationToken : NodeId
  sessionId : NodeId
  timeout : Rat
  validTill : Int
  channel : Option Nat
  deriving DecidableEq

/-- `UA_SecureChannel`: the id in its security token and the list of its session entries. -/
structure Channel where
  channelId : UInt32
  sessions : List Nat
  deriving DecidableEq

/-- The callbacks given to `UA_Server_delayedCallback` with their data. -/
inductive Delayed where
  | removeSessionCallback (session : Nat)
  | removeSecureChannelCallback (channel : Nat)
  deriving DecidableEq

/-- The part of `UA_ServerConfig` the sessions depend on. -/
structure Config where
  maxSessions : UInt32
  maxSessionTimeout : Rat

/-- The server, its memory and its clock. `nextAddr` is the next address `UA_malloc` hands out. -/
structure Server where
  config : Config
  clock : Int
  sessionAt : Nat → Option Session
  channelAt : Nat → Option Channel
  sessions : List Nat
  currentSessionCount : UInt32
  channels : List Nat
  delayedCallbacks : List Delayed
  nextAddr : Nat

/-- A server without sessions and channels. -/
def Server.init (config : Config) (clock : Int) : Server where
  config := config
  clock := clock
  sessionAt _ := none
  channelAt _ := none
  sessions := []
  currentSessionCount := 0
  channels := []
  delayedCallbacks := []
  nextAddr := 1

variable (sv : Server)

def Server.modifySession (s : Nat) (f : Session → Session) : Server :=
  { sv with sessionAt := Function.update sv.sessionAt s ((sv.sessionAt s).map f) }

/-- A write to the session list of a channel. -/
def Server.modifyChannel (c : Nat) (f : List Nat → List Nat) : Server :=
  { sv with
    channelAt := Function.update sv.channelAt c
      ((sv.channelAt c).map fun ch => { ch with sessions := f ch.sessions }) }

/-- `UA_Session_updateLifetime` (`ua_session.c:87-90`); `UA_MSEC_TO_DATETIME` is 10000. -/
def updateLifetime (s : Nat) : Server :=
  sv.modifySession s fun ses => { ses with validTill := sv.clock + ⌊ses.timeout * 10000⌋ }

/-- `UA_SecureChannel_attachSession` (`ua_securechannel.c:70-79`); `alloc` tells whether the list
entry can be allocated. -/
def attachSession (channel session : Nat) (alloc : Bool) : Server :=
  if alloc then
    match sv.sessionAt session with
    | none => sv
    | some ses =>
        match ses.channel with
        | some _ => sv
        | none =>
            (sv.modifySession session fun ses => { ses with channel := some channel }).modifyChannel
              channel (session :: ·)
  else sv

/-- `UA_SecureChannel_detachSession` (`ua_securechannel.c:86-98`). -/
def detachSession (channel session : Nat) : Server :=
  (sv.modifySession session fun ses => { ses with channel := none }).modifyChannel
    channel (·.erase session)

/-- `UA_NodeId_equal(&session->authenticationToken, token)`. -/
def hasToken (token : NodeId) (s : Nat) : Bool :=
  match sv.sessionAt s with
  | none => false
  | some ses => nodeIdEqual ses.authenticationToken token

/-- `UA_SecureChannel_getSession` (`ua_securechannel.c:100-109`). -/
def secureChannelGetSession (channel : Nat) (token : NodeId) : Option Nat :=
  match sv.channelAt channel with
  | none => none
  | some ch => ch.sessions.find? (hasToken sv token)

/-- `UA_DateTime_nowMonotonic() > session->validTill`. -/
def timedOut (s : Nat) : Bool :=
  match sv.sessionAt s with
  | none => false
  | some ses => sv.clock > ses.validTill

/-- `UA_SessionManager_getSession` (`ua_session_manager.c:71-95`). -/
def sessionManagerGetSession (token : NodeId) : Option Nat :=
  match sv.sessions.find? (hasToken sv token) with
  | none => none
  | some s => if timedOut sv s then none else some s

/-- `removeSession` (`ua_session_manager.c:33-53`); `alloc` tells whether the delayed callback can
be allocated. -/
def removeSession (s : Nat) (alloc : Bool) : Server × StatusCode :=
  let sv := sv.modifySession s fun ses => { ses with activated := false }
  if alloc then
    ({ sv with
        delayedCallbacks := .removeSessionCallback s :: sv.delayedCallbacks
        sessions := sv.sessions.erase s
        currentSessionCount := sv.currentSessionCount - 1 }, StatusCode.good)
  else (sv, StatusCode.badOutOfMemory)

/-- `UA_SessionManager_removeSession` (`ua_session_manager.c:124-134`). -/
def sessionManagerRemoveSession (token : NodeId) (alloc : Bool) : Server × StatusCode :=
  match sv.sessions.find? (hasToken sv token) with
  | none => (sv, StatusCode.badSessionIdInvalid)
  | some s => removeSession sv s alloc

/-- `UA_SessionManager_cleanupTimedOut` (`ua_session_manager.c:55-69`). -/
def cleanupTimedOut (alloc : Nat → Bool) : Server :=
  sv.sessions.foldl (fun sv s => if timedOut sv s then (removeSession sv s (alloc s)).1 else sv) sv

/-- The timeout a new session gets (`ua_session_manager.c:112-116`). -/
def revisedTimeout (requestedSessionTimeout : Rat) : Rat :=
  if requestedSessionTimeout ≤ sv.config.maxSessionTimeout ∧ requestedSessionTimeout > 0 then
    requestedSessionTimeout
  else sv.config.maxSessionTimeout

/-- `UA_SessionManager_createSession` (`ua_session_manager.c:98-122`): the new session, or a status
code. `sessionId` and `token` come from `UA_Guid_random`. -/
def createSession (requestedSessionTimeout : Rat) (sessionId token : NodeId) (alloc : Bool) :
    Server × Except StatusCode Nat :=
  if sv.currentSessionCount ≥ sv.config.maxSessions then (sv, .error StatusCode.badTooManySessions)
  else if alloc then
    let newentry := sv.nextAddr
    let session : Session :=
      { activated := false
        authenticationToken := token
        sessionId := sessionId
        timeout := revisedTimeout sv requestedSessionTimeout
        validTill := 0
        channel := none }
    let sv :=
      { sv with
        nextAddr := newentry + 1
        currentSessionCount := sv.currentSessionCount + 1
        sessionAt := Function.update sv.sessionAt newentry (some session)
        sessions := newentry :: sv.sessions }
    (updateLifetime sv newentry, .ok newentry)
  else (sv, .error StatusCode.badOutOfMemory)

/-- What `UA_SecureChannelManager_open` (`ua_securechannel_manager.c:82-133`) does to the sessions:
a new channel without any. -/
def openChannel (channelId : UInt32) : Server :=
  { sv with
    nextAddr := sv.nextAddr + 1
    channelAt := Function.update sv.channelAt sv.nextAddr (some ⟨channelId, []⟩)
    channels := sv.nextAddr :: sv.channels }

/-- `removeSecureChannel` (`ua_securechannel_manager.c:37-53`). A closed, timed out or purged
channel still in the list goes this way. -/
def removeSecureChannel (c : Nat) (alloc : Bool) : Server :=
  if c ∈ sv.channels ∧ alloc then
    { sv with
      delayedCallbacks := .removeSecureChannelCallback c :: sv.delayedCallbacks
      channels := sv.channels.erase c }
  else sv

/-- `UA_Session_deleteMembersCleanup` (`ua_session.c:59-85`) and the `UA_free` after it. -/
def removeSessionCallback (s : Nat) : Server :=
  let sv :=
    match (sv.sessionAt s).bind Session.channel with
    | none => sv
    | some c => detachSession sv c s
  { sv with sessionAt := Function.update sv.sessionAt s none }

/-- `UA_SecureChannel_deleteMembersCleanup` (`ua_securechannel.c:22-53`) and the `UA_free` after
it: the sessions lose their channel but stay. -/
def removeSecureChannelCallback (c : Nat) : Server :=
  let entries := ((sv.channelAt c).map Channel.sessions).getD []
  let sv := entries.foldl (fun sv s => sv.modifySession s fun ses =>
    { ses with channel := none }) sv
  { sv with channelAt := Function.update sv.channelAt c none }

def runDelayed : Delayed → Server
  | .removeSessionCallback s => removeSessionCallback sv s
  | .removeSecureChannelCallback c => removeSecureChannelCallback sv c

/-- `processDelayedCallbacks` (`ua_server_worker.c:182-192`), the newest one first. -/
def processDelayedCallbacks : List Delayed → Server → Server
  | [], sv => { sv with delayedCallbacks := [] }
  | d :: ds, sv => processDelayedCallbacks ds (runDelayed { sv with delayedCallbacks := ds } d)

end FactoryThing.Sessions
