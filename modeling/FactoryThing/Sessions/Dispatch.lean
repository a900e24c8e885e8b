import FactoryThing.Sessions.Manager

/-!
# Service messages

`processMSG` (`src/server/ua_server_binary.c:376-525`) from the decoded request on: it finds the
session the request names, checks it and runs the service. The services that work on sessions are
those of `src/server/ua_services_session.c`; the others leave them alone. Built without the
stateless extension and without multicast discovery.
-/

namespace FactoryThing.Sessions

/-- The request types `getServicePointers` knows (`ua_server_binary.c:36-198`). -/
inductive RequestType where
  | getEndpoints | findServers | registerServer | registerServer2
  | createSession | activateSession | closeSession
  | read | write | browse | browseNext | registerNodes | unregisterNodes
  | translateBrowsePathsToNodeIds
  | createSubscription | publish | republish | modifySubscription | setPublishingMode
  | deleteSubscriptions | createMonitoredItems | deleteMonitoredItems | modifyMonitoredItems
  | setMonitoringMode
  | call
  | addNodes | addReferences | deleteNodes | deleteReferences
  deriving DecidableEq

/-- `requiresSession` as `getServicePointers` sets it. -/
def RequestType.requiresSession : RequestType → Bool
  | .getEndpoints | .findServers | .registerServer | .registerServer2 | .createSession => false
  | _ => true

/-- A decoded request: its type, the token of its header, and the field the session services
read. -/
structure Request where
  requestType : RequestType
  authenticationToken : NodeId
  requestedSessionTimeout : Rat

/-- What the surroundings decide while one message is processed: random ids, the answer of the
access control plugin, the copies into a CreateSession response, and allocations. -/
structure Environment where
  sessionId : NodeId
  token : NodeId
  activateSession : StatusCode
  copyEndpoints : StatusCode
  copyResponse : StatusCode
  allocSession : Bool
  allocEntry : Bool
  allocDelayed : Bool

def Environment.obliging (sessionId token : NodeId) : Environment where
  sessionId := sessionId
  token := token
  activateSession := StatusCode.good
  copyEndpoints := StatusCode.good
  copyResponse := StatusCode.good
  allocSession := true
  allocEntry := true
  allocDelayed := true

/-- What became of a message: an error was sent, a session service answered, or a service ran with
a session (`none` for the anonymous one). -/
inductive Outcome where
  | error (status : StatusCode)
  | answered (serviceResult : StatusCode)
  | served (session : Option Nat)
  deriving DecidableEq

variable (sv : Server)

/-- `Service_CreateSession` (`ua_services_session.c:10-62`). -/
def serviceCreateSession (channel : Nat) (request : Request) (env : Environment) :
    Server × StatusCode :=
  if ((sv.channelAt channel).map Channel.channelId).getD 0 = 0 then
    (sv, StatusCode.badSecureChannelIdInvalid)
  else if env.copyEndpoints ≠ StatusCode.good then (sv, env.copyEndpoints)
  else
    match createSession sv request.requestedSessionTimeout env.sessionId env.token
        env.allocSession with
    | (sv, .error status) => (sv, status)
    | (sv, .ok newSession) =>
        if env.copyResponse ≠ StatusCode.good then
          match sv.sessionAt newSession with
          | none => (sv, env.copyResponse)
          | some ses =>
              ((sessionManagerRemoveSession sv ses.authenticationToken env.allocDelayed).1,
                env.copyResponse)
        else (sv, StatusCode.good)

/-- `Service_ActivateSession` (`ua_services_session.c:64-94`). -/
def serviceActivateSession (channel session : Nat) (env : Environment) : Server × StatusCode :=
  if timedOut sv session then (sv, StatusCode.badSessionIdInvalid)
  else if env.activateSession ≠ StatusCode.good then (sv, env.activateSession)
  else
    let sv :=
      match (sv.sessionAt session).bind Session.channel with
      | none => sv
      | some old => if old ≠ channel then detachSession sv old session else sv
    let sv := attachSession sv channel session env.allocEntry
    let sv := sv.modifySession session fun ses => { ses with activated := true }
    (updateLifetime sv session, StatusCode.good)

/-- `Service_CloseSession` (`ua_services_session.c:96-104`). -/
def serviceCloseSession (session : Nat) (env : Environment) : Server × StatusCode :=
  match sv.sessionAt session with
  | none => (sv, StatusCode.badSessionIdInvalid)
  | some ses => sessionManagerRemoveSession sv ses.authenticationToken env.allocDelayed

/-- The session a request names: one attached to the channel first, then any of the server. -/
def findSession (channel : Nat) (token : NodeId) : Option Nat :=
  match secureChannelGetSession sv channel token with
  | some s => some s
  | none => sessionManagerGetSession sv token

/-- The call of the service at the end of `processMSG`; only CloseSession changes sessions. -/
def callService (requestType : RequestType) (session : Nat) (env : Environment) : Server :=
  match requestType with
  | .closeSession => (serviceCloseSession sv session env).1
  | _ => sv

/-- `processMSG` from the search for the session on (`ua_server_binary.c:441-509`), for the services
other than CreateSession and ActivateSession. -/
def serveRequest (channel : Nat) (request : Request) (env : Environment) : Server × Outcome :=
  match findSession sv channel request.authenticationToken with
  | none =>
      if request.requestType.requiresSession then (sv, .error StatusCode.badSessionIdInvalid)
      else (sv, .served none)
  | some session =>
      match sv.sessionAt session with
      | none => (sv, .error StatusCode.badSessionIdInvalid)
      | some ses =>
          if request.requestType.requiresSession ∧ ¬ ses.activated then
            ((sessionManagerRemoveSession sv ses.authenticationToken env.allocDelayed).1,
              .error StatusCode.badSessionNotActivated)
          else if ses.channel ≠ some channel then
            (sv, .error StatusCode.badSecureChannelIdInvalid)
          else
            let sv := updateLifetime sv session
            (callService sv request.requestType session env, .served (some session))

/-- `processMSG`; `none` for a request that is unknown or does not decode. -/
def processMSG (channel : Nat) (request : Option Request) (env : Environment) :
    Server × Outcome :=
  match request with
  | none => (sv, .error StatusCode.badServiceUnsupported)
  | some request =>
      match request.requestType with
      | .createSession =>
          let (sv, serviceResult) := serviceCreateSession sv channel request env
          (sv, .answered serviceResult)
      | .activateSession =>
          match findSession sv channel request.authenticationToken with
          | none => (sv, .error StatusCode.badSessionIdInvalid)
          | some session =>
              let (sv, serviceResult) := serviceActivateSession sv channel session env
              (sv, .answered serviceResult)
      | _ => serveRequest sv channel request env

/-- What happens to a server: time passes, channels open and close, the housekeeping job looks for
timed out sessions, the delayed callbacks run, a message arrives. -/
inductive Event where
  | advance (d : Nat)
  | open (channelId : UInt32)
  | close (channel : Nat) (alloc : Bool)
  | cleanup (alloc : Nat → Bool)
  | processDelayed
  | message (channel : Nat) (request : Option Request) (env : Environment)

/-- One request or event of the server. -/
def step : Event → Server
  | .advance d => { sv with clock := sv.clock + d }
  | .open channelId => openChannel sv channelId
  | .close channel alloc => removeSecureChannel sv channel alloc
  | .cleanup alloc => cleanupTimedOut sv alloc
  | .processDelayed => processDelayedCallbacks sv.delayedCallbacks sv
  | .message channel request env =>
      -- messages come in on channels that still exist
      if (sv.channelAt channel).isSome then (processMSG sv channel request env).1 else sv

end FactoryThing.Sessions
