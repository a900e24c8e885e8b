import FactoryThing.SecureChannel.Renewal
import FactoryThing.Sessions.Attachment

/-!
# Channels and the connections they belong to

The secure channel manager (`src/server/ua_securechannel_manager.c`), the pointers between channels
and connections (`src/ua_connection.c:184-197`), OPN messages (`processOPN`,
`src/server/ua_server_binary.c:270-371`) and the jobs of the network layer
(`plugins/ua_network_tcp.c`), around the server of `Sessions.Manager`. Built without
multithreading: the two jobs with which the network layer gets rid of a connection come one after
the other. Freed memory is memory the maps no longer have; nothing is written to it.
-/

namespace FactoryThing.Connections

open Sessions SecureChannel

/-- `UA_ConnectionState` (`ua_connection.h`). -/
inductive ConnectionState where
  | opening
  | established
  | closed
  deriving DecidableEq

/-- `UA_Connection`, with the channel attached to it. -/
structure Connection where
  state : ConnectionState
  channel : Option Nat
  deriving DecidableEq

/-- `UA_SecureChannel`, without its sessions and the id in its security token: the connection, how
long the security token lives, and the next security token. -/
structure ManagedChannel where
  connection : Option Nat
  securityToken : TokenLife
  nextTokenId : UInt32
  nextSecurityToken : TokenLife
  deriving DecidableEq

/-- `UA_SecureChannelManager` with its server, the part of `UA_ServerConfig` it works with, and the
memory. `nextConnection` is the next address for a connection. -/
structure SecureChannelManager where
  server : Server
  maxSecureChannels : UInt16
  maxSecurityTokenLifetime : UInt32
  currentChannelCount : UInt32
  lastChannelId : UInt32
  lastTokenId : UInt32
  channelAt : Nat → Option ManagedChannel
  connectionAt : Nat → Option Connection
  nextConnection : Nat

def startChannelId : UInt32 := 1

/-- `UA_SecureChannelManager_init` for a new server. -/
def SecureChannelManager.init (config : Config) (clock : Int) (maxSecureChannels : UInt16)
    (maxSecurityTokenLifetime : UInt32) : SecureChannelManager where
  server := Server.init config clock
  maxSecureChannels := maxSecureChannels
  maxSecurityTokenLifetime := maxSecurityTokenLifetime
  currentChannelCount := 0
  lastChannelId := startChannelId
  lastTokenId := startTokenId
  channelAt _ := none
  connectionAt _ := none
  nextConnection := 1

variable (cm : SecureChannelManager)

/-- A write to a channel that has not been freed. -/
def SecureChannelManager.modifyChannel (channel : Nat) (f : ManagedChannel → ManagedChannel) :
    SecureChannelManager :=
  { cm with channelAt := Function.update cm.channelAt channel ((cm.channelAt channel).map f) }

/-- A write to a connection that has not been freed. -/
def SecureChannelManager.modifyConnection (connection : Nat) (f : Connection → Connection) :
    SecureChannelManager :=
  { cm with
    connectionAt :=
      Function.update cm.connectionAt connection ((cm.connectionAt connection).map f) }

/-- `channel->connection`. -/
def SecureChannelManager.connectionOf (channel : Nat) : Option Nat :=
  (cm.channelAt channel).bind ManagedChannel.connection

/-- `connection->channel`. -/
def SecureChannelManager.channelOf (connection : Nat) : Option Nat :=
  (cm.connectionAt connection).bind Connection.channel

/-- `channel->securityToken.channelId`. -/
def SecureChannelManager.channelIdOf (channel : Nat) : Option UInt32 :=
  (cm.server.channelAt channel).map Sessions.Channel.channelId

/-- `UA_Connection_detachSecureChannel` (`ua_connection.c:184-190`). -/
def detachSecureChannel (connection : Nat) : SecureChannelManager :=
  let cm :=
    match cm.channelOf connection with
    | none => cm
    | some channel =>
        -- only replace when the channel points to this connection
        if cm.connectionOf channel = some connection then
          cm.modifyChannel channel fun ch => { ch with connection := none }
        else cm
  cm.modifyConnection connection fun conn => { conn with channel := none }

/-- `UA_Connection_attachSecureChannel` (`ua_connection.c:193-197`). -/
def attachSecureChannel (connection channel : Nat) : SecureChannelManager :=
  if cm.connectionOf channel = none then
    (cm.modifyChannel channel fun ch => { ch with connection := some connection }).modifyConnection
      connection fun conn => { conn with channel := some channel }
  else cm

/-- `ServerNetworkLayerTCP_closeConnection`. -/
def closeConnection (connection : Nat) : SecureChannelManager :=
  cm.modifyConnection connection fun conn => { conn with state := .closed }

/-! ## Channels coming and going -/

/-- `removeSecureChannel` (`ua_securechannel_manager.c:37-53`) for a channel in the list; `alloc`
tells whether the delayed callback can be allocated. -/
def removeChannel (channel : Nat) (alloc : Bool) : SecureChannelManager :=
  if alloc then
    { cm with
      server := removeSecureChannel cm.server channel true
      currentChannelCount := cm.currentChannelCount - 1 }
  else cm

/-- `UA_SecureChannel_revolveTokens` (`ua_securechannel.c:111-119`). -/
def revolveChannel (channel : Nat) : SecureChannelManager :=
  cm.modifyChannel channel fun ch =>
    if ch.nextTokenId = 0 then ch
    else
      { ch with
        securityToken := ch.nextSecurityToken
        nextTokenId := 0
        nextSecurityToken := ⟨0, 0⟩ }

/-- One channel in `UA_SecureChannelManager_cleanupTimedOut`. -/
def cleanupChannel (channel : Nat) (alloc : Bool) : SecureChannelManager :=
  match cm.channelAt channel with
  | none => cm
  | some ch =>
      if ch.securityToken.timeout < cm.server.clock ∨ ch.connection = none then
        removeChannel cm channel alloc
      else if ch.nextTokenId > 0 then revolveChannel cm channel
      else cm

/-- `UA_SecureChannelManager_cleanupTimedOut` (`ua_securechannel_manager.c:55-71`). -/
def cleanupChannels (alloc : Nat → Bool) : SecureChannelManager :=
  cm.server.channels.foldl (fun cm c => cleanupChannel cm c (alloc c)) cm

/-- `purgeFirstChannelWithoutSession` (`ua_securechannel_manager.c:73-87`). -/
def purgeFirstChannelWithoutSession (alloc : Bool) : SecureChannelManager × Bool :=
  match cm.server.channels.find? fun c => (entries cm.server c).isEmpty with
  | none => (cm, false)
  | some channel => (removeChannel cm channel alloc, true)

/-- `UA_MessageSecurityMode`; a message may have any other value. -/
def securityModeNone : UInt32 := 1

/-- `UA_SecurityTokenRequestType`; every other value is taken for a renewal. -/
def requestTypeIssue : UInt32 := 0

/-- The fields of the request that are read. -/
structure OpenSecureChannelRequest where
  requestType : UInt32
  securityMode : UInt32
  requestedLifetime : UInt32
  deriving DecidableEq

/-- The allocations while a channel is opened: of the delayed callback for a purged channel, and of
the `channel_list_entry`. -/
structure OpenAlloc where
  delayed : Bool
  entry : Bool
  deriving DecidableEq

/-- The new entry in `UA_SecureChannelManager_open`, first in the list. -/
def newChannel (requestedLifetime : UInt32) : SecureChannelManager :=
  let entry : ManagedChannel :=
    { connection := none
      securityToken :=
        ⟨cm.server.clock, reviseLifetime cm.maxSecurityTokenLifetime requestedLifetime⟩
      nextTokenId := 0
      nextSecurityToken := ⟨0, 0⟩ }
  { cm with
    server := openChannel cm.server cm.lastChannelId
    currentChannelCount := cm.currentChannelCount + 1
    lastChannelId := cm.lastChannelId + 1
    lastTokenId := cm.lastTokenId + 1
    channelAt := Function.update cm.channelAt cm.server.nextAddr (some entry) }

/-- The end of `UA_SecureChannelManager_open`. -/
def addChannel (connection : Nat) (requestedLifetime : UInt32) : SecureChannelManager :=
  attachSecureChannel (newChannel cm requestedLifetime) connection cm.server.nextAddr

/-- `UA_SecureChannelManager_open` (`ua_securechannel_manager.c:89-133`). -/
def managerOpen (connection : Nat) (request : OpenSecureChannelRequest) (alloc : OpenAlloc) :
    SecureChannelManager × StatusCode :=
  if request.securityMode ≠ securityModeNone then (cm, StatusCode.badSecurityModeRejected)
  else
    let (cm, room) :=
      if cm.currentChannelCount ≥ cm.maxSecureChannels.toUInt32 then
        purgeFirstChannelWithoutSession cm alloc.delayed
      else (cm, true)
    if room ∧ alloc.entry then
      (addChannel cm connection request.requestedLifetime, StatusCode.good)
    else (cm, StatusCode.badOutOfMemory)

/-- `UA_SecureChannelManager_renew` (`ua_securechannel_manager.c:135-168`). -/
def managerRenew (connection : Nat) (request : OpenSecureChannelRequest) :
    SecureChannelManager × StatusCode :=
  match cm.channelOf connection with
  | none => (cm, StatusCode.badInternalError)
  | some channel =>
      let issues := ((cm.channelAt channel).map ManagedChannel.nextTokenId).getD 0 = 0
      let nextTokenId := cm.lastTokenId
      let cm := if issues then { cm with lastTokenId := cm.lastTokenId + 1 } else cm
      (cm.modifyChannel channel fun ch =>
        if issues then
          { ch with
            nextTokenId := nextTokenId
            nextSecurityToken :=
              ⟨cm.server.clock,
                reviseLifetime cm.maxSecurityTokenLifetime request.requestedLifetime⟩ }
        else { ch with nextSecurityToken.createdAt := cm.server.clock },
        StatusCode.good)

/-- `UA_SecureChannelManager_close` (`ua_securechannel_manager.c:180-190`). -/
def managerClose (channelId : UInt32) (alloc : Bool) : SecureChannelManager × StatusCode :=
  match cm.server.channels.find? fun c => cm.channelIdOf c = some channelId with
  | none => (cm, StatusCode.badInternalError)
  | some channel =>
      (removeChannel cm channel alloc,
        if alloc then StatusCode.good else StatusCode.badOutOfMemory)

/-- `UA_SecureChannel_deleteMembersCleanup` (`ua_securechannel.c:22-53`) and the `UA_free` after
it. -/
def deleteMembersCleanup (channel : Nat) : SecureChannelManager :=
  let cm :=
    match cm.connectionOf channel with
    | none => cm
    | some connection => detachSecureChannel cm connection
  { cm with
    server := removeSecureChannelCallback cm.server channel
    channelAt := Function.update cm.channelAt channel none }

/-- A delayed callback of a session or of a channel. -/
def runCallback : Delayed → SecureChannelManager
  | .removeSessionCallback s => { cm with server := removeSessionCallback cm.server s }
  | .removeSecureChannelCallback c => deleteMembersCleanup cm c

/-- `processDelayedCallbacks` (`ua_server_worker.c:182-192`), the newest one first. -/
def runCallbacks : List Delayed → SecureChannelManager → SecureChannelManager
  | [], cm => { cm with server.delayedCallbacks := [] }
  | d :: ds, cm => runCallbacks ds (runCallback { cm with server.delayedCallbacks := ds } d)

/-- `Service_OpenSecureChannel` (`ua_services_securechannel.c:9-42`). -/
def serviceOpenSecureChannel (connection : Nat) (request : OpenSecureChannelRequest)
    (alloc : OpenAlloc) : SecureChannelManager × StatusCode :=
  if request.requestType = requestTypeIssue then managerOpen cm connection request alloc
  else managerRenew cm connection request

/-- The tests at the beginning of `processOPN`: the HEL came before, and the channel id is the one
of the channel the connection has, if any. -/
def acceptsOPN (connection : Nat) (channelId : UInt32) : Bool :=
  match cm.connectionAt connection with
  | none => false
  | some conn =>
      conn.state == .established &&
        match conn.channel with
        | none => channelId == 0
        | some channel => cm.channelIdOf channel == some channelId

/-- `processOPN` (`ua_server_binary.c:270-371`). `request` is `none` for a message that does not
decode, `sent` tells whether a response can be put into a send buffer. -/
def processOPN (connection : Nat) (channelId : UInt32) (request : Option OpenSecureChannelRequest)
    (alloc : OpenAlloc) (sent : Bool) : SecureChannelManager :=
  match request with
  | none => closeConnection cm connection
  | some request =>
      if acceptsOPN cm connection channelId then
        let cm := (serviceOpenSecureChannel cm connection request alloc).1
        if cm.channelOf connection = none ∨ ¬ sent then closeConnection cm connection else cm
      else closeConnection cm connection

/-- What happens to the server. A message comes on a connection without a channel, or on a channel
that still exists and need not be in the list any more; that it has a connection then is asserted
(`ua_server_binary.c:549-550`). -/
inductive Event where
  | advance (duration : Nat)
  /-- `ServerNetworkLayerTCP_add`. -/
  | connect
  /-- `processHEL`. -/
  | hello (connection : Nat)
  | openRequest (connection : Nat) (channelId : UInt32) (request : Option OpenSecureChannelRequest)
      (alloc : OpenAlloc) (sent : Bool)
  | openRequestOn (channel : Nat) (request : Option OpenSecureChannelRequest) (alloc : OpenAlloc)
      (sent : Bool)
  | closeRequestOn (channel : Nat) (alloc : Bool)
  | serviceRequestOn (channel : Nat) (request : Option Request) (env : Environment)
  /-- A chunk with the next security token. -/
  | nextTokenOn (channel : Nat)
  /-- `UA_Server_cleanup`. -/
  | cleanup (allocSession allocChannel : Nat → Bool)
  | processDelayed
  | close (connection : Nat)
  /-- `UA_JOBTYPE_DETACHCONNECTION`. -/
  | detach (connection : Nat)
  /-- `UA_JOBTYPE_DETACHCONNECTION` and `FreeConnectionCallback`. -/
  | remove (connection : Nat)

/-- One event of the network, a client or the clock. -/
def step (cm : SecureChannelManager) : Event → SecureChannelManager
  | .advance duration => { cm with server.clock := cm.server.clock + duration }
  | .connect =>
      { cm with
        connectionAt := Function.update cm.connectionAt cm.nextConnection (some ⟨.opening, none⟩)
        nextConnection := cm.nextConnection + 1 }
  | .hello connection =>
      if cm.channelOf connection = none then
        cm.modifyConnection connection fun conn => { conn with state := .established }
      else cm
  | .openRequest connection channelId request alloc sent =>
      if cm.channelOf connection = none then processOPN cm connection channelId request alloc sent
      else cm
  | .openRequestOn channel request alloc sent =>
      match cm.connectionOf channel, cm.channelIdOf channel with
      | some connection, some channelId => processOPN cm connection channelId request alloc sent
      | _, _ => cm
  | .closeRequestOn channel alloc =>
      match cm.channelIdOf channel with
      | none => cm
      | some channelId => (managerClose cm channelId alloc).1
  | .serviceRequestOn channel request env =>
      if channelLive cm.server channel then
        { cm with server := (processMSG cm.server channel request env).1 }
      else cm
  | .nextTokenOn channel => revolveChannel cm channel
  | .cleanup allocSession allocChannel =>
      cleanupChannels { cm with server := cleanupTimedOut cm.server allocSession } allocChannel
  | .processDelayed => runCallbacks cm.server.delayedCallbacks cm
  | .close connection => closeConnection cm connection
  | .detach connection => detachSecureChannel cm connection
  | .remove connection =>
      let cm := detachSecureChannel cm connection
      { cm with connectionAt := Function.update cm.connectionAt connection none }

end FactoryThing.Connections
