import FactoryThing.Transport.Framing
import FactoryThing.SecureChannel.Negotiation
import FactoryThing.Connections.Manager

/-!
# Binary messages

`UA_Server_processBinaryMessage` (`src/server/ua_server_binary.c:589-654`) for one connection. With
a channel the buffer is taken apart into chunks, without one its first message is looked at. The
rest of the server is a parameter (`Services`): what follows holds whatever the services do. A
channel that a connection refers to refers to the connection, so `channel->connection` is the
connection itself.
-/

namespace FactoryThing.Transport

open FactoryThing.SecureChannel
open FactoryThing.Connections (ConnectionState OpenSecureChannelRequest requestTypeIssue)

/-- `UA_Connection`, as far as messages that arrive on it change it. -/
structure ServedConnection where
  state : ConnectionState
  configs : ConnectionConfigs
  channel : Option Nat
  deriving DecidableEq

structure Served (S : Type) where
  connection : ServedConnection
  server : S
  deriving DecidableEq

/-- What `processOPN` decodes. -/
structure OpenMessage where
  sequenceNumber : UInt32
  requestId : UInt32
  request : OpenSecureChannelRequest
  deriving DecidableEq

/-- The parts of the server that `UA_Server_processBinaryMessage` calls. Where something is sent,
the answer is `false` if the connection is closed over it. -/
structure Services (S : Type) where
  /-- the receiving part of a channel -/
  channelAt : S → Nat → Channel
  setChannelAt : S → Nat → Channel → S
  /-- the acknowledge message -/
  acknowledge : S → ConnectionConfigs → S × Bool
  /-- the decoders of `processOPN`; `none` also if the request is none for a channel -/
  decodeOPN : List UInt8 → Option OpenMessage
  /-- `UA_SecureChannelManager_open`: the channel it attaches, if any, and the response -/
  openChannel : S → OpenMessage → S × Option Nat × Value
  /-- `UA_SecureChannelManager_renew` of the channel of the connection, if it has one -/
  renewChannel : S → Option Nat → OpenMessage → S × Value
  /-- the end of `processOPN` -/
  respondOPN : S → ConnectionConfigs → Nat → OpenMessage → Value → S × Bool
  processMSG : S → ServedConnection → Nat → UInt32 → List UInt8 → S × Bool
  /-- `Service_CloseSecureChannel` -/
  closeSecureChannel : S → Nat → S

variable {S : Type} (sv : Services S)

/-- `connection->close`. -/
def Served.close (s : Served S) : Served S := { s with connection.state := .closed }

def Served.afterSend (s : Served S) : S × Bool → Served S
  | (server, true) => { s with server }
  | (server, false) => Served.close { s with server }

/-- `UA_TcpHelloMessage_decodeBinary` at an offset. -/
def decodeHello (message : List UInt8) (offset : Nat) : Option HelloMessage := do
  let (protocolVersion, offset) ← readUInt32 message offset
  let (receiveBufferSize, offset) ← readUInt32 message offset
  let (sendBufferSize, offset) ← readUInt32 message offset
  let (maxMessageSize, offset) ← readUInt32 message offset
  let (maxChunkCount, offset) ← readUInt32 message offset
  let _ ← readString message offset
  some { protocolVersion, receiveBufferSize, sendBufferSize, maxMessageSize, maxChunkCount }

/-- `processHEL` (`ua_server_binary.c:221-268`). -/
def processHEL (s : Served S) (message : List UInt8) (offset : Nat) : Served S :=
  match decodeHello message offset with
  | none => s.close
  | some helloMessage =>
      let configs := negotiate s.connection.configs helloMessage
      Served.afterSend { s with connection := { s.connection with state := .established, configs } }
        (sv.acknowledge s.server configs)

/-- `processERR` (`ua_server_binary.c:535-544`): an error is only logged. -/
def processERR (s : Served S) (message : List UInt8) (offset : Nat) : Served S :=
  match (do
    let (_, offset) ← readUInt32 message offset
    readString message offset) with
  | none => s.close
  | some _ => s

/-- The tests at the beginning of `processOPN`. -/
def acceptsOPN (s : Served S) (channelId : UInt32) : Bool :=
  s.connection.state == .established &&
    match s.connection.channel with
    | none => channelId == 0
    | some channel => channelId == (sv.channelAt s.server channel).link.securityToken.channelId

/-- `Service_OpenSecureChannel` (`ua_services_securechannel.c:9-42`), with the response. -/
def serviceOpenSecureChannel (s : Served S) (opn : OpenMessage) : Served S × Value :=
  if opn.request.requestType = requestTypeIssue then
    match sv.openChannel s.server opn with
    | (server, none, response) => ({ s with server }, response)
    | (server, some channel, response) =>
        ({ connection := { s.connection with channel := channel }, server }, response)
  else
    let (server, response) := sv.renewChannel s.server s.connection.channel opn
    ({ s with server }, response)

/-- `processOPN` (`ua_server_binary.c:270-371`). -/
def processOPN (s : Served S) (channelId : UInt32) (message : List UInt8) : Served S :=
  match sv.decodeOPN message with
  | none => s.close
  | some opn =>
      if acceptsOPN sv s channelId then
        let (s, response) := serviceOpenSecureChannel sv s opn
        match s.connection.channel with
        | none => s.close
        | some channel =>
            let ch := sv.channelAt s.server channel
            let server := sv.setChannelAt s.server channel
              { ch with link.receiveSequenceNumber := opn.sequenceNumber }
            s.afterSend (sv.respondOPN server s.connection.configs channel opn response)
      else s.close

/-- `UA_Server_processSecureChannelMessage` (`ua_server_binary.c:549-587`). -/
def processSecureChannelMessage (channel : Nat) (s : Served S) : Callback → Served S
  | .error _ _ => s
  | .message messagetype requestId message =>
      if messagetype = messageTypeOpn then
        processOPN sv s (sv.channelAt s.server channel).link.securityToken.channelId message
      else if messagetype = messageTypeMsg then
        s.afterSend (sv.processMSG s.server s.connection channel requestId message)
      else if messagetype = messageTypeClo then
        { s with server := sv.closeSecureChannel s.server channel }
      else s

/-- The loop over chunks works on a channel of the server. -/
def application (channel : Nat) : Application (Served S) where
  channel := fun s => sv.channelAt s.server channel
  setChannel := fun s ch => { s with server := sv.setChannelAt s.server channel ch }
  callback := processSecureChannelMessage sv channel

/-- A buffer on a connection without a channel. For an OPN message of less than 12 bytes the length
of what follows the channel id wraps. -/
def processWithoutChannel (s : Served S) (message : List UInt8) : Except Fault (Served S) :=
  match (do
    let (messageTypeAndChunkType, offset) ← readUInt32 message 0
    let (_, offset) ← readUInt32 message offset
    some (messageTypeAndChunkType, offset)) with
  | none => .ok s.close
  | some (messageTypeAndChunkType, offset) =>
      let messageType := messageTypeAndChunkType &&& 0x00ffffff
      if messageType = messageTypeErr then .ok (processERR s message offset)
      else if messageType = messageTypeHel then .ok (processHEL sv s message offset)
      else if messageType = messageTypeOpn then
        match readUInt32 message offset with
        | none => .error Fault.outOfBounds
        | some (channelId, _) => .ok (processOPN sv s channelId (message.drop 12))
      else .ok s.close

/-- `UA_Server_processBinaryMessage` with at most `fuel` chunks in the buffer. -/
def processBinaryMessage (fuel : Nat) (s : Served S) (message : List UInt8) :
    Except Fault (Served S) :=
  match s.connection.channel with
  | none => processWithoutChannel sv s message
  | some channel =>
      match runChunks (application sv channel) message fuel s 0 with
      | (_, none) => .error Fault.diverges
      | (_, some .doubleFree) => .error Fault.doubleFree
      | (s, some (.status _)) => .ok s

/-- The messages of a connection, one after the other. -/
def deliver (fuel : Nat) (s : Served S) : List (List UInt8) → Except Fault (Served S)
  | [] => .ok s
  | message :: rest =>
      match processBinaryMessage sv fuel s message with
      | .error e => .error e
      | .ok s => deliver fuel s rest

end FactoryThing.Transport
